import JavaFacts.Proofs.Facts.Adjacency
import Mathlib.Order.Lattice.Nat

/-!
The order of the supertypes. The search looks at types in the order in which it finds them, so what
waits is one layer of types equally far away and then some of the next layer; nothing nearer is left
to find. Distances count associations along the shortest chain.
-/

namespace JavaFacts.Store

open Relation (ReflTransGen TransGen)

variable {store : Store} {type id next between : EntityId} {length steps : Nat}
  {waiting found : List EntityId}

/-- Whether a chain of so many inheritance and subtyping associations leads from a type to another. -/
def Chain (store : Store) (type : EntityId) : Nat → EntityId → Prop
  | 0, id => id = type
  | length + 1, id => ∃ between, store.Chain type length between ∧ store.Upward between id

theorem Chain.reached (chain : store.Chain type length id) : ReflTransGen store.Upward type id := by
  induction length generalizing id with
  | zero =>
      obtain rfl := chain
      exact .refl
  | succ length ih =>
      obtain ⟨between, shorter, above⟩ := chain
      exact (ih shorter).tail above

theorem exists_chain (reached : ReflTransGen store.Upward type id) :
    ∃ length, store.Chain type length id := by
  induction reached with
  | refl => exact ⟨0, rfl⟩
  | tail _ above ih =>
      obtain ⟨length, chain⟩ := ih
      exact ⟨length + 1, _, chain, above⟩

/-- The length of the shortest chain from one type to another. -/
noncomputable def distance (store : Store) (type id : EntityId) : Nat :=
  sInf {length | store.Chain type length id}

theorem chain_distance (reached : ReflTransGen store.Upward type id) :
    store.Chain type (store.distance type id) id :=
  Nat.sInf_mem (exists_chain reached)

theorem Chain.distance_le (chain : store.Chain type length id) : store.distance type id ≤ length :=
  Nat.sInf_le chain

theorem distance_self (store : Store) (type : EntityId) : store.distance type type = 0 := by
  have chain : store.Chain type 0 type := rfl
  exact Nat.le_zero.mp chain.distance_le

theorem distance_le_succ (reached : ReflTransGen store.Upward type between)
    (above : store.Upward between id) : store.distance type id ≤ store.distance type between + 1 := by
  have chain : store.Chain type (store.distance type between + 1) id :=
    ⟨between, chain_distance reached, above⟩
  exact chain.distance_le

/-- The last step of a shortest chain starts one nearer. -/
theorem exists_nearer (reached : ReflTransGen store.Upward type id)
    (far : store.distance type id = length + 1) :
    ∃ between, ReflTransGen store.Upward type between ∧ store.Upward between id ∧
      store.distance type between = length := by
  have chain := chain_distance reached
  rw [far] at chain
  obtain ⟨between, shorter, above⟩ := chain
  have nearer := shorter.distance_le
  have farther := distance_le_succ shorter.reached above
  exact ⟨between, shorter.reached, above, by omega⟩

/-- What holds of the types that wait in a search, besides: they are the last ones found, those found
are in the order of their distances, and the first one that waits is as far as the nearest that could
be missing. -/
structure Layered (store : Store) (type : EntityId) (steps : Nat) (waiting found : List EntityId) :
    Prop extends Searching store type steps waiting found where
  last : waiting <:+ found
  ascending : found.Pairwise fun near far => store.distance type near ≤ store.distance type far
  within : ∀ next ∈ waiting.head?, ∀ id ∈ found,
    store.distance type id ≤ store.distance type next + 1
  complete : ∀ next ∈ waiting.head?, ∀ id, ReflTransGen store.Upward type id →
    store.distance type id ≤ store.distance type next → id ∈ found

namespace Layered

theorem start (type : EntityId) :
    Layered store type (store.associations.size + 1) [type] [type] where
  toSearching := .start type
  last := List.suffix_refl _
  ascending := List.pairwise_singleton _ type
  within next head id member := by
    obtain rfl : type = next := Option.some.inj head
    obtain rfl := List.mem_singleton.mp member
    exact Nat.le_succ _
  complete next head id reached near := by
    obtain rfl : type = next := Option.some.inj head
    rw [distance_self] at near
    have chain := chain_distance reached
    rw [Nat.le_zero.mp near] at chain
    exact List.mem_singleton.mpr chain

/-- The first type that waits is the nearest of those that wait. -/
theorem head_le (last : waiting <:+ found)
    (ascending : found.Pairwise fun near far => store.distance type near ≤ store.distance type far)
    (first : next ∈ waiting.head?) (member : id ∈ waiting) :
    store.distance type next ≤ store.distance type id := by
  cases waiting with
  | nil => cases member
  | cons head waiting =>
      obtain rfl : head = next := Option.some.inj first
      have ordered := ascending.sublist last.sublist
      rcases List.mem_cons.mp member with rfl | later
      · exact Nat.le_refl _
      · exact (List.pairwise_cons.mp ordered).1 id later

/-- What a step discovers is one farther than the type that it looks at. -/
theorem distance_unseen (indexed : store.Indexed)
    (layered : Layered store type steps (next :: waiting) found)
    (member : id ∈ unseen found (store.directSupertypes next)) :
    store.distance type id = store.distance type next + 1 := by
  obtain ⟨direct, fresh⟩ := mem_unseen.mp member
  have above : store.Upward next id := (mem_directSupertypes indexed).mp direct
  have reached := layered.reached next (layered.waits next List.mem_cons_self)
  have upper := distance_le_succ reached above
  have lower : ¬store.distance type id ≤ store.distance type next := fun near =>
    fresh (layered.complete next rfl id (reached.tail above) near)
  omega

theorem step (indexed : store.Indexed)
    (layered : Layered store type (steps + 1) (next :: waiting) found) :
    let discovered := unseen found (store.directSupertypes next)
    Layered store type steps (waiting ++ discovered) (found ++ discovered) := by
  intro discovered
  have searching := layered.toSearching.step indexed
  have far {id : EntityId} (new : id ∈ discovered) :
      store.distance type id = store.distance type next + 1 := layered.distance_unseen indexed new
  have within {id : EntityId} (member : id ∈ found ++ discovered) :
      store.distance type id ≤ store.distance type next + 1 := by
    rcases List.mem_append.mp member with known | new
    · exact layered.within next rfl id known
    · exact (far new).le
  have later {id : EntityId} (waits : id ∈ waiting ++ discovered) :
      store.distance type next ≤ store.distance type id := by
    rcases List.mem_append.mp waits with waits | new
    · exact head_le layered.last layered.ascending rfl (List.mem_cons_of_mem _ waits)
    · exact far new ▸ Nat.le_succ _
  have last : waiting ++ discovered <:+ found ++ discovered := by
    obtain ⟨looked, rfl⟩ := layered.last
    exact ⟨looked ++ [next], by simp⟩
  have ascending : (found ++ discovered).Pairwise fun near far =>
      store.distance type near ≤ store.distance type far := by
    apply List.pairwise_append.mpr
    refine ⟨layered.ascending, List.pairwise_of_forall_mem_list fun left new right alsoNew => ?_,
      fun left known right new => ?_⟩
    · rw [far new, far alsoNew]
    · rw [far new]
      exact layered.within next rfl left known
  refine ⟨searching, last, ascending, fun head first id member => ?_,
    fun head first id reached near => ?_⟩
  · have ahead := later (List.mem_of_mem_head? first)
    exact (within member).trans (Nat.succ_le_succ ahead)
  · by_cases close : store.distance type id ≤ store.distance type next
    · exact List.mem_append_left _ (layered.complete next rfl id reached close)
    · -- the layer of `next` has been looked at, so what stands above it is found by now
      have bounded := within (searching.waits head (List.mem_of_mem_head? first))
      have one : store.distance type id = store.distance type next + 1 := by omega
      obtain ⟨between, reachedBetween, above, same⟩ := exists_nearer reached one
      have known := layered.complete next rfl between reachedBetween same.le
      refine searching.looked between (List.mem_append_left _ known) (fun waits => ?_) id above
      have ahead := head_le last ascending first waits
      omega

end Layered

/-- The search with no bound on its steps, which goes on until no type waits. -/
inductive Searches (store : Store) : List EntityId → List EntityId → List EntityId → Prop where
  | done (found : List EntityId) : Searches store [] found found
  | look {next : EntityId} {waiting found result : List EntityId} :
      Searches store (waiting ++ unseen found (store.directSupertypes next))
        (found ++ unseen found (store.directSupertypes next)) result →
      Searches store (next :: waiting) found result

/-- There are steps enough: the bounded search ends as the unbounded one does. -/
theorem searches_search (indexed : store.Indexed)
    (searching : Searching store type steps waiting found) :
    store.Searches waiting found (store.search steps waiting found) := by
  induction steps generalizing waiting found with
  | zero =>
      obtain rfl := searching.eq_nil
      exact .done found
  | succ steps ih =>
      cases waiting with
      | nil => exact .done found
      | cons next waiting => exact .look (ih (searching.step indexed))

theorem ascending_search (indexed : store.Indexed)
    (layered : Layered store type steps waiting found) :
    (store.search steps waiting found).Pairwise fun near far =>
      store.distance type near ≤ store.distance type far := by
  induction steps generalizing waiting found with
  | zero => exact layered.ascending
  | succ steps ih =>
      cases waiting with
      | nil => exact layered.ascending
      | cons next waiting => exact ih (layered.step indexed)

theorem cons_supertypes (indexed : store.Indexed) (type : EntityId) :
    type :: store.supertypes type =
      store.search (store.associations.size + 1) [type] [type] := by
  obtain ⟨_, done⟩ := searching_search indexed (Searching.start type)
  obtain ⟨discovered, found⟩ := done.first
  rw [supertypes, found, List.drop_one, List.tail_cons]

/-- Other than the type itself, being reached at all and over at least one association are the same. -/
theorem reached_iff_transGen (other : id ≠ type) :
    ReflTransGen store.Upward type id ↔ TransGen store.Upward type id := by
  rw [Relation.reflTransGen_iff_eq_or_transGen, or_iff_right other]

/-- In a store behind any operations, whatever hierarchy they drew, with doubled edges or cycles, the
search for the supertypes of a type comes to an end. It gives each type other than this one that a chain
of one or more associations leads to, no type twice and a type never before a nearer one. The names
that stand for a type name are this name itself and, if a type bears it, the names of its supertypes. -/
theorem operations_search_supertypes (operations : List Operation) :
    let store := (∅ : Store).afterAll operations
    (∀ type, store.Searches [type] [type] (type :: store.supertypes type) ∧
      (store.supertypes type).Nodup ∧
      (∀ id, id ∈ store.supertypes type ↔ id ≠ type ∧ TransGen store.Upward type id) ∧
      (store.supertypes type).Pairwise fun near far =>
        store.distance type near ≤ store.distance type far) ∧
      ∀ typeName name, name ∈ store.withSupertypes typeName ↔
        name = typeName ∨ ∃ type, store.identity? type = some (.type, typeName) ∧
          ∃ supertype ∈ store.supertypes type, store.nameOf supertype = name := by
  intro store
  have indexed : store.Indexed := (Adjacent.empty.afterAll operations).toIndexed
  have identified : store.Identified := Identified.empty.afterAll operations
  refine ⟨fun type => ⟨?ends, ?distinct, fun id => ?exact, ?ordered⟩, fun typeName name => ?names⟩
  case ends =>
    rw [cons_supertypes indexed]
    exact searches_search indexed (.start type)
  case distinct =>
    obtain ⟨_, done⟩ := searching_search indexed (Searching.start type)
    have distinct := done.distinct
    rw [← cons_supertypes indexed] at distinct
    exact distinct.of_cons
  case exact =>
    rw [mem_supertypes indexed]
    exact and_congr_right fun other => reached_iff_transGen other
  case ordered =>
    have ordered := ascending_search indexed (.start type)
    rw [← cons_supertypes indexed] at ordered
    exact ordered.of_cons
  case names =>
    rw [withSupertypes]
    cases found : store.find? .type typeName with
    | none =>
        have missing (type : EntityId) : store.identity? type ≠ some (.type, typeName) := by
          rw [Ne, ← identified.find, found, eq_comm]
          exact Option.some_ne_none type
        simp [missing]
    | some start =>
        have known := identified.find.mp found
        have only (type : EntityId) :
            store.identity? type = some (.type, typeName) ↔ type = start := by
          rw [← identified.find, found, Option.some.injEq, eq_comm]
        simp [only]

end JavaFacts.Store
