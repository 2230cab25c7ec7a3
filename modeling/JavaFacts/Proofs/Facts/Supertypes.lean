import JavaFacts.Facts.Hierarchy
import JavaFacts.Proofs.Facts.Soundness
import Mathlib.Data.List.Perm.Subperm
import Mathlib.Logic.Relation

/-!
The supertypes of a type are what a chain of inheritance and subtyping leads to. The search for them
ends with nothing left to look at, since each type it discovers is the end of an association of its
own.
-/

namespace JavaFacts.Store

open Relation (ReflTransGen)

/-- Whether an inheritance or subtyping association leads from one type to another. -/
def Upward (store : Store) (type supertype : EntityId) : Prop :=
  ∃ association ∈ store.associations.toList,
    association.kind.isHierarchy ∧ association.source = type ∧ association.target = supertype

variable {store : Store}

theorem association?_id (indexed : store.Indexed) {association : Association}
    (member : association ∈ store.associations.toList) :
    store.association? association.id = some association := by
  obtain ⟨index, found⟩ := List.mem_iff_getElem?.mp member
  rw [Array.getElem?_toList] at found
  rw [indexed.associationId found]
  exact found

/-- Associations are found again by their numbers. -/
theorem filterMap_association? (indexed : store.Indexed) (keep : Association → Bool) :
    ((store.associations.toList.filter keep).map (·.id)).filterMap store.association? =
      store.associations.toList.filter keep := by
  have same : ∀ association ∈ store.associations.toList.filter keep,
      (store.association? ∘ (·.id)) association = some association :=
    fun association member => association?_id indexed (List.mem_of_mem_filter member)
  rw [List.filterMap_map, List.filterMap_congr same]
  exact List.filterMap_some

theorem associationsFrom_eq (indexed : store.Indexed) (id : EntityId) :
    store.associationsFrom id = store.associations.toList.filter (·.source == id) := by
  rw [associationsFrom, indexed.outgoing, filterMap_association? indexed]

theorem mem_directSupertypes (indexed : store.Indexed) {type supertype : EntityId} :
    supertype ∈ store.directSupertypes type ↔ store.Upward type supertype := by
  simp only [directSupertypes, associationsFrom_eq indexed, List.mem_map, List.mem_append,
    List.mem_filter, Upward, beq_iff_eq, bne_iff_ne]
  constructor
  · rintro ⟨association, ⟨⟨⟨member, source⟩, upward⟩, -⟩ | ⟨⟨⟨member, source⟩, upward⟩, -⟩, target⟩
    · exact ⟨association, member, upward, source, target⟩
    · exact ⟨association, member, upward, source, target⟩
  · rintro ⟨association, member, upward, source, target⟩
    refine ⟨association, ?_, target⟩
    by_cases inherits : association.kind = .inheritance
    · exact .inl ⟨⟨⟨member, source⟩, upward⟩, inherits⟩
    · exact .inr ⟨⟨⟨member, source⟩, upward⟩, inherits⟩

theorem mem_unseen {found candidates : List EntityId} {id : EntityId} :
    id ∈ unseen found candidates ↔ id ∈ candidates ∧ id ∉ found := by
  induction candidates generalizing found with
  | nil => simp [unseen]
  | cons candidate candidates ih =>
      rw [unseen]
      by_cases known : candidate ∈ found
      · rw [if_pos (List.contains_iff_mem.mpr known), ih, List.mem_cons]
        refine ⟨fun ⟨member, fresh⟩ => ⟨.inr member, fresh⟩, fun ⟨member, fresh⟩ => ⟨?_, fresh⟩⟩
        exact member.resolve_left fun same => fresh (same ▸ known)
      · rw [if_neg (mt List.contains_iff_mem.mp known), List.mem_cons, List.mem_cons, ih,
          List.mem_cons]
        by_cases same : id = candidate
        · subst same
          simp [known]
        · simp [same]

theorem nodup_unseen (found candidates : List EntityId) : (unseen found candidates).Nodup := by
  induction candidates generalizing found with
  | nil => exact List.nodup_nil
  | cons candidate candidates ih =>
      rw [unseen]
      split
      · exact ih found
      · exact List.nodup_cons.mpr
          ⟨fun member => (mem_unseen.mp member).2 List.mem_cons_self, ih (candidate :: found)⟩

/-- What holds at every step of a search from a type. The types that wait are among those found, and
all others found were looked at: `steps` counts down their number. -/
structure Searching (store : Store) (type : EntityId) (steps : Nat) (waiting found : List EntityId) :
    Prop where
  first : ∃ discovered, found = type :: discovered
  distinct : found.Nodup
  waits : ∀ id ∈ waiting, id ∈ found
  reached : ∀ id ∈ found, ReflTransGen store.Upward type id
  discovered : ∀ id ∈ found, id = type ∨ ∃ association ∈ store.associations.toList,
    association.target = id
  looked : ∀ id ∈ found, id ∉ waiting → ∀ supertype, store.Upward id supertype → supertype ∈ found
  enough : store.associations.size + 1 + waiting.length ≤ steps + found.length

namespace Searching

variable {type : EntityId} {steps : Nat} {waiting found : List EntityId}

theorem start (type : EntityId) : Searching store type (store.associations.size + 1) [type] [type] where
  first := ⟨[], rfl⟩
  distinct := List.pairwise_singleton _ type
  waits := fun _ member => member
  reached := fun _ member => List.mem_singleton.mp member ▸ .refl
  discovered := fun _ member => .inl (List.mem_singleton.mp member)
  looked := fun _ member unlooked => absurd member unlooked
  enough := Nat.le_refl _

/-- No more types are found than there are associations, besides the first. -/
theorem length_found_le (searching : Searching store type steps waiting found) :
    found.length ≤ store.associations.size + 1 := by
  have within : found ⊆ type :: store.associations.toList.map (·.target) := by
    intro id member
    rcases searching.discovered id member with rfl | ⟨association, known, rfl⟩
    · exact List.mem_cons_self
    · exact List.mem_cons_of_mem _ (List.mem_map_of_mem known)
  have bounded := (searching.distinct.subperm within).length_le
  rwa [List.length_cons, List.length_map, Array.length_toList] at bounded

theorem step (indexed : store.Indexed) {next : EntityId}
    (searching : Searching store type (steps + 1) (next :: waiting) found) :
    let discovered := unseen found (store.directSupertypes next)
    Searching store type steps (waiting ++ discovered) (found ++ discovered) := by
  intro discovered
  have upward {id : EntityId} (member : id ∈ discovered) : store.Upward next id :=
    (mem_directSupertypes indexed).mp (mem_unseen.mp member).1
  constructor
  case first =>
    obtain ⟨rest, same⟩ := searching.first
    exact ⟨rest ++ discovered, by rw [same, List.cons_append]⟩
  case distinct =>
    refine List.nodup_append.mpr ⟨searching.distinct, nodup_unseen _ _, fun id known other new => ?_⟩
    rintro rfl
    exact (mem_unseen.mp new).2 known
  case waits =>
    intro id member
    rcases List.mem_append.mp member with waits | new
    · exact List.mem_append_left _ (searching.waits id (List.mem_cons_of_mem _ waits))
    · exact List.mem_append_right _ new
  case reached =>
    intro id member
    rcases List.mem_append.mp member with known | new
    · exact searching.reached id known
    · exact (searching.reached next (searching.waits next List.mem_cons_self)).tail (upward new)
  case discovered =>
    intro id member
    rcases List.mem_append.mp member with known | new
    · exact searching.discovered id known
    · obtain ⟨association, known, _, _, target⟩ := upward new
      exact .inr ⟨association, known, target⟩
  case looked =>
    intro id member unlooked supertype above
    have notWaiting : id ∉ waiting := fun waits => unlooked (List.mem_append_left _ waits)
    have old : id ∈ found :=
      (List.mem_append.mp member).resolve_right fun new => unlooked (List.mem_append_right _ new)
    by_cases same : id = next
    · -- this is the type that the step looks at, so its supertypes are found by now
      subst same
      by_cases known : supertype ∈ found
      · exact List.mem_append_left _ known
      · exact List.mem_append_right _
          (mem_unseen.mpr ⟨(mem_directSupertypes indexed).mpr above, known⟩)
    · have elsewhere : id ∉ next :: waiting := fun waits =>
        (List.mem_cons.mp waits).elim same notWaiting
      exact List.mem_append_left _ (searching.looked id old elsewhere supertype above)
  case enough =>
    have before := searching.enough
    rw [List.length_cons] at before
    rw [List.length_append, List.length_append]
    omega

/-- All steps are used up only when all types were found, and then none of them waits. -/
theorem eq_nil (searching : Searching store type 0 waiting found) : waiting = [] := by
  have enough := searching.enough
  have bounded := searching.length_found_le
  exact List.eq_nil_of_length_eq_zero (by omega)

/-- Once nothing waits, everything that can be reached was found. -/
theorem mem_of_reached (searching : Searching store type steps [] found) {id : EntityId}
    (reached : ReflTransGen store.Upward type id) : id ∈ found := by
  induction reached with
  | refl =>
      obtain ⟨rest, rfl⟩ := searching.first
      exact List.mem_cons_self
  | tail _ above ih => exact searching.looked _ ih List.not_mem_nil _ above

end Searching

theorem searching_search (indexed : store.Indexed) {type : EntityId} {steps : Nat}
    {waiting found : List EntityId} (searching : Searching store type steps waiting found) :
    ∃ left, Searching store type left [] (store.search steps waiting found) := by
  induction steps generalizing waiting found with
  | zero =>
      obtain rfl := searching.eq_nil
      exact ⟨0, searching⟩
  | succ steps ih =>
      cases waiting with
      | nil => exact ⟨steps + 1, searching⟩
      | cons next waiting => exact ih (searching.step indexed)

theorem mem_supertypes (indexed : store.Indexed) {type id : EntityId} :
    id ∈ store.supertypes type ↔ id ≠ type ∧ ReflTransGen store.Upward type id := by
  obtain ⟨left, done⟩ := searching_search indexed (Searching.start type)
  obtain ⟨discovered, found⟩ := done.first
  have distinct := done.distinct
  rw [found, List.nodup_cons] at distinct
  rw [supertypes, found, List.drop_one, List.tail_cons]
  constructor
  · intro member
    refine ⟨fun same => distinct.1 (same ▸ member), done.reached id ?_⟩
    rw [found]
    exact List.mem_cons_of_mem _ member
  · rintro ⟨other, reached⟩
    have member := done.mem_of_reached reached
    rw [found] at member
    exact (List.mem_cons.mp member).resolve_left other

theorem holds_of_reached (sound : store.Sound) {type supertype : EntityId}
    (typed : store.Holds .type type) (reached : ReflTransGen store.Upward type supertype) :
    store.Holds .type supertype := by
  induction reached with
  | refl => exact typed
  | tail _ above _ =>
      obtain ⟨association, member, upward, _, rfl⟩ := above
      have target := (sound.association (association?_id sound.indexed member)).target
      cases kind : association.kind with
      | inheritance | subtyping => rw [kind] at target; exact target
      | _ => rw [kind] at upward; cases upward

/-- Names tell types apart, so the name of a type is among those of the supertypes just if the type
is one of them. -/
theorem mem_withSupertypes (sound : store.Sound) {type : EntityId} {name typeName : String}
    (named : store.identity? type = some (.type, name)) :
    name ∈ store.withSupertypes typeName ↔
      ∃ start, store.identity? start = some (.type, typeName) ∧
        ReflTransGen store.Upward start type := by
  rw [withSupertypes]
  cases found : store.find? .type typeName with
  | none =>
      have missing (start : EntityId) : store.identity? start ≠ some (.type, typeName) := by
        rw [Ne, ← sound.find, found]
        exact (nomatch ·)
      simp only [List.mem_singleton]
      constructor
      · rintro rfl
        exact absurd named (missing type)
      · rintro ⟨start, known, _⟩
        exact absurd known (missing start)
  | some start =>
      have known := sound.find.mp found
      simp only [List.mem_cons, List.mem_map]
      constructor
      · rintro (rfl | ⟨supertype, member, same⟩)
        · exact ⟨start, known, sound.unique known named ▸ .refl⟩
        · have reached := ((mem_supertypes sound.indexed).mp member).2
          obtain ⟨other, identity⟩ := holds_of_reached sound ⟨typeName, known⟩ reached
          obtain rfl : other = name := (nameOf_eq identity).symm.trans same
          exact ⟨start, known, sound.unique identity named ▸ reached⟩
      · rintro ⟨other, identity, reached⟩
        obtain rfl := sound.unique identity known
        by_cases same : type = other
        · subst same
          rw [named] at known
          exact .inl (Prod.mk.inj (Option.some.inj known)).2
        · exact .inr ⟨type, (mem_supertypes sound.indexed).mpr ⟨same, reached⟩, nameOf_eq named⟩

end JavaFacts.Store
