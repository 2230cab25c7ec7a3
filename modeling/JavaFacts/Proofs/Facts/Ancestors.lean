import JavaFacts.Proofs.Facts.Memberships
import Mathlib.Order.WellFoundedSet

/-!
Owners of owners. A request for an owner looks at the two entities that it names, and if both exist it
is refused only where they are the same. So an entity can be given to one that it owns itself, and then
the owners of both lead around in a cycle. Only requests of that kind close one: as long as nothing is
given to what it owns, at whatever distance, the owners of every entity come to an end.
-/

namespace JavaFacts.Store

open Relation (ReflTransGen TransGen)

variable {store before after : Store} {operation : Operation} {operations : List Operation}
  {child owner above below : EntityId}

/-- An entity owns another one, directly or through others. -/
def Owns (store : Store) : EntityId → EntityId → Prop :=
  TransGen fun owner child => store.ownerOf? child = some owner

/-- Nothing owns itself, at whatever distance. -/
def Acyclic (store : Store) : Prop :=
  ∀ id, ¬store.Owns id id

theorem Acyclic.of_same_owners (acyclic : before.Acyclic)
    (same : ∀ id, after.ownerOf? id = before.ownerOf? id) : after.Acyclic := by
  have owns : after.Owns = before.Owns := by
    simp only [Owns, same]
  intro id
  rw [owns]
  exact acyclic id

theorem Acyclic.empty : (∅ : Store).Acyclic := by
  intro id owns
  obtain ⟨owner, -, owned⟩ := TransGen.tail'_iff.mp owns
  rw [ownerOf?, entity?_empty] at owned
  cases owned

theorem Housed.isSome_of_owns (housed : store.Housed) (owns : store.Owns above below) :
    (store.entity? above).isSome ∧ (store.entity? below).isSome := by
  obtain ⟨child, owned, -⟩ := TransGen.head'_iff.mp owns
  obtain ⟨owner, -, owned'⟩ := TransGen.tail'_iff.mp owns
  exact ⟨isSome_of_mem_membersOf (housed.mem_membersOf_iff.mpr owned), isSome_of_ownerOf? owned'⟩

/-- What owns an entity behind a move has done so before, or it is above the new owner and the entity
is below the child. -/
theorem owns_of_owns_moved (known : (store.entity? child).isSome)
    (owns : (store.moved child owner).Owns above below) :
    store.Owns above below ∨
      ReflTransGen (fun owner child => store.ownerOf? child = some owner) above owner ∧
        ReflTransGen (fun owner child => store.ownerOf? child = some owner) child below := by
  induction owns with
  | single owned =>
      rw [ownerOf?_moved known] at owned
      split at owned
      · rename_i here
        obtain rfl := Option.some.inj owned
        exact .inr ⟨.refl, here ▸ .refl⟩
      · exact .inl (.single owned)
  | @tail between last _ owned ih =>
      rw [ownerOf?_moved known] at owned
      split at owned
      · rename_i here
        obtain rfl := Option.some.inj owned
        exact .inr ⟨ih.elim (·.to_reflTransGen) (·.1), here ▸ .refl⟩
      · exact ih.imp (·.tail owned) fun through => ⟨through.1, through.2.tail owned⟩

/-- The owners of the new owner up to the child are the ones that they were, unless they lead around
in a cycle already. -/
theorem Acyclic.owns_moved (acyclic : store.Acyclic) (known : (store.entity? child).isSome)
    (owns : store.Owns child below) : (store.moved child owner).Owns child below := by
  have kept {above last : EntityId} (apart : last ≠ child) (owned : store.ownerOf? last = some above) :
      (store.moved child owner).ownerOf? last = some above := by
    rw [ownerOf?_moved known, if_neg apart, owned]
  have apart {last : EntityId} (owns : store.Owns child last) : last ≠ child := by
    rintro rfl
    exact acyclic last owns
  induction owns with
  | single owned => exact .single (kept (apart (.single owned)) owned)
  | tail owns owned ih => exact ih.tail (kept (apart (owns.tail owned)) owned)

/-- A move closes a cycle if the child owns the new owner already, and else there is none. -/
theorem Acyclic.moved_iff (acyclic : store.Acyclic) (apart : child ≠ owner)
    (known : (store.entity? child).isSome) :
    (store.moved child owner).Acyclic ↔ ¬store.Owns child owner := by
  refine ⟨fun after owns => ?_, fun free id around => ?_⟩
  · have owned : (store.moved child owner).ownerOf? child = some owner := by
      rw [ownerOf?_moved known, if_pos rfl]
    exact after child ((acyclic.owns_moved known owns).tail owned)
  · obtain around | ⟨above, below⟩ := owns_of_owns_moved known around
    · exact acyclic id around
    · -- the cycle runs through the new edge, so the rest of it leads from the child to the owner
      obtain same | owns := Relation.reflTransGen_iff_eq_or_transGen.mp (below.trans above)
      · exact apart same.symm
      · exact free owns

/-- The operation does not give an entity to one that it owns. -/
def Operation.Careful (store : Store) (operation : Operation) : Prop :=
  ∀ child owner, operation = .setOwner child owner → ¬store.Owns child owner

theorem Step.acyclic (step : before.Step operation after) (careful : operation.Careful before)
    (acyclic : before.Acyclic) : after.Acyclic := by
  cases step with
  | unchanged => exact acyclic
  | interned => exact acyclic.of_same_owners fun _ => ownerOf?_added
  | moved apart _ known => exact (acyclic.moved_iff apart known).mpr (careful _ _ rfl)
  | revised _ revision => exact acyclic.of_same_owners fun _ => ownerOf?_change revision.owner
  | appended => exact acyclic.of_same_owners fun _ => rfl
  | cleared => exact .empty

/-- A request for an owner is not refused because it closes a cycle. -/
theorem Housed.setOwner_closes_cycle (housed : store.Housed) (acyclic : store.Acyclic)
    (owns : store.Owns child owner) :
    ∃ after, (Edit.setOwner child owner).perform store = (.ok (), after) ∧
      after.ownerOf? child = some owner ∧ after.Owns child child := by
  have apart : child ≠ owner := by
    rintro rfl
    exact acyclic child owns
  have elsewhere : store.ownerOf? child ≠ some owner := fun owned =>
    acyclic child (owns.tail owned)
  obtain ⟨known, around⟩ := housed.isSome_of_owns owns
  have accepted : (Edit.setOwner child owner).perform store = (.ok (), store.moved child owner) := by
    obtain ⟨entity, found⟩ := Option.isSome_iff_exists.mp known
    obtain ⟨_, stored⟩ := Option.isSome_iff_exists.mp around
    have performed := Edit.perform_setOwner apart stored found fun former owned =>
      isSome_of_mem_membersOf (housed.mem_membersOf_iff.mpr
        (by rw [ownerOf?, found, Option.bind_some, owned]))
    rwa [if_neg elsewhere] at performed
  have owned : (store.moved child owner).ownerOf? child = some owner := by
    rw [ownerOf?_moved known, if_pos rfl]
  exact ⟨_, accepted, owned, (acyclic.owns_moved known owns).tail owned⟩

/-- An operation keeps the owners free of cycles if and only if it is careful. -/
theorem Housed.acyclic_after_iff (housed : store.Housed) (acyclic : store.Acyclic)
    (operation : Operation) : (store.after operation).Acyclic ↔ operation.Careful store := by
  refine ⟨fun after child owner same owns => ?_, fun careful =>
    (step_after store operation).acyclic careful acyclic⟩
  subst same
  obtain ⟨later, accepted, -, around⟩ := housed.setOwner_closes_cycle acyclic owns
  have reached : store.after (.setOwner child owner) = later := congrArg Prod.snd accepted
  rw [reached] at after
  exact after child around

/-- Each of the operations is careful where it comes. -/
def CarefulFrom : Store → List Operation → Prop
  | _, [] => True
  | store, operation :: operations =>
      operation.Careful store ∧ CarefulFrom (store.after operation) operations

theorem Housed.acyclic_throughout_iff (housed : store.Housed) (acyclic : store.Acyclic) :
    (∀ first, first <+: operations → (store.afterAll first).Acyclic) ↔
      store.CarefulFrom operations := by
  induction operations generalizing store with
  | nil =>
      refine ⟨fun _ => trivial, fun _ first short => ?_⟩
      rw [List.prefix_nil.mp short]
      exact acyclic
  | cons operation operations ih =>
      have next := housed.acyclic_after_iff acyclic operation
      have later := ih ((step_after store operation).housed housed)
      refine ⟨fun throughout => ?_, fun ⟨careful, rest⟩ first short => ?_⟩
      · have still := throughout [operation] (List.prefix_append [operation] operations)
        refine ⟨next.mp still, (later still).mp fun first short => ?_⟩
        exact throughout (operation :: first) ((List.prefix_cons_inj operation).mpr short)
      · cases first with
        | nil => exact acyclic
        | cons head first =>
            obtain ⟨rfl, shorter⟩ := List.cons_prefix_cons.mp short
            exact (later (next.mpr careful)).mpr rest first shorter

/-- The owners of entities come to an end if they never lead around. -/
theorem Housed.acyclic_iff_wellFounded (housed : store.Housed) :
    store.Acyclic ↔ WellFounded fun owner child => store.ownerOf? child = some owner := by
  refine ⟨fun acyclic => ?_, fun ends id around => ends.transGen.irrefl.irrefl id around⟩
  have order : IsStrictOrder EntityId store.Owns :=
    { irrefl := acyclic
      trans := fun _ _ _ => TransGen.trans }
  have finite : {id : EntityId | (store.entity? id).isSome}.Finite := by
    refine (Set.finite_lt_nat store.entities.size).subset fun id known => ?_
    obtain ⟨_, found⟩ := Option.isSome_iff_exists.mp known
    exact (Array.getElem?_eq_some_iff.mp found).1
  -- only entities are owned or own, and there are finitely many of them
  have ends := Set.wellFoundedOn_iff.mp (finite.wellFoundedOn (r := store.Owns))
  refine Subrelation.wf (fun owned => ?_) ends
  exact ⟨.single owned, housed.isSome_of_owns (.single owned)⟩

/-- Behind any operations no entity is its own owner. At any distance nothing owns itself, all through
a run of operations, if and only if none of them gives an entity to one that it owns; then the owners
of every entity come to an end. A request that does is accepted like any other. -/
theorem operations_and_cycles_of_owners (operations : List Operation) :
    let store := (∅ : Store).afterAll operations
    (∀ id, store.ownerOf? id ≠ some id) ∧
      ((∀ first, first <+: operations → ((∅ : Store).afterAll first).Acyclic) ↔
        (∅ : Store).CarefulFrom operations) ∧
      (store.Acyclic ↔ WellFounded fun owner child => store.ownerOf? child = some owner) ∧
      ∀ child owner, store.Acyclic → store.Owns child owner →
        ∃ after, (Edit.setOwner child owner).perform store = (.ok (), after) ∧
          after.ownerOf? child = some owner ∧ after.Owns child child := by
  intro store
  have housed : store.Housed := Housed.empty.afterAll operations
  exact ⟨housed.apart, Housed.empty.acyclic_throughout_iff .empty, housed.acyclic_iff_wellFounded,
    fun _ _ acyclic owns => housed.setOwner_closes_cycle acyclic owns⟩

/-- A type that is given to the one that it owns. -/
theorem operations_and_cycles_of_owners_of_two_types :
    let store := (∅ : Store).afterAll [.intern .type "A", .intern .type "B", .setOwner 0 1]
    ∃ after, (Edit.setOwner 1 0).perform store = (.ok (), after) ∧ after.ownerOf? 1 = some 0 ∧
      after.Owns 1 1 := by
  intro store
  let two := ((∅ : Store).added .type "A").added .type "B"
  have interned : (∅ : Store).afterAll [.intern .type "A", .intern .type "B"] = two := by
    simp [two, afterAll, after_intern, intern_of_missing, find?_empty, find?_added]
  have placed : store = two.moved 0 1 := by
    have accepted : (Edit.setOwner 0 1).perform two = (.ok (), two.moved 0 1) :=
      Edit.perform_setOwner (by decide) rfl rfl fun _ owned =>
        absurd owned.symm (Option.some_ne_none _)
    calc store
      _ = two.after (.setOwner 0 1) := congrArg (Store.after · (.setOwner 0 1)) interned
      _ = two.moved 0 1 := congrArg Prod.snd accepted
  have plain : two.Acyclic :=
    Acyclic.empty.of_same_owners fun _ => ownerOf?_added.trans ownerOf?_added
  have free : ¬two.Owns 0 1 := by
    intro owns
    obtain ⟨owner, -, owned⟩ := TransGen.tail'_iff.mp owns
    rw [ownerOf?_added, ownerOf?_added, ownerOf?, entity?_empty] at owned
    cases owned
  have acyclic : store.Acyclic := placed ▸ (plain.moved_iff (by decide) rfl).mpr free
  have owned : store.ownerOf? 0 = some 1 := by
    rw [placed, ownerOf?_moved rfl, if_pos rfl]
  obtain ⟨-, -, -, closes⟩ :=
    operations_and_cycles_of_owners [.intern .type "A", .intern .type "B", .setOwner 0 1]
  exact closes 1 0 acyclic (.single owned)

end JavaFacts.Store
