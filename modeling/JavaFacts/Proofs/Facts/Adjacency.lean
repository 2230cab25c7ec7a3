import JavaFacts.Proofs.Facts.Identities
import JavaFacts.Proofs.Facts.Supertypes
import Mathlib.Data.List.Basic

/-!
The associations at an entity. Two indexes lead from an entity to the associations that leave it and
to those that arrive at it; whatever operations a store went through, they miss none of them and list
none twice.
-/

namespace JavaFacts.Store

variable {store before after : Store} {id : EntityId} {operation : Operation}

/-- Both indexes are right, and both ends of every association exist. -/
structure Adjacent (store : Store) : Prop extends store.Indexed where
  incoming : ∀ id, (store.incoming.getD id #[]).toList =
    (store.associations.toList.filter (·.target == id)).map (·.id)
  ends : ∀ association ∈ store.associations,
    (store.entity? association.source).isSome ∧ (store.entity? association.target).isSome

/-- The associations of a store bear the numbers of their places. -/
theorem Indexed.map_id (indexed : store.Indexed) :
    store.associations.toList.map (·.id) = List.range store.associations.size := by
  refine List.ext_getElem (by simp) fun number bound _ => ?_
  rw [List.getElem_map, List.getElem_range]
  rw [List.length_map] at bound
  exact indexed.associationId ((Array.getElem?_toList ..).symm.trans (List.getElem?_eq_getElem bound))

theorem Adjacent.associationsTo_eq (adjacent : store.Adjacent) (id : EntityId) :
    store.associationsTo id = store.associations.toList.filter (·.target == id) := by
  rw [associationsTo, adjacent.incoming, filterMap_association? adjacent.toIndexed]

/-- What leaves an entity and what arrives at it from elsewhere is, by numbers, what touches it. -/
theorem Adjacent.associationsTouching_eq (adjacent : store.Adjacent) (id : EntityId) :
    store.associationsTouching id =
      store.associations.toList.filter fun association =>
        association.source == id || association.target == id := by
  let touching := store.associations.toList.filter fun association =>
    association.source == id || association.target == id
  have leaving : touching.filter (·.source == id) = store.associationsFrom id := by
    rw [associationsFrom_eq adjacent.toIndexed, List.filter_filter]
    refine List.filter_congr fun association _ => ?_
    cases association.source == id <;> rfl
  have arriving : touching.filter (!·.source == id) =
      (store.associationsTo id).filter (·.source != id) := by
    rw [adjacent.associationsTo_eq, List.filter_filter, List.filter_filter]
    refine List.filter_congr fun association _ => ?_
    cases here : association.source == id <;> simp [bne, here]
  have permuted : (store.associationsFrom id ++
      (store.associationsTo id).filter (·.source != id)).Perm touching := by
    rw [← leaving, ← arriving]
    exact List.filter_append_perm _ touching
  have ascending : touching.Pairwise (·.id < ·.id) := by
    refine List.Pairwise.filter _ (List.pairwise_map.mp ?_)
    rw [adjacent.map_id]
    exact List.pairwise_lt_range
  have sorted : (store.associationsTouching id).Pairwise fun left right => decide (left.id ≤ right.id) :=
    List.pairwise_mergeSort (by simp only [decide_eq_true_eq]; exact fun _ _ _ => Nat.le_trans)
      (by simp only [Bool.or_eq_true, decide_eq_true_eq]; exact fun _ _ => Nat.le_total ..) _
  have same := (List.mergeSort_perm (store.associationsFrom id ++
    (store.associationsTo id).filter (·.source != id)) fun left right => left.id ≤ right.id).trans permuted
  -- numbers tell associations apart, so there is one order of them by numbers
  refine List.Perm.eq_of_pairwise (fun left right first second below above => ?_) sorted
    (ascending.imp fun less => decide_eq_true (Nat.le_of_lt less)) same
  have listed {association : Association} (member : association ∈ touching) :=
    association?_id adjacent.toIndexed (List.mem_of_mem_filter member)
  have equal : left.id = right.id :=
    Nat.le_antisymm (of_decide_eq_true below) (of_decide_eq_true above)
  exact Option.some.inj ((listed (same.mem_iff.mp first)).symm.trans (equal ▸ listed second))

theorem isLinked_iff (indexed : store.Indexed) {kind : AssociationKind} {source target : EntityId} :
    store.isLinked kind source target ↔ ∃ association ∈ store.associations,
      association.kind = kind ∧ association.source = source ∧ association.target = target := by
  simp only [isLinked, associationsFrom_eq indexed, List.any_eq_true, List.mem_filter,
    Array.mem_toList_iff, Bool.and_eq_true, beq_iff_eq]
  constructor
  · rintro ⟨association, ⟨listed, leaves⟩, same, arrives⟩
    exact ⟨association, listed, same, leaves, arrives⟩
  · rintro ⟨association, listed, same, leaves, arrives⟩
    exact ⟨association, ⟨listed, leaves⟩, same, arrives⟩

theorem Adjacent.empty : (∅ : Store).Adjacent where
  toIndexed := Sound.empty.indexed
  incoming id := by
    have nothing : (∅ : Store).incoming.getD id #[] = #[] := Std.HashMap.getD_empty
    rw [nothing]
    rfl
  ends association listed := absurd listed (Array.not_mem_empty association)

/-- Only clearing takes an entity away. -/
theorem Step.isSome_entity? (step : before.Step operation after) (kept : operation ≠ .clear)
    (known : (before.entity? id).isSome) : (after.entity? id).isSome := by
  have same (store : Store) : (store.identity? id).isSome = (store.entity? id).isSome :=
    Option.isSome_map
  rw [← same] at known ⊢
  obtain ⟨identity, named⟩ := Option.isSome_iff_exists.mp known
  exact Option.isSome_iff_exists.mpr ⟨identity, step.identity? kept named⟩

/-- A store that knows all entities of another one and has the same associations. -/
theorem Adjacent.kept (adjacent : before.Adjacent)
    (known : ∀ {id}, (before.entity? id).isSome → (after.entity? id).isSome)
    (associations : after.associations = before.associations)
    (outgoing : after.outgoing = before.outgoing) (incoming : after.incoming = before.incoming) :
    after.Adjacent where
  associationId {id association} found := by
    rw [association?, associations] at found
    exact adjacent.associationId found
  outgoing id := by
    rw [outgoing, associations]
    exact adjacent.outgoing id
  incoming id := by
    rw [incoming, associations]
    exact adjacent.incoming id
  ends association listed := by
    rw [associations] at listed
    obtain ⟨source, target⟩ := adjacent.ends association listed
    exact ⟨known source, known target⟩

theorem Adjacent.appended (adjacent : store.Adjacent) {kind : AssociationKind}
    {source target : EntityId} {anchor : Option Anchor} {statement : String}
    (left : (store.entity? source).isSome) (right : (store.entity? target).isSome) :
    (store.appended kind source target anchor statement).Adjacent where
  toIndexed := adjacent.toIndexed.appended
  incoming := toList_getD_insert adjacent.incoming
    ⟨store.associations.size, kind, source, target, anchor, statement⟩
  ends association listed := by
    rcases Array.mem_push.mp listed with known | rfl
    · exact adjacent.ends association known
    · exact ⟨left, right⟩

theorem Step.adjacent (step : before.Step operation after) (adjacent : before.Adjacent) :
    after.Adjacent := by
  have known (kept : operation ≠ .clear) {id : EntityId} (found : (before.entity? id).isSome) :
      (after.entity? id).isSome := step.isSome_entity? kept found
  cases step with
  | unchanged => exact adjacent
  | interned => exact adjacent.kept (known nofun) rfl rfl rfl
  | @moved child owner =>
      refine adjacent.kept (known nofun) ?_ ?_ ?_ <;> rw [Store.moved] <;>
        cases before.ownerOf? child <;> rfl
  | revised id revision other => exact adjacent.kept (known other) rfl rfl rfl
  | appended left right => exact adjacent.appended left right
  | cleared => exact .empty

theorem Adjacent.afterAll (adjacent : store.Adjacent) (operations : List Operation) :
    (store.afterAll operations).Adjacent := by
  induction operations generalizing store with
  | nil => exact adjacent
  | cons operation operations ih => exact ih ((step_after store operation).adjacent adjacent)

/-- In a store behind any operations the associations bear the numbers of their places, both ends of
each of them exist, and the queries for those at an entity miss none and give none twice: those that
leave it, those that arrive at it and those with it at either end, all in the order of creation. Two
entities are linked if some association of the kind leads from the one to the other. -/
theorem operations_index_associations (operations : List Operation) :
    let store := (∅ : Store).afterAll operations
    store.associations.toList.map (·.id) = List.range store.associations.size ∧
      (∀ id, store.associationsFrom id = store.associations.toList.filter (·.source == id)) ∧
      (∀ id, store.associationsTo id = store.associations.toList.filter (·.target == id)) ∧
      (∀ id, store.associationsTouching id = store.associations.toList.filter fun association =>
        association.source == id || association.target == id) ∧
      (∀ kind source target, store.isLinked kind source target ↔
        ∃ association ∈ store.associations, association.kind = kind ∧
          association.source = source ∧ association.target = target) ∧
      ∀ association ∈ store.associations,
        (store.entity? association.source).isSome ∧ (store.entity? association.target).isSome := by
  intro store
  have adjacent : store.Adjacent := Adjacent.empty.afterAll operations
  exact ⟨adjacent.map_id, associationsFrom_eq adjacent.toIndexed, adjacent.associationsTo_eq,
    adjacent.associationsTouching_eq, fun _ _ _ => isLinked_iff adjacent.toIndexed, adjacent.ends⟩

/-- A method that calls itself once and another one twice, in a store that was cleared before. -/
theorem operations_index_associations_of_loop :
    let operations : List Operation :=
      [.intern .type "T", .addAssociation .subtyping 0 0 none "", .clear,
        .intern .method "m", .intern .method "n", .addAssociation .invocation 0 0 none "m()",
        .addAssociation .invocation 0 1 none "n()", .addAssociation .invocation 0 1 none "n()"]
    let store := (∅ : Store).afterAll operations
    (store.associationsTouching 0).map (·.id) = [0, 1, 2] ∧
      (store.associationsTo 1).map (·.id) = [1, 2] ∧ store.isLinked .invocation 0 0 ∧
      ¬store.isLinked .invocation 1 0 ∧
      ∃ association ∈ store.associations, (store.entity? association.target).isSome := by
  intro operations store
  let two := ((∅ : Store).added .method "m").added .method "n"
  have interned : (∅ : Store).afterAll [.intern .method "m", .intern .method "n"] = two := by
    simp [two, afterAll, after_intern, intern_of_missing, find?_empty, find?_added]
  have called (before : Store) (target : EntityId) (statement : String)
      (left : (before.entity? 0).isSome) (right : (before.entity? target).isSome) :
      before.after (.addAssociation .invocation 0 target none statement) =
        before.appended .invocation 0 target none statement := by
    rw [after, Operation.request, Edit.perform_bind, Edit.perform_addAssociation left right]
    rfl
  have calls : store = ((two.appended .invocation 0 0 none "m()").appended .invocation 0 1 none
      "n()").appended .invocation 0 1 none "n()" := by
    calc store
      _ = (((∅ : Store).afterAll [.intern .method "m", .intern .method "n"]).after
          (.addAssociation .invocation 0 0 none "m()") |>.after
          (.addAssociation .invocation 0 1 none "n()") |>.after
          (.addAssociation .invocation 0 1 none "n()")) := rfl
      _ = _ := by
        rw [interned, called two 0 "m()" rfl rfl, called _ 1 "n()" rfl rfl, called _ 1 "n()" rfl rfl]
  have listed : store.associations =
      #[⟨0, .invocation, 0, 0, none, "m()"⟩, ⟨1, .invocation, 0, 1, none, "n()"⟩,
        ⟨2, .invocation, 0, 1, none, "n()"⟩] := by
    rw [calls]
    rfl
  obtain ⟨-, -, arriving, touching, linked, ends⟩ := operations_index_associations operations
  have second : (⟨1, .invocation, 0, 1, none, "n()"⟩ : Association) ∈ store.associations := by
    rw [listed]
    simp
  refine ⟨?_, ?_, ?_, ?_, ⟨_, second, (ends _ second).2⟩⟩
  · rw [touching 0, listed]
    rfl
  · rw [arriving 1, listed]
    rfl
  · rw [linked, listed]
    simp
  · rw [linked, listed]
    simp

end JavaFacts.Store
