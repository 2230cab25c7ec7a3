import JavaFacts.Proofs.Facts.Operations

/-!
Owners and members. An entity tells its owner and an owner its members, and whatever operations a store
went through, both tell the same.
-/

namespace JavaFacts.Store

variable {store before after : Store} {kind : EntityKind} {name : String} {id child owner : EntityId}
  {operation : Operation}

/-- An entity is once among the members of its owner and nowhere else, and nothing owns itself. -/
structure Housed (store : Store) : Prop where
  count : ∀ owner child,
    (store.membersOf owner).count child = if store.ownerOf? child = some owner then 1 else 0
  apart : ∀ id, store.ownerOf? id ≠ some id

theorem isSome_of_ownerOf? (owned : store.ownerOf? child = some owner) :
    (store.entity? child).isSome := by
  obtain ⟨entity, found, -⟩ := Option.bind_eq_some_iff.mp owned
  rw [found]
  rfl

theorem isSome_of_mem_membersOf (member : child ∈ store.membersOf owner) :
    (store.entity? owner).isSome := by
  rw [membersOf] at member
  cases found : store.entity? owner with
  | none => simp [found] at member
  | some entity => rfl

theorem Housed.mem_membersOf_iff (housed : store.Housed) :
    child ∈ store.membersOf owner ↔ store.ownerOf? child = some owner := by
  rw [← List.count_pos_iff, housed.count]
  split <;> simp_all

theorem ownerOf?_change {revise : Entity → Entity}
    (same : ∀ entity, (revise entity).owner = entity.owner) :
    (store.change id revise).ownerOf? child = store.ownerOf? child := by
  rw [ownerOf?, entity?_change, ownerOf?]
  cases store.entity? child with
  | none => simp
  | some entity => split <;> simp [same]

theorem membersOf_change {revise : Entity → Entity}
    (same : ∀ entity, (revise entity).members = entity.members) :
    (store.change id revise).membersOf owner = store.membersOf owner := by
  rw [membersOf, entity?_change, membersOf]
  cases store.entity? owner with
  | none => simp
  | some entity => split <;> simp [same]

theorem ownerOf?_added : (store.added kind name).ownerOf? child = store.ownerOf? child := by
  rw [ownerOf?, entity?_added, ownerOf?]
  split
  · rename_i new
    rw [new, entity?_size]
    rfl
  · rfl

theorem membersOf_added : (store.added kind name).membersOf owner = store.membersOf owner := by
  rw [membersOf, entity?_added, membersOf]
  split
  · rename_i new
    rw [new, entity?_size]
    rfl
  · rfl

theorem ownerOf?_moved (known : (store.entity? child).isSome) (id : EntityId) :
    (store.moved child owner).ownerOf? id =
      if id = child then some owner else store.ownerOf? id := by
  have owned : (store.moved child owner).ownerOf? id = (store.entity? id).bind fun entity =>
      if id = child then some owner else entity.owner := by
    rw [ownerOf?, entity?_moved, Option.bind_map]
    rfl
  rw [owned]
  split
  · rename_i same
    obtain ⟨entity, found⟩ := Option.isSome_iff_exists.mp known
    rw [same, found, Option.bind_some]
  · rfl

theorem membersOf_moved (around : (store.entity? owner).isSome) (id : EntityId) :
    (store.moved child owner).membersOf id =
      (if store.ownerOf? child = some id then (store.membersOf id).filter (· != child)
        else store.membersOf id) ++ if id = owner then [child] else [] := by
  rw [membersOf, entity?_moved, membersOf]
  cases found : store.entity? id with
  | none =>
      have other : id ≠ owner := by
        rintro rfl
        rw [found] at around
        cases around
      simp [other]
  | some entity =>
      simp only [Option.map_some, Option.elim_some, Array.toList_append, apply_ite Array.toList,
        Array.toList_filter]

theorem Housed.moved (housed : store.Housed) (apart : child ≠ owner)
    (around : (store.entity? owner).isSome) (known : (store.entity? child).isSome)
    (elsewhere : store.ownerOf? child ≠ some owner) : (store.moved child owner).Housed := by
  refine ⟨fun host id => ?_, fun id => ?_⟩
  · rw [membersOf_moved around, ownerOf?_moved known, List.count_append]
    have before := housed.count host id
    by_cases same : id = child
    · subst same
      -- the former owner has given the child up, and nobody else had it
      have given : (if store.ownerOf? id = some host then (store.membersOf host).filter (· != id)
          else store.membersOf host).count id = 0 := by
        split
        · exact List.count_eq_zero.mpr (by simp)
        · rename_i other
          rw [before, if_neg other]
      rw [given, if_pos rfl]
      by_cases here : host = owner
      · simp [here]
      · simp [here, Ne.symm here]
    · have released : (if store.ownerOf? child = some host then
          (store.membersOf host).filter (· != child) else store.membersOf host).count id =
          (store.membersOf host).count id := by
        split
        · exact List.count_filter (bne_iff_ne.mpr same)
        · rfl
      have pushed : (if host = owner then [child] else []).count id = 0 := by
        split
        · exact List.count_eq_zero.mpr (by simp [same])
        · rfl
      rw [released, pushed, before, if_neg same, Nat.add_zero]
  · rw [ownerOf?_moved known]
    split
    · rename_i same
      rw [same]
      exact fun self => apart (Option.some.inj self).symm
    · exact housed.apart id

theorem Housed.empty : (∅ : Store).Housed := by
  refine ⟨fun owner child => ?_, fun id => ?_⟩
  · rw [membersOf, ownerOf?, entity?_empty, entity?_empty]
    rfl
  · rw [ownerOf?, entity?_empty]
    exact (Option.some_ne_none _).symm

theorem Step.housed (step : before.Step operation after) (housed : before.Housed) :
    after.Housed := by
  cases step with
  | unchanged => exact housed
  | interned missing =>
      refine ⟨fun owner child => ?_, fun id => ?_⟩
      · rw [membersOf_added, ownerOf?_added]
        exact housed.count owner child
      · rw [ownerOf?_added]
        exact housed.apart id
  | moved apart around known elsewhere => exact housed.moved apart around known elsewhere
  | revised _ revision =>
      refine ⟨fun owner child => ?_, fun id => ?_⟩
      · rw [membersOf_change revision.members, ownerOf?_change revision.owner]
        exact housed.count owner child
      · rw [ownerOf?_change revision.owner]
        exact housed.apart id
  | appended => exact ⟨housed.count, housed.apart⟩
  | cleared => exact .empty

theorem Housed.afterAll (housed : store.Housed) (operations : List Operation) :
    (store.afterAll operations).Housed := by
  induction operations generalizing store with
  | nil => exact housed
  | cons operation operations ih => exact ih ((step_after store operation).housed housed)

/-- A child that moves is taken from its former owner and comes last with the new one. Nothing else
is touched. -/
theorem Housed.entity?_moved (housed : store.Housed) (apart : child ≠ owner)
    (elsewhere : store.ownerOf? child ≠ some owner) :
    let after := store.moved child owner
    after.entity? child = (store.entity? child).map ({ · with owner := some owner }) ∧
      after.entity? owner =
        (store.entity? owner).map (fun host => { host with members := host.members.push child }) ∧
      (∀ former, store.ownerOf? child = some former → after.entity? former =
        (store.entity? former).map fun host =>
          { host with members := host.members.filter (· != child) }) ∧
      (∀ id, id ≠ child → id ≠ owner → store.ownerOf? child ≠ some id →
        after.entity? id = store.entity? id) ∧
      after = { store with entities := after.entities } := by
  have self := housed.apart child
  refine ⟨?_, ?_, fun former owned => ?_, fun id other host former => ?_, ?_⟩
  · simp [Store.entity?_moved, self, apart]
  · simp [Store.entity?_moved, elsewhere, apart.symm]
  · have other : former ≠ child := by
      rintro rfl
      exact self owned
    have apart : former ≠ owner := by
      rintro rfl
      exact elsewhere owned
    simp [Store.entity?_moved, owned, other, apart]
  · simp [Store.entity?_moved, other, host, former]
  · rw [Store.moved]
    cases store.ownerOf? child <;> rfl

/-- In a store behind any operations owners and members agree: an entity is once among the members of
its owner and not at all among those of others, and all of them exist. An owner that is accepted is
the owner from then on; the child leaves the members of the former owner, whose others keep their
order, and comes last with the new one, unless that has it already. Nothing else changes. -/
theorem operations_keep_members (operations : List Operation) :
    let store := (∅ : Store).afterAll operations
    (∀ owner child, (store.membersOf owner).count child =
        if store.ownerOf? child = some owner then 1 else 0) ∧
      (∀ owner child, store.ownerOf? child = some owner ∨ child ∈ store.membersOf owner →
        (store.entity? owner).isSome ∧ (store.entity? child).isSome) ∧
      ∀ child owner after, (Edit.setOwner child owner).perform store = (.ok (), after) →
        after.ownerOf? child = some owner ∧
          (store.ownerOf? child = some owner → after = store) ∧
          (store.ownerOf? child ≠ some owner →
            after.entity? child = (store.entity? child).map ({ · with owner := some owner }) ∧
            after.entity? owner = (store.entity? owner).map
              (fun host => { host with members := host.members.push child }) ∧
            (∀ former, store.ownerOf? child = some former → after.entity? former =
              (store.entity? former).map fun host =>
                { host with members := host.members.filter (· != child) }) ∧
            (∀ id, id ≠ child → id ≠ owner → store.ownerOf? child ≠ some id →
              after.entity? id = store.entity? id) ∧
            after = { store with entities := after.entities }) := by
  intro store
  have housed : store.Housed := Housed.empty.afterAll operations
  refine ⟨housed.count, fun owner child related => ?_, fun child owner after accepted => ?_⟩
  · have owned := related.elim id housed.mem_membersOf_iff.mp
    exact ⟨isSome_of_mem_membersOf (housed.mem_membersOf_iff.mpr owned), isSome_of_ownerOf? owned⟩
  · obtain ⟨error, refused⟩ | ⟨apart, around, known, performed⟩ :=
      Edit.setOwner_cases store child owner
    · rw [refused] at accepted
      cases accepted
    rw [performed] at accepted
    obtain rfl := (Prod.mk.inj accepted).2
    by_cases already : store.ownerOf? child = some owner
    · rw [if_pos already]
      exact ⟨already, fun _ => rfl, fun elsewhere => absurd already elsewhere⟩
    · rw [if_neg already]
      refine ⟨?_, fun owned => absurd owned already, fun _ => housed.entity?_moved apart already⟩
      rw [ownerOf?_moved known, if_pos rfl]

/-- A type that moves from one package to another. -/
theorem operations_keep_members_of_moved_type :
    let store := (∅ : Store).afterAll
      [.intern .package "p", .intern .package "q", .intern .type "T", .setOwner 2 0]
    ∃ after, (Edit.setOwner 2 1).perform store = (.ok (), after) ∧ after.ownerOf? 2 = some 1 ∧
      after.membersOf 0 = [] ∧ after.membersOf 1 = [2] := by
  intro store
  let three := (((∅ : Store).added .package "p").added .package "q").added .type "T"
  have interned :
      (∅ : Store).afterAll [.intern .package "p", .intern .package "q", .intern .type "T"] = three := by
    simp [three, afterAll, after_intern, intern_of_missing, find?_empty, find?_added]
  have apart : store = three.moved 2 0 := by
    have placed : (Edit.setOwner 2 0).perform three = (.ok (), three.moved 2 0) :=
      Edit.perform_setOwner (by decide) rfl rfl nofun
    calc store
      _ = three.after (.setOwner 2 0) := congrArg (Store.after · (.setOwner 2 0)) interned
      _ = three.moved 2 0 := congrArg Prod.snd placed
  have type : store.entity? 2 = some { Entity.new 2 .type "T" with owner := some 0 } := by
    rw [apart, Store.entity?_moved]
    rfl
  have package : store.entity? 1 = some (.new 1 .package "q") := by
    rw [apart, Store.entity?_moved]
    rfl
  have former : store.entity? 0 = some { Entity.new 0 .package "p" with members := #[2] } := by
    rw [apart, Store.entity?_moved]
    rfl
  have elsewhere : store.ownerOf? 2 ≠ some 1 := by
    rw [ownerOf?, type]
    decide
  have accepted : (Edit.setOwner 2 1).perform store = (.ok (), store.moved 2 1) := by
    have performed := Edit.perform_setOwner (by decide) package type fun _ same =>
      Option.some.inj same ▸ former ▸ rfl
    rwa [if_neg elsewhere] at performed
  obtain ⟨-, -, moves⟩ := operations_keep_members
    [.intern .package "p", .intern .package "q", .intern .type "T", .setOwner 2 0]
  obtain ⟨owned, -, moved⟩ := moves 2 1 _ accepted
  obtain ⟨-, host, released, -⟩ := moved elsewhere
  refine ⟨_, accepted, owned, ?_, ?_⟩
  · rw [membersOf, released 0 (by rw [ownerOf?, type]; rfl), former]
    rfl
  · rw [membersOf, host, package]
    rfl

end JavaFacts.Store
