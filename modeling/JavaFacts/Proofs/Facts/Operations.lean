import JavaFacts.Proofs.Call.Reached

/-!
The operations of a store as its users have them, in any order and whether accepted or refused. One
inversion says what an operation makes of a store; that entities keep their identities and that owners
and members agree follows from it, step by step and then for a run.
-/

namespace JavaFacts

/-- An edit of an entity by a user of the store. What the entity is, who owns it and what it owns are
not open to such edits. -/
structure Entity.Revision where
  revise : Entity → Entity
  identity : ∀ entity : Entity, entity.SameIdentity (revise entity)
  owner : ∀ entity, (revise entity).owner = entity.owner
  members : ∀ entity, (revise entity).members = entity.members

/-- The declaration of an entity. -/
def Entity.Revision.declare (anchor : Anchor) : Entity.Revision where
  revise entity := { entity with anchor := some anchor }
  identity _ := ⟨rfl, rfl, rfl⟩
  owner _ := rfl
  members _ := rfl

namespace Store

/-- What users may ask of a store. -/
inductive Operation where
  | intern (kind : EntityKind) (name : String)
  | setOwner (child owner : EntityId)
  | declare (id : EntityId) (anchor : Anchor)
  | addAssociation (kind : AssociationKind) (source target : EntityId) (anchor : Option Anchor)
      (statement : String)
  | revise (id : EntityId) (revision : Entity.Revision)
  | clear

def Operation.request : Operation → Edit Unit
  | intern kind name => do
      let _ ← Edit.intern kind name
      pure ()
  | setOwner child owner => Edit.setOwner child owner
  | declare id anchor => Edit.declare id anchor
  | addAssociation kind source target anchor statement => do
      let _ ← Edit.addAssociation kind source target anchor statement
      pure ()
  | revise id revision => Edit.update id revision.revise
  | clear => set (∅ : Store)

/-- The store behind an operation, accepted or refused. -/
def after (store : Store) (operation : Operation) : Store :=
  (operation.request.perform store).2

/-- The store behind several operations. -/
def afterAll (store : Store) (operations : List Operation) : Store :=
  operations.foldl after store

/-- The owner of an entity, if there is such an entity and it has one. -/
def ownerOf? (store : Store) (id : EntityId) : Option EntityId :=
  (store.entity? id).bind (·.owner)

/-- The members of an entity; none for a number that stands for none. -/
def membersOf (store : Store) (id : EntityId) : List EntityId :=
  (store.entity? id).elim [] (·.members.toList)

/-- The store in which the former owner of `child`, if any, has given it up to `owner`. -/
def moved (store : Store) (child owner : EntityId) : Store :=
  let released := (store.ownerOf? child).elim store fun former =>
    store.change former fun entity => { entity with members := entity.members.filter (· != child) }
  (released.change child fun entity => { entity with owner := some owner }).change owner
    fun entity => { entity with members := entity.members.push child }

/-- All that an operation can make of a store. -/
inductive Step (before : Store) : Operation → Store → Prop where
  | unchanged (operation : Operation) : Step before operation before
  | interned {kind : EntityKind} {name : String} (missing : before.find? kind name = none) :
      Step before (.intern kind name) (before.added kind name)
  | moved {child owner : EntityId} (apart : child ≠ owner)
      (around : (before.entity? owner).isSome) (known : (before.entity? child).isSome)
      (elsewhere : before.ownerOf? child ≠ some owner) :
      Step before (.setOwner child owner) (before.moved child owner)
  | revised {operation : Operation} (id : EntityId) (revision : Entity.Revision) :
      operation ≠ .clear → Step before operation (before.change id revision.revise)
  | appended {kind : AssociationKind} {source target : EntityId} {anchor : Option Anchor}
      {statement : String} (left : (before.entity? source).isSome)
      (right : (before.entity? target).isSome) :
      Step before (.addAssociation kind source target anchor statement)
        (before.appended kind source target anchor statement)
  | cleared : Step before .clear ∅

end Store

namespace Edit

variable {store : Store} {id child owner : EntityId}

theorem perform_update_of_none {change : Entity → Entity} (missing : store.entity? id = none) :
    (update id change).perform store = (.error (.entityNotFound (toString id)), store) := by
  simp only [update, perform_bind, perform_entity_of_none missing]

/-- What is left to do once the former owner, if there was one, gave up the child. -/
theorem perform_adopt {known host : Entity} (found : store.entity? child = some known)
    (around : store.entity? owner = some host) :
    (do
      update child fun entity => { entity with owner := some owner }
      update owner fun entity => { entity with members := entity.members.push child } :
      Edit Unit).perform store =
    (.ok (), (store.change child fun entity => { entity with owner := some owner }).change owner
      fun entity => { entity with members := entity.members.push child }) := by
  have still : ((store.change child fun entity => { entity with owner := some owner }).entity?
      owner).isSome := by
    rw [Store.entity?_change, around]
    split <;> rfl
  obtain ⟨_, still⟩ := Option.isSome_iff_exists.mp still
  simp only [perform_bind, perform_update found, perform_update still]

/-- An owner is accepted if it exists, as long as the former one does. -/
theorem perform_setOwner {known host : Entity} (apart : child ≠ owner)
    (around : store.entity? owner = some host) (found : store.entity? child = some known)
    (housed : ∀ former, known.owner = some former → (store.entity? former).isSome) :
    (setOwner child owner).perform store =
      (.ok (), if store.ownerOf? child = some owner then store else store.moved child owner) := by
  have owned : store.ownerOf? child = known.owner := by rw [Store.ownerOf?, found, Option.bind_some]
  unfold setOwner
  rw [if_neg (fun same => apart (eq_of_beq same))]
  simp only [perform_bind, perform_entity around, perform_entity found, owned]
  by_cases already : known.owner = some owner
  · rw [if_pos (beq_iff_eq.mpr already), if_pos already]
    rfl
  rw [if_neg (fun same => already (eq_of_beq same)), if_neg already, Store.moved, owned]
  cases former : known.owner with
  | none => exact perform_adopt found around
  | some old =>
      obtain ⟨_, stored⟩ := Option.isSome_iff_exists.mp (housed old former)
      have still {id : EntityId} {entity : Entity} (known : store.entity? id = some entity) :
          ∃ later, (store.change old fun entity =>
            { entity with members := entity.members.filter (· != child) }).entity? id = some later := by
        rw [Store.entity?_change, known]
        split <;> exact ⟨_, rfl⟩
      obtain ⟨_, found⟩ := still found
      obtain ⟨_, around⟩ := still around
      rw [perform_bind, perform_update stored]
      exact perform_adopt found around

theorem perform_setOwner_self :
    (setOwner id id).perform store =
      (.error (.invalidOperation ("entity " ++ store.nameOf id ++ " cannot own itself")), store) := by
  rw [setOwner, if_pos (beq_self_eq_true id)]
  rfl

theorem perform_setOwner_of_no_owner (apart : child ≠ owner) (missing : store.entity? owner = none) :
    (setOwner child owner).perform store = (.error (.entityNotFound (toString owner)), store) := by
  rw [setOwner, if_neg (fun same => apart (eq_of_beq same)), perform_bind,
    perform_entity_of_none missing]

theorem perform_setOwner_of_no_child {host : Entity} (apart : child ≠ owner)
    (around : store.entity? owner = some host) (missing : store.entity? child = none) :
    (setOwner child owner).perform store = (.error (.entityNotFound (toString child)), store) := by
  rw [setOwner, if_neg (fun same => apart (eq_of_beq same))]
  simp only [perform_bind, perform_entity around, perform_entity_of_none missing]

/-- The former owner, if it is missing, is the first that would be written to, so nothing is. -/
theorem perform_setOwner_of_no_former {known host : Entity} {former : EntityId}
    (apart : child ≠ owner) (around : store.entity? owner = some host)
    (found : store.entity? child = some known) (owned : known.owner = some former)
    (missing : store.entity? former = none) :
    (setOwner child owner).perform store = (.error (.entityNotFound (toString former)), store) := by
  have elsewhere : (some former == some owner) = false := by
    rw [beq_eq_false_iff_ne]
    rintro same
    rw [Option.some.inj same, around] at missing
    cases missing
  rw [setOwner, if_neg (fun same => apart (eq_of_beq same))]
  simp only [perform_bind, perform_entity around, perform_entity found, owned, elsewhere,
    Bool.false_eq_true, ↓reduceIte, perform_update_of_none missing]

/-- A request for an owner is refused and changes nothing, or all is as asked already, or the child
moves. -/
theorem setOwner_cases (store : Store) (child owner : EntityId) :
    (∃ error, (setOwner child owner).perform store = (.error error, store)) ∨
      child ≠ owner ∧ (store.entity? owner).isSome ∧ (store.entity? child).isSome ∧
        (setOwner child owner).perform store =
          (.ok (), if store.ownerOf? child = some owner then store else store.moved child owner) := by
  by_cases self : child = owner
  · subst self
    exact .inl ⟨_, perform_setOwner_self⟩
  cases around : store.entity? owner with
  | none => exact .inl ⟨_, perform_setOwner_of_no_owner self around⟩
  | some host =>
      cases found : store.entity? child with
      | none => exact .inl ⟨_, perform_setOwner_of_no_child self around found⟩
      | some known =>
          by_cases housed : ∀ former, known.owner = some former → (store.entity? former).isSome
          · exact .inr ⟨self, rfl, rfl, perform_setOwner self around found housed⟩
          · obtain ⟨former, owned, missing⟩ : ∃ former, known.owner = some former ∧
                store.entity? former = none := by simpa using housed
            exact .inl ⟨_, perform_setOwner_of_no_former self around found owned missing⟩

end Edit

namespace Store

variable {store before : Store} {id child owner : EntityId}

/-- Every entity behind a move, with the owner and the members that it has then. -/
theorem entity?_moved (store : Store) (child owner id : EntityId) :
    (store.moved child owner).entity? id = (store.entity? id).map fun entity =>
      { entity with
        owner := if id = child then some owner else entity.owner
        members := (if store.ownerOf? child = some id then entity.members.filter (· != child)
          else entity.members) ++ if id = owner then #[child] else #[] } := by
  cases found : store.entity? id with
  | none =>
      rw [moved]
      cases store.ownerOf? child <;> simp [entity?_change, found]
  | some entity =>
      rw [moved]
      -- the three changes are told apart by whose entity this is
      cases store.ownerOf? child with
      | none =>
          by_cases mine : child = id <;> by_cases host : owner = id <;>
            simp [entity?_change, found, mine, host, @eq_comm _ id]
      | some former =>
          by_cases mine : child = id <;> by_cases host : owner = id <;> by_cases old : former = id <;>
            simp [entity?_change, found, mine, host, old, @eq_comm _ id]

theorem intern_of_missing {kind : EntityKind} {name : String} (missing : store.find? kind name = none) :
    store.intern kind name = (store.entities.size, store.added kind name) := by
  rw [intern, missing]
  rfl

theorem after_intern (store : Store) (kind : EntityKind) (name : String) :
    store.after (.intern kind name) = (store.intern kind name).2 :=
  rfl

/-- An operation does nothing, or one of the few things that operations do. -/
theorem step_after (store : Store) (operation : Operation) :
    store.Step operation (store.after operation) := by
  cases operation with
  | intern kind name =>
      rw [after_intern]
      cases found : store.find? kind name with
      | some id =>
          rw [intern, found]
          exact .unchanged _
      | none =>
          rw [intern_of_missing found]
          exact .interned found
  | setOwner child owner =>
      rw [after, Operation.request]
      obtain ⟨error, refused⟩ | ⟨apart, around, known, accepted⟩ := Edit.setOwner_cases store child owner
      · rw [refused]
        exact .unchanged _
      · rw [accepted]
        dsimp only
        split
        · exact .unchanged _
        · rename_i elsewhere
          exact .moved apart around known elsewhere
  | declare id anchor =>
      rw [after, Operation.request, Edit.declare, Edit.perform_bind]
      cases found : store.entity? id with
      | none =>
          rw [Edit.perform_entity_of_none found]
          exact .unchanged _
      | some entity =>
          rw [Edit.perform_entity found]
          dsimp only
          cases entity.anchor with
          | some existing =>
              dsimp only
              split <;> exact .unchanged _
          | none =>
              dsimp only
              rw [Edit.perform_update found]
              exact .revised id (.declare anchor) (by simp)
  | addAssociation kind source target anchor statement =>
      rw [after, Operation.request, Edit.perform_bind]
      obtain ⟨error, refused⟩ | ⟨left, right⟩ :=
        Edit.addAssociation_cases store kind source target anchor statement
      · rw [refused]
        exact .unchanged _
      · rw [Edit.perform_addAssociation left right]
        exact .appended left right
  | revise id revision =>
      rw [after, Operation.request]
      cases found : store.entity? id with
      | none =>
          rw [Edit.perform_update_of_none found]
          exact .unchanged _
      | some entity =>
          rw [Edit.perform_update found]
          exact .revised id revision (by simp)
  | clear => exact .cleared

end Store

end JavaFacts
