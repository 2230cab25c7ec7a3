import Std.Data.HashMap
import JavaFacts.Facts.Error

/-!
The store of all facts. Entities and associations are numbered in the order in which they come. An
index leads from the identity of an entity to its number, and two more from an entity to the
associations that leave it and that arrive at it.

A request on the store may fail half way. What it did until then stays done: `Edit` gives the store
after the request in either case.
-/

namespace JavaFacts

structure Store where
  entities : Array Entity
  ids : Std.HashMap (EntityKind × String) EntityId
  associations : Array Association
  outgoing : Std.HashMap EntityId (Array AssociationId)
  incoming : Std.HashMap EntityId (Array AssociationId)
deriving Inhabited

abbrev Edit := ExceptT FactError (StateM Store)

namespace Store

def empty : Store := ⟨#[], ∅, #[], ∅, ∅⟩

instance : EmptyCollection Store := ⟨empty⟩

def find? (store : Store) (kind : EntityKind) (name : String) : Option EntityId :=
  store.ids[(kind, name)]?

def entity? (store : Store) (id : EntityId) : Option Entity :=
  store.entities[id]?

def association? (store : Store) (id : AssociationId) : Option Association :=
  store.associations[id]?

/-- Unique name of an entity; empty for a number that stands for none. -/
def nameOf (store : Store) (id : EntityId) : String :=
  match store.entity? id with
  | some entity => entity.name
  | none => ""

def intern (store : Store) (kind : EntityKind) (name : String) : EntityId × Store :=
  match store.find? kind name with
  | some id => (id, store)
  | none =>
      let id := store.entities.size
      (id, { store with
        entities := store.entities.push (Entity.new id kind name)
        ids := store.ids.insert (kind, name) id })

def ofKind (store : Store) (kind : EntityKind) : List Entity :=
  store.entities.toList.filter (·.kind == kind)

def membersOfKind (store : Store) (owner : EntityId) (kind : EntityKind) : List Entity :=
  match store.entity? owner with
  | some entity => (entity.members.toList.filterMap store.entity?).filter (·.kind == kind)
  | none => []

def associationsOfKind (store : Store) (kind : AssociationKind) : List Association :=
  store.associations.toList.filter (·.kind == kind)

def associationsFrom (store : Store) (id : EntityId) : List Association :=
  (store.outgoing.getD id #[]).toList.filterMap store.association?

def associationsTo (store : Store) (id : EntityId) : List Association :=
  (store.incoming.getD id #[]).toList.filterMap store.association?

/-- The associations with the entity at either end, each of them once. -/
def associationsTouching (store : Store) (id : EntityId) : List Association :=
  (store.associationsFrom id ++ (store.associationsTo id).filter (·.source != id)).mergeSort
    fun left right => left.id ≤ right.id

def isLinked (store : Store) (kind : AssociationKind) (source target : EntityId) : Bool :=
  (store.associationsFrom source).any fun association =>
    association.kind == kind && association.target == target

end Store

namespace Edit

def intern (kind : EntityKind) (name : String) : Edit EntityId :=
  modifyGet (·.intern kind name)

def entity (id : EntityId) : Edit Entity := do
  match (← get).entity? id with
  | some entity => pure entity
  | none => throw (.entityNotFound (toString id))

def association (id : AssociationId) : Edit Association := do
  match (← get).association? id with
  | some association => pure association
  | none => throw (.associationNotFound (toString id))

/-- Replaces an entity by what `change` makes of it; `change` leaves the identity alone. -/
def update (id : EntityId) (change : Entity → Entity) : Edit Unit := do
  let _ ← entity id
  modify fun store => { store with entities := store.entities.modify id change }

def addModifiers (id : EntityId) (modifiers : Modifiers) : Edit Unit :=
  update id fun entity => { entity with modifiers := entity.modifiers ∪ modifiers }

/-- Makes `owner` the owner of `child`, which leaves the members of the owner it had. -/
def setOwner (child owner : EntityId) : Edit Unit := do
  if child == owner then
    throw (.invalidOperation ("entity " ++ (← get).nameOf child ++ " cannot own itself"))
  else
    let _ ← entity owner
    let former := (← entity child).owner
    if former == some owner then pure ()
    else
      match former with
      | some old =>
          update old fun entity => { entity with members := entity.members.filter (· != child) }
      | none => pure ()
      update child fun entity => { entity with owner := some owner }
      update owner fun entity => { entity with members := entity.members.push child }

/-- Records where an entity is declared. A second declaration has to stand at the same place. -/
def declare (id : EntityId) (anchor : Anchor) : Edit Unit := do
  let declared ← entity id
  match declared.anchor with
  | some existing =>
      if existing == anchor then pure ()
      else
        throw (.duplicateDeclaration declared.kind.name declared.name existing.render anchor.render)
  | none => update id fun entity => { entity with anchor := some anchor }

def declareNamed (kind : EntityKind) (name : String) (anchor : Anchor) : Edit EntityId := do
  let id ← intern kind name
  declare id anchor
  pure id

def addAssociation (kind : AssociationKind) (source target : EntityId) (anchor : Option Anchor)
    (statement : String) : Edit AssociationId := do
  let _ ← entity source
  let _ ← entity target
  modifyGet fun store =>
    let id := store.associations.size
    (id, { store with
      associations := store.associations.push { id, kind, source, target, anchor, statement }
      outgoing := store.outgoing.insert source ((store.outgoing.getD source #[]).push id)
      incoming := store.incoming.insert target ((store.incoming.getD target #[]).push id) })

end Edit

end JavaFacts
