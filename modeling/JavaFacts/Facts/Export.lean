import JavaFacts.Document.Types
import JavaFacts.Facts.Store
import JavaFacts.Source.Path

/-!
The document that shows a store. Owners, types and the ends of associations appear by their unique
names, so that it can be read without the numbers. The keys of each record are in alphabetical
order.
-/

namespace JavaFacts.Store

/-- A member of a record that is left out when there is no value for it. -/
def memberIfAny (key : String) (document : α → Document) (value : Option α) :
    List (String × Document) :=
  (value.map fun value => (key, document value)).toList

def entityDocument (store : Store) (entity : Entity) : Document :=
  .record (
    memberIfAny "anchor" Anchor.document entity.anchor ++
    [("id", .number entity.id), ("kind", .text entity.kind.name),
      ("modifiers", .number entity.modifiers.bits.toNat), ("name", .text entity.name)] ++
    memberIfAny "parent" (fun owner => .text (store.nameOf owner)) entity.owner ++
    memberIfAny "position" .number entity.position ++
    memberIfAny "type" (fun type => .text (store.nameOf type)) entity.declaredType)

def associationDocument (store : Store) (association : Association) : Document :=
  .record [("from", .text (store.nameOf association.source)), ("id", .number association.id),
    ("kind", .text association.kind.name), ("statement", .text association.statement),
    ("to", .text (store.nameOf association.target))]

/-- The document of the entities that `keep` accepts and, if asked for, of the associations between
them. -/
def documentOf (store : Store) (keep : Entity → Bool) (withAssociations : Bool) : Document :=
  let kept (id : EntityId) : Bool := (store.entity? id).any keep
  let between := store.associations.toList.filter fun association =>
    kept association.source && kept association.target
  let shown := if withAssociations then between else []
  .record [
    ("associations", .list (shown.map store.associationDocument)),
    ("entities", .list ((store.entities.toList.filter keep).map store.entityDocument))]

def document (store : Store) : Document :=
  store.documentOf (fun _ => true) true

/-- The text of the file that is written to a path of an empty directory. -/
def writtenTo (store : Store) (path : String) : Except FactError String :=
  if Path.isCreatable path then .ok store.document.render
  else .error (.serialization ("Failed to write " ++ path))

end JavaFacts.Store
