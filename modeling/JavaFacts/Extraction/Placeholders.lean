import JavaFacts.Facts.Store
import JavaFacts.Naming

/-!
Entities that source refers to. One that is not known yet is added with the owner that its name
tells; a declaration found later completes it.
-/

namespace JavaFacts.Edit

/-- The type of that name. A new one belongs to its package. -/
def ensureType (name : String) : Edit EntityId := do
  let type ← intern .type name
  if (← entity type).owner.isNone then
    let packageName := Naming.packageOf name
    let package ← intern .package packageName
    setOwner type package
    if packageName == Naming.primitivePackage then
      addModifiers type Modifiers.isSynthetic
  pure type

def ensureMethod (typeName name : String) (parameterTypes : List String) : Edit EntityId := do
  let method ← intern .method name
  if (← entity method).owner.isNone then
    setOwner method (← ensureType typeName)
    update method fun entity => { entity with parameterTypes }
  pure method

def ensureField (typeName name : String) : Edit EntityId := do
  let field ← intern .field (Naming.fieldName typeName name)
  if (← entity field).owner.isNone then
    setOwner field (← ensureType typeName)
  pure field

def typeOf (use : TypeUse) : Edit EntityId :=
  ensureType (Naming.typeName use.binding use.written)

end JavaFacts.Edit
