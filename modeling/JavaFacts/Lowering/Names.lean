import JavaFacts.Lowering.TypeTable
import JavaFacts.Tree.Node

/-!
The names in scope at a place of a source file. Scopes open and close around an action: whatever a
bracket adds it takes away again behind the action, and what it does not name it leaves alone.
-/

namespace JavaFacts

abbrev VariableLevel := TypeTable.VariableLevel

structure Names where
  /-- Binary names, the innermost first. -/
  enclosing : List String
  /-- The last declared first. -/
  typeVariables : List TypeVariable
  /-- What `this` is in each type around; nothing in local and anonymous classes. -/
  selves : List (Option TypeBinding)
  /-- The innermost first. -/
  levels : List VariableLevel
  components : List FormalParameter
deriving Inhabited

abbrev Lowering := StateM Names

namespace Names

def empty : Names := ⟨[], [], [], [], []⟩

def scope (names : Names) : TypeScope := ⟨names.enclosing, names.typeVariables⟩

def self? (names : Names) : Option TypeBinding := names.selves.head?.join

/-- There is a name without a binding where a level hides it. -/
def lookup (names : Names) (name : String) : Option (Option VariableBinding) :=
  names.levels.findSome? (·.lookup name)

def declare (names : Names) (name : String) (binding : Option VariableBinding) : Names :=
  match names.levels with
  | level :: outer => { names with levels := ((name, binding) :: level) :: outer }
  | [] => names

def pushLevel (level : VariableLevel) (names : Names) : Names :=
  { names with levels := level :: names.levels }

def popLevel (names : Names) : Names :=
  { names with levels := names.levels.drop 1 }

def pushType (binding : Option TypeBinding) (names : Names) : Names :=
  { names with
    selves := binding :: names.selves
    enclosing := (binding.map (·.name)).toList ++ names.enclosing }

def popType (binding : Option TypeBinding) (names : Names) : Names :=
  { names with
    selves := names.selves.drop 1
    enclosing := names.enclosing.drop (binding.map (·.name)).toList.length }

end Names

namespace Lowering

def declareHidden (name : String) : Lowering Unit :=
  modify (·.declare name none)

def declareLocal (name : String) (type : TypeUse) : Lowering Unit :=
  modify (·.declare name (some (VariableBinding.localVariable name type.binding)))

def inLevel (level : VariableLevel) (action : Lowering α) : Lowering α := do
  modify (Names.pushLevel level)
  let result ← action
  modify Names.popLevel
  pure result

def inType (binding : Option TypeBinding) (fields : VariableLevel) (action : Lowering α) :
    Lowering α := do
  modify (Names.pushType binding)
  let result ← inLevel fields action
  modify (Names.popType binding)
  pure result

def withTypeParameters (table : TypeTable) (declaration : Forest) (action : Lowering α) :
    Lowering α := do
  let before := (← get).typeVariables.length
  modify fun names =>
    { names with typeVariables := (table.declareParameters names.scope declaration).typeVariables }
  let result ← action
  modify fun names =>
    { names with typeVariables := names.typeVariables.drop (names.typeVariables.length - before) }
  pure result

def withComponents (components : List FormalParameter) (action : Lowering α) : Lowering α := do
  let before := (← get).components
  modify ({ · with components })
  let result ← action
  modify ({ · with components := before })
  pure result

def typeUse (table : TypeTable) (tree : Concrete) : Lowering TypeUse := do
  return table.typeUse (← get).scope tree

def typeOf (table : TypeTable) (head : ConcreteHead) (children : Forest) : Lowering TypeUse := do
  return table.typeOf (← get).scope head children

end Lowering

end JavaFacts
