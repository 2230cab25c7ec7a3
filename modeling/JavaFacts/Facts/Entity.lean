import JavaFacts.Modifiers
import JavaFacts.Source.Span
import JavaFacts.Text.Cut

/-!
The facts about a program: entities, each known by its kind and a unique name, and associations,
each of which leads from one entity to another.
-/

namespace JavaFacts

inductive EntityKind where
  | package
  | type
  /-- Or a constructor, or a host of initializers. -/
  | method
  | field
  | parameter
  | localVariable
deriving Repr, DecidableEq, Hashable, Inhabited

namespace EntityKind

def name : EntityKind → String
  | package => "Package"
  | type => "Class"
  | method => "Method"
  | field => "Attribute"
  | parameter => "Parameter"
  | localVariable => "LocalVariable"

def all : List EntityKind := [package, type, method, field, parameter, localVariable]

def isVariable : EntityKind → Bool
  | field | parameter | localVariable => true
  | _ => false

end EntityKind

inductive AssociationKind where
  | inheritance
  | subtyping
  | invocation
  | access
  | castTo
  | instanceCheck
deriving Repr, DecidableEq, Hashable, Inhabited

namespace AssociationKind

def name : AssociationKind → String
  | inheritance => "Inheritance"
  | subtyping => "Subtyping"
  | invocation => "Invocation"
  | access => "Access"
  | castTo => "CastTo"
  | instanceCheck => "CheckInstanceOf"

def all : List AssociationKind :=
  [inheritance, subtyping, invocation, access, castTo, instanceCheck]

def isHierarchy : AssociationKind → Bool
  | inheritance | subtyping => true
  | _ => false

end AssociationKind

/-- Position in the order of creation. -/
abbrev EntityId := Nat

abbrev AssociationId := Nat

structure Entity where
  id : EntityId
  kind : EntityKind
  name : String
  modifiers : Modifiers
  anchor : Option Anchor
  /-- Type of a variable, or type that a method returns. -/
  declaredType : Option EntityId
  signatureType : Option String
  parameterTypes : List String
  position : Option Nat
  owner : Option EntityId
  members : Array EntityId
deriving Repr, Inhabited

namespace Entity

def new (id : EntityId) (kind : EntityKind) (name : String) : Entity :=
  { id, kind, name, modifiers := ∅, anchor := none, declaredType := none, signatureType := none,
    parameterTypes := [], position := none, owner := none, members := #[] }

def isDeclared (entity : Entity) : Bool :=
  entity.anchor.isSome

def same (left right : Entity) : Bool :=
  left.kind == right.kind && left.name == right.name

end Entity

/-- The parameters of a method and of a type come off first. A local variable loses the number that
tells it from others of its name. -/
def simpleName : EntityKind → String → String
  | .method, name => Text.afterLast (· == '.') (Text.upTo (· == '(') name)
  | .type, name => Text.afterLast (fun c => c == '.' || c == '$') (Text.upTo (· == '<') name)
  | .localVariable, name => Text.upTo (· == '#') (Text.afterLast (· == '.') name)
  | _, name => Text.afterLast (· == '.') name

def Entity.simpleName (entity : Entity) : String :=
  JavaFacts.simpleName entity.kind entity.name

structure Association where
  id : AssociationId
  kind : AssociationKind
  source : EntityId
  target : EntityId
  anchor : Option Anchor
  statement : String
deriving Repr, Inhabited

end JavaFacts
