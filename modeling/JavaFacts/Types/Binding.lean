import JavaFacts.Modifiers
import JavaFacts.Text.Cut

/-!
What a compiler knows about a name: the type, method or variable it stands for. Front ends leave a
binding out wherever they could not resolve the name.
-/

namespace JavaFacts

inductive TypeKind where
  | ofClass
  | interface
  | enumeration
  | primitive
  | array
  | typeVariable
  | null
deriving Repr, DecidableEq, Inhabited

/-- A resolved type. `name` is the fully qualified binary name (`a.Outer$Inner`), a primitive
keyword or the name of a type variable, and empty for a type that has no name. -/
structure TypeBinding where
  kind : TypeKind
  name : String
  typeParameters : List String
  isAnonymous : Bool
  element : Option TypeBinding
  dimensions : Nat
  bound : Option TypeBinding
deriving Repr, Inhabited

namespace TypeBinding

def named (kind : TypeKind) (name : String) : TypeBinding :=
  ⟨kind, name, [], false, none, 0, none⟩

def primitive (keyword : String) : TypeBinding := named .primitive keyword

def null : TypeBinding := named .null "null"

def boolean : TypeBinding := primitive "boolean"

def string : TypeBinding := named .ofClass "java.lang.String"

def anonymous (name : String) : TypeBinding :=
  { named .ofClass name with isAnonymous := true }

def typeVariable (name : String) (bound : Option TypeBinding) : TypeBinding :=
  { named .typeVariable name with bound }

/-- The levels of an array of arrays are added up, so that the element of the result is no array. -/
def array (element : TypeBinding) (dimensions : Nat) : TypeBinding :=
  match element.kind with
  | .array =>
      { named .array "" with
        element := some (element.element.getD null), dimensions := dimensions + element.dimensions }
  | _ => { named .array "" with element := some element, dimensions }

def isArray (type : TypeBinding) : Bool := type.kind == .array

def isPrimitive (type : TypeBinding) : Bool := type.kind == .primitive

def isInterface (type : TypeBinding) : Bool := type.kind == .interface

def isGeneric (type : TypeBinding) : Bool := !type.typeParameters.isEmpty

end TypeBinding

structure MethodBinding where
  declaringClass : TypeBinding
  name : String
  isConstructor : Bool
  parameterTypes : List TypeBinding
  returnType : Option TypeBinding
  modifiers : Modifiers
deriving Repr, Inhabited

namespace MethodBinding

def method (declaringClass : TypeBinding) (name : String) (parameterTypes : List TypeBinding)
    (returnType : TypeBinding) : MethodBinding :=
  ⟨declaringClass, name, false, parameterTypes, some returnType, ∅⟩

def constructor (declaringClass : TypeBinding) (parameterTypes : List TypeBinding) :
    MethodBinding :=
  let name := Text.afterLast (fun c => c == '.' || c == '$') declaringClass.name
  ⟨declaringClass, name, true, parameterTypes, none, ∅⟩

end MethodBinding

structure VariableBinding where
  name : String
  isField : Bool
  declaringClass : Option TypeBinding
  type : Option TypeBinding
  modifiers : Modifiers
deriving Repr, Inhabited

namespace VariableBinding

def field (declaringClass : TypeBinding) (name : String) (type : Option TypeBinding) :
    VariableBinding :=
  ⟨name, true, some declaringClass, type, ∅⟩

def localVariable (name : String) (type : Option TypeBinding) : VariableBinding :=
  ⟨name, false, none, type, ∅⟩

end VariableBinding

inductive NameBinding where
  | ofVariable (binding : VariableBinding)
  | ofType (binding : TypeBinding)
  | ofPackage (name : String)
deriving Repr, Inhabited

def NameBinding.type? : NameBinding → Option TypeBinding
  | .ofVariable binding => binding.type
  | .ofType binding => some binding
  | .ofPackage _ => none

end JavaFacts
