import JavaFacts.Types.Written

/-!
The unique names of types, methods and variables. A name comes from a binding where the binding
gives one and from the written type otherwise; naming never fails, because a type about which
nothing is known has a name of its own.
-/

namespace JavaFacts.Naming

def arrayMarker : String := "<Array>"

def undefined : String := "<undef>"

def undefinedQualifier : String := "<undef>."

def objectName : String := "java.lang.Object"

def constructorMarker : String := "<init>"

def instanceInitializer : String := "<oinit>"

def staticInitializer : String := "<clinit>"

def defaultPackage : String := "<default>"

def primitivePackage : String := "<primitive>"

def primitives : List String :=
  ["boolean", "byte", "char", "short", "int", "long", "float", "double", "void"]

def isPrimitive (name : String) : Bool :=
  primitives.contains name

def isUndefined (name : String) : Bool :=
  name == undefined || Text.startsWith name undefinedQualifier

/-- A name that starts with a bracket is a marker and has no type parameters. -/
def withoutTypeParameters (name : String) : String :=
  match name.toList with
  | '<' :: _ => name
  | _ => Text.upTo (· == '<') name

/-- The classes around a nested type are part of its name, not of its package. -/
def packageOf (typeName : String) : String :=
  if isPrimitive typeName || typeName == arrayMarker then primitivePackage
  else if typeName == undefined then undefined
  else (Text.beforeLast? (· == '.') (withoutTypeParameters typeName)).getD defaultPackage

def isAnonymousName (name : String) : Bool :=
  match Text.beforeLast? (· == '$') name with
  | none => false
  | some outer =>
      let ordinal := (Text.afterLast (· == '$') name).toList
      !outer.isEmpty && !ordinal.isEmpty && ordinal.all Char.isDigit

def typeParameterList : List String → String
  | [] => ""
  | parameters => "<" ++ Text.joined "," parameters ++ ">"

/-- A type variable is named by its erasure. A class without a name, or an anonymous one whose name
is not of the form that compilers use, has none. -/
def bindingName? : TypeBinding → Option String
  | ⟨.array, _, _, _, _, _, _⟩ => some arrayMarker
  | ⟨.typeVariable, _, _, _, _, _, none⟩ => some objectName
  | ⟨.typeVariable, _, _, _, _, _, some bound⟩ => some ((bindingName? bound).getD objectName)
  | ⟨.primitive, name, _, _, _, _, _⟩ | ⟨.null, name, _, _, _, _, _⟩ =>
      if name.isEmpty then none else some name
  | ⟨_, name, parameters, isAnonymous, _, _, _⟩ =>
      if name.isEmpty || (isAnonymous && !isAnonymousName name) then none
      else some (name ++ typeParameterList parameters)
termination_by structural binding => binding

def writtenName : WrittenType → String
  | .primitive name | .qualified name => name
  | .array _ _ => arrayMarker
  | .simple name => undefinedQualifier ++ name
  | .parameterized base arguments =>
      writtenName base ++ "<" ++ Text.joined "," (arguments.map fun _ => "?") ++ ">"
  | .wildcard => undefined
termination_by structural type => type

def typeName (binding : Option TypeBinding) (written : Option WrittenType) : String :=
  match binding.bind bindingName? with
  | some name => name
  | none => (written.map writtenName).getD undefined

def arrayName (element : String) (dimensions : Nat) : String :=
  element ++ Text.repeated "[]" dimensions

def writtenSignature : Option WrittenType → String
  | some (.array element dimensions) => arrayName (writtenName element) dimensions
  | some written => writtenName written
  | none => undefined

/-- An array keeps its element and one pair of brackets for each dimension. -/
def signatureName (binding : Option TypeBinding) (written : Option WrittenType) : String :=
  match binding with
  | none => writtenSignature written
  | some type =>
      if type.isArray then
        let writtenElement := match written with
          | some (.array element _) => writtenName element
          | _ => undefined
        arrayName ((type.element.bind bindingName?).getD writtenElement) type.dimensions
      else (bindingName? type).getD (writtenSignature written)

def anonymousName (enclosing : String) (ordinal : Nat) : String :=
  withoutTypeParameters enclosing ++ "$" ++ toString ordinal ++ "!"

def methodName (declaringClass name : String) (isConstructor : Bool)
    (parameterTypes : List String) : String :=
  let simple := if isConstructor then constructorMarker else name
  declaringClass ++ "." ++ simple ++ "(" ++ Text.joined "," parameterTypes ++ ")"

def constructorStem (className : String) : String :=
  className ++ "." ++ constructorMarker ++ "("

def initializerName (className marker : String) : String :=
  className ++ "." ++ marker ++ "()"

def fieldName (className field : String) : String :=
  className ++ "." ++ field

def parameterTypes (binding : MethodBinding) : List String :=
  binding.parameterTypes.map fun type => signatureName (some type) none

/-- Declaring class and unique name. -/
def boundMethodName? (binding : MethodBinding) : Option (String × String) := do
  let declaringClass ← bindingName? binding.declaringClass
  return (declaringClass,
    methodName declaringClass binding.name binding.isConstructor (parameterTypes binding))

end JavaFacts.Naming
