import JavaFacts.Document.Reader
import JavaFacts.Document.Types

/-!
Places, bindings and types from their documents. Recursive readers take the depth that is left.
-/

namespace JavaFacts

def Span.ofDocument? (document : Document) : Option Span := do
  return ⟨← (document.member "start").number?, ← (document.member "length").number?⟩

def Anchor.ofDocument? (document : Document) : Option Anchor := do
  return ⟨← (document.member "file").text?, ← (document.member "start").number?,
    ← (document.member "end").number?⟩

def Modifiers.ofDocument? (document : Document) : Option Modifiers :=
  document.text?.bind Modifiers.ofText?

def TypeBinding.read : Nat → Document → Option TypeBinding
  | 0, _ => none
  | depth + 1, document => do
      return {
        kind := ← (document.member "kind").oneOf? TypeKind.all TypeKind.name
        name := ← (document.member "binary_name").text?
        typeParameters := ← (document.member "type_parameters").listOf? Document.text?
        isAnonymous := ← (document.member "is_anonymous").flag?
        element := ← (document.member "element").optional? (read depth)
        dimensions := ← (document.member "dimensions").number?
        bound := ← (document.member "bound").optional? (read depth) }

def TypeBinding.ofDocument? (document : Document) : Option TypeBinding :=
  read (document.depth + 1) document

def MethodBinding.ofDocument? (document : Document) : Option MethodBinding := do
  return {
    declaringClass := ← TypeBinding.ofDocument? (document.member "declaring_class")
    name := ← (document.member "name").text?
    isConstructor := ← (document.member "is_constructor").flag?
    parameterTypes := ← (document.member "parameter_types").listOf? TypeBinding.ofDocument?
    returnType := ← (document.member "return_type").optional? TypeBinding.ofDocument?
    modifiers := ← Modifiers.ofDocument? (document.member "modifiers") }

def VariableBinding.ofDocument? (document : Document) : Option VariableBinding := do
  return {
    name := ← (document.member "name").text?
    isField := ← (document.member "is_field").flag?
    declaringClass := ← (document.member "declaring_class").optional? TypeBinding.ofDocument?
    type := ← (document.member "type_binding").optional? TypeBinding.ofDocument?
    modifiers := ← Modifiers.ofDocument? (document.member "modifiers") }

def NameBinding.ofDocument? (document : Document) : Option NameBinding := do
  match ← document.variant? with
  | ("Variable", content) => (VariableBinding.ofDocument? content).map .ofVariable
  | ("Type", content) => (TypeBinding.ofDocument? content).map .ofType
  | ("Package", content) => content.text?.map .ofPackage
  | _ => none

def WrittenType.read : Nat → Document → Option WrittenType
  | 0, _ => none
  | depth + 1, document => do
      match ← document.variant? with
      | ("Primitive", content) => content.text?.map .primitive
      | ("Simple", content) => content.text?.map .simple
      | ("Qualified", content) => content.text?.map .qualified
      | ("Array", content) =>
          return .array (← read depth (content.member "element"))
            (← (content.member "dimensions").number?)
      | ("Parameterized", content) =>
          return .parameterized (← read depth (content.member "base"))
            (← (content.member "arguments").listOf? (read depth))
      | ("Wildcard", _) => return .wildcard
      | _ => none

def WrittenType.ofDocument? (document : Document) : Option WrittenType :=
  read (document.depth + 1) document

def TypeUse.ofDocument? (document : Document) : Option TypeUse := do
  return ⟨← Span.ofDocument? (document.member "span"),
    ← WrittenType.ofDocument? (document.member "node"),
    ← (document.member "binding").optional? TypeBinding.ofDocument?⟩

end JavaFacts
