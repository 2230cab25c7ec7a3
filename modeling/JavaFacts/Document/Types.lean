import JavaFacts.Document.Basic
import JavaFacts.Types.Written

/-!
The documents of places, bindings and types.
-/

namespace JavaFacts

def Span.document (span : Span) : Document :=
  .record [("length", .number span.length), ("start", .number span.start)]

def Anchor.document (anchor : Anchor) : Document :=
  .record [
    ("end", .number anchor.stop), ("file", .text anchor.file), ("start", .number anchor.start)]

def Modifiers.document (modifiers : Modifiers) : Document := .text modifiers.render

def TypeKind.name : TypeKind → String
  | .ofClass => "Class"
  | .interface => "Interface"
  | .enumeration => "Enum"
  | .primitive => "Primitive"
  | .array => "Array"
  | .typeVariable => "TypeVariable"
  | .null => "Null"

def TypeKind.all : List TypeKind :=
  [.ofClass, .interface, .enumeration, .primitive, .array, .typeVariable, .null]

namespace TypeBinding

mutual

def document : TypeBinding → Document
  | ⟨kind, name, typeParameters, isAnonymous, element, dimensions, bound⟩ =>
      .record ([
        ("binary_name", .text name), ("dimensions", .number dimensions),
        ("element", optionDocument element), ("is_anonymous", .flag isAnonymous),
        ("kind", .text kind.name), ("type_parameters", Document.texts typeParameters)] ++
        match bound with
        | some bound => [("bound", document bound)]
        | none => [])
termination_by structural binding => binding

def optionDocument : Option TypeBinding → Document
  | some binding => document binding
  | none => .null
termination_by structural binding => binding

end

end TypeBinding

def MethodBinding.document (binding : MethodBinding) : Document :=
  .record [
    ("declaring_class", binding.declaringClass.document),
    ("is_constructor", .flag binding.isConstructor), ("modifiers", binding.modifiers.document),
    ("name", .text binding.name),
    ("parameter_types", Document.listOf TypeBinding.document binding.parameterTypes),
    ("return_type", TypeBinding.optionDocument binding.returnType)]

def VariableBinding.document (binding : VariableBinding) : Document :=
  .record [
    ("declaring_class", TypeBinding.optionDocument binding.declaringClass),
    ("is_field", .flag binding.isField), ("modifiers", binding.modifiers.document),
    ("name", .text binding.name), ("type_binding", TypeBinding.optionDocument binding.type)]

def NameBinding.document : NameBinding → Document
  | .ofVariable binding => .tagged "Variable" binding.document
  | .ofType binding => .tagged "Type" binding.document
  | .ofPackage name => .tagged "Package" (.text name)

namespace WrittenType

mutual

def document : WrittenType → Document
  | .primitive name => .tagged "Primitive" (.text name)
  | .simple name => .tagged "Simple" (.text name)
  | .qualified name => .tagged "Qualified" (.text name)
  | .array element dimensions =>
      .tagged "Array" (.record [("dimensions", .number dimensions), ("element", document element)])
  | .parameterized base arguments =>
      .tagged "Parameterized"
        (.record [("arguments", .list (documents arguments)), ("base", document base)])
  | .wildcard => .text "Wildcard"
termination_by structural type => type

def documents : List WrittenType → List Document
  | [] => []
  | type :: types => document type :: documents types
termination_by structural types => types

end

end WrittenType

def TypeUse.document (type : TypeUse) : Document :=
  .record [
    ("binding", TypeBinding.optionDocument type.binding), ("node", type.written.document),
    ("span", type.span.document)]

end JavaFacts
