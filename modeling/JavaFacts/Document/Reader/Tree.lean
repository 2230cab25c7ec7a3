import JavaFacts.Document.Reader.Types
import JavaFacts.Document.Tree

/-!
Syntax trees from their documents.
-/

namespace JavaFacts

def FormalParameter.ofDocument? (document : Document) : Option FormalParameter := do
  return {
    span := ← Span.ofDocument? (document.member "span")
    name := ← (document.member "name").text?
    type := ← TypeUse.ofDocument? (document.member "type_ref")
    modifiers := ← Modifiers.ofDocument? (document.member "modifiers")
    binding := ← (document.member "binding").optional? VariableBinding.ofDocument? }

def TypeHeader.ofDocument? (document : Document) : Option TypeHeader := do
  return {
    kind := ← (document.member "kind").oneOf? DeclarationKind.all DeclarationKind.name
    name := ← (document.member "name").text?
    modifiers := ← Modifiers.ofDocument? (document.member "modifiers")
    binding := ← (document.member "binding").optional? TypeBinding.ofDocument?
    typeParameters := ← (document.member "type_parameters").listOf? Document.text?
    superclass := ← (document.member "superclass").optional? TypeUse.ofDocument?
    interfaces := ← (document.member "interfaces").listOf? TypeUse.ofDocument? }

def MethodHeader.ofDocument? (document : Document) : Option MethodHeader := do
  return {
    name := ← (document.member "name").text?
    isConstructor := ← (document.member "is_constructor").flag?
    modifiers := ← Modifiers.ofDocument? (document.member "modifiers")
    binding := ← (document.member "binding").optional? MethodBinding.ofDocument?
    parameters := ← (document.member "parameters").listOf? FormalParameter.ofDocument?
    returnType := ← (document.member "return_type").optional? TypeUse.ofDocument? }

def VariablesHeader.ofDocument? (document : Document) : Option VariablesHeader := do
  return ⟨← Modifiers.ofDocument? (document.member "modifiers"),
    ← TypeUse.ofDocument? (document.member "type_ref")⟩

def Declarator.ofDocument? (document : Document) : Option Declarator := do
  return {
    span := ← Span.ofDocument? (document.member "span")
    name := ← (document.member "name").text?
    extraDimensions := ← (document.member "extra_dimensions").number?
    binding := ← (document.member "binding").optional? VariableBinding.ofDocument? }

def CallHeader.ofDocument? (document : Document) : Option CallHeader := do
  return ⟨← (document.member "name").text?,
    ← (document.member "binding").optional? MethodBinding.ofDocument?,
    ← (document.member "type_binding").optional? TypeBinding.ofDocument?⟩

namespace Node

def declared? (document : Document) : Option (String × TypeUse) := do
  let (name, written) ← document.pair?
  return (← name.text?, ← TypeUse.ofDocument? written)

/-- Reads a tree of at most the given depth. The nodes inside are read by their key and only in the
form that has them, so that each is read once. -/
def read : Nat → Document → Option Node
  | 0, _ => none
  | depth + 1, document => do
      let span ← Span.ofDocument? (document.member "span")
      let (kind, content) ← (document.member "kind").variant?
      let node (key : String) := read depth (content.member key)
      let node? (key : String) := (content.member key).optional? (read depth)
      let nodes (key : String) := (content.member key).listOf? (read depth)
      let name := (content.member "name").text?
      let qualifier := (content.member "qualifier").optional? Document.text?
      let method := (content.member "binding").optional? MethodBinding.ofDocument?
      let variableBinding := (content.member "binding").optional? VariableBinding.ofDocument?
      let nameBinding := (content.member "binding").optional? NameBinding.ofDocument?
      let typeBinding (key : String) := (content.member key).optional? TypeBinding.ofDocument?
      let typeUse := TypeUse.ofDocument? (content.member "type_ref")
      let declaredVariable (document : Document) : Option DeclaredVariable := do
        return .mk (← Declarator.ofDocument? document)
          (← (document.member "initializer").optional? (read depth))
      let declarators (key : String) := (content.member key).listOf? declaredVariable
      let anonymousClass (document : Document) : Option AnonymousClass := do
        return .mk (← Span.ofDocument? (document.member "span"))
          (← (document.member "binding").optional? TypeBinding.ofDocument?)
          (← (document.member "body").listOf? (read depth))
      match kind with
      | "TypeDeclaration" => return .type span (← TypeHeader.ofDocument? content) (← nodes "body")
      | "MethodDeclaration" =>
          return .method span (← MethodHeader.ofDocument? content) (← node? "body")
      | "FieldDeclaration" =>
          return .fields span (← VariablesHeader.ofDocument? content) (← declarators "fragments")
      | "Initializer" =>
          return .initializer span (← (content.member "is_static").flag?) (← node "body")
      | "Block" => return .block span (← nodes "statements")
      | "LocalVariableDeclaration" =>
          return .locals span (← VariablesHeader.ofDocument? content) (← declarators "fragments")
      | "MethodInvocation" =>
          return .call span (← CallHeader.ofDocument? content) (← node? "receiver")
            (← nodes "arguments")
      | "SuperMethodInvocation" =>
          return .superCall span (← CallHeader.ofDocument? content) (← qualifier)
            (← nodes "arguments")
      | "ConstructorInvocation" => return .ownConstructor span (← method) (← nodes "arguments")
      | "SuperConstructorInvocation" =>
          return .superConstructor span (← method) (← node? "receiver") (← nodes "arguments")
      | "ClassInstanceCreation" =>
          return .creation span (← typeUse) (← method) (← node? "receiver") (← nodes "arguments")
            (← (content.member "anonymous").optional? anonymousClass)
      | "FieldAccess" => return .field span (← name) (← variableBinding) (← node "receiver")
      | "SuperFieldAccess" => return .superField span (← name) (← variableBinding) (← qualifier)
      | "QualifiedName" => return .qualified span (← name) (← nameBinding) (← node "qualifier")
      | "SimpleName" =>
          return .simple span (← (content.member "identifier").text?) (← nameBinding)
      | "This" => return .this span (← qualifier) (← typeBinding "binding")
      | "Cast" => return .cast span (← typeUse) (← node "expression")
      | "InstanceOf" =>
          return .instanceCheck span (← typeUse) (← typeBinding "type_binding")
            (← node "expression")
      | "Expression" =>
          return .expression span (← typeBinding "type_binding")
            (← (content.member "declares").optional? declared?) (← nodes "children")
      | _ => none

def ofDocument? (document : Document) : Option Node :=
  read (document.depth + 1) document

end Node

def CompilationUnit.ofDocument? (document : Document) : Option CompilationUnit := do
  return {
    path := ← (document.member "path").text?
    source := ← (document.member "source").text?
    package := ← (document.member "package").optional? Document.text?
    imports := ← (document.member "imports").listOf? Document.text?
    types := ← (document.member "types").listOf? Node.ofDocument? }

end JavaFacts
