import JavaFacts.Document.Types
import JavaFacts.Tree.Node

/-!
The documents of syntax trees. A node is a record of its place and, under the name of its kind, of
what it holds.
-/

namespace JavaFacts

def DeclarationKind.name : DeclarationKind → String
  | .ofClass => "Class"
  | .interface => "Interface"
  | .enumeration => "Enum"

def DeclarationKind.all : List DeclarationKind := [.ofClass, .interface, .enumeration]

def FormalParameter.document (parameter : FormalParameter) : Document :=
  .record [
    ("binding", .optional VariableBinding.document parameter.binding),
    ("modifiers", parameter.modifiers.document), ("name", .text parameter.name),
    ("span", parameter.span.document), ("type_ref", parameter.type.document)]

def TypeHeader.members (header : TypeHeader) : List (String × Document) :=
  [("binding", TypeBinding.optionDocument header.binding),
    ("interfaces", .listOf TypeUse.document header.interfaces), ("kind", .text header.kind.name),
    ("modifiers", header.modifiers.document), ("name", .text header.name),
    ("superclass", .optional TypeUse.document header.superclass),
    ("type_parameters", .texts header.typeParameters)]

def MethodHeader.members (header : MethodHeader) : List (String × Document) :=
  [("binding", .optional MethodBinding.document header.binding),
    ("is_constructor", .flag header.isConstructor), ("modifiers", header.modifiers.document),
    ("name", .text header.name), ("parameters", .listOf FormalParameter.document header.parameters),
    ("return_type", .optional TypeUse.document header.returnType)]

def VariablesHeader.members (header : VariablesHeader) : List (String × Document) :=
  [("modifiers", header.modifiers.document), ("type_ref", header.type.document)]

def Declarator.members (declarator : Declarator) : List (String × Document) :=
  [("binding", .optional VariableBinding.document declarator.binding),
    ("extra_dimensions", .number declarator.extraDimensions), ("name", .text declarator.name),
    ("span", declarator.span.document)]

def CallHeader.members (header : CallHeader) : List (String × Document) :=
  [("binding", .optional MethodBinding.document header.binding), ("name", .text header.name),
    ("type_binding", TypeBinding.optionDocument header.type)]

namespace Node

def declaredDocument (declared : String × TypeUse) : Document :=
  .list [.text declared.1, declared.2.document]

/-- A node that holds `contents`. -/
def placed (node : Node) (contents : List (String × Document)) : Document :=
  .record [("kind", .tagged node.kindName (.record contents)), ("span", node.span.document)]

mutual

def contents : Node → List (String × Document)
  | .type _ header body => header.members ++ [("body", .list (documents body))]
  | .method _ header body => header.members ++ [("body", optionDocument body)]
  | .fields _ header declared | .locals _ header declared =>
      header.members ++ [("fragments", .list (variableDocuments declared))]
  | .initializer _ isStatic body =>
      [("body", placed body (contents body)), ("is_static", .flag isStatic)]
  | .block _ statements => [("statements", .list (documents statements))]
  | .call _ header receiver arguments =>
      header.members ++
        [("arguments", .list (documents arguments)), ("receiver", optionDocument receiver)]
  | .superCall _ header qualifier arguments =>
      header.members ++
        [("arguments", .list (documents arguments)), ("qualifier", .optional .text qualifier)]
  | .ownConstructor _ binding arguments =>
      [("arguments", .list (documents arguments)),
        ("binding", .optional MethodBinding.document binding)]
  | .superConstructor _ binding receiver arguments =>
      [("arguments", .list (documents arguments)),
        ("binding", .optional MethodBinding.document binding),
        ("receiver", optionDocument receiver)]
  | .creation _ created binding receiver arguments anonymous =>
      [("anonymous", anonymousDocument anonymous), ("arguments", .list (documents arguments)),
        ("binding", .optional MethodBinding.document binding),
        ("receiver", optionDocument receiver), ("type_ref", created.document)]
  | .field _ name binding receiver =>
      [("binding", .optional VariableBinding.document binding), ("name", .text name),
        ("receiver", placed receiver (contents receiver))]
  | .superField _ name binding qualifier =>
      [("binding", .optional VariableBinding.document binding), ("name", .text name),
        ("qualifier", .optional .text qualifier)]
  | .qualified _ name binding qualifier =>
      [("binding", .optional NameBinding.document binding), ("name", .text name),
        ("qualifier", placed qualifier (contents qualifier))]
  | .simple _ name binding =>
      [("binding", .optional NameBinding.document binding), ("identifier", .text name)]
  | .this _ qualifier known =>
      [("binding", TypeBinding.optionDocument known), ("qualifier", .optional .text qualifier)]
  | .cast _ target operand =>
      [("expression", placed operand (contents operand)), ("type_ref", target.document)]
  | .instanceCheck _ tested known operand =>
      [("expression", placed operand (contents operand)),
        ("type_binding", TypeBinding.optionDocument known), ("type_ref", tested.document)]
  | .expression _ known declares children =>
      [("children", .list (documents children)), ("declares", .optional declaredDocument declares),
        ("type_binding", TypeBinding.optionDocument known)]
termination_by structural node => node

def documents : List Node → List Document
  | [] => []
  | node :: nodes => placed node (contents node) :: documents nodes
termination_by structural nodes => nodes

def optionDocument : Option Node → Document
  | some node => placed node (contents node)
  | none => .null
termination_by structural node => node

def variableDocuments : List DeclaredVariable → List Document
  | [] => []
  | .mk declarator value :: declared =>
      .record (declarator.members ++ [("initializer", optionDocument value)]) ::
        variableDocuments declared
termination_by structural declared => declared

def anonymousDocument : Option AnonymousClass → Document
  | some (.mk span binding body) =>
      .record [
        ("binding", TypeBinding.optionDocument binding), ("body", .list (documents body)),
        ("span", span.document)]
  | none => .null
termination_by structural anonymous => anonymous

end

def document (node : Node) : Document :=
  placed node (contents node)

end Node

def CompilationUnit.document (unit : CompilationUnit) : Document :=
  .record [
    ("imports", .texts unit.imports), ("package", .optional .text unit.package),
    ("package_name", .text unit.packageName), ("path", .text unit.path),
    ("types", .list (Node.documents unit.types))]

end JavaFacts
