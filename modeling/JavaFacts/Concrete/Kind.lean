import JavaFacts.Modifiers

namespace JavaFacts

/-- Kinds of the grammar that are never told apart share a constructor. -/
inductive ConcreteKind where
  | packageDeclaration
  | importDeclaration
  | asterisk
  | identifier
  | scopedIdentifier
  | typeIdentifier
  | scopedTypeIdentifier
  | genericType
  | arrayType
  /-- A keyword that names a type, `void` included. -/
  | primitiveType
  | annotatedType
  | typeArguments
  | typeParameter
  | typeBound
  | typeList
  | interfaces
  | classDeclaration
  /-- An interface or an annotation type. -/
  | interfaceDeclaration
  | enumDeclaration
  | recordDeclaration
  | fieldDeclaration
  | methodDeclaration
  | constructorDeclaration
  /-- A constructor of a record that takes over the parameters of the record. -/
  | compactConstructor
  | staticInitializer
  | enumConstant
  | enumBodyDeclarations
  | classBody
  | constructorBody
  | block
  | modifiers
  | modifier (flag : Modifiers)
  | formalParameter
  | spreadParameter
  | variableDeclarator
  | dimensions
  | dimensionExpression
  | bracket
  /-- A statement or expression that stands for the one inside it. -/
  | wrapping
  | labeled
  /-- Parts without an expression, such as `break` or an annotation. -/
  | inert
  | comment
  | localVariables
  | constructorCall
  | methodCall
  | creation
  | arrayCreation
  | fieldAccess
  | this
  | super
  | new
  | cast
  | instanceCheck
  | lambda
  | enhancedFor
  | catchClause
  | catchParameter
  | catchType
  | resource
  /-- Statements that end the scope of the variables declared in them. -/
  | ownScope
  | binary
  | unary
  | integerLiteral
  | floatingLiteral
  | booleanLiteral
  | characterLiteral
  | stringLiteral
  | nullLiteral
  | classLiteral
  | other
deriving Repr, DecidableEq, Inhabited

namespace ConcreteKind

def names : List (String × ConcreteKind) := [
  ("package_declaration", packageDeclaration), ("import_declaration", importDeclaration),
  ("asterisk", asterisk), ("identifier", identifier), ("scoped_identifier", scopedIdentifier),
  ("type_identifier", typeIdentifier), ("scoped_type_identifier", scopedTypeIdentifier),
  ("generic_type", genericType), ("array_type", arrayType), ("integral_type", primitiveType),
  ("floating_point_type", primitiveType), ("boolean_type", primitiveType),
  ("void_type", primitiveType), ("annotated_type", annotatedType),
  ("type_arguments", typeArguments), ("type_parameter", typeParameter), ("type_bound", typeBound),
  ("type_list", typeList), ("super_interfaces", interfaces), ("extends_interfaces", interfaces),
  ("class_declaration", classDeclaration), ("interface_declaration", interfaceDeclaration),
  ("annotation_type_declaration", interfaceDeclaration), ("enum_declaration", enumDeclaration),
  ("record_declaration", recordDeclaration), ("field_declaration", fieldDeclaration),
  ("constant_declaration", fieldDeclaration), ("method_declaration", methodDeclaration),
  ("constructor_declaration", constructorDeclaration),
  ("compact_constructor_declaration", compactConstructor),
  ("static_initializer", staticInitializer), ("enum_constant", enumConstant),
  ("enum_body_declarations", enumBodyDeclarations), ("class_body", classBody),
  ("constructor_body", constructorBody), ("block", block), ("modifiers", modifiers),
  ("formal_parameter", formalParameter), ("spread_parameter", spreadParameter),
  ("variable_declarator", variableDeclarator), ("dimensions", dimensions),
  ("dimensions_expr", dimensionExpression), ("[", bracket), ("expression_statement", wrapping),
  ("parenthesized_expression", wrapping), ("labeled_statement", labeled),
  ("break_statement", inert), ("continue_statement", inert), ("annotation", inert),
  ("marker_annotation", inert), ("throws", inert), ("line_comment", comment),
  ("block_comment", comment), ("local_variable_declaration", localVariables),
  ("explicit_constructor_invocation", constructorCall), ("method_invocation", methodCall),
  ("object_creation_expression", creation), ("array_creation_expression", arrayCreation),
  ("field_access", fieldAccess), ("this", this), ("super", super), ("new", new),
  ("cast_expression", cast), ("instanceof_expression", instanceCheck),
  ("lambda_expression", lambda), ("enhanced_for_statement", enhancedFor),
  ("catch_clause", catchClause), ("catch_formal_parameter", catchParameter),
  ("catch_type", catchType), ("resource", resource), ("for_statement", ownScope),
  ("try_with_resources_statement", ownScope), ("switch_block", ownScope),
  ("binary_expression", binary), ("unary_expression", unary),
  ("decimal_integer_literal", integerLiteral), ("hex_integer_literal", integerLiteral),
  ("octal_integer_literal", integerLiteral), ("binary_integer_literal", integerLiteral),
  ("decimal_floating_point_literal", floatingLiteral),
  ("hex_floating_point_literal", floatingLiteral), ("true", booleanLiteral),
  ("false", booleanLiteral), ("character_literal", characterLiteral),
  ("string_literal", stringLiteral), ("text_block", stringLiteral),
  ("null_literal", nullLiteral), ("class_literal", classLiteral)]

def ofName (name : String) : ConcreteKind :=
  match names.lookup name with
  | some kind => kind
  | none =>
      match Modifiers.ofKeyword? name with
      | some flag => modifier flag
      | none => other

def isType : ConcreteKind → Bool
  | typeIdentifier | scopedTypeIdentifier | genericType | arrayType | primitiveType
  | annotatedType => true
  | _ => false

def isTypeDeclaration : ConcreteKind → Bool
  | classDeclaration | interfaceDeclaration | enumDeclaration | recordDeclaration => true
  | _ => false

/-- A single identifier that may name a type. -/
def isTypeName : ConcreteKind → Bool
  | typeIdentifier | identifier => true
  | _ => false

def isPackageName : ConcreteKind → Bool
  | scopedIdentifier | identifier => true
  | _ => false

/-- A segment of a dotted name. -/
def isNameSegment : ConcreteKind → Bool
  | identifier | typeIdentifier | scopedIdentifier | scopedTypeIdentifier | genericType
  | fieldAccess => true
  | _ => false

end ConcreteKind

inductive Role where
  | name
  | body
  | type
  | typeParameters
  | superclass
  | parameters
  | arguments
  | dimensions
  | element
  | declarator
  | value
  | object
  | field
  | constructor
  | left
  | right
  | operator
  | other
deriving Repr, DecidableEq, Inhabited

namespace Role

def names : List (String × Role) := [
  ("name", name), ("body", body), ("type", type), ("type_parameters", typeParameters),
  ("superclass", superclass), ("parameters", parameters), ("arguments", arguments),
  ("dimensions", dimensions), ("element", element), ("declarator", declarator), ("value", value),
  ("object", object), ("field", field), ("constructor", constructor), ("left", left),
  ("right", right), ("operator", operator)]

def ofName (name : String) : Role :=
  (names.lookup name).getD other

end Role

end JavaFacts
