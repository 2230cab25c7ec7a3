import JavaFacts.Lowering.Names

/-!
Statements and expressions. Their operands are lowered by the actions that these functions receive,
in the order in which the names they declare come into scope.
-/

namespace JavaFacts.Lowering

def emptyExpression (span : Span) : Node := .expression span none none []

def literalType? (source : SourceText) (head : ConcreteHead) : Option TypeBinding :=
  let text := source.textOf head
  let endsIn (one other : Char) := Text.endsIn (fun c => c == one || c == other) text
  match head.kind with
  | .integerLiteral => some (TypeBinding.primitive (if endsIn 'l' 'L' then "long" else "int"))
  | .floatingLiteral => some (TypeBinding.primitive (if endsIn 'f' 'F' then "float" else "double"))
  | .booleanLiteral => some TypeBinding.boolean
  | .characterLiteral => some (TypeBinding.primitive "char")
  | .stringLiteral => some TypeBinding.string
  | .nullLiteral => some TypeBinding.null
  | .classLiteral => TypeTable.javaLang? "Class"
  | _ => none

/-- Comparisons, logical connectives and negations are boolean. -/
def operatorType? (source : SourceText) (head : ConcreteHead) (children : Forest) :
    Option TypeBinding := do
  let operator ← children.child? .operator
  let text := source.textOf operator.head
  let isBoolean := match head.kind with
    | .binary => [">", "<", ">=", "<=", "==", "!=", "&&", "||"].contains text
    | .unary => text == "!"
    | _ => false
  if isBoolean then some TypeBinding.boolean else none

def inBlock (span : Span) (statements : Lowering (List Node)) : Lowering Node := do
  pure (.block span (← inLevel [] statements))

/-- Any other node: its type, where an operator tells it, and its parts. A node without either is
left out. -/
def generic (table : TypeTable) (head : ConcreteHead) (children : Forest)
    (parts : Lowering (List Node)) : Lowering (Option Node) := do
  let type := operatorType? table.source head children
  let parts ← parts
  if parts.isEmpty && type.isNone then pure none
  else pure (some (.expression (table.source.spanOf head) type none parts))

def methodCall (table : TypeTable) (head : ConcreteHead) (children : Forest)
    (arguments : Lowering (List Node)) (receiver : Lowering (Option Node)) : Lowering Node := do
  let span := table.source.spanOf head
  let header : CallHeader := ⟨table.source.childText .name children, none, none⟩
  let arguments ← arguments
  match children.child? .object with
  | some object =>
      if object.kind == .super then pure (.superCall span header none arguments)
      else if children.hasQualifiedSuper then
        pure (.superCall span header (some (table.source.dottedName object)) arguments)
      else pure (.call span header (← receiver) arguments)
  | none => pure (.call span header none arguments)

/-- `this(..)` or `super(..)` -/
def constructorCall (table : TypeTable) (head : ConcreteHead) (children : Forest)
    (arguments : Lowering (List Node)) (receiver : Lowering (Option Node)) : Lowering Node := do
  let span := table.source.spanOf head
  let arguments ← arguments
  if (children.child? .constructor).any (·.kind == .this) then
    pure (.ownConstructor span none arguments)
  else pure (.superConstructor span none (← receiver) arguments)

def creation (table : TypeTable) (head : ConcreteHead) (children : Forest)
    (receiver : Lowering (Option Node)) (arguments : Lowering (List Node))
    (anonymous : Lowering (Option AnonymousClass)) : Lowering Node := do
  let receiver ← receiver
  let type ← typeOf table head children
  let arguments ← arguments
  pure (.creation (table.source.spanOf head) type none receiver arguments (← anonymous))

def fieldOf? (table : TypeTable) (owner : Option TypeBinding) (name : String) :
    Option VariableBinding := do
  let owner ← owner
  match owner.kind with
  | .ofClass | .interface | .enumeration => table.field? owner.name name
  | _ => none

/-- `receiver.name` in all its forms; the names `a.b` and `Outer.this` have nodes of their own. -/
def fieldAccess (table : TypeTable) (head : ConcreteHead) (children : Forest)
    (receiver : Lowering (Option Node)) : Lowering Node := do
  let span := table.source.spanOf head
  let field := children.child? .field
  let name := table.source.childText .field children
  match children.child? .object with
  | none =>
      let receiver := emptyExpression span
      pure (.field span name (fieldOf? table receiver.type? name) receiver)
  | some object =>
      let scope := (← get).scope
      if field.any (·.kind == .this) then
        let qualifier := table.source.dottedName object
        let type := table.qualified? scope qualifier <|> table.simple? scope qualifier
        pure (.this span (some qualifier) type)
      else if object.kind == .super then pure (.superField span name none none)
      else if children.hasQualifiedSuper then
        pure (.superField span name none (some (table.source.dottedName object)))
      else
        let receiver := (← receiver).getD (emptyExpression span)
        let binding := fieldOf? table receiver.type? name
        if object.isNameChain then
          let dotted := table.source.dottedName (.node head children)
          let bound := (binding.map .ofVariable) <|> (table.qualified? scope dotted).map .ofType
          pure (.qualified span name bound receiver)
        else pure (.field span name binding receiver)

/-- A name is a variable in scope, or else a type. -/
def simpleName (table : TypeTable) (head : ConcreteHead) : Lowering Node := do
  let names ← get
  let name := table.source.textOf head
  let binding := match names.lookup name with
    | some entry => entry.map NameBinding.ofVariable
    | none => ((table.simple? names.scope name).filter (·.kind != .typeVariable)).map .ofType
  pure (.simple (table.source.spanOf head) name binding)

def thisExpression (table : TypeTable) (head : ConcreteHead) : Lowering Node := do
  pure (.this (table.source.spanOf head) none (← get).self?)

def cast (table : TypeTable) (head : ConcreteHead) (children : Forest)
    (operand : Lowering (Option Node)) : Lowering Node := do
  let span := table.source.spanOf head
  let type ← typeOf table head children
  pure (.cast span type ((← operand).getD (emptyExpression span)))

/-- `operand instanceof Type`. A variable of the type declared with it stays in scope behind the
expression. -/
def instanceCheck (table : TypeTable) (tested : Concrete) (head : ConcreteHead) (children : Forest)
    (operand : Lowering (Option Node)) : Lowering Node := do
  let span := table.source.spanOf head
  let type ← typeUse table tested
  let operand := (← operand).getD (emptyExpression span)
  let check := .instanceCheck span type (some TypeBinding.boolean) operand
  match children.child? .name with
  | none => pure check
  | some tree =>
      let name := table.source.textOf tree.head
      declareLocal name type
      pure (.expression span (some TypeBinding.boolean) (some (name, type)) [check])

/-- Brings a parameter of a lambda expression into scope; its type is known only if it is
written. -/
def declareLambdaParameter (table : TypeTable) (tree : Concrete) : Lowering Unit :=
  match tree.kind with
  | .identifier => declareHidden (table.source.textOf tree.head)
  | .formalParameter => do
      let name := table.source.childText .name tree.children
      declareLocal name (← typeOf table tree.head tree.children)
  | _ => pure ()

def declareLambdaParameters (table : TypeTable) (children : Forest) : Lowering Unit :=
  match children.child? .parameters with
  | none => pure ()
  | some parameters =>
      if parameters.kind == .identifier then declareLambdaParameter table parameters
      else parameters.children.named.forM (declareLambdaParameter table)

/-- Of a lambda expression only the body is kept, as a part of the method around it. -/
def lambda (table : TypeTable) (head : ConcreteHead) (children : Forest)
    (body : Lowering (Option Node)) : Lowering Node := do
  let body ← inLevel [] do
    declareLambdaParameters table children
    body
  pure (.expression (table.source.spanOf head) none none body.toList)

/-- The collection is lowered outside of the scope of the loop variable. -/
def enhancedFor (table : TypeTable) (head : ConcreteHead) (children : Forest)
    (collection body : Lowering (Option Node)) : Lowering Node := do
  let type := (← typeOf table head children).withDimensions children.extraDimensions
  let name := table.source.childText .name children
  let collection ← collection
  let body ← inLevel [] do
    declareLocal name type
    body
  pure (.expression (table.source.spanOf head) none (some (name, type))
    (collection.toList ++ body.toList))

/-- The variable of a `catch` clause has the first of the types that the clause lists. -/
def catchClause (table : TypeTable) (head : ConcreteHead) (children : Forest)
    (body : Lowering (Option Node)) : Lowering Node := do
  let span := table.source.spanOf head
  let parameter : Forest := ((children.first? (· == .catchParameter)).map (·.children)).getD []
  let name := table.source.childText .name parameter
  let caught : Forest := ((parameter.first? (· == .catchType)).map (·.children)).getD []
  let type ← match caught.first? (·.isType) with
    | some tree => typeUse table tree
    | none => pure (TypeUse.unknown span)
  let body ← inLevel [] do
    declareLocal name type
    body
  pure (.expression span none (some (name, type)) body.toList)

def resource (table : TypeTable) (name : Concrete) (head : ConcreteHead) (children : Forest)
    (value : Lowering (Option Node)) : Lowering Node := do
  let name := table.source.textOf name.head
  let type ← typeOf table head children
  let value ← value
  declareLocal name type
  pure (.expression (table.source.spanOf head) none (some (name, type)) value.toList)

/-- Number of dimensions of a created array, with and without a length. -/
def createdDimensions (children : Forest) : Nat :=
  children.foldl (fun total tree =>
    match tree.kind with
    | .dimensionExpression => total + 1
    | .dimensions => total + tree.children.brackets
    | _ => total) 0

def arrayCreation (table : TypeTable) (head : ConcreteHead) (children : Forest)
    (parts : Lowering (List Node)) : Lowering Node := do
  let element ← (children.child? .type).mapM (typeUse table)
  let type := (element.bind (·.binding)).map fun binding =>
    TypeBinding.array binding (max (createdDimensions children) 1)
  pure (.expression (table.source.spanOf head) type none (← parts))

end JavaFacts.Lowering
