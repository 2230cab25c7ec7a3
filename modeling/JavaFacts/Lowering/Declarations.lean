import JavaFacts.Lowering.Names

/-!
Declarations of types, methods and variables. What is inside of them is lowered by the actions that
these functions receive, in the scopes that they open around them.
-/

namespace JavaFacts.Lowering

/-- A local type cannot be named from elsewhere. -/
inductive Placement where
  | topLevel
  | member
  | localType
deriving Repr, DecidableEq, Inhabited

/-- Binding of a declared type, if the file can name it. -/
def declaredBinding? (table : TypeTable) (names : Names) (placement : Placement) (name : String) :
    Option TypeBinding :=
  match placement with
  | .topLevel => table.binding? (table.qualify name)
  | .member => do table.binding? (TypeTable.memberName (← names.self?).name name)
  | .localType => none

def declarationKind : ConcreteKind → DeclarationKind
  | .interfaceDeclaration => .interface
  | .enumDeclaration => .enumeration
  | _ => .ofClass

def ownFieldNames (source : SourceText) (body : Forest) : List String :=
  (body.members.filter (·.kind == .fieldDeclaration)).flatMap fun declaration =>
    (declaration.children.filter (·.head.hasRole .declarator)).map fun declarator =>
      source.childText .name declarator.children

/-- The fields of a body that hide other names without being bound themselves. -/
def unboundFields (source : SourceText) (body : Forest) : VariableLevel :=
  (ownFieldNames source body).map fun name => (name, none)

def formalParameter? (table : TypeTable) (scope : TypeScope) (tree : Concrete) :
    Option FormalParameter :=
  let span := table.source.spanOf tree.head
  let children := tree.children
  let modifiers := children.modifiers
  match tree.kind with
  | .formalParameter =>
      let type := (table.typeOf scope tree.head children).withDimensions children.extraDimensions
      some ⟨span, table.source.childText .name children, type, modifiers, none⟩
  | .spreadParameter => do
      let declarator ← children.first? (· == .variableDeclarator)
      let written := match children.first? (·.isType) with
        | some type => table.typeUse scope type
        | none => TypeUse.unknown span
      let type := written.withDimensions (declarator.children.extraDimensions + 1)
      some ⟨span, table.source.childText .name declarator.children, type, modifiers, none⟩
  | _ => none

def formalParameters (table : TypeTable) (scope : TypeScope) (declaration : Forest) :
    List FormalParameter :=
  match declaration.child? .parameters with
  | some list => list.children.named.filterMap (formalParameter? table scope)
  | none => []

def componentField (component : FormalParameter) : Node :=
  .fields component.span ⟨Modifiers.isPrivate ∪ Modifiers.isFinal, component.type⟩
    [.mk ⟨component.span, component.name, 0, none⟩ none]

def interfaceTrees (declaration : Forest) : List Concrete :=
  ((declaration.filter (·.kind == .interfaces)).flatMap fun clause =>
    clause.children.namedOf (· == .typeList)).flatMap fun list => list.children.named

/-- A type with its members. The action gets the type that the constants of an enum create. -/
def typeDeclaration (table : TypeTable) (placement : Placement) (head : ConcreteHead)
    (children : Forest) (members : Option TypeUse → Lowering (List Node)) : Lowering Node := do
  let span := table.source.spanOf head
  let nameTree := children.child? .name
  let name := (nameTree.map fun tree => table.source.textOf tree.head).getD ""
  let binding := declaredBinding? table (← get) placement name
  let kind := declarationKind head.kind
  withTypeParameters table children do
    let supertypes := children.child? .superclass
    let superclass ← (supertypes.bind (·.children.first? (·.isType))).mapM (typeUse table)
    let interfaces ← (interfaceTrees children).mapM (typeUse table)
    let fields := match binding with
      | some binding => table.visibleFields binding.name
      | none =>
          match children.child? .body with
          | some body => unboundFields table.source body.children
          | none => []
    let body ← inType binding fields do
      let scope := (← get).scope
      let components :=
        if head.kind == .recordDeclaration then formalParameters table scope children else []
      let own := (nameTree.map fun tree => table.source.spanOf tree.head).getD span
      let created := if kind == .enumeration then some ⟨own, .simple name, binding⟩ else none
      let inside ← withComponents components (members created)
      pure (components.map componentField ++ inside)
    let header : TypeHeader := {
      kind, name, modifiers := children.modifiers, binding
      typeParameters := TypeTable.typeParameterNames table.source children, superclass, interfaces }
    pure (.type span header body)

/-- The body of an anonymous class, in which no type can be named `this`. -/
def anonymousClass (table : TypeTable) (head : ConcreteHead) (children : Forest)
    (members : Lowering (List Node)) : Lowering AnonymousClass := do
  let body ← inType none (unboundFields table.source children) members
  pure (.mk (table.source.spanOf head) none body)

/-- A method or constructor. Its parameters form a level of their own around the body. -/
def methodDeclaration (table : TypeTable) (isConstructor : Bool) (head : ConcreteHead)
    (children : Forest) (body : Lowering (Option Node)) : Lowering Node :=
  withTypeParameters table children do
    let names ← get
    let parameters :=
      if head.kind == .compactConstructor then names.components
      else formalParameters table names.scope children
    let returned := (table.typeOf names.scope head children).withDimensions children.extraDimensions
    let inside ← inLevel [] do
      parameters.forM fun parameter => declareLocal parameter.name parameter.type
      body
    let header : MethodHeader := {
      name := table.source.childText .name children, isConstructor, modifiers := children.modifiers
      binding := none, parameters, returnType := if isConstructor then none else some returned }
    pure (.method (table.source.spanOf head) header inside)

/-- One variable of a declaration. -/
def declaredVariable (source : SourceText) (head : ConcreteHead) (children : Forest)
    (initializer : Option Node) : DeclaredVariable :=
  .mk ⟨source.spanOf head, source.childText .name children, children.extraDimensions, none⟩
    initializer

def fieldDeclaration (table : TypeTable) (head : ConcreteHead) (children : Forest)
    (declared : Lowering (List DeclaredVariable)) : Lowering Node := do
  let type ← typeOf table head children
  pure (.fields (table.source.spanOf head) ⟨children.modifiers, type⟩ (← declared))

/-- A constant of an enum is a static final field that holds a created object. -/
def enumConstant (table : TypeTable) (created : TypeUse) (head : ConcreteHead) (children : Forest)
    (arguments : Lowering (List Node)) (anonymous : Lowering (Option AnonymousClass)) :
    Lowering Node := do
  let span := table.source.spanOf head
  let arguments ← arguments
  let creation := .creation span created none none arguments (← anonymous)
  let modifiers := Modifiers.isPublic ∪ Modifiers.isStatic ∪ Modifiers.isFinal
  pure (.fields span ⟨modifiers, created⟩
    [.mk ⟨span, table.source.childText .name children, 0, none⟩ (some creation)])

/-- The type that `var` stands for is that of the first initializer, when it is known. -/
def inferred (type : TypeUse) (declared : List DeclaredVariable) : TypeUse :=
  match type.binding, type.written with
  | none, .simple "var" =>
      { type with binding := do (← (← declared.head?).initializer?).type? }
  | _, _ => type

/-- Local variables are in scope only behind all initializers of their declaration. -/
def localVariables (table : TypeTable) (head : ConcreteHead) (children : Forest)
    (declared : Lowering (List DeclaredVariable)) : Lowering Node := do
  let written ← typeOf table head children
  let declared ← declared
  let type := inferred written declared
  declared.forM fun entry =>
    declareLocal entry.declarator.name (type.withDimensions entry.declarator.extraDimensions)
  pure (.locals (table.source.spanOf head) ⟨children.modifiers, type⟩ declared)

end JavaFacts.Lowering
