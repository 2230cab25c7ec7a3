import JavaFacts.Lowering.TypeTable

/-!
The table of the types that a file declares. All names are collected first; superclasses and field
types are looked up when every name is known.
-/

namespace JavaFacts

structure TypeDeclaration where
  name : String
  binding : TypeBinding
  /-- Binary names of the type itself and of those around it, outwards. -/
  enclosing : List String
  tree : Forest
deriving Inhabited

namespace TypeTable

def declaredKind : ConcreteKind → TypeKind
  | .interfaceDeclaration => .interface
  | .enumDeclaration => .enumeration
  | _ => .ofClass

def declarationIn (table : TypeTable) (outer : List String) (head : ConcreteHead)
    (children : Forest) : TypeDeclaration :=
  let simple := table.source.childText .name children
  let name := match outer with
    | innermost :: _ => memberName innermost simple
    | [] => table.qualify simple
  let typeParameters := typeParameterNames table.source children
  ⟨name, { TypeBinding.named (declaredKind head.kind) name with typeParameters }, name :: outer,
    children⟩

mutual

def declarations (table : TypeTable) (outer : List String) : Concrete → List TypeDeclaration
  | .node head children =>
      let declaration := table.declarationIn outer head children
      declaration :: declarationsOfBody table declaration.enclosing children
termination_by structural tree => tree

def declarationsOfBody (table : TypeTable) (outer : List String) :
    List Concrete → List TypeDeclaration
  | [] => []
  | .node head children :: forest =>
      if head.hasRole .body then declarationsIn table outer true children
      else declarationsOfBody table outer forest
termination_by structural forest => forest

def declarationsIn (table : TypeTable) (outer : List String) (atTop : Bool) :
    List Concrete → List TypeDeclaration
  | [] => []
  | .node head children :: forest =>
      let here :=
        if !head.isNamed then []
        else if atTop && head.kind == .enumBodyDeclarations then
          declarationsIn table outer false children
        else if head.kind.isTypeDeclaration then declarations table outer (.node head children)
        else []
      here ++ declarationsIn table outer atTop forest
termination_by structural forest => forest

end

def memberFields (table : TypeTable) (scope : TypeScope) (own : TypeBinding) (member : Concrete) :
    List (String × Option TypeBinding) :=
  match member.kind with
  | .fieldDeclaration =>
      match member.children.child? .type with
      | none => []
      | some type =>
          let base := table.typeUse scope type
          (member.children.filter (·.head.hasRole .declarator)).map fun declarator =>
            (table.source.childText .name declarator.children,
              (base.withDimensions declarator.children.extraDimensions).binding)
  | .enumConstant => [(table.source.childText .name member.children, some own)]
  | _ => []

def componentFields (table : TypeTable) (scope : TypeScope) (declaration : Forest) :
    List (String × Option TypeBinding) :=
  match declaration.child? .parameters with
  | none => []
  | some components =>
      components.children.named.filterMap fun component => do
        let type ← component.children.child? .type
        some (table.source.childText .name component.children, (table.typeUse scope type).binding)

/-- Superclass and fields of a declared type, looked up in a table that knows all names. -/
def resolve (table : TypeTable) (declaration : TypeDeclaration) : DeclaredType :=
  let scope := table.declareParameters ⟨declaration.enclosing, []⟩ declaration.tree
  let superclass := do
    let clause ← declaration.tree.child? .superclass
    let binding ← (table.typeUse scope (← clause.children.first? (·.isType))).binding
    if (table.find? binding.name).isSome then some binding.name else none
  let members := match declaration.tree.child? .body with
    | some body => body.children.members
    | none => []
  { binding := declaration.binding
    enclosing := declaration.enclosing
    superclass
    fields := table.componentFields scope declaration.tree ++
      members.flatMap (table.memberFields scope declaration.binding) }

/-- Of two types with one name, the one declared last counts. -/
def declareAll (table : TypeTable) (top : Forest) : TypeTable :=
  let all : List TypeDeclaration :=
    ((top.filter (·.kind.isTypeDeclaration)).flatMap (table.declarations [])).reverse
  let unresolved (declaration : TypeDeclaration) : DeclaredType :=
    ⟨declaration.binding, declaration.enclosing, none, []⟩
  let withEntries (entry : TypeDeclaration → DeclaredType) : TypeTable :=
    { table with declared := all.map fun declaration => (declaration.name, entry declaration) }
  withEntries (withEntries unresolved).resolve

end TypeTable

end JavaFacts
