import JavaFacts.Lowering.Declarations
import JavaFacts.Lowering.Expressions

/-!
The walk over a concrete syntax tree. It goes down the tree node by node; wherever a construct picks
out one of its parts, a function on the list of parts finds it and goes on from there.
-/

namespace JavaFacts.Lowering

mutual

/-- A statement or expression; nothing for a node that no fact depends on. -/
def lower (table : TypeTable) : Concrete → Lowering (Option Node)
  | .node head children =>
      match literalType? table.source head with
      | some binding => pure (some (.expression (table.source.spanOf head) (some binding) none []))
      | none =>
          match head.kind with
          | .block | .constructorBody =>
              some <$> inBlock (table.source.spanOf head) (lowerNamed table children)
          | .wrapping => lowerFirst table (·.isContent) children
          | .labeled => lowerLast table children
          | .inert | .comment | .modifiers | .typeArguments | .dimensions => pure none
          | .typeIdentifier | .scopedTypeIdentifier | .genericType | .arrayType | .primitiveType
          | .annotatedType => pure none
          | .classDeclaration | .interfaceDeclaration | .enumDeclaration | .recordDeclaration =>
              some <$> typeDeclaration table .localType head children
                (membersOfBody table · children)
          | .localVariables =>
              some <$> localVariables table head children (declaredVariables table children)
          | .constructorCall =>
              some <$> constructorCall table head children (argumentsOf table children)
                (operandFirst table (·.hasRole .object) children)
          | .methodCall =>
              some <$> methodCall table head children (argumentsOf table children)
                (operandFirst table (·.hasRole .object) children)
          | .creation =>
              some <$> creation table head children (outerInstance table children)
                (argumentsOf table children)
                (anonymousFirst table (·.isNamedOf (· == .classBody)) children)
          | .fieldAccess =>
              some <$> fieldAccess table head children
                (operandFirst table (·.hasRole .object) children)
          | .identifier => some <$> simpleName table head
          | .this => some <$> thisExpression table head
          | .cast =>
              some <$> cast table head children (operandFirst table (·.hasRole .value) children)
          | .instanceCheck =>
              match Forest.child? .right children with
              | some tested =>
                  some <$> instanceCheck table tested head children
                    (operandFirst table (·.hasRole .left) children)
              | none => generic table head children (lowerNamed table children)
          | .lambda =>
              some <$> lambda table head children (lowerFirst table (·.hasRole .body) children)
          | .enhancedFor =>
              some <$> enhancedFor table head children
                (lowerFirst table (·.hasRole .value) children)
                (lowerFirst table (·.hasRole .body) children)
          | .catchClause =>
              some <$> catchClause table head children
                (blockFirst table (·.hasRole .body) children)
          | .resource =>
              match Forest.child? .name children with
              | some name =>
                  some <$> resource table name head children
                    (lowerFirst table (·.hasRole .value) children)
              | none => lowerFirst table (·.isContent) children
          | .arrayCreation =>
              some <$> arrayCreation table head children (lowerNamed table children)
          | .ownScope => inLevel [] (generic table head children (lowerNamed table children))
          | _ => generic table head children (lowerNamed table children)
termination_by structural tree => tree

def lowerNamed (table : TypeTable) : List Concrete → Lowering (List Node)
  | [] => pure []
  | tree :: forest => do
      if tree.head.isNamed then
        let node ← lower table tree
        let nodes ← lowerNamed table forest
        pure (node.toList ++ nodes)
      else lowerNamed table forest
termination_by structural forest => forest

/-- The first node that `accepts` takes. -/
def lowerFirst (table : TypeTable) (accepts : ConcreteHead → Bool) :
    List Concrete → Lowering (Option Node)
  | [] => pure none
  | tree :: forest =>
      if accepts tree.head then lower table tree else lowerFirst table accepts forest
termination_by structural forest => forest

/-- The last named node. -/
def lowerLast (table : TypeTable) : List Concrete → Lowering (Option Node)
  | [] => pure none
  | tree :: forest =>
      if tree.head.isNamed && !forest.any (·.isNamed) then lower table tree
      else lowerLast table forest
termination_by structural forest => forest

/-- Like `lowerFirst`, for an expression that must not be left out. -/
def operandFirst (table : TypeTable) (accepts : ConcreteHead → Bool) :
    List Concrete → Lowering (Option Node)
  | [] => pure none
  | tree :: forest => do
      if accepts tree.head then
        let node ← lower table tree
        pure (some (node.getD (emptyExpression (table.source.spanOf tree.head))))
      else operandFirst table accepts forest
termination_by structural forest => forest

/-- The expression in front of `new`. -/
def outerInstance (table : TypeTable) : List Concrete → Lowering (Option Node)
  | [] => pure none
  | tree :: forest => do
      if tree.kind == .new then pure none
      else if tree.head.isNamed && !(forest.takeWhile (·.kind != .new)).any (·.isNamed) then
        let node ← lower table tree
        pure (some (node.getD (emptyExpression (table.source.spanOf tree.head))))
      else outerInstance table forest
termination_by structural forest => forest

/-- The arguments among the nodes of an argument list. -/
def operands (table : TypeTable) : List Concrete → Lowering (List Node)
  | [] => pure []
  | tree :: forest => do
      if tree.head.isContent then
        let node ← lower table tree
        let nodes ← operands table forest
        pure (node.getD (emptyExpression (table.source.spanOf tree.head)) :: nodes)
      else operands table forest
termination_by structural forest => forest

def argumentsOf (table : TypeTable) : List Concrete → Lowering (List Node)
  | [] => pure []
  | .node head children :: forest =>
      if head.hasRole .arguments then operands table children else argumentsOf table forest
termination_by structural forest => forest

/-- The first node that `accepts` takes, as a block whatever its kind is. -/
def blockFirst (table : TypeTable) (accepts : ConcreteHead → Bool) :
    List Concrete → Lowering (Option Node)
  | [] => pure none
  | .node head children :: forest =>
      if accepts head then
        some <$> inBlock (table.source.spanOf head) (lowerNamed table children)
      else blockFirst table accepts forest
termination_by structural forest => forest

def declaredVariables (table : TypeTable) : List Concrete → Lowering (List DeclaredVariable)
  | [] => pure []
  | .node head children :: forest => do
      if head.hasRole .declarator then
        let initializer ← lowerFirst table (·.hasRole .value) children
        let others ← declaredVariables table forest
        pure (declaredVariable table.source head children initializer :: others)
      else declaredVariables table forest
termination_by structural forest => forest

def anonymousFirst (table : TypeTable) (accepts : ConcreteHead → Bool) :
    List Concrete → Lowering (Option AnonymousClass)
  | [] => pure none
  | .node head children :: forest =>
      if accepts head then
        some <$> anonymousClass table head children (membersIn table none true children)
      else anonymousFirst table accepts forest
termination_by structural forest => forest

/-- The members in the body of a declaration. -/
def membersOfBody (table : TypeTable) (created : Option TypeUse) :
    List Concrete → Lowering (List Node)
  | [] => pure []
  | .node head children :: forest =>
      if head.hasRole .body then membersIn table created true children
      else membersOfBody table created forest
termination_by structural forest => forest

/-- The members among the nodes of a body. The group behind the constants of an enum is opened, but
only at the top of the body. -/
def membersIn (table : TypeTable) (created : Option TypeUse) (atTop : Bool) :
    List Concrete → Lowering (List Node)
  | [] => pure []
  | .node head children :: forest => do
      let here ←
        if !head.isNamed then pure []
        else if atTop && head.kind == .enumBodyDeclarations then
          membersIn table created false children
        else Option.toList <$> member table created (.node head children)
      let others ← membersIn table created atTop forest
      pure (here ++ others)
termination_by structural forest => forest

/-- A member of a type; nothing for a node that is no member. -/
def member (table : TypeTable) (created : Option TypeUse) : Concrete → Lowering (Option Node)
  | .node head children =>
      let span := table.source.spanOf head
      match head.kind with
      | .fieldDeclaration =>
          some <$> fieldDeclaration table head children (declaredVariables table children)
      | .methodDeclaration =>
          some <$> methodDeclaration table false head children
            (blockFirst table (·.hasRole .body) children)
      | .constructorDeclaration | .compactConstructor =>
          some <$> methodDeclaration table true head children
            (blockFirst table (·.hasRole .body) children)
      | .block => do
          let body ← inBlock span (lowerNamed table children)
          pure (some (.initializer span false body))
      | .staticInitializer => do
          let body ← blockFirst table (·.isNamedOf (· == .block)) children
          pure (body.map (.initializer span true ·))
      | .enumConstant =>
          match created with
          | some type =>
              some <$> enumConstant table type head children (argumentsOf table children)
                (anonymousFirst table (·.hasRole .body) children)
          | none => pure none
      | .classDeclaration | .interfaceDeclaration | .enumDeclaration | .recordDeclaration =>
          some <$> typeDeclaration table .member head children (membersOfBody table · children)
      | _ => pure none
termination_by structural tree => tree

end

/-- A top-level type. -/
def topLevel (table : TypeTable) (tree : Concrete) : Lowering Node :=
  typeDeclaration table .topLevel tree.head tree.children (membersOfBody table · tree.children)

end JavaFacts.Lowering
