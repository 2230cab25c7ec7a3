import JavaFacts.Lowering.Declarations
import JavaFacts.Lowering.Expressions
import JavaFacts.Proofs.Lowering.Selves
import JavaFacts.Proofs.Lowering.Shape

/-!
What the single constructs of a concrete tree are lowered to, given the shape of what is lowered
inside of them.
-/

namespace JavaFacts.Lowering

variable {table : TypeTable} {spelled : String → Prop} {self : Option TypeBinding}
  {head : ConcreteHead} {children : Forest}

/-- Statements and expressions in the code of a type. -/
def Code (table : TypeTable) (spelled : String → Prop) (self : Option TypeBinding)
    (nodes : List Node) : Prop :=
  ∀ node ∈ nodes, node.Shaped table spelled (.code self)

/-- A statement or expression in code, or none. -/
def CodeOption (table : TypeTable) (spelled : String → Prop) (self : Option TypeBinding)
    (node : Option Node) : Prop :=
  ∀ found ∈ node, found.Shaped table spelled (.code self)

namespace Code

variable {nodes others : List Node}

theorem nil : Code table spelled self [] :=
  fun _ => (nomatch ·)

theorem cons {node : Node} (here : node.Shaped table spelled (.code self))
    (rest : Code table spelled self nodes) : Code table spelled self (node :: nodes) :=
  List.forall_mem_cons.mpr ⟨here, rest⟩

theorem append (one : Code table spelled self nodes) (other : Code table spelled self others) :
    Code table spelled self (nodes ++ others) :=
  List.forall_mem_append.mpr ⟨one, other⟩

end Code

namespace CodeOption

variable {node : Option Node}

theorem none : CodeOption table spelled self none :=
  fun _ => (nomatch ·)

theorem some {node : Node} (shaped : node.Shaped table spelled (.code self)) :
    CodeOption table spelled self (some node) :=
  fun _ same => Option.some.inj same ▸ shaped

theorem toList (shaped : CodeOption table spelled self node) : Code table spelled self node.toList :=
  fun found member => shaped found (Option.mem_toList.mp member)

theorem getD {other : Node} (shaped : CodeOption table spelled self node)
    (otherwise : other.Shaped table spelled (.code self)) :
    (node.getD other).Shaped table spelled (.code self) := by
  cases node with
  | none => exact otherwise
  | some node => exact shaped node rfl

end CodeOption

theorem emptyExpression_shaped (span : Span) :
    (emptyExpression span).Shaped table spelled (.code self) :=
  .code rfl rfl Code.nil

theorem inBlock_gives {span : Span} {statements : Lowering (List Node)}
    (inside : Gives self statements (Code table spelled self)) :
    Gives self (inBlock span statements) fun node => node.Shaped table spelled (.code self) :=
  .bind (inLevel_gives inside) fun _ shaped => .pure (.code rfl rfl shaped)

theorem generic_gives {parts : Lowering (List Node)}
    (inside : Gives self parts (Code table spelled self)) :
    Gives self (generic table head children parts) (CodeOption table spelled self) := by
  refine .bind inside fun nodes shaped => ?_
  split
  · exact .pure .none
  · exact .pure (.some (.code rfl rfl shaped))

section

variable {arguments : Lowering (List Node)} {receiver : Lowering (Option Node)}
  (given : Gives self arguments (Code table spelled self))
  (reached : Gives self receiver (CodeOption table spelled self))
include given reached

theorem methodCall_gives : Gives self (methodCall table head children arguments receiver)
    fun node => node.Shaped table spelled (.code self) := by
  refine .bind given fun nodes shaped => ?_
  split
  · split
    · exact .pure (.code rfl rfl shaped)
    · split
      · exact .pure (.code rfl rfl shaped)
      · exact .bind reached fun _ first => .pure (.code rfl rfl (first.toList.append shaped))
  · exact .pure (.code rfl rfl shaped)

theorem constructorCall_gives : Gives self (constructorCall table head children arguments receiver)
    fun node => node.Shaped table spelled (.code self) := by
  refine .bind given fun nodes shaped => ?_
  split
  · exact .pure (.code rfl rfl shaped)
  · exact .bind reached fun _ first => .pure (.code rfl rfl (first.toList.append shaped))

end

/-- The body of an anonymous class, in which `this` is nothing that can be named. -/
def Anonymous (table : TypeTable) (spelled : String → Prop) (anonymous : Option AnonymousClass) :
    Prop :=
  ∀ found ∈ anonymous, ∃ place body, found = .mk place none body ∧
    ∀ node ∈ body, node.Shaped table spelled (.body none)

theorem shaped_creation {span : Span} {created : TypeUse} {receiver : Option Node}
    {arguments : List Node} {anonymous : Option AnonymousClass}
    (first : CodeOption table spelled self receiver) (given : Code table spelled self arguments)
    (inside : Anonymous table spelled anonymous) :
    (Node.creation span created none receiver arguments anonymous).Shaped table spelled
      (.code self) := by
  cases anonymous with
  | none => exact .code rfl rfl ((first.toList.append given).append .nil)
  | some anonymous =>
      obtain ⟨place, body, rfl, shaped⟩ := inside anonymous rfl
      exact .anonymous first given shaped

theorem creation_gives {arguments : Lowering (List Node)} {receiver : Lowering (Option Node)}
    {anonymous : Lowering (Option AnonymousClass)}
    (given : Gives self arguments (Code table spelled self))
    (reached : Gives self receiver (CodeOption table spelled self))
    (inside : Gives self anonymous (Anonymous table spelled)) :
    Gives self (creation table head children receiver arguments anonymous)
      fun node => node.Shaped table spelled (.code self) :=
  .bind reached fun _ first => .andThen (typeOf_gives _ _ _) fun _ => .bind given fun _ shaped =>
    .bind inside fun _ body => .pure (shaped_creation first shaped body)

theorem fieldAccess_gives {receiver : Lowering (Option Node)}
    (reached : Gives self receiver (CodeOption table spelled self)) :
    Gives self (fieldAccess table head children receiver)
      fun node => node.Shaped table spelled (.code self) := by
  have around {node : Node} (shaped : node.Shaped table spelled (.code self)) :
      Code table spelled self [node] := .cons shaped .nil
  unfold fieldAccess
  dsimp only
  split
  · exact .pure (.code rfl rfl (around (emptyExpression_shaped _)))
  · refine .get fun _ _ => ?_
    split
    · exact .pure (.code rfl rfl Code.nil)
    · split
      · exact .pure (.code rfl rfl Code.nil)
      · split
        · exact .pure (.code rfl rfl Code.nil)
        · refine .bind reached fun node shaped => ?_
          have shaped := shaped.getD (emptyExpression_shaped (table.source.spanOf head))
          split
          · exact .pure (.code rfl rfl (around shaped))
          · exact .pure (.code rfl rfl (around shaped))

theorem simpleName_gives :
    Gives self (simpleName table head) fun node => node.Shaped table spelled (.code self) :=
  .get fun _ _ => .pure (.code rfl rfl Code.nil)

theorem thisExpression_gives :
    Gives self (thisExpression table head) fun node => node.Shaped table spelled (.code self) :=
  .get fun _ _ => .pure (.code rfl rfl Code.nil)

theorem declareLambdaParameters_gives (table : TypeTable) (children : Forest) :
    Gives self (declareLambdaParameters table children) fun _ => True := by
  have declared (tree : Concrete) : Gives self (declareLambdaParameter table tree) fun _ => True := by
    unfold declareLambdaParameter
    split
    · exact declareHidden_gives _
    · exact .andThen (typeOf_gives _ _ _) fun _ => declareLocal_gives _ _
    · exact .pure trivial
  unfold declareLambdaParameters
  split
  · exact .pure trivial
  · split
    · exact declared _
    · exact .forM fun tree _ => declared tree

section

variable {operand : Lowering (Option Node)}
  (inside : Gives self operand (CodeOption table spelled self))
include inside

theorem cast_gives : Gives self (cast table head children operand)
    fun node => node.Shaped table spelled (.code self) :=
  .andThen (typeOf_gives _ _ _) fun _ => .bind inside fun _ shaped =>
    .pure (.code rfl rfl (Code.cons (shaped.getD (emptyExpression_shaped _)) .nil))

theorem instanceCheck_gives (tested : Concrete) :
    Gives self (instanceCheck table tested head children operand)
      fun node => node.Shaped table spelled (.code self) := by
  refine .andThen (typeUse_gives _ _) fun type => .bind inside fun node shaped => ?_
  have shaped := shaped.getD (emptyExpression_shaped (table.source.spanOf head))
  have check : (Node.instanceCheck (table.source.spanOf head) type (some TypeBinding.boolean)
      (node.getD (emptyExpression (table.source.spanOf head)))).Shaped table spelled (.code self) :=
    .code rfl rfl (Code.cons shaped .nil)
  split
  · exact .pure check
  · exact .andThen (declareLocal_gives _ _) fun _ => .pure (.code rfl rfl (Code.cons check .nil))

theorem lambda_gives : Gives self (lambda table head children operand)
    fun node => node.Shaped table spelled (.code self) :=
  .bind (inLevel_gives (.andThen (declareLambdaParameters_gives _ _) fun _ => inside))
    fun _ shaped => .pure (.code rfl rfl shaped.toList)

theorem catchClause_gives : Gives self (catchClause table head children operand)
    fun node => node.Shaped table spelled (.code self) := by
  have caught (name : String) (type : TypeUse) :
      Gives self (do
        let body ← inLevel [] do
          declareLocal name type
          operand
        pure (Node.expression (table.source.spanOf head) none (some (name, type)) body.toList))
        fun node => node.Shaped table spelled (.code self) :=
    .bind (inLevel_gives (.andThen (declareLocal_gives _ _) fun _ => inside)) fun _ shaped =>
      .pure (.code rfl rfl shaped.toList)
  unfold catchClause
  dsimp only
  split
  · exact .andThen (typeUse_gives _ _) fun _ => caught _ _
  · exact caught _ _

theorem resource_gives (name : Concrete) : Gives self (resource table name head children operand)
    fun node => node.Shaped table spelled (.code self) :=
  .andThen (typeOf_gives _ _ _) fun _ => .bind inside fun _ shaped =>
    .andThen (declareLocal_gives _ _) fun _ => .pure (.code rfl rfl shaped.toList)

theorem enhancedFor_gives {collection : Lowering (Option Node)}
    (collected : Gives self collection (CodeOption table spelled self)) :
    Gives self (enhancedFor table head children collection operand)
      fun node => node.Shaped table spelled (.code self) :=
  .andThen (typeOf_gives _ _ _) fun _ => .bind collected fun _ first =>
    .bind (inLevel_gives (.andThen (declareLocal_gives _ _) fun _ => inside)) fun _ second =>
      .pure (.code rfl rfl (first.toList.append second.toList))

end

theorem arrayCreation_gives {parts : Lowering (List Node)}
    (inside : Gives self parts (Code table spelled self)) :
    Gives self (arrayCreation table head children parts)
      fun node => node.Shaped table spelled (.code self) :=
  .andThen (optionUse_gives _ _) fun _ => .bind inside fun _ shaped =>
    .pure (.code rfl rfl shaped)

/-- Members in the body of a type. -/
def Members (table : TypeTable) (spelled : String → Prop) (self : Option TypeBinding)
    (nodes : List Node) : Prop :=
  ∀ node ∈ nodes, node.Shaped table spelled (.body self)

/-- The initializers of some variables. -/
def Initializers (table : TypeTable) (spelled : String → Prop) (self : Option TypeBinding)
    (declared : List DeclaredVariable) : Prop :=
  Code table spelled self (declared.filterMap (·.initializer?))

theorem initializers_cons {declarator : Declarator} {initializer : Option Node}
    {declared : List DeclaredVariable} (first : CodeOption table spelled self initializer)
    (others : Initializers table spelled self declared) :
    Initializers table spelled self (.mk declarator initializer :: declared) := by
  cases initializer with
  | none => exact others
  | some node => exact Code.cons (first node rfl) others

theorem componentFields_shaped (components : List FormalParameter) :
    Members table spelled self (components.map componentField) := by
  intro node member
  obtain ⟨component, -, rfl⟩ := List.mem_map.mp member
  exact .fields Code.nil

/-- Where a type with that placement stands. -/
def enclosure (self : Option TypeBinding) : Placement → Enclosure
  | .topLevel => .outside
  | .member => .body self
  | .localType => .code self

theorem declaredBinding?_eq {names : Names} (here : names.self? = self) (placement : Placement)
    (name : String) :
    declaredBinding? table names placement name = (enclosure self placement).declared? table name := by
  subst here
  cases placement <;> rfl

theorem typeDeclaration_gives (placement : Placement)
    (named : spelled (table.source.childText .name children))
    (parameters : ∀ parameter ∈ TypeTable.typeParameterNames table.source children, spelled parameter)
    {members : Option TypeUse → Lowering (List Node)}
    (within : ∀ binding created, Gives binding (members created) (Members table spelled binding)) :
    Gives self (typeDeclaration table placement head children members)
      fun node => node.Shaped table spelled (enclosure self placement) := by
  refine .get fun names here => withTypeParameters_gives (.andThen (optionUse_gives _ _)
    fun superclass => .andThen ?_ fun interfaces => ?_)
  · exact .weaken (.mapM fun type _ => typeUse_gives table type) fun _ _ => trivial
  · let binding := declaredBinding? table names placement (table.source.childText .name children)
    have bound : binding = _ := declaredBinding?_eq here placement _
    refine .bind (inType_gives (.get fun _ _ => .bind (withComponents_gives (within binding _))
      fun nodes shaped => .pure
        (List.forall_mem_append.mpr ⟨componentFields_shaped _, shaped⟩)))
      fun body (shaped : Members table spelled binding body) => .pure ?_
    exact .type named parameters bound shaped

theorem anonymousClass_gives {members : Lowering (List Node)}
    (within : Gives none members (Members table spelled none)) :
    Gives self (anonymousClass table head children members)
      fun anonymous => Anonymous table spelled (some anonymous) :=
  .bind (inType_gives within) fun _ shaped =>
    .pure fun _ same => ⟨_, _, (Option.some.inj same).symm, shaped⟩

theorem methodDeclaration_gives {isConstructor : Bool} {body : Lowering (Option Node)}
    (named : isConstructor = false → spelled (table.source.childText .name children))
    (within : Gives self body (CodeOption table spelled self)) :
    Gives self (methodDeclaration table isConstructor head children body)
      fun node => node.Shaped table spelled (.body self) :=
  withTypeParameters_gives (.get fun _ _ => .bind
    (inLevel_gives (.andThen (.forM fun _ _ => declareLocal_gives _ _) fun _ => within))
    fun _ shaped => .pure (.method named shaped))

section

variable {declared : Lowering (List DeclaredVariable)}
  (within : Gives self declared (Initializers table spelled self))
include within

theorem fieldDeclaration_gives : Gives self (fieldDeclaration table head children declared)
    fun node => node.Shaped table spelled (.body self) :=
  .andThen (typeOf_gives _ _ _) fun _ => .bind within fun _ shaped => .pure (.fields shaped)

theorem localVariables_gives : Gives self (localVariables table head children declared)
    fun node => node.Shaped table spelled (.code self) :=
  .andThen (typeOf_gives _ _ _) fun _ => .bind within fun _ shaped =>
    .andThen (.forM fun _ _ => declareLocal_gives _ _) fun _ => .pure (.code rfl rfl shaped)

end

theorem enumConstant_gives {created : TypeUse} {arguments : Lowering (List Node)}
    {anonymous : Lowering (Option AnonymousClass)}
    (given : Gives self arguments (Code table spelled self))
    (inside : Gives self anonymous (Anonymous table spelled)) :
    Gives self (enumConstant table created head children arguments anonymous)
      fun node => node.Shaped table spelled (.body self) :=
  .bind given fun _ shaped => .bind inside fun _ body =>
    .pure (.fields (Code.cons (shaped_creation .none shaped body) .nil))

end JavaFacts.Lowering
