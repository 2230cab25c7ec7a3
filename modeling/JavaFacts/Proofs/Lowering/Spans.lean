import JavaFacts.Proofs.Lowering.Constructs
import JavaFacts.Proofs.Source.Text

/-!
Where lowered nodes lie. A parser places the nodes of a tree within each other by bytes; counted in
characters they still lie within each other. A construct has the span of the tree that it is lowered
from, and what is lowered from the trees inside lies in that span.
-/

namespace JavaFacts

namespace Span

variable {outer middle inner : Span}

theorem contains_iff : outer.contains inner ↔ outer.start ≤ inner.start ∧ inner.stop ≤ outer.stop := by
  rw [contains, Bool.and_eq_true, decide_eq_true_eq, decide_eq_true_eq]

theorem contains_refl (span : Span) : span.contains span :=
  contains_iff.mpr ⟨Nat.le_refl _, Nat.le_refl _⟩

theorem contains_trans (first : outer.contains middle) (second : middle.contains inner) :
    outer.contains inner := by
  rw [contains_iff] at first second ⊢
  exact ⟨first.1.trans second.1, second.2.trans first.2⟩

end Span

/-- Both ends of a node lie between those of another one, as bytes. -/
structure ConcreteHead.LiesIn (inner outer : ConcreteHead) : Prop where
  start : outer.start ≤ inner.start ∧ inner.start ≤ outer.stop
  stop : outer.start ≤ inner.stop ∧ inner.stop ≤ outer.stop

namespace SourceText

variable {text : String} {earlier later byte : Nat} {inner outer : ConcreteHead}

theorem characterOffset_le (ordered : earlier ≤ later) (within : later ≤ text.utf8ByteSize) :
    (ofString text).characterOffset earlier ≤ (ofString text).characterOffset later := by
  rw [characterOffset_eq_count (ordered.trans within), characterOffset_eq_count within]
  exact Nat.count_mono_left fun _ _ before => before.trans_le ordered

theorem characterOffset_le_length (within : byte ≤ text.utf8ByteSize) :
    (ofString text).characterOffset byte ≤ text.length := by
  rw [characterOffset_eq_count within]
  exact Nat.count_le _

/-- An end that comes before the start is taken to be there. -/
theorem stop_spanOf (source : SourceText) (head : ConcreteHead) :
    (source.spanOf head).stop =
      max (source.characterOffset head.start) (source.characterOffset head.stop) := by
  simp only [spanOf, span, Span.between, Span.stop]
  omega

/-- What lies within something by its bytes does so by its characters. -/
theorem spanOf_contains (inside : inner.LiesIn outer) (within : outer.stop ≤ text.utf8ByteSize) :
    ((ofString text).spanOf outer).contains ((ofString text).spanOf inner) := by
  refine Span.contains_iff.mpr ⟨?_, ?_⟩
  · exact characterOffset_le inside.start.1 (inside.start.2.trans within)
  · rw [stop_spanOf, stop_spanOf]
    exact max_le ((characterOffset_le inside.start.2 within).trans (le_max_right _ _))
      ((characterOffset_le inside.stop.2 within).trans (le_max_right _ _))

theorem stop_spanOf_le {head : ConcreteHead} (start : head.start ≤ text.utf8ByteSize)
    (stop : head.stop ≤ text.utf8ByteSize) : ((ofString text).spanOf head).stop ≤ text.length := by
  rw [stop_spanOf]
  exact max_le (characterOffset_le_length start) (characterOffset_le_length stop)

end SourceText

namespace Concrete

/-- Every node lies within the one around it, as bytes. -/
inductive Nested : Concrete → Prop where
  | node {head : ConcreteHead} {children : Forest} :
      (∀ child ∈ children, child.head.LiesIn head) → (∀ child ∈ children, Nested child) →
      Nested (.node head children)

/-- The characters of a tree lie in a span, and those of every node in it in that of the node around
it. -/
inductive SpansNest (source : SourceText) : Span → Concrete → Prop where
  | node {around : Span} {head : ConcreteHead} {children : Forest} :
      around.contains (source.spanOf head) →
      (∀ child ∈ children, SpansNest source (source.spanOf head) child) →
      SpansNest source around (.node head children)

theorem SpansNest.contains {source : SourceText} {around : Span} {tree : Concrete}
    (nests : tree.SpansNest source around) : around.contains (source.spanOf tree.head) := by
  cases nests with
  | node within _ => exact within

theorem SpansNest.child {source : SourceText} {around : Span} {tree : Concrete}
    (nests : tree.SpansNest source around) :
    ∀ child ∈ tree.children, child.SpansNest source (source.spanOf tree.head) := by
  cases nests with
  | node _ inside => exact inside

theorem Nested.spansNest {text : String} {around : Span} {tree : Concrete} (nested : tree.Nested)
    (within : tree.head.stop ≤ text.utf8ByteSize)
    (here : around.contains ((SourceText.ofString text).spanOf tree.head)) :
    tree.SpansNest (SourceText.ofString text) around := by
  induction nested generalizing around with
  | @node head children lies _ ih =>
      refine .node here fun child member => ?_
      have inside := lies child member
      exact ih child member (inside.stop.2.trans within) (SourceText.spanOf_contains inside within)

end Concrete

namespace Node

/-- A node lies in a span, and every node reached from it in that of the node it was reached from. -/
inductive SpansNest : Span → Node → Prop where
  | node {around : Span} {node : Node} :
      around.contains node.span → (∀ child ∈ node.children, SpansNest node.span child) →
      SpansNest around node

namespace SpansNest

variable {around wider : Span} {node part : Node}

theorem contains (nests : node.SpansNest around) : around.contains node.span := by
  cases nests with
  | node within _ => exact within

theorem child (nests : node.SpansNest around) :
    ∀ child ∈ node.children, child.SpansNest node.span := by
  cases nests with
  | node _ inside => exact inside

theorem mono (nests : node.SpansNest around) (larger : wider.contains around) :
    node.SpansNest wider :=
  .node (Span.contains_trans larger nests.contains) nests.child

/-- A node has all of its own span. -/
theorem spanning (same : node.span = around)
    (inside : ∀ child ∈ node.children, child.SpansNest around) : node.SpansNest around := by
  subst same
  exact .node (Span.contains_refl _) inside

end SpansNest

end Node

namespace Lowering

variable {table : TypeTable} {self : Option TypeBinding} {head : ConcreteHead} {children : Forest}
  {around wider : Span}

def AllIn (around : Span) (nodes : List Node) : Prop :=
  ∀ node ∈ nodes, node.SpansNest around

def OptionIn (around : Span) (node : Option Node) : Prop :=
  ∀ found ∈ node, found.SpansNest around

def InitializersIn (around : Span) (declared : List DeclaredVariable) : Prop :=
  AllIn around (declared.filterMap (·.initializer?))

def BodyIn (around : Span) (anonymous : Option AnonymousClass) : Prop :=
  ∀ found ∈ anonymous, AllIn around found.body

namespace AllIn

variable {nodes others : List Node}

theorem nil : AllIn around [] :=
  fun _ => (nomatch ·)

theorem cons {node : Node} (here : node.SpansNest around) (rest : AllIn around nodes) :
    AllIn around (node :: nodes) :=
  List.forall_mem_cons.mpr ⟨here, rest⟩

theorem append (one : AllIn around nodes) (other : AllIn around others) :
    AllIn around (nodes ++ others) :=
  List.forall_mem_append.mpr ⟨one, other⟩

theorem mono (larger : wider.contains around) (nodes : List Node) (inside : AllIn around nodes) :
    AllIn wider nodes :=
  fun node member => (inside node member).mono larger

end AllIn

namespace OptionIn

variable {node : Option Node}

theorem none : OptionIn around none :=
  fun _ => (nomatch ·)

theorem some {node : Node} (nests : node.SpansNest around) : OptionIn around (some node) :=
  fun _ same => Option.some.inj same ▸ nests

theorem toList (inside : OptionIn around node) : AllIn around node.toList :=
  fun found member => inside found (Option.mem_toList.mp member)

theorem getD {other : Node} (inside : OptionIn around node) (otherwise : other.SpansNest around) :
    (node.getD other).SpansNest around := by
  cases node with
  | none => exact otherwise
  | some node => exact inside node rfl

theorem mono (larger : wider.contains around) (node : Option Node) (inside : OptionIn around node) :
    OptionIn wider node :=
  fun found same => (inside found same).mono larger

end OptionIn

theorem emptyExpression_spansNest {span : Span} (within : around.contains span) :
    (emptyExpression span).SpansNest around :=
  .node within AllIn.nil

theorem inBlock_spansNest {span : Span} {statements : Lowering (List Node)}
    (inside : Gives self statements (AllIn span)) :
    Gives self (inBlock span statements) (·.SpansNest span) :=
  .bind (inLevel_gives inside) fun _ nest => .pure (.spanning rfl nest)

theorem generic_spansNest {parts : Lowering (List Node)}
    (inside : Gives self parts (AllIn (table.source.spanOf head))) :
    Gives self (generic table head children parts) (OptionIn (table.source.spanOf head)) := by
  refine .bind inside fun nodes nest => ?_
  split
  · exact .pure .none
  · exact .pure (.some (.spanning rfl nest))

section

variable {arguments : Lowering (List Node)} {receiver : Lowering (Option Node)}
  (given : Gives self arguments (AllIn (table.source.spanOf head)))
  (reached : Gives self receiver (OptionIn (table.source.spanOf head)))
include given reached

theorem methodCall_spansNest : Gives self (methodCall table head children arguments receiver)
    (·.SpansNest (table.source.spanOf head)) := by
  refine .bind given fun nodes nest => ?_
  split
  · split
    · exact .pure (.spanning rfl nest)
    · split
      · exact .pure (.spanning rfl nest)
      · exact .bind reached fun _ first => .pure (.spanning rfl (first.toList.append nest))
  · exact .pure (.spanning rfl nest)

theorem constructorCall_spansNest :
    Gives self (constructorCall table head children arguments receiver)
      (·.SpansNest (table.source.spanOf head)) := by
  refine .bind given fun nodes nest => ?_
  split
  · exact .pure (.spanning rfl nest)
  · exact .bind reached fun _ first => .pure (.spanning rfl (first.toList.append nest))

end

theorem spansNest_creation {span : Span} {created : TypeUse} {receiver : Option Node}
    {arguments : List Node} {anonymous : Option AnonymousClass} (first : OptionIn span receiver)
    (given : AllIn span arguments) (inside : BodyIn span anonymous) :
    (Node.creation span created none receiver arguments anonymous).SpansNest span := by
  have body : AllIn span ((anonymous.map (·.body)).getD []) := by
    cases anonymous with
    | none => exact .nil
    | some anonymous => exact inside anonymous rfl
  exact .spanning rfl ((first.toList.append given).append body)

theorem creation_spansNest {arguments : Lowering (List Node)} {receiver : Lowering (Option Node)}
    {anonymous : Lowering (Option AnonymousClass)}
    (given : Gives self arguments (AllIn (table.source.spanOf head)))
    (reached : Gives self receiver (OptionIn (table.source.spanOf head)))
    (inside : Gives self anonymous (BodyIn (table.source.spanOf head))) :
    Gives self (creation table head children receiver arguments anonymous)
      (·.SpansNest (table.source.spanOf head)) :=
  .bind reached fun _ first => .andThen (typeOf_gives _ _ _) fun _ => .bind given fun _ nest =>
    .bind inside fun _ body => .pure (spansNest_creation first nest body)

theorem fieldAccess_spansNest {receiver : Lowering (Option Node)}
    (reached : Gives self receiver (OptionIn (table.source.spanOf head))) :
    Gives self (fieldAccess table head children receiver)
      (·.SpansNest (table.source.spanOf head)) := by
  have empty := emptyExpression_spansNest (Span.contains_refl (table.source.spanOf head))
  unfold fieldAccess
  dsimp only
  split
  · exact .pure (.spanning rfl (AllIn.cons empty .nil))
  · refine .get fun _ _ => ?_
    split
    · exact .pure (.spanning rfl AllIn.nil)
    · split
      · exact .pure (.spanning rfl AllIn.nil)
      · split
        · exact .pure (.spanning rfl AllIn.nil)
        · refine .bind reached fun node inside => ?_
          have receiver := AllIn.cons (inside.getD empty) .nil
          split
          · exact .pure (.spanning rfl receiver)
          · exact .pure (.spanning rfl receiver)

theorem simpleName_spansNest :
    Gives self (simpleName table head) (·.SpansNest (table.source.spanOf head)) :=
  .get fun _ _ => .pure (.spanning rfl AllIn.nil)

theorem thisExpression_spansNest :
    Gives self (thisExpression table head) (·.SpansNest (table.source.spanOf head)) :=
  .get fun _ _ => .pure (.spanning rfl AllIn.nil)

section

variable {operand : Lowering (Option Node)}
  (inside : Gives self operand (OptionIn (table.source.spanOf head)))
include inside

theorem cast_spansNest :
    Gives self (cast table head children operand) (·.SpansNest (table.source.spanOf head)) :=
  .andThen (typeOf_gives _ _ _) fun _ => .bind inside fun _ nests =>
    .pure (.spanning rfl (AllIn.cons
      (nests.getD (emptyExpression_spansNest (Span.contains_refl _))) .nil))

/-- The variable of a pattern stands in a node of its own around the check, with the same span. -/
theorem instanceCheck_spansNest (tested : Concrete) :
    Gives self (instanceCheck table tested head children operand)
      (·.SpansNest (table.source.spanOf head)) := by
  refine .andThen (typeUse_gives _ _) fun type => .bind inside fun node nests => ?_
  have checked := nests.getD (emptyExpression_spansNest (Span.contains_refl _))
  have check : (Node.instanceCheck (table.source.spanOf head) type (some TypeBinding.boolean)
      (node.getD (emptyExpression (table.source.spanOf head)))).SpansNest
      (table.source.spanOf head) :=
    .spanning rfl (AllIn.cons checked .nil)
  split
  · exact .pure check
  · exact .andThen (declareLocal_gives _ _) fun _ => .pure (.spanning rfl (AllIn.cons check .nil))

theorem lambda_spansNest :
    Gives self (lambda table head children operand) (·.SpansNest (table.source.spanOf head)) :=
  .bind (inLevel_gives (.andThen (declareLambdaParameters_gives _ _) fun _ => inside)) fun _ nests =>
    .pure (.spanning rfl nests.toList)

theorem catchClause_spansNest :
    Gives self (catchClause table head children operand)
      (·.SpansNest (table.source.spanOf head)) := by
  have caught (name : String) (type : TypeUse) :
      Gives self (do
        let body ← inLevel [] do
          declareLocal name type
          operand
        pure (Node.expression (table.source.spanOf head) none (some (name, type)) body.toList))
        (·.SpansNest (table.source.spanOf head)) :=
    .bind (inLevel_gives (.andThen (declareLocal_gives _ _) fun _ => inside)) fun _ nests =>
      .pure (.spanning rfl nests.toList)
  unfold catchClause
  dsimp only
  split
  · exact .andThen (typeUse_gives _ _) fun _ => caught _ _
  · exact caught _ _

theorem resource_spansNest (name : Concrete) :
    Gives self (resource table name head children operand)
      (·.SpansNest (table.source.spanOf head)) :=
  .andThen (typeOf_gives _ _ _) fun _ => .bind inside fun _ nests =>
    .andThen (declareLocal_gives _ _) fun _ => .pure (.spanning rfl nests.toList)

theorem enhancedFor_spansNest {collection : Lowering (Option Node)}
    (collected : Gives self collection (OptionIn (table.source.spanOf head))) :
    Gives self (enhancedFor table head children collection operand)
      (·.SpansNest (table.source.spanOf head)) :=
  .andThen (typeOf_gives _ _ _) fun _ => .bind collected fun _ first =>
    .bind (inLevel_gives (.andThen (declareLocal_gives _ _) fun _ => inside)) fun _ second =>
      .pure (.spanning rfl (first.toList.append second.toList))

end

theorem arrayCreation_spansNest {parts : Lowering (List Node)}
    (inside : Gives self parts (AllIn (table.source.spanOf head))) :
    Gives self (arrayCreation table head children parts)
      (·.SpansNest (table.source.spanOf head)) :=
  .andThen (optionUse_gives _ _) fun _ => .bind inside fun _ nest => .pure (.spanning rfl nest)

theorem initializersIn_cons {declarator : Declarator} {initializer : Option Node}
    {declared : List DeclaredVariable} (first : OptionIn around initializer)
    (others : InitializersIn around declared) :
    InitializersIn around (.mk declarator initializer :: declared) := by
  cases initializer with
  | none => exact others
  | some node => exact AllIn.cons (first node rfl) others

/-- A parameter has the span of a tree in the list of parameters. -/
theorem contains_of_mem_formalParameters {scope : TypeScope} {parameter : FormalParameter}
    (inside : ∀ child ∈ children, child.SpansNest table.source around)
    (member : parameter ∈ formalParameters table scope children) : around.contains parameter.span := by
  rw [formalParameters] at member
  split at member
  · rename_i list found
    have here := inside list (List.mem_of_find?_eq_some found)
    obtain ⟨tree, listed, read⟩ := List.mem_filterMap.mp member
    have there := here.child tree (List.mem_filter.mp listed).1
    have same : parameter.span = table.source.spanOf tree.head := by
      rw [formalParameter?] at read
      dsimp only at read
      split at read
      · rw [← Option.some.inj read]
      · obtain ⟨_, -, read⟩ := Option.bind_eq_some_iff.mp read
        rw [← Option.some.inj read]
      · cases read
    rw [same]
    exact Span.contains_trans here.contains there.contains
  · cases member

theorem componentFields_in {components : List FormalParameter}
    (within : ∀ component ∈ components, around.contains component.span) :
    AllIn around (components.map componentField) := by
  intro node member
  obtain ⟨component, listed, rfl⟩ := List.mem_map.mp member
  exact .node (within component listed) AllIn.nil

theorem typeDeclaration_spansNest (placement : Placement)
    (inside : ∀ child ∈ children, child.SpansNest table.source (table.source.spanOf head))
    {members : Option TypeUse → Lowering (List Node)}
    (within : ∀ self created,
      Gives self (members created) (AllIn (table.source.spanOf head))) :
    Gives self (typeDeclaration table placement head children members)
      (·.SpansNest (table.source.spanOf head)) := by
  refine .get fun names here => withTypeParameters_gives (.andThen (optionUse_gives _ _)
    fun superclass => .andThen ?_ fun interfaces => ?_)
  · exact .weaken (.mapM fun type _ => typeUse_gives table type) fun _ _ => trivial
  · refine .bind (inType_gives (.get fun _ _ => .bind (withComponents_gives (within _ _))
      fun nodes nest => .pure ((componentFields_in ?_).append nest)))
      fun _ nest => .pure (.spanning rfl nest)
    intro component listed
    split at listed
    · exact contains_of_mem_formalParameters inside listed
    · cases listed

theorem anonymousClass_spansNest {members : Lowering (List Node)}
    (within : ∀ self, Gives self members (AllIn around)) :
    Gives self (anonymousClass table head children members)
      fun anonymous => BodyIn around (some anonymous) :=
  .bind (inType_gives (within none)) fun _ nest => .pure fun _ same => Option.some.inj same ▸ nest

theorem methodDeclaration_spansNest {isConstructor : Bool} {body : Lowering (Option Node)}
    (within : Gives self body (OptionIn (table.source.spanOf head))) :
    Gives self (methodDeclaration table isConstructor head children body)
      (·.SpansNest (table.source.spanOf head)) :=
  withTypeParameters_gives (.get fun _ _ => .bind
    (inLevel_gives (.andThen (.forM fun _ _ => declareLocal_gives _ _) fun _ => within))
    fun _ nests => .pure (.spanning rfl nests.toList))

section

variable {declared : Lowering (List DeclaredVariable)}
  (within : Gives self declared (InitializersIn (table.source.spanOf head)))
include within

theorem fieldDeclaration_spansNest : Gives self (fieldDeclaration table head children declared)
    (·.SpansNest (table.source.spanOf head)) :=
  .andThen (typeOf_gives _ _ _) fun _ => .bind within fun _ nest => .pure (.spanning rfl nest)

theorem localVariables_spansNest : Gives self (localVariables table head children declared)
    (·.SpansNest (table.source.spanOf head)) :=
  .andThen (typeOf_gives _ _ _) fun _ => .bind within fun _ nest =>
    .andThen (.forM fun _ _ => declareLocal_gives _ _) fun _ => .pure (.spanning rfl nest)

end

/-- The creation that a constant stands for has the span of the constant. -/
theorem enumConstant_spansNest {created : TypeUse} {arguments : Lowering (List Node)}
    {anonymous : Lowering (Option AnonymousClass)}
    (given : Gives self arguments (AllIn (table.source.spanOf head)))
    (inside : Gives self anonymous (BodyIn (table.source.spanOf head))) :
    Gives self (enumConstant table created head children arguments anonymous)
      (·.SpansNest (table.source.spanOf head)) :=
  .bind given fun _ nest => .bind inside fun _ body =>
    .pure (.spanning rfl (AllIn.cons (spansNest_creation .none nest body) .nil))

end Lowering

end JavaFacts
