import JavaFacts.Lowering.Expressions
import JavaFacts.Proofs.Lowering.Grammar
import JavaFacts.Proofs.Lowering.Scopes

/-!
The variables and type parameters that a concrete tree declares, and how the simple names and the
types in a lowered tree are bound, construct by construct.
-/

namespace JavaFacts

namespace Concrete

/-- Names of the variables that a node declares itself: local variables and parameters, but also the
fields of a type. -/
def declaredNames (source : SourceText) (tree : Concrete) : List String :=
  let children := tree.children
  match tree.kind with
  | .localVariables | .fieldDeclaration =>
      (children.filter (·.head.hasRole .declarator)).map fun declarator =>
        source.childText .name declarator.children
  | .instanceCheck | .enhancedFor | .resource | .formalParameter =>
      [source.childText .name children]
  | .spreadParameter =>
      (children.first? (· == .variableDeclarator)).toList.map fun declarator =>
        source.childText .name declarator.children
  | .catchClause =>
      let parameter : Forest := ((children.first? (· == .catchParameter)).map (·.children)).getD []
      [source.childText .name parameter]
  | .lambda =>
      (children.child? .parameters).toList.flatMap fun parameters =>
        ((parameters :: parameters.children).filter (·.kind == .identifier)).map fun name =>
          source.textOf name.head
  | _ => []

/-- Somewhere in the tree a variable of that name is declared. -/
inductive Introduces (source : SourceText) (name : String) : Concrete → Prop where
  | here {tree : Concrete} : name ∈ tree.declaredNames source → Introduces source name tree
  | inside {tree child : Concrete} : child ∈ tree.children → Introduces source name child →
      Introduces source name tree

/-- Names of the type parameters that a node declares, and that of an enum, whose constants have the
enum as their type without writing it. -/
def openedNames (source : SourceText) (tree : Concrete) : List String :=
  TypeTable.typeParameterNames source tree.children ++
    if tree.kind = .enumDeclaration then [source.childText .name tree.children] else []

/-- Somewhere in the tree there is a type parameter of that name, or an enum. -/
inductive Opens (source : SourceText) (name : String) : Concrete → Prop where
  | here {tree : Concrete} : name ∈ tree.openedNames source → Opens source name tree
  | inside {tree child : Concrete} : child ∈ tree.children → Opens source name child →
      Opens source name tree

/-- All variables that the tree declares have names that are allowed, and so have all its type
parameters and enums. -/
structure Allows (source : SourceText) (allowed opens : String → Prop) (tree : Concrete) :
    Prop where
  introduced (name : String) : tree.Introduces source name → allowed name
  opened (name : String) : tree.Opens source name → opens name

variable {source : SourceText} {allowed opens : String → Prop} {tree : Concrete}

theorem Allows.child (allows : tree.Allows source allowed opens) {child : Concrete}
    (member : child ∈ tree.children) : child.Allows source allowed opens where
  introduced name there := allows.introduced name (.inside member there)
  opened name there := allows.opened name (.inside member there)

theorem Allows.declared (allows : tree.Allows source allowed opens) {name : String}
    (member : name ∈ tree.declaredNames source) : allowed name :=
  allows.introduced name (.here member)

theorem Allows.typeParameter (allows : tree.Allows source allowed opens) {name : String}
    (member : name ∈ TypeTable.typeParameterNames source tree.children) : opens name :=
  allows.opened name (.here (List.mem_append_left _ member))

theorem Allows.enumeration (allows : tree.Allows source allowed opens)
    (kind : tree.kind = .enumDeclaration) : opens (source.childText .name tree.children) := by
  refine allows.opened _ (.here (List.mem_append_right _ ?_))
  rw [if_pos kind]
  exact List.mem_singleton_self _

section

variable {head : ConcreteHead} {children : Forest}
  (allows : (Concrete.node head children).Allows source allowed opens)
include allows

theorem Allows.named (kind : head.kind = .instanceCheck ∨ head.kind = .enhancedFor ∨
    head.kind = .resource) : allowed (source.childText .name children) := by
  refine allows.declared ?_
  rcases kind with kind | kind | kind <;>
    simp [declaredNames, Concrete.kind, Concrete.head, Concrete.children, kind]

theorem Allows.caught (kind : head.kind = .catchClause) : allowed (source.childText .name
    (((children.first? (· == .catchParameter)).map (·.children)).getD [])) := by
  refine allows.declared ?_
  simp [declaredNames, Concrete.kind, Concrete.head, Concrete.children, kind]

theorem Allows.declarator (kind : head.kind = .localVariables) {declarator : Concrete}
    (member : declarator ∈ children) (role : declarator.head.hasRole .declarator) :
    allowed (source.childText .name declarator.children) := by
  refine allows.declared ?_
  rw [declaredNames, Concrete.kind, Concrete.head, kind]
  exact List.mem_map_of_mem (List.mem_filter.mpr ⟨member, role⟩)

end

end Concrete

namespace Node

/-- A node of the tree below and with another one. -/
inductive Within (part : Node) : Node → Prop where
  | here : Within part part
  | inside {node child : Node} : child ∈ node.children → Within part child → Within part node

/-- The types that a node itself uses. -/
def typeUses : Node → List TypeUse
  | type _ header _ => header.superclass.toList ++ header.interfaces
  | method _ header _ => header.parameters.map (·.type) ++ header.returnType.toList
  | fields _ header _ | locals _ header _ => [header.type]
  | creation _ used .. | cast _ used _ | instanceCheck _ used .. => [used]
  | expression _ _ declares _ => (declares.map (·.2)).toList
  | _ => []

end Node

open Lowering (Meaning)

/-- The name that a node consists of, and the types that it uses, mean what is asked of them. -/
def Lowering.Meaning.Fits (meaning : Meaning) : Node → Prop
  | .simple _ name binding => meaning.bound name binding
  | node => ∀ use ∈ node.typeUses, meaning.used use

namespace Node

def isSimple : Node → Bool
  | simple .. => true
  | _ => false

/-- All names and types in the tree mean what is asked of them. -/
def Reads (meaning : Meaning) (node : Node) : Prop :=
  ∀ part, part.Within node → meaning.Fits part

variable {meaning : Meaning}

theorem Reads.of_children {node : Node} (here : meaning.Fits node)
    (each : ∀ child ∈ node.children, child.Reads meaning) : node.Reads meaning := by
  intro part within
  cases within with
  | here => exact here
  | inside member within => exact each _ member part within

/-- Most nodes use no types themselves. -/
theorem Reads.untyped {node : Node} (compound : node.isSimple = false)
    (untyped : node.typeUses = []) (each : ∀ child ∈ node.children, child.Reads meaning) :
    node.Reads meaning := by
  refine .of_children ?_ each
  unfold Meaning.Fits
  split
  · cases compound
  · rw [untyped]
    exact List.forall_mem_nil _

theorem Reads.simple {span : Span} {name : String} {binding : Option NameBinding}
    (here : meaning.bound name binding) : (Node.simple span name binding).Reads meaning :=
  .of_children here (List.forall_mem_nil _)

end Node

namespace Lowering

variable {table : TypeTable} {fits : Names → Prop} {allowed : String → Prop} {meaning : Meaning}
  {head : ConcreteHead} {children : Forest}

/-- All names and types in the nodes mean what is asked of them. -/
def ReadsAll (meaning : Meaning) (nodes : List Node) : Prop :=
  ∀ node ∈ nodes, node.Reads meaning

def ReadsOption (meaning : Meaning) (node : Option Node) : Prop :=
  ∀ found ∈ node, found.Reads meaning

namespace ReadsAll

variable {nodes others : List Node}

theorem nil : ReadsAll meaning [] :=
  List.forall_mem_nil _

theorem cons {node : Node} (here : node.Reads meaning) (rest : ReadsAll meaning nodes) :
    ReadsAll meaning (node :: nodes) :=
  List.forall_mem_cons.mpr ⟨here, rest⟩

theorem append (one : ReadsAll meaning nodes) (other : ReadsAll meaning others) :
    ReadsAll meaning (nodes ++ others) :=
  List.forall_mem_append.mpr ⟨one, other⟩

end ReadsAll

namespace ReadsOption

variable {node : Option Node}

theorem none : ReadsOption meaning none :=
  fun _ => (nomatch ·)

theorem some {node : Node} (reads : node.Reads meaning) : ReadsOption meaning (some node) :=
  fun _ same => Option.some.inj same ▸ reads

theorem toList (reads : ReadsOption meaning node) : ReadsAll meaning node.toList :=
  fun found member => reads found (Option.mem_toList.mp member)

theorem getD {other : Node} (reads : ReadsOption meaning node) (otherwise : other.Reads meaning) :
    (node.getD other).Reads meaning := by
  cases node with
  | none => exact otherwise
  | some node => exact reads node rfl

end ReadsOption

theorem thisExpression_keeps :
    Keeps fits allowed (thisExpression table head) fun node => node.Reads meaning :=
  .unchanged fun _ _ => ⟨rfl, .untyped rfl rfl ReadsAll.nil⟩

theorem emptyExpression_reads (span : Span) : (emptyExpression span).Reads meaning :=
  .untyped rfl rfl ReadsAll.nil

variable (steady : Steady table fits allowed meaning)
include steady

theorem inBlock_keeps {other : String → Prop} {span : Span} {statements : Lowering (List Node)}
    (inside : Keeps fits allowed statements (ReadsAll meaning)) :
    Keeps fits other (inBlock span statements) fun node => node.Reads meaning :=
  .map (inLevel_keeps steady (VariableLevel.all_nil _) inside) fun _ reads => .untyped rfl rfl reads

theorem generic_keeps {parts : Lowering (List Node)}
    (inside : Keeps fits allowed parts (ReadsAll meaning)) :
    Keeps fits allowed (generic table head children parts) (ReadsOption meaning) := by
  refine .bind steady inside fun nodes reads => ?_
  split
  · exact .pure .none
  · exact .pure (.some (.untyped rfl rfl reads))

theorem simpleName_keeps :
    Keeps fits allowed (simpleName table head) fun node => node.Reads meaning :=
  .unchanged fun _ here => ⟨rfl, .simple (steady.reads _ here)⟩

section

variable {arguments : Lowering (List Node)} {receiver : Lowering (Option Node)}
  (given : Keeps fits allowed arguments (ReadsAll meaning))
  (reached : Keeps fits allowed receiver (ReadsOption meaning))
include given reached

theorem methodCall_keeps : Keeps fits allowed (methodCall table head children arguments receiver)
    fun node => node.Reads meaning := by
  refine .bind steady given fun nodes reads => ?_
  split
  · split
    · exact .pure (.untyped rfl rfl reads)
    · split
      · exact .pure (.untyped rfl rfl reads)
      · exact .bind steady reached fun _ first =>
          .pure (.untyped rfl rfl (first.toList.append reads))
  · exact .pure (.untyped rfl rfl reads)

theorem constructorCall_keeps :
    Keeps fits allowed (constructorCall table head children arguments receiver)
      fun node => node.Reads meaning := by
  refine .bind steady given fun nodes reads => ?_
  split
  · exact .pure (.untyped rfl rfl reads)
  · exact .bind steady reached fun _ first => .pure (.untyped rfl rfl (first.toList.append reads))

/-- The members of an anonymous class, if there is one. -/
def ReadsBody (meaning : Meaning) (anonymous : Option AnonymousClass) :
    Prop :=
  ReadsAll meaning ((anonymous.map (·.body)).getD [])

theorem creation_keeps {anonymous : Lowering (Option AnonymousClass)}
    (inside : Keeps fits allowed anonymous (ReadsBody meaning)) :
    Keeps fits allowed (creation table head children receiver arguments anonymous)
      fun node => node.Reads meaning :=
  .bind steady reached fun _ first => .bind steady (typeOf_keeps steady _ _) fun _ used =>
    .bind steady given fun _ reads => .bind steady inside fun _ body =>
      .pure (.of_children (List.forall_mem_singleton.mpr used)
        ((first.toList.append reads).append body))

end

theorem fieldAccess_keeps {receiver : Lowering (Option Node)}
    (reached : Keeps fits allowed receiver (ReadsOption meaning)) :
    Keeps fits allowed (fieldAccess table head children receiver)
      fun node => node.Reads meaning := by
  have around {node : Node} (reads : node.Reads meaning) : ReadsAll meaning [node] :=
    .cons reads .nil
  unfold fieldAccess
  dsimp only
  split
  · exact .pure (.untyped rfl rfl (around (emptyExpression_reads _)))
  · refine .get fun _ _ => ?_
    split
    · exact .pure (.untyped rfl rfl ReadsAll.nil)
    · split
      · exact .pure (.untyped rfl rfl ReadsAll.nil)
      · split
        · exact .pure (.untyped rfl rfl ReadsAll.nil)
        · refine .bind steady reached fun node reads => ?_
          have reads := reads.getD (emptyExpression_reads (table.source.spanOf head))
          split
          · exact .pure (.untyped rfl rfl (around reads))
          · exact .pure (.untyped rfl rfl (around reads))

theorem arrayCreation_keeps {parts : Lowering (List Node)}
    (inside : Keeps fits allowed parts (ReadsAll meaning)) :
    Keeps fits allowed (arrayCreation table head children parts)
      fun node => node.Reads meaning :=
  .andThen steady (optionUse_keeps steady _).forget fun _ => .bind steady inside fun _ reads =>
    .pure (.untyped rfl rfl reads)

theorem declareLambdaParameters_keeps (kind : head.kind = .lambda)
    (allows : (Concrete.node head children).Allows table.source allowed meaning.opens) :
    Keeps fits allowed (declareLambdaParameters table children) fun _ => True := by
  unfold declareLambdaParameters
  cases found : children.child? .parameters with
  | none => exact .pure trivial
  | some parameters =>
      have listed := Forest.mem_of_child? found
      have hidden : ∀ name ∈ parameters :: parameters.children, name.kind = .identifier →
          allowed (table.source.textOf name.head) := by
        intro name member plain
        refine allows.declared ?_
        simp only [Concrete.declaredNames, Concrete.kind, Concrete.head, kind, Concrete.children,
          found, Option.toList_some, List.flatMap_singleton, List.mem_map, List.mem_filter]
        exact ⟨name, ⟨member, beq_iff_eq.mpr plain⟩, rfl⟩
      dsimp only
      split
      · next plain =>
          have plain := beq_iff_eq.mp plain
          rw [declareLambdaParameter, plain]
          exact declareHidden_keeps (hidden parameters List.mem_cons_self plain)
      · refine .forM steady fun tree member => ?_
        have within := (List.mem_filter.mp member).1
        unfold declareLambdaParameter
        split
        · next plain =>
            exact declareHidden_keeps (hidden tree (List.mem_cons_of_mem _ within) plain)
        · next formal =>
            refine .andThen steady (typeOf_keeps steady _ _).forget fun _ => declareLocal_keeps ?_ _
            refine ((allows.child listed).child within).declared ?_
            simp only [Concrete.declaredNames, formal, List.mem_singleton]
        · exact .pure trivial

section

variable {operand : Lowering (Option Node)}
  (inside : Keeps fits allowed operand (ReadsOption meaning))
include inside

theorem cast_keeps : Keeps fits allowed (cast table head children operand)
    fun node => node.Reads meaning :=
  .bind steady (typeOf_keeps steady _ _) fun _ used => .bind steady inside fun _ reads =>
    .pure (.of_children (List.forall_mem_singleton.mpr used)
      (ReadsAll.cons (reads.getD (emptyExpression_reads _)) .nil))

theorem instanceCheck_keeps (tested : Concrete)
    (allows : allowed (table.source.childText .name children)) :
    Keeps fits allowed (instanceCheck table tested head children operand)
      fun node => node.Reads meaning := by
  refine .bind steady (typeUse_keeps steady _) fun type used =>
    .bind steady inside fun node reads => ?_
  have uses : ∀ use ∈ [type], meaning.used use := List.forall_mem_singleton.mpr used
  have reads := reads.getD (emptyExpression_reads (table.source.spanOf head))
  have check : (Node.instanceCheck (table.source.spanOf head) type (some TypeBinding.boolean)
      (node.getD (emptyExpression (table.source.spanOf head)))).Reads meaning :=
    .of_children uses (ReadsAll.cons reads .nil)
  cases named : children.child? .name with
  | none => exact .pure check
  | some tree =>
      rw [SourceText.childText, named] at allows
      exact .andThen steady (declareLocal_keeps allows _) fun _ =>
        .pure (.of_children uses (ReadsAll.cons check .nil))

theorem resource_keeps (name : Concrete) (allows : allowed (table.source.textOf name.head)) :
    Keeps fits allowed (resource table name head children operand) fun node => node.Reads meaning :=
  .bind steady (typeOf_keeps steady _ _) fun _ used => .bind steady inside fun _ reads =>
    .andThen steady (declareLocal_keeps allows _) fun _ =>
      .pure (.of_children (List.forall_mem_singleton.mpr used) reads.toList)

theorem enhancedFor_keeps {collection : Lowering (Option Node)}
    (collected : Keeps fits allowed collection (ReadsOption meaning))
    (allows : allowed (table.source.childText .name children)) :
    Keeps fits allowed (enhancedFor table head children collection operand)
      fun node => node.Reads meaning :=
  .bind steady (typeOf_keeps steady _ _) fun _ used => .bind steady collected fun _ first =>
    .bind steady (inLevel_keeps steady (VariableLevel.all_nil _)
      (.andThen steady (declareLocal_keeps allows _) fun _ => inside)) fun _ second =>
        .pure (.of_children (List.forall_mem_singleton.mpr (steady.closed.withDimensions _ used))
          (first.toList.append second.toList))

theorem catchClause_keeps (allows : allowed (table.source.childText .name
      (((children.first? (· == .catchParameter)).map (·.children)).getD []))) :
    Keeps fits allowed (catchClause table head children operand)
      fun node => node.Reads meaning := by
  have caught {type : TypeUse} (used : meaning.used type) {name : String} (fine : allowed name) :
      Keeps fits allowed (do
        let body ← inLevel [] do
          declareLocal name type
          operand
        pure (Node.expression (table.source.spanOf head) none (some (name, type)) body.toList))
        fun node => node.Reads meaning :=
    .bind steady (inLevel_keeps steady (VariableLevel.all_nil _)
      (.andThen steady (declareLocal_keeps fine _) fun _ => inside)) fun _ reads =>
        .pure (.of_children (List.forall_mem_singleton.mpr used) reads.toList)
  unfold catchClause
  dsimp only
  split
  · exact .bind steady (typeUse_keeps steady _) fun type used => caught used allows
  · exact caught (steady.closed.unknown _) allows

/-- A lambda expression with the parameters of a tree. -/
theorem lambda_keeps {tree : Concrete} (shape : tree = .node head children)
    (kind : head.kind = .lambda) (allows : tree.Allows table.source allowed meaning.opens) :
    Keeps fits allowed (lambda table head children operand) fun node => node.Reads meaning := by
  subst shape
  exact .bind steady (inLevel_keeps steady (VariableLevel.all_nil _)
    (.andThen steady (declareLambdaParameters_keeps steady kind allows) fun _ => inside))
    fun _ reads => .pure (.untyped rfl rfl reads.toList)

end

omit steady in
theorem name_of_formalParameter? {scope : TypeScope} {tree : Concrete} {parameter : FormalParameter}
    (found : formalParameter? table scope tree = some parameter) :
    parameter.name ∈ tree.declaredNames table.source := by
  unfold formalParameter? at found
  unfold Concrete.declaredNames
  dsimp only at found ⊢
  split at found
  · next kind =>
      obtain rfl := Option.some.inj found
      simp [kind]
  · next kind =>
      obtain ⟨declarator, first, found⟩ := Option.bind_eq_some_iff.mp found
      obtain rfl := Option.some.inj found
      simp [kind, first]
  · cases found

omit steady in
theorem formalParameters_allowed {opens : String → Prop}
    (inside : ∀ tree ∈ children, tree.Allows table.source allowed opens) (scope : TypeScope) :
    ∀ parameter ∈ formalParameters table scope children, allowed parameter.name := by
  intro parameter member
  unfold formalParameters at member
  split at member
  · next list found =>
      obtain ⟨formal, listed, made⟩ := List.mem_filterMap.mp member
      have allows := inside list (Forest.mem_of_child? found)
      exact (allows.child (List.mem_filter.mp listed).1).declared (name_of_formalParameter? made)
  · cases member

omit steady in
theorem formalParameter?_used (closed : meaning.Closed) {scope : TypeScope}
    (uses : ∀ tree, meaning.used (table.typeUse scope tree)) {tree : Concrete}
    {parameter : FormalParameter} (found : formalParameter? table scope tree = some parameter) :
    meaning.used parameter.type := by
  unfold formalParameter? at found
  dsimp only at found
  split at found
  · obtain rfl := Option.some.inj found
    exact closed.withDimensions _ (typeOf_used closed uses _ _)
  · obtain ⟨declarator, -, found⟩ := Option.bind_eq_some_iff.mp found
    obtain rfl := Option.some.inj found
    apply closed.withDimensions (declarator.children.extraDimensions + 1)
    split
    · exact uses _
    · exact closed.unknown _
  · cases found

omit steady in
theorem formalParameters_used (closed : meaning.Closed) {scope : TypeScope}
    (uses : ∀ tree, meaning.used (table.typeUse scope tree)) (declaration : Forest) :
    ∀ parameter ∈ formalParameters table scope declaration, meaning.used parameter.type := by
  intro parameter member
  unfold formalParameters at member
  split at member
  · obtain ⟨formal, -, made⟩ := List.mem_filterMap.mp member
    exact formalParameter?_used closed uses made
  · cases member

omit steady in
theorem unboundFields_allowed {opens : String → Prop} {body : Forest}
    (allows : ∀ tree ∈ body, tree.Allows table.source allowed opens) :
    VariableLevel.All allowed (unboundFields table.source body) := by
  intro entry member
  obtain ⟨name, named, rfl⟩ := List.mem_map.mp member
  obtain ⟨declaration, listed, declares⟩ := List.mem_flatMap.mp named
  obtain ⟨listed, kind⟩ := List.mem_filter.mp listed
  have fine : declaration.Allows table.source allowed opens := by
    obtain ⟨top, found, opened⟩ := List.mem_flatMap.mp listed
    have here := allows top (List.mem_filter.mp found).1
    split at opened
    · exact here.child (List.mem_filter.mp opened).1
    · exact List.mem_singleton.mp opened ▸ here
  refine fine.declared ?_
  unfold Concrete.declaredNames
  rw [beq_iff_eq.mp kind]
  exact declares

omit steady in
theorem componentFields_reads {components : List FormalParameter}
    (used : ∀ component ∈ components, meaning.used component.type) :
    ReadsAll meaning (components.map componentField) := by
  intro node member
  obtain ⟨component, listed, rfl⟩ := List.mem_map.mp member
  exact .of_children (List.forall_mem_singleton.mpr (used component listed)) ReadsAll.nil

omit steady in
theorem eq_enumDeclaration {kind : ConcreteKind} (same : declarationKind kind = .enumeration) :
    kind = .enumDeclaration := by
  unfold declarationKind at same
  split at same
  · cases same
  · rfl
  · cases same

/-- `fits` is what holds with the type parameters of the declaration. -/
theorem typeDeclaration_keeps {outer : Names → Prop} {placement : Placement}
    (inside : ∀ tree ∈ children, tree.Allows table.source allowed meaning.opens)
    (enumeration : head.kind = .enumDeclaration →
      meaning.opens (table.source.childText .name children))
    (opens : ∀ names, outer names → fits (withParameters table children names))
    (enters : Enters table outer fits allowed placement)
    {members : Option TypeUse → Lowering (List Node)}
    (named : placement ≠ .localType → ∀ created, (∀ use ∈ created, meaning.used use) →
      Keeps fits allowed (members created) (ReadsAll meaning))
    (unnamed : ∀ created, (∀ use ∈ created, meaning.used use) →
      Keeps (Unnamed fits) allowed (members created) (ReadsAll meaning)) :
    Keeps outer allowed (typeDeclaration table placement head children members)
      fun node => node.Reads meaning := by
  refine .get fun names here => withTypeParameters_keeps opens ?_
  refine .bind steady (optionUse_keeps steady _) fun superclass superclassUsed =>
    .bind steady (.mapM steady (typeUse_keeps steady)) fun interfaces interfacesUsed => ?_
  -- the members are lowered in one of two scopes, as the type can be named or cannot
  have parts {inner : Names → Prop} (calm : Steady table inner allowed meaning)
      {created : Option TypeUse}
      (within : Keeps inner allowed (members created) (ReadsAll meaning)) : Keeps inner allowed (do
        let scope := (← get).scope
        let components :=
          if head.kind == .recordDeclaration then formalParameters table scope children else []
        let inside ← withComponents components (members created)
        pure (components.map componentField ++ inside)) (ReadsAll meaning) := by
    refine .get fun there fitting => ?_
    have components : ∀ component ∈ (if head.kind == .recordDeclaration then
        formalParameters table there.scope children else []),
        allowed component.name ∧ meaning.used component.type := by
      intro component member
      split at member
      · exact ⟨formalParameters_allowed inside _ component member,
          formalParameters_used calm.closed (calm.uses · fitting) children component member⟩
      · cases member
    exact .bind calm (withComponents_keeps calm components within) fun nodes reads =>
      .pure ((componentFields_reads fun component member =>
        (components component member).2).append reads)
  have created (binding : Option TypeBinding) (own : Span) : ∀ use ∈
      (if declarationKind head.kind == .enumeration then
        some (⟨own, .simple (table.source.childText .name children), binding⟩ : TypeUse) else none),
      meaning.used use := by
    intro use member
    split at member
    · next kind =>
        obtain rfl := Option.some.inj member
        exact steady.closed.created _ _ (enumeration (eq_enumDeclaration (beq_iff_eq.mp kind)))
    · cases member
  refine .bind steady ?_ fun body (reads : ReadsAll meaning body) =>
    .pure (.of_children (List.forall_mem_append.mpr
      ⟨fun use member => superclassUsed use (Option.mem_toList.mp member), interfacesUsed⟩) reads)
  cases found : declaredBinding? table names placement _ with
  | none =>
      refine inType_keeps steady.unnamed (fun _ there => ⟨steady.pushType there, rfl⟩) ?_
        (parts steady.unnamed (unnamed _ (created _ _)))
      dsimp only
      split
      · next body listed =>
          exact unboundFields_allowed fun tree member =>
            (inside _ (Forest.mem_of_child? listed)).child member
      · exact VariableLevel.all_nil _
  | some binding =>
      obtain ⟨visible, goesIn⟩ := enters names _ binding here found
      have other : placement ≠ .localType := fun same => by
        subst same
        cases found
      exact inType_keeps steady goesIn visible (parts steady (named other _ (created _ _)))

theorem anonymousClass_keeps {other : String → Prop} {members : Lowering (List Node)}
    (allows : ∀ tree ∈ children, tree.Allows table.source allowed meaning.opens)
    (within : Keeps (Unnamed fits) allowed members (ReadsAll meaning)) :
    Keeps fits other (anonymousClass table head children members)
      fun anonymous => ReadsBody meaning (some anonymous) :=
  .map (inType_keeps steady.unnamed (fun _ there => ⟨steady.pushType there, rfl⟩)
    (unboundFields_allowed allows) within) fun _ reads => reads

/-- Outside of a record a compact constructor would have no parameters; they are those of the
components. -/
theorem methodDeclaration_keeps {outer : Names → Prop} {isConstructor : Bool}
    (inside : ∀ tree ∈ children, tree.Allows table.source allowed meaning.opens)
    (opens : ∀ names, outer names → fits (withParameters table children names))
    {body : Lowering (Option Node)} (within : Keeps fits allowed body (ReadsOption meaning)) :
    Keeps outer allowed (methodDeclaration table isConstructor head children body)
      fun node => node.Reads meaning := by
  refine withTypeParameters_keeps opens (.get fun names here => ?_)
  have parameters : ∀ parameter ∈ (if head.kind == .compactConstructor then names.components
      else formalParameters table names.scope children),
      allowed parameter.name ∧ meaning.used parameter.type := by
    intro parameter member
    split at member
    · exact steady.component here parameter member
    · exact ⟨formalParameters_allowed inside _ parameter member,
        formalParameters_used steady.closed (steady.uses · here) children parameter member⟩
  refine .bind steady (inLevel_keeps steady (VariableLevel.all_nil _) (.andThen steady
    (.forM steady fun parameter member => declareLocal_keeps (parameters parameter member).1 _)
      fun _ => within)) fun _ reads => .pure (.of_children ?_ reads.toList)
  refine List.forall_mem_append.mpr ⟨?_, ?_⟩
  · intro use member
    obtain ⟨parameter, listed, rfl⟩ := List.mem_map.mp member
    exact (parameters parameter listed).2
  · intro use member
    dsimp only at member
    split at member
    · cases member
    · obtain rfl := List.mem_singleton.mp member
      exact steady.closed.withDimensions _ (typeOf_used steady.closed (steady.uses · here) _ _)

/-- The initializers of some variables. -/
def ReadsInitializers (meaning : Meaning)
    (declared : List DeclaredVariable) : Prop :=
  ReadsAll meaning (declared.filterMap (·.initializer?))

omit steady in
theorem readsInitializers_cons {declarator : Declarator} {initializer : Option Node}
    {declared : List DeclaredVariable} (first : ReadsOption meaning initializer)
    (others : ReadsInitializers meaning declared) :
    ReadsInitializers meaning (.mk declarator initializer :: declared) := by
  cases initializer with
  | none => exact others
  | some node => exact ReadsAll.cons (first node rfl) others

theorem fieldDeclaration_keeps {declared : Lowering (List DeclaredVariable)}
    (within : Keeps fits allowed declared (ReadsInitializers meaning)) :
    Keeps fits allowed (fieldDeclaration table head children declared)
      fun node => node.Reads meaning :=
  .bind steady (typeOf_keeps steady _ _) fun _ used => .bind steady within fun _ reads =>
    .pure (.of_children (List.forall_mem_singleton.mpr used) reads)

/-- The variables that a statement declares, as far as they are listed in its tree. -/
theorem localVariables_keeps {declared : Lowering (List DeclaredVariable)}
    (within : Keeps fits allowed declared fun entries => ReadsInitializers meaning entries ∧
      ∀ entry ∈ entries, allowed entry.declarator.name) :
    Keeps fits allowed (localVariables table head children declared)
      fun node => node.Reads meaning :=
  .bind steady (typeOf_keeps steady _ _) fun _ used => .bind steady within fun _ reads =>
    .andThen steady (.forM steady fun entry member => declareLocal_keeps (reads.2 entry member) _)
      fun _ => .pure (.of_children
        (List.forall_mem_singleton.mpr (steady.closed.inferred _ used)) reads.1)

theorem enumConstant_keeps {created : TypeUse} (used : meaning.used created)
    {arguments : Lowering (List Node)} {anonymous : Lowering (Option AnonymousClass)}
    (given : Keeps fits allowed arguments (ReadsAll meaning))
    (inside : Keeps fits allowed anonymous (ReadsBody meaning)) :
    Keeps fits allowed (enumConstant table created head children arguments anonymous)
      fun node => node.Reads meaning :=
  .bind steady given fun _ reads => .bind steady inside fun _ body =>
    .pure (.of_children (List.forall_mem_singleton.mpr used) (ReadsAll.cons
      (.of_children (List.forall_mem_singleton.mpr used) (reads.append body)) .nil))

end Lowering

end JavaFacts
