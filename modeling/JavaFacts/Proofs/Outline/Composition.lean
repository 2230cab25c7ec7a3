import JavaFacts.Proofs.Outline.Visit

/-!
What all outlines have in common. A property of actions that lasts when actions are put together holds
of what code asks and records, and a property of visits holds of the visit of every tree, once it holds
of the visit of a node whose parts have it.
-/

namespace JavaFacts

namespace Plan

theorem bind_done (plan : Plan α) : plan.bind done = plan := by
  induction plan with
  | done result => rfl
  | ask request next ih => exact congrArg (ask request) (funext ih)

theorem bind_assoc (plan : Plan α) (next : α → Plan β) (last : β → Plan γ) :
    (plan.bind next).bind last = plan.bind fun result => (next result).bind last := by
  induction plan with
  | done result => rfl
  | ask request next ih => exact congrArg (ask request) (funext ih)

end Plan

namespace Request

/-- Whether the facts are only asked about, for an answer that may be anything. -/
def IsQuery : Request → Prop
  | isInterface _ | superclass _ | visible .. => True
  | _ => False

end Request

/-- Whether code is linked to something, so that nothing of the unit itself is declared. -/
def Event.IsLink : Event → Prop
  | access .. | check _ | call .. => True
  | _ => False

/-- Whether two standings agree on types and methods around, on the types declared so far and on the
numbers of anonymous classes. -/
structure Standing.Alike (standing after : Standing) : Prop where
  types : after.types = standing.types
  methods : after.methods = standing.methods
  declaredTypes : after.declaredTypes = standing.declaredTypes
  anonymousCounts : after.anonymousCounts = standing.anonymousCounts

namespace Node

/-- Whether a node is code that opens no block and declares nothing but a variable of a statement. -/
def isPlain : Node → Bool
  | type .. | method .. | fields .. | initializer .. | block .. | locals .. => false
  | creation _ _ _ _ _ anonymous => anonymous.isNone
  | _ => true

/-- Where the fields and local variables stand that a node itself declares. -/
def variableSpans : Node → List Span
  | fields _ _ declared | locals _ _ declared => declared.map (·.declarator.span)
  | expression span _ (some _) _ => [span]
  | _ => []

section Induction

variable {motive : Node → Prop}

mutual

/-- What a node has if its children have it, every node has. -/
theorem inductionOnChildren
    (step : ∀ node, (∀ child ∈ node.children, motive child) → motive node)
    (node : Node) : motive node :=
  step node <| by
    cases node with
    | type _ _ body => exact inductionOnAll step body
    | method _ _ body => exact inductionOnOption step body
    | fields _ _ declared => exact inductionOnVariables step declared
    | initializer _ _ body => exact List.forall_mem_singleton.mpr (inductionOnChildren step body)
    | block _ statements => exact inductionOnAll step statements
    | locals _ _ declared => exact inductionOnVariables step declared
    | call _ _ receiver arguments =>
        exact List.forall_mem_append.mpr
          ⟨inductionOnOption step receiver, inductionOnAll step arguments⟩
    | superCall _ _ _ arguments => exact inductionOnAll step arguments
    | ownConstructor _ _ arguments => exact inductionOnAll step arguments
    | superConstructor _ _ receiver arguments =>
        exact List.forall_mem_append.mpr
          ⟨inductionOnOption step receiver, inductionOnAll step arguments⟩
    | creation _ _ _ receiver arguments anonymous =>
        refine List.forall_mem_append.mpr ⟨List.forall_mem_append.mpr
          ⟨inductionOnOption step receiver, inductionOnAll step arguments⟩, ?_⟩
        cases anonymous with
        | none => exact fun _ member => absurd member List.not_mem_nil
        | some anonymous =>
            obtain ⟨_, _, body⟩ := anonymous
            exact inductionOnAll step body
    | field _ _ _ receiver => exact List.forall_mem_singleton.mpr (inductionOnChildren step receiver)
    | qualified _ _ _ qualifier =>
        exact List.forall_mem_singleton.mpr (inductionOnChildren step qualifier)
    | cast _ _ operand => exact List.forall_mem_singleton.mpr (inductionOnChildren step operand)
    | instanceCheck _ _ _ operand =>
        exact List.forall_mem_singleton.mpr (inductionOnChildren step operand)
    | expression _ _ _ children => exact inductionOnAll step children
    | superField | simple | this => exact fun _ member => absurd member List.not_mem_nil
termination_by structural node

theorem inductionOnAll
    (step : ∀ node, (∀ child ∈ node.children, motive child) → motive node)
    (nodes : List Node) : ∀ node ∈ nodes, motive node := by
  cases nodes with
  | nil => exact fun _ member => absurd member List.not_mem_nil
  | cons node nodes =>
      exact List.forall_mem_cons.mpr ⟨inductionOnChildren step node, inductionOnAll step nodes⟩
termination_by structural nodes

theorem inductionOnOption
    (step : ∀ node, (∀ child ∈ node.children, motive child) → motive node)
    (node : Option Node) : ∀ child ∈ node.toList, motive child := by
  cases node with
  | none => exact fun _ member => absurd member List.not_mem_nil
  | some node => exact List.forall_mem_singleton.mpr (inductionOnChildren step node)
termination_by structural node

theorem inductionOnVariables
    (step : ∀ node, (∀ child ∈ node.children, motive child) → motive node)
    (declared : List DeclaredVariable) :
    ∀ node ∈ declared.filterMap (·.initializer?), motive node := by
  cases declared with
  | nil => exact fun _ member => absurd member List.not_mem_nil
  | cons first declared =>
      obtain ⟨declarator, initializer⟩ := first
      cases initializer with
      | none => exact inductionOnVariables step declared
      | some node =>
          exact List.forall_mem_cons.mpr
            ⟨inductionOnChildren step node, inductionOnVariables step declared⟩
termination_by structural declared

end

end Induction

end Node

namespace Outline

instance : LawfulMonad Outline := by
  refine .mk' Outline (fun action => ?_) (fun _ _ => rfl) (fun action next last => ?_)
  · funext origin standing
    refine Eq.trans (congrArg (action origin standing).bind ?_) (Plan.bind_done _)
    funext ⟨result, after⟩
    cases result <;> rfl
  · funext origin standing
    refine (Plan.bind_assoc ..).trans (congrArg (action origin standing).bind ?_)
    funext ⟨result, after⟩
    cases result <;> rfl

/-- A property that lasts when actions follow each other, and that holds of what code asks and
records. -/
structure Sequential (holds : ∀ {α : Type}, Outline α → Prop) : Prop where
  bind {α β : Type} {action : Outline α} {next : α → Outline β} :
    holds action → (∀ value, holds (next value)) → holds (action >>= next)
  pure {α : Type} (value : α) : holds (Pure.pure value)
  origin : holds Outline.origin
  standing : holds Outline.standing
  currentType : holds Outline.currentType
  currentMethod : holds Outline.currentMethod
  ask {request : Request} : request.IsQuery → holds (Outline.ask request)
  record {event : Event} : event.IsLink → holds (Outline.record event)
  change {change : Standing → Standing} :
    (∀ standing : Standing, standing.Alike (change standing)) → holds (Outline.change change)

/-- What a plain node does ahead of the visits of its children. -/
def own : Node → Outline Unit
  | .call span header receiver arguments =>
      refer span .method header.name header.binding arguments (receiverOf receiver)
  | .superCall span header _ arguments =>
      refer span .superMethod header.name header.binding arguments (pure .superclass)
  | .ownConstructor span binding arguments =>
      refer span .ownConstructor Naming.constructorMarker binding arguments ownReceiver
  | .superConstructor span binding _ arguments =>
      refer span .superConstructor Naming.constructorMarker binding arguments (pure .superclass)
  | .creation span created binding _ arguments _ =>
      refer span .creation Naming.constructorMarker binding arguments
        (pure (Walk.createdReceiver created))
  | .field span name binding receiver => accessField span name binding receiver
  | .superField span name binding _ => accessSuperField span name binding
  | .qualified span name binding _ | .simple span name binding =>
      accessIn span name (Walk.boundFieldType? binding)
  | .cast span target _ => recordCheck .castTo span target
  | .instanceCheck span tested _ _ => recordCheck .instanceCheck span tested
  | .expression span _ (some (name, use)) _ => declareInStatement span name use
  | _ => pure ()

namespace Sequential

variable {holds : ∀ {α : Type}, Outline α → Prop} (sequential : Sequential holds)

include sequential

theorem accessIn (span : Span) (field : String) (type : Option String) :
    holds (Outline.accessIn span field type) := by
  cases type with
  | none => exact sequential.pure _
  | some type =>
      exact sequential.bind sequential.currentMethod fun _ =>
        sequential.bind sequential.origin fun _ => sequential.record trivial

theorem accessField (span : Span) (name : String) (binding : Option VariableBinding)
    (receiver : Node) : holds (Outline.accessField span name binding receiver) := by
  unfold Outline.accessField
  split
  · exact sequential.accessIn span name _
  · exact sequential.bind sequential.currentType fun _ => sequential.accessIn span name _
  · exact sequential.pure _

theorem accessSuperField (span : Span) (name : String) (binding : Option VariableBinding) :
    holds (Outline.accessSuperField span name binding) := by
  cases binding with
  | some binding => exact sequential.accessIn span name _
  | none =>
      exact sequential.bind sequential.currentType fun _ =>
        sequential.bind (sequential.ask trivial) fun _ => sequential.accessIn span name _

theorem recordCheck (kind : AssociationKind) (span : Span) (use : TypeUse) :
    holds (Outline.recordCheck kind span use) :=
  sequential.bind sequential.currentMethod fun _ =>
    sequential.bind sequential.origin fun _ => sequential.record trivial

theorem linkBound (span : Span) (binding : Option MethodBinding) (arguments : List Node) :
    holds (Outline.linkBound span binding arguments) := by
  unfold Outline.linkBound
  split
  · exact sequential.pure _
  · split
    · exact sequential.pure _
    · split
      · exact sequential.pure _
      · exact sequential.bind sequential.currentMethod fun _ =>
          sequential.bind sequential.origin fun _ =>
          sequential.bind (sequential.record trivial) fun _ => sequential.pure _

theorem defer (span : Span) (kind : CallKind) (name : String) (receiver : Receiver)
    (arguments : List Node) : holds (Outline.defer span kind name receiver arguments) :=
  sequential.bind sequential.currentMethod fun _ => sequential.bind sequential.standing fun _ =>
    sequential.bind (sequential.ask trivial) fun _ => sequential.bind sequential.origin fun _ =>
    sequential.change fun _ => ⟨rfl, rfl, rfl, rfl⟩

theorem refer (span : Span) (kind : CallKind) (name : String) (binding : Option MethodBinding)
    (arguments : List Node) {receiver : Outline Receiver} (received : holds receiver) :
    holds (Outline.refer span kind name binding arguments receiver) := by
  refine sequential.bind (sequential.linkBound span binding arguments) fun linked => ?_
  cases linked with
  | true => exact sequential.pure _
  | false => exact sequential.bind received fun _ => sequential.defer span kind name _ arguments

theorem areStatic (type : String) (modifiers : Modifiers) :
    holds (Outline.areStatic type modifiers) :=
  sequential.bind (sequential.ask trivial) fun _ => sequential.pure _

/-- Only the declaration of a variable is more than code asks and records. -/
theorem own (node : Node)
    (declares : ∀ span ∈ node.variableSpans, ∀ name use, holds (declareInStatement span name use)) :
    holds (Outline.own node) := by
  cases node with
  | call span header receiver arguments =>
      exact sequential.refer span _ _ _ _
        (sequential.bind sequential.origin fun _ => sequential.pure _)
  | ownConstructor span binding arguments =>
      exact sequential.refer span _ _ _ _
        (sequential.bind sequential.currentType fun _ => sequential.pure _)
  | superCall span header qualifier arguments => exact sequential.refer span _ _ _ _ (sequential.pure _)
  | superConstructor span binding receiver arguments =>
      exact sequential.refer span _ _ _ _ (sequential.pure _)
  | creation span created binding receiver arguments anonymous =>
      exact sequential.refer span _ _ _ _ (sequential.pure _)
  | field span name binding receiver => exact sequential.accessField span name binding receiver
  | superField span name binding qualifier => exact sequential.accessSuperField span name binding
  | qualified span name binding qualifier => exact sequential.accessIn span name _
  | simple span name binding => exact sequential.accessIn span name _
  | cast span target operand => exact sequential.recordCheck _ span target
  | instanceCheck span tested type operand => exact sequential.recordCheck _ span tested
  | expression span type declared children =>
      cases declared with
      | none => exact sequential.pure _
      | some declared => exact declares span List.mem_cons_self declared.1 declared.2
  | _ => exact sequential.pure _

end Sequential

/-- An action that declares variables one after the other, each ahead of the visit of its
initializer. -/
inductive DeclaresEach (holds : List Node → Outline Unit → Prop) (declare : Declarator → Outline Unit)
    (within : Outline Unit → Outline Unit) : List DeclaredVariable → Outline Unit → Prop where
  | nil : DeclaresEach holds declare within [] (pure ())
  | bare {declarator : Declarator} {declared : List DeclaredVariable} {rest : Outline Unit} :
      DeclaresEach holds declare within declared rest →
      DeclaresEach holds declare within (.mk declarator none :: declared)
        (declare declarator >>= fun _ => rest)
  | initialized {declarator : Declarator} {node : Node} {declared : List DeclaredVariable}
      {visit rest : Outline Unit} :
      holds [node] visit → DeclaresEach holds declare within declared rest →
      DeclaresEach holds declare within (.mk declarator (some node) :: declared) (do
        declare declarator
        within (visiting visit)
        rest)

namespace DeclaresEach

variable {holds : List Node → Outline Unit → Prop} {header : VariablesHeader}
  {declared : List DeclaredVariable}

theorem visitFields {type : String} {isStatic : Bool}
    (each : ∀ node ∈ declared.filterMap (·.initializer?), holds [node] (handle node)) :
    DeclaresEach holds (declareField type header) (insideInitializer type isStatic) declared
      (Outline.visitFields type header isStatic declared) := by
  induction declared with
  | nil =>
      rw [Outline.visitFields]
      exact .nil
  | cons first declared ih =>
      obtain ⟨declarator, initializer⟩ := first
      rw [Outline.visitFields]
      cases initializer with
      | none => exact .bare (ih each)
      | some node =>
          obtain ⟨visited, others⟩ := List.forall_mem_cons.mp each
          exact .initialized visited (ih others)

theorem visitLocals (each : ∀ node ∈ declared.filterMap (·.initializer?), holds [node] (handle node)) :
    DeclaresEach holds (declareVariable header) id declared (Outline.visitLocals header declared) := by
  induction declared with
  | nil =>
      rw [Outline.visitLocals]
      exact .nil
  | cons first declared ih =>
      obtain ⟨declarator, initializer⟩ := first
      rw [Outline.visitLocals, visitOption.eq_def]
      cases initializer with
      | none => exact .bare (ih each)
      | some node =>
          obtain ⟨visited, others⟩ := List.forall_mem_cons.mp each
          exact .initialized visited (ih others)

end DeclaresEach

/-- A property of visits that the visit of a node has if the visits of its parts have it. -/
structure Compositional (holds : List Node → Outline Unit → Prop) : Prop where
  nil : holds [] (pure ())
  cons {node : Node} {nodes : List Node} :
    holds [node] (handle node) → holds nodes (visitAll nodes) →
    holds (node :: nodes) (visiting (handle node) >>= fun _ => visitAll nodes)
  type {body : List Node} (span : Span) (header : TypeHeader) :
    holds body (visitAll body) →
    holds [.type span header body] (declareType span header (visitAll body))
  method {body : Option Node} (span : Span) (header : MethodHeader) :
    holds body.toList (visitAll body.toList) →
    holds [.method span header body] (declareMethod span header (visitAll body.toList))
  fields {declared : List DeclaredVariable} (span : Span) (header : VariablesHeader) :
    (∀ type isStatic, DeclaresEach holds (declareField type header) (insideInitializer type isStatic)
      declared (visitFields type header isStatic declared)) →
    holds [.fields span header declared] (do
      let type ← currentType
      let isStatic ← areStatic type header.modifiers
      visitFields type header isStatic declared)
  initializer {body : Node} (span : Span) (isStatic : Bool) :
    holds [body] (handle body) → holds [.initializer span isStatic body]
      (currentType >>= fun type => insideInitializer type isStatic (visiting (handle body)))
  block {statements : List Node} (span : Span) :
    holds statements (visitAll statements) →
    holds [.block span statements] (insideBlock span (visitAll statements))
  locals {declared : List DeclaredVariable} (span : Span) (header : VariablesHeader) :
    DeclaresEach holds (declareVariable header) id declared (visitLocals header declared) →
    holds [.locals span header declared] (visitLocals header declared)
  /-- Receiver and arguments come behind the declaration of the class, its body behind both. -/
  creation {receiver : Option Node} {arguments body : List Node} (span : Span) (created : TypeUse)
    (binding : Option MethodBinding) (bodySpan : Span) (bodyBinding : Option TypeBinding) :
    let ahead := receiver.toList ++ arguments
    holds ahead (visitAll ahead) → holds body (visitAll body) →
    holds [.creation span created binding receiver arguments (some (.mk bodySpan bodyBinding body))] (do
      let type ← createAnonymous span created arguments bodySpan bodyBinding
      visitAll ahead
      typeBody type false (visitAll body))
  plain {node : Node} :
    node.isPlain → holds node.children (visitAll node.children) →
    holds [node] (own node >>= fun _ => visitAll node.children)

theorem visitOption_eq (node : Option Node) : visitOption node = visitAll node.toList := by
  cases node with
  | none => rw [visitOption, Option.toList_none, visitAll]
  | some node => rw [visitOption, Option.toList_some, visitAll, visitAll, bind_pure_unit]

theorem visitAll_singleton (node : Node) : visitAll [node] = visiting (handle node) :=
  (visitOption_eq (some node)).symm.trans (by rw [visitOption])

theorem visitOption_bind_visitAll (receiver : Option Node) (arguments : List Node) :
    (visitOption receiver >>= fun _ => visitAll arguments) =
      visitAll (receiver.toList ++ arguments) := by
  cases receiver with
  | none =>
      rw [visitOption]
      rfl
  | some receiver =>
      rw [visitOption, Option.toList_some, List.singleton_append, visitAll]

/-- A plain node does something itself and is left to its children from there on. -/
theorem handle_eq {node : Node} (plain : node.isPlain) :
    handle node = own node >>= fun _ => visitAll node.children := by
  cases node with
  | call span header receiver arguments =>
      rw [handle, own, Node.children, ← visitOption_bind_visitAll]
  | superConstructor span binding receiver arguments =>
      rw [handle, own, Node.children, ← visitOption_bind_visitAll]
  | creation span created binding receiver arguments anonymous =>
      cases anonymous with
      | none =>
          have children : (Node.creation span created binding receiver arguments none).children =
              receiver.toList ++ arguments := List.append_nil _
          rw [handle, own, children, ← visitOption_bind_visitAll]
      | some anonymous => cases plain
  | superCall span header qualifier arguments => rw [handle, own, Node.children]
  | ownConstructor span binding arguments => rw [handle, own, Node.children]
  | field span name binding receiver => rw [handle, own, Node.children, visitAll_singleton]
  | qualified span name binding qualifier => rw [handle, own, Node.children, visitAll_singleton]
  | cast span target operand => rw [handle, own, Node.children, visitAll_singleton]
  | instanceCheck span tested type operand => rw [handle, own, Node.children, visitAll_singleton]
  | superField span name binding qualifier => rw [handle, own, Node.children, visitAll, bind_pure_unit]
  | simple span name binding => rw [handle, own, Node.children, visitAll, bind_pure_unit]
  | this span qualifier type =>
      rw [handle, Node.children, visitAll]
      rfl
  | expression span type declared children =>
      cases declared with
      | none => rfl
      | some declared => rfl
  | type | method | fields | initializer | block | locals => cases plain

theorem handle_creation (span : Span) (created : TypeUse) (binding : Option MethodBinding)
    (receiver : Option Node) (arguments : List Node) (bodySpan : Span)
    (bodyBinding : Option TypeBinding) (body : List Node) :
    handle (.creation span created binding receiver arguments (some (.mk bodySpan bodyBinding body))) =
      (do
        let type ← createAnonymous span created arguments bodySpan bodyBinding
        visitAll (receiver.toList ++ arguments)
        typeBody type false (visitAll body)) := by
  simp only [handle, ← visitOption_bind_visitAll, bind_assoc]

namespace Compositional

variable {holds : List Node → Outline Unit → Prop} (compositional : Compositional holds)

include compositional

theorem visitAll_of_handle {nodes : List Node}
    (each : ∀ node ∈ nodes, holds [node] (Outline.handle node)) :
    holds nodes (Outline.visitAll nodes) := by
  induction nodes with
  | nil =>
      rw [Outline.visitAll]
      exact compositional.nil
  | cons node nodes ih =>
      obtain ⟨first, others⟩ := List.forall_mem_cons.mp each
      rw [Outline.visitAll]
      exact compositional.cons first (ih others)

theorem handle (node : Node) : holds [node] (Outline.handle node) := by
  induction node using Node.inductionOnChildren with | step node inner
  by_cases plain : node.isPlain
  · rw [handle_eq plain]
    exact compositional.plain plain (compositional.visitAll_of_handle inner)
  cases node with
  | type span header body =>
      rw [Outline.handle]
      exact compositional.type span header (compositional.visitAll_of_handle inner)
  | method span header body =>
      rw [Outline.handle, visitOption_eq]
      exact compositional.method span header (compositional.visitAll_of_handle inner)
  | fields span header declared =>
      rw [Outline.handle]
      exact compositional.fields span header fun type isStatic => DeclaresEach.visitFields inner
  | initializer span isStatic body =>
      rw [Outline.handle]
      exact compositional.initializer span isStatic (inner body List.mem_cons_self)
  | block span statements =>
      rw [Outline.handle]
      exact compositional.block span (compositional.visitAll_of_handle inner)
  | locals span header declared =>
      rw [Outline.handle]
      exact compositional.locals span header (DeclaresEach.visitLocals inner)
  | creation span created binding receiver arguments anonymous =>
      cases anonymous with
      | none => exact absurd rfl plain
      | some anonymous =>
          obtain ⟨bodySpan, bodyBinding, body⟩ := anonymous
          obtain ⟨ahead, inBody⟩ := List.forall_mem_append.mp inner
          rw [handle_creation]
          exact compositional.creation span created binding bodySpan bodyBinding
            (compositional.visitAll_of_handle ahead) (compositional.visitAll_of_handle inBody)
  | _ => exact absurd rfl plain

theorem visitAll (nodes : List Node) : holds nodes (Outline.visitAll nodes) :=
  compositional.visitAll_of_handle fun node _ => compositional.handle node

theorem visitFields (type : String) (header : VariablesHeader) (isStatic : Bool)
    (declared : List DeclaredVariable) :
    DeclaresEach holds (declareField type header) (insideInitializer type isStatic) declared
      (Outline.visitFields type header isStatic declared) :=
  .visitFields fun node _ => compositional.handle node

theorem visitLocals (header : VariablesHeader) (declared : List DeclaredVariable) :
    DeclaresEach holds (declareVariable header) id declared (Outline.visitLocals header declared) :=
  .visitLocals fun node _ => compositional.handle node

end Compositional

end Outline

end JavaFacts
