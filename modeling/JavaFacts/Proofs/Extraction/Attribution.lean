import JavaFacts.Proofs.Extraction.Expressions
import JavaFacts.Proofs.Extraction.Members

/-!
To whom calls, casts and type checks belong. Each stands in the name of the innermost method around
it; code that initializes fields stands in the name of a method made up for the type. What is said
here of a tree speaks of names and places only, not of the walk.
-/

namespace JavaFacts

namespace Node

/-- Whether a node is a call, a cast or a type check. -/
def isCallOrCheck : Node → Bool
  | call .. | superCall .. | ownConstructor .. | superConstructor .. | creation .. | cast ..
  | instanceCheck .. => true
  | _ => false

/-- Whether a node has its place directly in the body of a type. -/
def isMember : Node → Bool
  | method .. | fields .. | initializer .. => true
  | _ => false

def isType : Node → Bool
  | type .. => true
  | _ => false

def isAnonymousCreation : Node → Bool
  | creation _ _ _ _ _ (some _) => true
  | _ => false

/-- Whether a call, cast or type check is linked at once and not kept for later. -/
def isBound : Node → Bool
  | call _ header _ arguments | superCall _ header _ arguments =>
      Walk.isBound header.binding arguments
  | ownConstructor _ binding arguments | superConstructor _ binding _ arguments
  | creation _ _ binding _ arguments none => Walk.isBound binding arguments
  | creation _ _ _ _ _ (some _) | cast .. | instanceCheck .. => true
  | _ => false

/-- The kind of the association that a call, a cast or a type check is. -/
def associationKind : Node → AssociationKind
  | cast .. => .castTo
  | instanceCheck .. => .instanceCheck
  | _ => .invocation

mutual

/-- All nodes of a tree in the order of the source, each before those inside it. -/
def nodes : Node → List Node
  | type span header body => type span header body :: nodesOfAll body
  | method span header body => method span header body :: nodesOfOption body
  | fields span header declared => fields span header declared :: nodesOfVariables declared
  | initializer span isStatic body => initializer span isStatic body :: nodes body
  | block span statements => block span statements :: nodesOfAll statements
  | locals span header declared => locals span header declared :: nodesOfVariables declared
  | call span header receiver arguments =>
      call span header receiver arguments :: (nodesOfOption receiver ++ nodesOfAll arguments)
  | superCall span header qualifier arguments =>
      superCall span header qualifier arguments :: nodesOfAll arguments
  | ownConstructor span binding arguments =>
      ownConstructor span binding arguments :: nodesOfAll arguments
  | superConstructor span binding receiver arguments =>
      superConstructor span binding receiver arguments ::
        (nodesOfOption receiver ++ nodesOfAll arguments)
  | creation span created binding receiver arguments anonymous =>
      creation span created binding receiver arguments anonymous ::
        (nodesOfOption receiver ++ nodesOfAll arguments ++
          match anonymous with
          | some (.mk _ _ body) => nodesOfAll body
          | none => [])
  | field span name binding receiver => field span name binding receiver :: nodes receiver
  | superField span name binding qualifier => [superField span name binding qualifier]
  | qualified span name binding qualifier => qualified span name binding qualifier :: nodes qualifier
  | simple span name binding => [simple span name binding]
  | this span qualifier known => [this span qualifier known]
  | cast span target operand => cast span target operand :: nodes operand
  | instanceCheck span tested known operand =>
      instanceCheck span tested known operand :: nodes operand
  | expression span known declares inner => expression span known declares inner :: nodesOfAll inner
termination_by structural node => node

def nodesOfAll : List Node → List Node
  | [] => []
  | node :: rest => nodes node ++ nodesOfAll rest
termination_by structural nodes => nodes

def nodesOfOption : Option Node → List Node
  | none => []
  | some node => nodes node
termination_by structural node => node

def nodesOfVariables : List DeclaredVariable → List Node
  | [] => []
  | .mk _ value :: declared => nodesOfOption value ++ nodesOfVariables declared
termination_by structural declared => declared

end

/-- The calls, casts and type checks of a tree in the order of the source. -/
def callsAndChecks (node : Node) : List Node :=
  node.nodes.filter (·.isCallOrCheck)

theorem nodesOfAll_eq (all : List Node) : nodesOfAll all = all.flatMap nodes := by
  induction all with
  | nil => rw [nodesOfAll, List.flatMap_nil]
  | cons node rest ih => rw [nodesOfAll, ih, List.flatMap_cons]

theorem nodesOfOption_eq (node : Option Node) : nodesOfOption node = node.toList.flatMap nodes := by
  cases node with
  | none => rw [nodesOfOption, Option.toList_none, List.flatMap_nil]
  | some node => rw [nodesOfOption, Option.toList_some, List.flatMap_singleton]

theorem nodesOfVariables_eq (declared : List DeclaredVariable) :
    nodesOfVariables declared = (declared.filterMap (·.initializer?)).flatMap nodes := by
  induction declared with
  | nil => rw [nodesOfVariables, List.filterMap_nil, List.flatMap_nil]
  | cons first declared ih =>
      obtain ⟨declarator, value⟩ := first
      rw [nodesOfVariables, ih, nodesOfOption_eq, List.filterMap_cons]
      cases value <;> simp [DeclaredVariable.initializer?]

theorem nodes_eq (node : Node) : node.nodes = node :: node.children.flatMap nodes := by
  cases node with
  | creation span created binding receiver arguments anonymous =>
      rcases anonymous with _ | ⟨span, binding, body⟩
      all_goals
        simp [nodes, children, nodesOfAll_eq, nodesOfOption_eq, AnonymousClass.body]
  | _ => simp [nodes, children, nodesOfAll_eq, nodesOfOption_eq, nodesOfVariables_eq]

/-- Members lie in the body of a type; statements and expressions lie in a method or in code that
initializes fields. -/
inductive Placed : (inType inHost : Bool) → Node → Prop where
  | type {inType inHost : Bool} {span : Span} {header : TypeHeader} {body : List Node} :
      (∀ node ∈ body, Placed true inHost node) → Placed inType inHost (type span header body)
  | member {inHost : Bool} {node : Node} :
      node.isMember → (∀ child ∈ node.children, Placed true true child) → Placed true inHost node
  | code {node : Node} :
      node.isMember = false → node.isType = false →
      (∀ child ∈ node.children, Placed true true child) → Placed true true node

end Node

/-- The names of the innermost type and of the innermost method around a node. -/
structure Surroundings where
  type : Option String
  host : Option String
deriving Repr, DecidableEq

/-- A call, cast or type check, and the name of the method that it belongs to. -/
structure Fact where
  node : Node
  host : String

/-- A type that a walk declares. -/
structure Declaration where
  name : String
  isInterface : Bool
deriving Repr, DecidableEq

namespace Store

/-- Whether the entity of that identity is declared at a place. -/
def DeclaredAt (store : Store) (kind : EntityKind) (name : String) (place : Anchor) : Prop :=
  ∃ id, store.identity? id = some (kind, name) ∧ store.anchor? id = some place

/-- Whether the type of that name bears the flag of interfaces. -/
def IsInterfaceNamed (store : Store) (name : String) : Prop :=
  ∃ id, store.identity? id = some (.type, name) ∧ store.isInterface id

variable {before after : Store} {kind : EntityKind} {name : String} {place : Anchor}

theorem DeclaredAt.extended (declared : before.DeclaredAt kind name place)
    (grown : before.Extends after) : after.DeclaredAt kind name place :=
  declared.imp fun _ ⟨named, anchored⟩ => ⟨grown.identity named, grown.anchor anchored⟩

end Store

/-- The declaration of a type under a name. -/
def Declaration.ofHeader (name : String) (header : TypeHeader) : Declaration :=
  ⟨name, (header.modifiers ∪ Walk.kindModifiers header.kind).contains Modifiers.isInterface⟩

/-- Which facts the nodes of a file stand for, in the order of the source, and which types they
declare, given the types `earlier` that were declared before them. `start` is the store that the walk
begins with; all entities that are named are those of `store`. -/
inductive Attributed (path : String) (start store : Store) :
    Surroundings → (earlier : List Declaration) → List Node → List Fact → List Declaration →
      Prop where
  | nil {around : Surroundings} {earlier : List Declaration} :
      Attributed path start store around earlier [] [] []
  | append {around : Surroundings} {earlier declared declared' : List Declaration}
      {nodes nodes' : List Node} {facts facts' : List Fact} :
      Attributed path start store around earlier nodes facts declared →
      Attributed path start store around (earlier ++ declared) nodes' facts' declared' →
      Attributed path start store around earlier (nodes ++ nodes') (facts ++ facts')
        (declared ++ declared')
  /-- The members of a type find it declared, as an interface or not. -/
  | type {around : Surroundings} {earlier declared : List Declaration} {span : Span}
      {header : TypeHeader} {body : List Node} {facts : List Fact} {name : String} :
      store.DeclaredAt .type name (Anchor.ofSpan path span) →
      Attributed path start store ⟨some name, around.host⟩
        (earlier ++ [Declaration.ofHeader name header]) body facts declared →
      Attributed path start store around earlier [.type span header body] facts
        (Declaration.ofHeader name header :: declared)
  /-- What stands in a method belongs to it. -/
  | method {typeName : String} {host : Option String} {earlier declared : List Declaration}
      {span : Span} {header : MethodHeader} {body : Option Node} {facts : List Fact} :
      store.DeclaredAt .method (Walk.methodHost typeName header) (Anchor.ofSpan path span) →
      Attributed path start store ⟨some typeName, some (Walk.methodHost typeName header)⟩ earlier
        body.toList facts declared →
      Attributed path start store ⟨some typeName, host⟩ earlier [.method span header body] facts
        declared
  /-- The fields of one declaration are static if it says so or if the type is an interface. -/
  | fields {typeName : String} {host : Option String} {earlier declared : List Declaration}
      {span : Span} {header : VariablesHeader} {values : List DeclaredVariable}
      {facts : List Fact} {isStatic : Bool} :
      (isStatic ↔ header.modifiers.contains Modifiers.isStatic ∨
        start.IsInterfaceNamed typeName ∨ ⟨typeName, true⟩ ∈ earlier) →
      Attributed path start store ⟨some typeName, some (Walk.initializerHost typeName isStatic)⟩
        earlier (Node.fields span header values).children facts declared →
      Attributed path start store ⟨some typeName, host⟩ earlier [.fields span header values] facts
        declared
  | initializer {typeName : String} {host : Option String} {earlier declared : List Declaration}
      {span : Span} {isStatic : Bool} {body : Node} {facts : List Fact} :
      Attributed path start store ⟨some typeName, some (Walk.initializerHost typeName isStatic)⟩
        earlier [body] facts declared →
      Attributed path start store ⟨some typeName, host⟩ earlier [.initializer span isStatic body]
        facts declared
  /-- The body of an anonymous class is the body of a type of its own; receiver and arguments are
  not part of it. -/
  | anonymous {type : Option String} {host name : String}
      {earlier declared declared' : List Declaration} {span bodySpan : Span} {created : TypeUse}
      {binding : Option MethodBinding} {bodyBinding : Option TypeBinding} {receiver : Option Node}
      {arguments body : List Node} {facts facts' : List Fact} :
      store.DeclaredAt .type name (Anchor.ofSpan path bodySpan) →
      Attributed path start store ⟨type, some host⟩ (earlier ++ [⟨name, false⟩])
        (receiver.toList ++ arguments) facts declared →
      Attributed path start store ⟨some name, some host⟩ (earlier ++ [⟨name, false⟩] ++ declared)
        body facts' declared' →
      Attributed path start store ⟨type, some host⟩ earlier
        [.creation span created binding receiver arguments (some (.mk bodySpan bodyBinding body))]
        (⟨.creation span created binding receiver arguments (some (.mk bodySpan bodyBinding body)),
          host⟩ :: (facts ++ facts'))
        (⟨name, false⟩ :: (declared ++ declared'))
  /-- Any other call, and a cast or a type check, belongs to the method around it. -/
  | recorded {type : Option String} {host : String} {earlier declared : List Declaration}
      {node : Node} {facts : List Fact} :
      node.isCallOrCheck → node.isAnonymousCreation = false →
      Attributed path start store ⟨type, some host⟩ earlier node.children facts declared →
      Attributed path start store ⟨type, some host⟩ earlier [node] (⟨node, host⟩ :: facts) declared
  /-- Any other statement or expression passes on what is inside it. -/
  | plain {around : Surroundings} {earlier declared : List Declaration} {node : Node}
      {facts : List Fact} :
      node.isCallOrCheck = false → node.isMember = false → node.isType = false →
      Attributed path start store around earlier node.children facts declared →
      Attributed path start store around earlier [node] facts declared

namespace Attributed

variable {path : String} {start before after : Store} {around : Surroundings}
  {earlier declared : List Declaration} {nodes : List Node} {facts : List Fact}

theorem extended (attributed : Attributed path start before around earlier nodes facts declared)
    (grown : before.Extends after) :
    Attributed path start after around earlier nodes facts declared := by
  induction attributed with
  | nil => exact .nil
  | append _ _ first rest => exact .append first rest
  | type declaredAt _ ih => exact .type (declaredAt.extended grown) ih
  | method declaredAt _ ih => exact .method (declaredAt.extended grown) ih
  | fields isStatic _ ih => exact .fields isStatic ih
  | initializer _ ih => exact .initializer ih
  | anonymous declaredAt _ _ parts body => exact .anonymous (declaredAt.extended grown) parts body
  | recorded isCallOrCheck named _ ih => exact .recorded isCallOrCheck named ih
  | plain notCall notMember notType _ ih => exact .plain notCall notMember notType ih

theorem callsAndChecks_eq (node : Node) :
    node.callsAndChecks = (if node.isCallOrCheck then [node] else []) ++
      node.children.flatMap Node.callsAndChecks := by
  have inner (all : List Node) : (all.flatMap Node.nodes).filter (·.isCallOrCheck) =
      all.flatMap Node.callsAndChecks := List.filter_flatMap
  rw [Node.callsAndChecks, Node.nodes_eq, List.filter_cons, inner]
  split <;> rfl

/-- Each call, cast and type check stands for one fact, in the order of the source. -/
theorem map_node_eq (attributed : Attributed path start before around earlier nodes facts declared) :
    facts.map (·.node) = nodes.flatMap Node.callsAndChecks := by
  have single (node : Node) : [node].flatMap Node.callsAndChecks =
      (if node.isCallOrCheck then [node] else []) ++ node.children.flatMap Node.callsAndChecks := by
    rw [List.flatMap_singleton, callsAndChecks_eq]
  induction attributed with
  | nil => rfl
  | append _ _ first rest => rw [List.map_append, first, rest, List.flatMap_append]
  | type _ _ ih => rw [single, ih]; rfl
  | method _ _ ih => rw [single, ih]; rfl
  | fields _ _ ih => rw [single, ih]; rfl
  | initializer _ ih => rw [single, ih]; rfl
  | anonymous _ _ _ parts body =>
      rw [single, List.map_cons, List.map_append, parts, body, ← List.flatMap_append]
      rfl
  | recorded isCallOrCheck _ _ ih => rw [single, if_pos isCallOrCheck, List.map_cons, ih]; rfl
  | plain notCall _ _ _ ih =>
      rw [single, notCall, if_neg Bool.false_ne_true, ih, List.nil_append]

end Attributed

end JavaFacts
