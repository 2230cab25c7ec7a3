import JavaFacts.Proofs.Extraction.Accounting
import JavaFacts.Proofs.Outline.Composition
import JavaFacts.Proofs.Outline.DeclaredTypes
import JavaFacts.Proofs.Outline.Labels
import JavaFacts.Proofs.Outline.Repetition

/-!
The names of anonymous classes. A walk meets the types of a tree in the order of the source and never
stops early where members lie in types and code lies in methods, so that the numbers of the classes
created in one type have no gaps, whatever is declared and created in between.
-/

namespace JavaFacts

namespace Standing

/-- The names of the innermost type and of the type whose method is innermost, if there are any. -/
structure At (around host : Option String) (standing : Standing) : Prop where
  type : standing.types.head? = around
  host : standing.methods.head?.map (·.declaringType) = host

theorem At.moved {around host : Option String} {standing after : Standing}
    (place : standing.At around host) (types : after.types = standing.types)
    (methods : after.methods = standing.methods) : after.At around host :=
  ⟨types ▸ place.type, methods ▸ place.host⟩

theorem Alike.refl (standing : Standing) : standing.Alike standing :=
  ⟨rfl, rfl, rfl, rfl⟩

theorem At.naming {around host : Option String} {standing : Standing} (place : standing.At around host)
    (origin : Origin) (header : TypeHeader) :
    standing.naming origin header = header.naming origin.package around host := by
  obtain ⟨rfl, rfl⟩ := place
  obtain ⟨types, methods⟩ := standing
  unfold Standing.naming TypeHeader.naming isInMethod
  cases header.binding.bind Naming.bindingName? with
  | some name => rfl
  | none =>
      cases types with
      | nil => rfl
      | cons type outer =>
          cases methods with
          | nil => rfl
          | cons method others => simp

end Standing

/-- A label with the place where its type is declared. -/
def Label.placed (origin : Origin) (label : Label) : String × Anchor :=
  (label.name, origin.anchor label.node.typeSpan)

/-- What a walk has done with nodes when it comes back to where it was: it has declared their types
and no others, and counted the anonymous classes among them. -/
structure Passed (origin : Origin) (around host : Option String) (nodes : List Node)
    (history : List Step) (standing : Standing) (later : List Step) (after : Standing) : Prop where
  grown : history <+: later
  types : after.types = standing.types
  methods : after.methods = standing.methods
  labels : ∃ labels, Named origin.package (DeclaredBy origin later) around host nodes labels ∧
    typesDeclaredBy later = typesDeclaredBy history ++ labels.map (Label.placed origin) ∧
    after.declaredTypes = standing.declaredTypes ++ labels.map (·.name) ∧
    Counting standing.anonymousCounts labels after.anonymousCounts

namespace Passed

variable {origin : Origin} {around host : Option String} {nodes others : List Node}
  {history middle later : List Step} {standing between after : Standing}

theorem nothing (grown : history <+: later)
    (idle : typesDeclaredBy later = typesDeclaredBy history) (alike : standing.Alike after) :
    Passed origin around host [] history standing later after where
  grown := grown
  types := alike.types
  methods := alike.methods
  labels := by
    refine ⟨[], .nil, ?_, ?_, ?_⟩
    · rw [idle, List.map_nil, List.append_nil]
    · rw [alike.declaredTypes, List.map_nil, List.append_nil]
    · rw [alike.anonymousCounts]
      exact .nil

theorem append (first : Passed origin around host nodes history standing middle between)
    (rest : Passed origin around host others middle between later after) :
    Passed origin around host (nodes ++ others) history standing later after := by
  obtain ⟨labels, named, steps, declared, counting⟩ := first.labels
  obtain ⟨labels', named', steps', declared', counting'⟩ := rest.labels
  refine ⟨first.grown.trans rest.grown, rest.types.trans first.types,
    rest.methods.trans first.methods, labels ++ labels', ?_, ?_, ?_, counting.append counting'⟩
  · exact .append (named.imp fun _ _ _ known => known.grown rest.grown) named'
  · rw [steps', steps, List.map_append, List.append_assoc]
  · rw [declared', declared, List.map_append, List.append_assoc]

theorem member {node : Node} (isMember : node.isMember)
    (passed : Passed origin around around node.children history standing later after) :
    Passed origin around host [node] history standing later after := by
  obtain ⟨labels, named, rest⟩ := passed.labels
  exact ⟨passed.grown, passed.types, passed.methods, labels, .member isMember named, rest⟩

theorem code {node : Node} (notMember : node.isMember = false) (notType : node.makesType = false)
    (passed : Passed origin around host node.children history standing later after) :
    Passed origin around host [node] history standing later after := by
  obtain ⟨labels, named, rest⟩ := passed.labels
  exact ⟨passed.grown, passed.types, passed.methods, labels, .code notMember notType named, rest⟩

end Passed

section Placed

variable {around host : Option String} {node : Node}

theorem Node.isMember_eq_false (isPlain : node.isPlain) : node.isMember = false := by
  cases node <;> first | rfl | cases isPlain

theorem Node.makesType_eq_false (isPlain : node.isPlain) : node.makesType = false := by
  cases node with
  | creation span created binding receiver arguments anonymous =>
      cases anonymous with
      | none => rfl
      | some anonymous => cases isPlain
  | type | method | fields | initializer | block | locals => cases isPlain
  | _ => rfl

theorem Node.Placed.of_member_in {inHost : Bool} (placed : node.Placed around.isSome inHost)
    (isMember : node.isMember) (notType : node.isType = false) :
    ∃ type, around = some type ∧
      ∀ child ∈ node.children, child.Placed (some type).isSome (some type).isSome := by
  obtain ⟨inType, inner⟩ := placed.of_member isMember notType
  obtain ⟨type, rfl⟩ := Option.isSome_iff_exists.mp inType
  exact ⟨type, rfl, inner⟩

theorem Node.Placed.of_code_in (placed : node.Placed around.isSome host.isSome)
    (notMember : node.isMember = false) (notType : node.isType = false) :
    ∃ type method, around = some type ∧ host = some method ∧
      ∀ child ∈ node.children, child.Placed (some type).isSome (some method).isSome := by
  obtain ⟨inType, inHost, inner⟩ := placed.of_code notMember notType
  obtain ⟨type, rfl⟩ := Option.isSome_iff_exists.mp inType
  obtain ⟨method, rfl⟩ := Option.isSome_iff_exists.mp inHost
  exact ⟨type, method, rfl, rfl, inner⟩

end Placed

namespace Outline

/-- From such a place an action never lacks anything, and passes by the nodes. The code in them lies
in methods of the type `inner`. -/
def Passes (around host inner : Option String) (nodes : List Node) (action : Outline α) : Prop :=
  ∀ origin history standing, standing.At around host →
    (action origin standing).Lawful (fun _ _ => True) (fun later result => result.1.isSome ∧
      Passed origin around inner nodes history standing later result.2) history

namespace Passes

variable {around host inner : Option String} {type : String} {nodes others : List Node}

theorem bind {action : Outline α} {next : α → Outline β} (first : Passes around host inner nodes action)
    (rest : ∀ value, Passes around host inner others (next value)) :
    Passes around host inner (nodes ++ others) (action >>= next) := by
  intro origin history standing place
  refine Plan.Lawful.bind (first origin history standing place) fun middle result good => ?_
  obtain ⟨value | value, between⟩ := result
  · cases good.1
  · have passed := good.2
    have placed := place.moved passed.types passed.methods
    exact Plan.Lawful.weaken (rest value origin middle between placed) fun later result ended =>
      ⟨ended.1, passed.append ended.2⟩

/-- An action that meets no node comes first. -/
theorem andThen {action : Outline α} {next : α → Outline β}
    (first : Passes around host inner [] action)
    (rest : ∀ value, Passes around host inner nodes (next value)) :
    Passes around host inner nodes (action >>= next) :=
  first.bind rest

/-- An action that meets no node comes last. -/
theorem before {action : Outline α} {next : α → Outline β}
    (passes : Passes around host inner nodes action)
    (last : ∀ value, Passes around host inner [] (next value)) :
    Passes around host inner nodes (action >>= next) := by
  have ended := passes.bind last
  rwa [List.append_nil] at ended

theorem pure (value : α) : Passes around host inner [] (Pure.pure value) :=
  fun _ _ standing _ => ⟨rfl, .nothing List.prefix_rfl rfl (.refl standing)⟩

theorem origin : Passes around host inner [] Outline.origin :=
  fun _ _ standing _ => ⟨rfl, .nothing List.prefix_rfl rfl (.refl standing)⟩

theorem standing : Passes around host inner [] Outline.standing :=
  fun _ _ standing _ => ⟨rfl, .nothing List.prefix_rfl rfl (.refl standing)⟩

theorem change {change : Standing → Standing}
    (alike : ∀ standing : Standing, standing.Alike (change standing)) :
    Passes around host inner [] (Outline.change change) :=
  fun _ _ standing _ => ⟨rfl, .nothing List.prefix_rfl rfl (alike standing)⟩

/-- A request that declares no type. -/
theorem ask {request : Request} (idle : ∀ answer, Step.declaredType? ⟨request, answer⟩ = none) :
    Passes around host inner [] (Outline.ask request) := by
  refine fun _ history standing _ => ⟨trivial, fun answer _ =>
    ⟨rfl, .nothing (List.prefix_append _ _) ?_ (.refl standing)⟩⟩
  rw [typesDeclaredBy, List.filterMap_append, List.filterMap_cons_none (idle answer),
    List.filterMap_nil, List.append_nil]
  rfl

theorem record (event : Event) : Passes around host inner [] (Outline.record event) :=
  ask fun _ => rfl

/-- An action that depends on the innermost type. -/
theorem fromType {next : String → Outline α} (rest : Passes (some type) host inner nodes (next type)) :
    Passes (some type) host inner nodes (Outline.currentType >>= next) := by
  intro origin history standing place
  obtain ⟨types, methods⟩ := standing
  cases types with
  | nil => cases place.type
  | cons innermost outer =>
      obtain rfl : innermost = type := Option.some.inj place.type
      exact rest origin history _ place

theorem currentMethod {method : String} : Passes around (some method) inner [] Outline.currentMethod := by
  intro origin history standing place
  obtain ⟨types, methods⟩ := standing
  cases methods with
  | nil => cases place.host
  | cons method outer => exact ⟨rfl, .nothing List.prefix_rfl rfl (.refl _)⟩

theorem visiting {action : Outline Unit} (passes : Passes around host inner nodes action) :
    Passes around host inner nodes (Outline.visiting action) :=
  fun origin history standing place =>
    Plan.Lawful.bind (passes origin history standing place) fun _ _ good => ⟨rfl, good.2⟩

theorem insideBlock {span : Span} {action : Outline Unit}
    (passes : Passes around host inner nodes action) :
    Passes around host inner nodes (Outline.insideBlock span action) := by
  intro origin history standing place
  refine Plan.Lawful.bind (passes origin history (standing.enterBlock span) ⟨place.type, place.host⟩)
    fun later result good => ?_
  exact ⟨good.1, good.2.grown, good.2.types, good.2.methods, good.2.labels⟩

theorem insideMethod {name : String} {action : Outline Unit}
    (passes : Passes around (some type) inner nodes action) :
    Passes around host inner nodes (Outline.insideMethod name type action) := by
  intro origin history standing place
  refine Plan.Lawful.bind (passes origin history (standing.enterMethod name type) ⟨place.type, rfl⟩)
    fun later result good => ?_
  exact ⟨good.1, good.2.grown, good.2.types, congrArg List.tail good.2.methods, good.2.labels⟩

theorem member {node : Node} {action : Outline Unit} (isMember : node.isMember)
    (passes : Passes around host around node.children action) :
    Passes around host inner [node] action :=
  fun origin history standing place =>
    Plan.Lawful.weaken (passes origin history standing place) fun _ _ good =>
      ⟨good.1, good.2.member isMember⟩

theorem code {node : Node} {action : Outline Unit} (notMember : node.isMember = false)
    (notType : node.makesType = false) (passes : Passes around host inner node.children action) :
    Passes around host inner [node] action :=
  fun origin history standing place =>
    Plan.Lawful.weaken (passes origin history standing place) fun _ _ good =>
      ⟨good.1, good.2.code notMember notType⟩

end Passes

variable {around host : Option String}

theorem typeBody_passes {origin : Origin} {history : List Step} {standing : Standing}
    {nodes : List Node} {members : Outline Unit} (name : String) (isInterface : Bool)
    (passes : Passes (some name) host host nodes members) (place : standing.At around host) :
    (typeBody name isInterface members origin standing).Lawful (fun _ _ => True)
      (fun later result => result.1.isSome ∧
        Passed origin (some name) host nodes history standing later result.2) history := by
  have body : Passes (some name) host host nodes (do
      if !isInterface then record (.host name Naming.instanceInitializer)
      members
      if !isInterface then record (.constructor name)) := by
    cases isInterface with
    | true => exact passes.before fun _ => .pure ()
    | false => exact .andThen (.record _) fun _ => passes.before fun _ => .record _
  refine Plan.Lawful.bind (body origin history (standing.enterType name) ⟨rfl, place.host⟩)
    fun later result good => ?_
  exact ⟨good.1, good.2.grown, congrArg List.tail good.2.types, good.2.methods, good.2.labels⟩

theorem declareType_passes {body : List Node} {members : Outline Unit} (span : Span)
    (header : TypeHeader) (passes : ∀ name, Passes (some name) host host body members) :
    Passes around host host [.type span header body] (declareType span header members) := by
  intro origin history standing place
  refine ⟨trivial, fun name gives => ⟨trivial, fun _ _ => ?_⟩⟩
  have entered : (standing.addType name).At around host := ⟨place.type, place.host⟩
  refine Plan.Lawful.weaken (typeBody_passes name (header.kind == .interface) (passes name) entered)
    fun later result good => ?_
  obtain ⟨done, passed⟩ := good
  obtain ⟨labels, named, steps, declared, counting⟩ := passed.labels
  have onward := (List.prefix_append _ _).trans passed.grown
  have here := (DeclaredBy.last history).grown onward
  rw [place.naming] at gives here
  refine ⟨done, (List.prefix_append _ _).trans onward, passed.types, passed.methods, _,
    .type gives here named, ?_, ?_, .declared rfl counting⟩
  · rw [steps]
    simp [typesDeclaredBy, Step.declaredType?, Label.placed, Node.typeSpan, Node.span]
  · rw [declared, List.map_cons]
    exact List.append_assoc standing.declaredTypes [name] _

/-- A class that is created gets its name ahead of the walk through its parts. -/
theorem createAnonymous_passes {origin : Origin} {history : List Step} {standing : Standing}
    {enclosing method : String} (span : Span) (created : TypeUse) (arguments : List Node)
    (bodySpan : Span) (binding : Option TypeBinding) (place : standing.At (some enclosing) (some method)) :
    (createAnonymous span created arguments bodySpan binding origin standing).Lawful
      (fun _ _ => True) (fun later result => ∃ name, result.1 = some name ∧
        name = (binding.bind Naming.bindingName?).getD
          (Naming.anonymousName enclosing (standing.anonymousCounts enclosing)) ∧
        history <+: later ∧ DeclaredBy origin later (.given name) name bodySpan ∧
        typesDeclaredBy later = typesDeclaredBy history ++ [(name, origin.anchor bodySpan)] ∧
        result.2.types = standing.types ∧ result.2.methods = standing.methods ∧
        result.2.declaredTypes = standing.declaredTypes ++ [name] ∧
        result.2.anonymousCounts = Function.update standing.anonymousCounts enclosing
          (standing.anonymousCounts enclosing + 1)) history := by
  obtain ⟨types, methods⟩ := standing
  cases types with
  | nil => cases place.type
  | cons innermost outer =>
      obtain rfl : innermost = enclosing := Option.some.inj place.type
      cases methods with
      | nil => cases place.host
      | cons method others =>
          refine ⟨trivial, fun answer gives => ⟨trivial, fun _ _ => ⟨trivial, fun _ _ => ?_⟩⟩⟩
          have same : answer = _ := gives
          subst same
          have onward {step last : Step} {steps : List Step} : steps <+: steps ++ [step] ++ [last] :=
            (List.prefix_append _ _).trans (List.prefix_append _ _)
          refine ⟨_, rfl, rfl, (List.prefix_append _ _).trans onward,
            (DeclaredBy.last history).grown onward, ?_, rfl, rfl, rfl, rfl⟩
          simp [typesDeclaredBy, Step.declaredType?]

/-- Receiver and arguments are walked through between the same types as the creation, the body in the
class that is created. -/
theorem creation_passes {type method : String} {span bodySpan : Span} {created : TypeUse}
    {binding : Option MethodBinding} {bodyBinding : Option TypeBinding} {receiver : Option Node}
    {arguments body : List Node} {onParts onBody : Outline Unit}
    (inParts : Passes (some type) (some method) (some method) (receiver.toList ++ arguments) onParts)
    (inBody : ∀ name, Passes (some name) (some method) (some method) body onBody) :
    Passes (some type) (some method) (some method)
      [.creation span created binding receiver arguments (some (.mk bodySpan bodyBinding body))]
      (do
        let type ← createAnonymous span created arguments bodySpan bodyBinding
        onParts
        typeBody type false onBody) := by
  intro origin history standing place
  refine Plan.Lawful.bind (createAnonymous_passes span created arguments bodySpan bodyBinding place)
    fun first result good => ?_
  obtain ⟨value, entered⟩ := result
  obtain ⟨name, rfl, named, grown, here, ahead, types, methods, added, counts⟩ := good
  have place := place.moved types methods
  refine Plan.Lawful.bind (inParts origin first entered place) fun second result good => ?_
  obtain ⟨value | value, ready⟩ := result
  · cases good.1
  have passed := good.2
  have place := place.moved passed.types passed.methods
  refine Plan.Lawful.weaken (typeBody_passes name false (inBody name) place) fun later result ended => ?_
  obtain ⟨done, inside⟩ := ended
  obtain ⟨labels, inParts, steps, declared, counting⟩ := passed.labels
  obtain ⟨labels', inClass, steps', declared', counting'⟩ := inside.labels
  have onward : first <+: later := passed.grown.trans inside.grown
  rw [counts] at counting
  refine ⟨done, grown.trans onward, inside.types.trans (passed.types.trans types),
    inside.methods.trans (passed.methods.trans methods), _,
    .anonymous (fun unnamed => ⟨type, _, rfl, by rw [named, unnamed]; rfl⟩) (here.grown onward)
      (inParts.imp fun _ _ _ known => known.grown inside.grown) inClass,
    ?_, ?_, .created rfl rfl named (counting.append counting')⟩
  · rw [steps', steps, ahead, List.map_cons, List.map_append]
    simp [Label.placed, Node.typeSpan, AnonymousClass.span]
  · rw [declared', declared, added, List.map_cons, List.map_append]
    simp

section Members

variable {inner : Option String} {type method : String} {nodes : List Node}

theorem declareMethod_passes (span : Span) (header : MethodHeader) {body : Outline Unit}
    (passes : Passes (some type) (some type) inner nodes body) :
    Passes (some type) host inner nodes (declareMethod span header body) :=
  .fromType (.andThen .origin fun _ => .andThen (.record _) fun _ =>
    .insideMethod (.andThen (.record _) fun _ => passes))

theorem declareField_passes (type : String) (header : VariablesHeader) (declarator : Declarator) :
    Passes around host inner [] (declareField type header declarator) :=
  .andThen .origin fun _ => .record _

theorem areStatic_passes (type : String) (modifiers : Modifiers) :
    Passes around host inner [] (areStatic type modifiers) :=
  .andThen (.ask fun _ => rfl) fun _ => .pure _

theorem insideInitializer_passes (isStatic : Bool) {action : Outline Unit}
    (passes : Passes around (some type) inner nodes action) :
    Passes around host inner nodes (insideInitializer type isStatic action) :=
  .andThen (.record _) fun _ => .insideMethod passes

theorem declareLocal_passes (name : String) (span : Span) :
    Passes around (some method) inner [] (declareLocal name span) := by
  refine .andThen .currentMethod fun _ => .andThen .standing fun _ =>
    .andThen (.change fun _ => ⟨rfl, rfl, rfl, rfl⟩) fun _ => .andThen .origin fun _ =>
    .andThen (.record _) fun _ => .andThen (.change fun standing => ?_) fun _ => .pure _
  unfold Standing.placeLocal
  split <;> exact ⟨rfl, rfl, rfl, rfl⟩

theorem declareVariable_passes (header : VariablesHeader) (declarator : Declarator) :
    Passes around (some method) inner [] (declareVariable header declarator) :=
  .andThen (declareLocal_passes _ _) fun _ => .record _

theorem declareInStatement_passes (span : Span) (name : String) (use : TypeUse) :
    Passes around (some method) inner [] (declareInStatement span name use) :=
  .andThen (declareLocal_passes _ _) fun _ => .record _

/-- Code in a method of a type neither lacks anything nor meets a node where it asks and records. -/
theorem sequential_passes {type method : String} :
    Sequential (Passes (some type) (some method) inner []) where
  bind := .andThen
  pure := .pure
  origin := .origin
  standing := .standing
  currentType := by
    intro origin history standing place
    obtain ⟨types, methods⟩ := standing
    cases types with
    | nil => cases place.type
    | cons type outer => exact ⟨rfl, .nothing List.prefix_rfl rfl (.refl _)⟩
  currentMethod := .currentMethod
  ask {request} isQuery := by
    cases request with
    | isInterface | superclass | visible => exact .ask fun _ => rfl
    | _ => exact isQuery.elim
  record {event} _ := .record event
  change := .change

end Members

/-- The visit of placed nodes passes by them. -/
def PassesPlaced (nodes : List Node) (action : Outline Unit) : Prop :=
  ∀ around host : Option String, (∀ node ∈ nodes, node.Placed around.isSome host.isSome) →
    Passes around host host nodes action

theorem DeclaresEach.passes {declare : Declarator → Outline Unit} {within : Outline Unit → Outline Unit}
    {declared : List DeclaredVariable} {action : Outline Unit} {inner : Option String}
    (declares : DeclaresEach PassesPlaced declare within declared action)
    (declaring : ∀ declarator, Passes around host inner [] (declare declarator))
    (initializing : ∀ {nodes visit}, Passes around inner inner nodes visit →
      Passes around host inner nodes (within visit))
    (placed : ∀ node ∈ declared.filterMap (·.initializer?),
      node.Placed around.isSome inner.isSome) :
    Passes around host inner (declared.filterMap (·.initializer?)) action := by
  induction declares with
  | nil => exact .pure ()
  | bare _ ih => exact .andThen (declaring _) fun _ => ih placed
  | initialized visited _ ih =>
      obtain ⟨here, others⟩ := List.forall_mem_cons.mp placed
      have visits := Passes.visiting (visited _ _ (List.forall_mem_singleton.mpr here))
      exact .andThen (declaring _) fun _ => (initializing visits).bind fun _ => ih others

theorem compositional_passes : Compositional PassesPlaced where
  nil _ _ _ := .pure ()
  cons visited visits around host placed := by
    obtain ⟨here, others⟩ := List.forall_mem_cons.mp placed
    have first := visited around host (List.forall_mem_singleton.mpr here)
    exact (Passes.visiting first).bind fun _ => visits around host others
  type span header members around host placed :=
    declareType_passes span header fun _ =>
      members _ _ (List.forall_mem_singleton.mp placed).of_type
  method span header visited around host placed := by
    obtain ⟨type, rfl, inner⟩ := (List.forall_mem_singleton.mp placed).of_member_in rfl rfl
    exact .member rfl (declareMethod_passes span header (visited _ _ inner))
  fields span header declares around host placed := by
    obtain ⟨type, rfl, inner⟩ := (List.forall_mem_singleton.mp placed).of_member_in rfl rfl
    refine .member rfl (.fromType (.andThen (areStatic_passes _ _) fun isStatic => ?_))
    exact (declares type isStatic).passes (declareField_passes type header)
      (insideInitializer_passes isStatic) inner
  initializer span isStatic visited around host placed := by
    obtain ⟨type, rfl, inner⟩ := (List.forall_mem_singleton.mp placed).of_member_in rfl rfl
    exact .member rfl (.fromType (insideInitializer_passes _ (.visiting (visited _ _ inner))))
  block span visits around host placed := by
    obtain ⟨type, method, rfl, rfl, inner⟩ :=
      (List.forall_mem_singleton.mp placed).of_code_in rfl rfl
    exact .code rfl rfl (.insideBlock (visits _ _ inner))
  locals span header declares around host placed := by
    obtain ⟨type, method, rfl, rfl, inner⟩ :=
      (List.forall_mem_singleton.mp placed).of_code_in rfl rfl
    exact .code rfl rfl (declares.passes (declareVariable_passes header) id inner)
  creation span created binding bodySpan bodyBinding visits members around host placed := by
    obtain ⟨type, method, rfl, rfl, inner⟩ :=
      (List.forall_mem_singleton.mp placed).of_code_in rfl rfl
    obtain ⟨ahead, inBody⟩ := List.forall_mem_append.mp inner
    exact creation_passes (visits _ _ ahead) fun _ => members _ _ inBody
  plain {node} isPlain visits around host placed := by
    have notMember := Node.isMember_eq_false isPlain
    have notType := Node.makesType_eq_false isPlain
    obtain ⟨type, method, rfl, rfl, inner⟩ := (List.forall_mem_singleton.mp placed).of_code_in
      notMember (Bool.or_eq_false_iff.mp notType).1
    exact .code notMember notType (.andThen
      (sequential_passes.own node fun span _ => declareInStatement_passes span)
      fun _ => visits _ _ inner)

end Outline

theorem CompilationUnit.plan_passes (unit : CompilationUnit) (config : Config)
    (placed : ∀ node ∈ unit.types, node.Placed false false) :
    (unit.plan config).Lawful (fun _ _ => True) (fun later result =>
      Passed (unit.origin config) none none unit.types [] .initial later result.2) [] :=
  have passes : Outline.Passes none none none unit.types (Outline.visitAll unit.types) :=
    Outline.compositional_passes.visitAll unit.types none none placed
  Plan.Lawful.weaken (passes (unit.origin config) [] .initial ⟨rfl, rfl⟩) fun _ _ good => good.2

theorem Store.Sound.declaredAt_of_anchor? {store : Store} (sound : store.Sound) {kind : EntityKind}
    {name : String} {place : Anchor} (placed : store.facts.anchor? (kind, name) = some place) :
    store.DeclaredAt kind name place := by
  obtain ⟨entry, looked, anchored⟩ := Option.bind_eq_some_iff.mp placed
  rw [Store.lookup_facts] at looked
  obtain ⟨entity, found, rfl⟩ := Option.map_eq_some_iff.mp looked
  obtain ⟨id, named, stored⟩ := Option.bind_eq_some_iff.mp found
  refine ⟨id, sound.find.mp named, ?_⟩
  rw [Store.anchor?, stored, Option.bind_some]
  exact anchored

namespace CompilationUnit

variable {unit : CompilationUnit} {config : Config} {store : Store} {calls : List Call}

/-- An extraction that succeeds gives names to the types of the unit, in the order of the source, and
reports the types of these names. -/
theorem exists_labels (whole : store.Whole) (placed : ∀ node ∈ unit.types, node.Placed false false)
    {report : UnitReport} (succeeded : (unit.extract config store).result = .ok report) :
    let after := (unit.extract config store).store
    ∃ steps labels counts, after.Whole ∧
      Performs (store.facts.interned unit.home) steps after.facts ∧
      Named unit.package (DeclaredBy (unit.origin config) steps) none none unit.types labels ∧
      Counting (fun _ => 0) labels counts ∧
      List.Forall₂ (fun label type => after.find? .type label.name = some type) labels report.types := by
  obtain ⟨result, facts, ran⟩ := run_of_extract whole succeeded
  obtain ⟨progress, reported, left, -, rfl, site, -, stands⟩ := extract_of_run whole ran
  obtain rfl : report = unit.report store progress := Except.ok.inj (succeeded.symm.trans reported)
  have performed := Plan.performs_trace .start ran
  have passed := (unit.plan_passes config placed).reached (Plan.reaches_trace ran) performed.gives
  obtain ⟨labels, named, -, declared, counting⟩ := passed.labels
  rw [left]
  refine ⟨_, labels, _, stands.store, performed, named, counting, ?_⟩
  have types := stands.declaredTypes
  rw [declared] at types
  exact (List.forall₂_map_right_iff.mp types).flip.imp fun _ _ named =>
    stands.store.toSound.find.mpr named

/-- Anonymous classes are numbered without gaps. An extraction that succeeds gives each type of a unit
a name, in the order of the source, where a creation comes before the creations among its arguments.
The anonymous classes that are created directly in a type are named after it with the numbers from 0
on, in this order and each of them once, whatever is created in other types in between. -/
theorem extract_numbers_anonymous_classes (reached : store.Reached calls)
    (placed : ∀ node ∈ unit.types, node.Placed false false)
    (unbound : ∀ node ∈ unit.types.flatMap Node.nodes, node.bodyBinding? = none)
    {report : UnitReport} (succeeded : (unit.extract config store).result = .ok report) :
    let after := (unit.extract config store).store
    ∃ labels,
      Labelled (fun name span => after.DeclaredAt .type name (Anchor.ofSpan unit.path span)) none
        unit.types labels ∧
      labels.map (·.node) = (unit.types.flatMap Node.nodes).filter (·.makesType) ∧
      List.Forall₂ (fun label type => after.find? .type label.name = some type) labels
        report.types ∧
      ∀ type, let created := labels.filter (·.isCreatedIn type)
        created.map (·.name) = (List.range created.length).map (Naming.anonymousName type) := by
  intro after
  obtain ⟨whole, -⟩ := reached.facts
  obtain ⟨steps, labels, counts, afterWhole, performed, named, counting, types⟩ :=
    exists_labels whole placed succeeded
  have labelled : Labelled (fun name span => after.DeclaredAt .type name (Anchor.ofSpan unit.path span))
      none unit.types labels :=
    named.labelled fun naming name span step => afterWhole.toSound.declaredAt_of_anchor?
      (performed.anchor?_of_typesDeclaredBy step.mem_typesDeclaredBy)
  have nodes := labelled.map_node
  refine ⟨labels, labelled, nodes, types, fun type => ?_⟩
  have free : ∀ label ∈ labels, label.node.bodyBinding? = none := by
    intro label member
    have listed : label.node ∈ labels.map (·.node) := List.mem_map_of_mem member
    rw [nodes] at listed
    exact unbound _ (List.mem_of_mem_filter listed)
  intro created
  rw [List.range_eq_range']
  exact counting.map_name free type

/-- The file `class A{Object o=new B(new C(){}){D d=new D(){};};}`. -/
theorem extract_numbers_anonymous_classes_of_nested :
    let use (start : Nat) (name : String) : TypeUse := ⟨⟨start, 1⟩, .simple name, none⟩
    let creation (start length : Nat) (name : String) (arguments : List Node) (body : Span)
        (members : List Node) : Node := .creation ⟨start, length⟩ (use (start + 4) name) none none
          arguments (some (.mk body none members))
    let field (start length : Nat) (type name : String) (value : Node) : Node := .fields ⟨start, length⟩
      ⟨∅, use start type⟩ [.mk ⟨⟨start, length⟩, name, 0, none⟩ (some value)]
    let argument := creation 24 9 "C" [] ⟨31, 2⟩ []
    let inside := creation 39 9 "D" [] ⟨46, 2⟩ []
    let outside := creation 18 32 "B" [argument] ⟨34, 16⟩ [field 35 14 "D" "d" inside]
    let type : Node := .type ⟨0, 52⟩ ⟨.ofClass, "A", ∅, none, [], none, []⟩
      [field 8 43 "Object" "o" outside]
    let unit : CompilationUnit := ⟨"A.java", "", none, [], [type]⟩
    (∀ node ∈ unit.types, node.Placed false false) ∧
      (∀ node ∈ unit.types.flatMap Node.nodes, node.bodyBinding? = none) ∧
      ∃ report, ∃ labels : List Label, (unit.extract .standard ∅).result = .ok report ∧
        labels.map (·.node) = [type, outside, argument, inside] ∧
        ∀ type, let created := labels.filter (·.isCreatedIn type)
          created.map (·.name) = (List.range created.length).map (Naming.anonymousName type) := by
  intro use creation field argument inside outside type unit
  have made {start length : Nat} {name : String} {arguments : List Node} {body : Span}
      {members : List Node} (inArguments : ∀ node ∈ arguments, node.Placed true true)
      (inBody : ∀ node ∈ members, node.Placed true true) :
      (creation start length name arguments body members).Placed true true :=
    .code rfl rfl (List.forall_mem_append.mpr ⟨inArguments, inBody⟩)
  have holds {inHost : Bool} {start length : Nat} {type name : String} {value : Node}
      (inside : value.Placed true true) : (field start length type name value).Placed true inHost :=
    .member rfl (List.forall_mem_singleton.mpr inside)
  have placed : ∀ node ∈ unit.types, node.Placed false false := by
    refine List.forall_mem_singleton.mpr (.type (List.forall_mem_singleton.mpr (holds (made ?_ ?_))))
    · exact List.forall_mem_singleton.mpr (made nofun nofun)
    · exact List.forall_mem_singleton.mpr (holds (made nofun nofun))
  have unbound : ∀ node ∈ unit.types.flatMap Node.nodes, node.bodyBinding? = none := by
    simp [unit, type, outside, inside, argument, field, creation, Node.nodes, Node.nodesOfAll,
      Node.nodesOfOption, Node.nodesOfVariables, Node.bodyBinding?, AnonymousClass.binding]
  obtain ⟨report, succeeded⟩ := unit.exists_report .standard .empty
    (by rw [Store.facts_empty]; decide +kernel)
  obtain ⟨labels, -, nodes, -, numbered⟩ :=
    extract_numbers_anonymous_classes .empty placed unbound succeeded
  exact ⟨placed, unbound, report, labels, succeeded, nodes, numbered⟩

end CompilationUnit

end JavaFacts
