import JavaFacts.Proofs.Extraction.Expressions
import JavaFacts.Proofs.Extraction.Members
import JavaFacts.Proofs.Extraction.Nesting

/-!
The walk over any tree leads from sound states to sound states, whatever its outcome. So every store
that extraction and linking can reach is sound. Where the tree has the shape of a lowered one, nothing
is amiss on the way.
-/

namespace JavaFacts

/-- Nodes with the shape of lowered ones, and a walk that stands where that says. -/
structure Fitted (table : TypeTable) (site : Site) (around : Enclosure) (nodes : List Node)
    (scopes : Scopes) : Prop where
  indexed : table.IsIndexed
  package : site.package = table.package
  suits : scopes.Suits around
  shaped : ∀ node ∈ nodes, node.Shaped table (fun _ => True) around

namespace Fitted

variable {table : TypeTable} {site : Site} {around : Enclosure} {self : Option TypeBinding}
  {node : Node} {nodes others : List Node} {before after : Scopes}

theorem only (fitted : Fitted table site around nodes before) (fewer : ∀ node ∈ others, node ∈ nodes) :
    Fitted table site around others before :=
  { fitted with shaped := fun node member => fitted.shaped node (fewer node member) }

theorem restored (fitted : Fitted table site around nodes before) (restored : before.Restored after) :
    Fitted table site around nodes after :=
  { fitted with suits := fitted.suits.same restored.types restored.methods }

theorem here (fitted : Fitted table site around [node] before) :
    node.Shaped table (fun _ => True) around :=
  fitted.shaped node List.mem_cons_self

theorem enteredBody (fitted : Fitted table site around nodes before) {frame : TypeFrame}
    {outer : List TypeFrame} (types : after.types = frame :: outer) (bears : frame.Bears self)
    (inside : ∀ node ∈ others, node.Shaped table (fun _ => True) (.body self)) :
    Fitted table site (.body self) others after :=
  { fitted with suits := ⟨frame, by rw [Scopes.type?, types]; rfl, bears⟩, shaped := inside }

end Fitted

/-- The code of a member, with a walk that stands in the body of the type and is about to enter the
method that hosts it. -/
structure Hosted (table : TypeTable) (site : Site) (own : Option TypeBinding) (nodes : List Node)
    (scopes : Scopes) : Prop where
  outside : Fitted table site (.body own) [] scopes
  shaped : ∀ node ∈ nodes, node.Shaped table (fun _ => True) (.code own)

namespace Hosted

variable {table : TypeTable} {site : Site} {around : Enclosure} {self : Option TypeBinding}
  {node : Node} {nodes : List Node} {before after : Scopes}

theorem of_shaped (fitted : Fitted table site around [node] before)
    (known : around = .body around.self ∧
      ∀ child ∈ nodes, child.Shaped table (fun _ => True) (.code around.self)) :
    Hosted table site around.self nodes before where
  outside := { fitted with suits := known.1 ▸ fitted.suits, shaped := nofun }
  shaped := known.2

theorem restored (hosted : Hosted table site self nodes before) (restored : before.Restored after) :
    Hosted table site self nodes after :=
  ⟨hosted.outside.restored restored, hosted.shaped⟩

theorem entered (hosted : Hosted table site self nodes before) {host : MethodFrame}
    {outer : List MethodFrame} (types : after.types = before.types)
    (methods : after.methods = host :: outer) : Fitted table site (.code self) nodes after := by
  obtain ⟨frame, current, bears⟩ := hosted.outside.suits
  refine { hosted.outside with suits := ⟨⟨frame, ?_, bears⟩, ?_⟩, shaped := hosted.shaped }
  · rw [Scopes.type?, types]
    exact current
  · rw [Scopes.method?, methods]
    exact Option.some_ne_none host

end Hosted

namespace Walk

/-- The action leads from sound states to sound ones. Unless anything may be amiss, it walks over some
nodes with the shape of lowered ones where they stand, and nothing is. -/
def Keeping (amiss : Prop) (around : Enclosure) (nodes : List Node) (action : Walk α) : Prop :=
  ∀ table site before, amiss ∨ Fitted table site around nodes before.scopes →
    Meets Progress.Extends ⟨amiss, amiss⟩ site before action fun _ _ => True

theorem steady_true : Steady fun (_ : α) _ => True :=
  fun _ _ _ _ _ => trivial

variable {amiss : Prop} {around : Enclosure} {self : Option TypeBinding} {node : Node}
  {nodes others : List Node}

section

variable {table : TypeTable} {site : Site} {scopes : Scopes}

theorem inType_of_code (ready : amiss ∨ Fitted table site (.code self) nodes scopes) :
    scopes.type? = none → amiss := fun outside =>
  ready.resolve_right fun fitted =>
    let ⟨⟨_, current, _⟩, _⟩ := fitted.suits
    nomatch outside.symm.trans current

theorem inMethod_of_code (ready : amiss ∨ Fitted table site (.code self) nodes scopes) :
    scopes.method? = none → amiss := fun outside =>
  ready.resolve_right fun fitted => fitted.suits.2 outside

theorem inType_of_hosted (ready : amiss ∨ Hosted table site self nodes scopes) :
    scopes.type? = none → amiss := fun outside =>
  ready.resolve_right fun hosted =>
    let ⟨_, current, _⟩ := hosted.outside.suits
    nomatch outside.symm.trans current

end

namespace Keeping

theorem nil (result : α) : Keeping amiss around [] (pure result) :=
  fun _ _ _ _ => .pure trivial

theorem append {action : Walk α} {next : α → Walk β} (first : Keeping amiss around nodes action)
    (rest : ∀ result, Keeping amiss around others (next result)) :
    Keeping amiss around (nodes ++ others) (action >>= next) := by
  intro table site before ready
  have here := ready.imp_right fun fitted => fitted.only fun _ => List.mem_append_left others
  refine .bind (first table site before here) fun result middle restored _ _ => ?_
  exact rest result table site middle (ready.imp_right fun fitted =>
    (fitted.only fun _ => List.mem_append_right nodes).restored restored)

/-- A step of a node of its own comes before the nodes inside it. -/
theorem after {own : Walk α} {next : α → Walk β} (first : Keeping amiss around [] own)
    (rest : ∀ result, Keeping amiss around nodes (next result)) :
    Keeping amiss around nodes (own >>= next) :=
  append first rest

theorem visiting {handle : Walk Unit} (handled : Keeping amiss around nodes handle) :
    Keeping amiss around nodes (Walk.visiting node handle) :=
  fun table site before ready => .visiting (fun _ _ => trivial) (handled table site before ready)

theorem insideBlock {span : Span} {action : Walk Unit} (inside : Keeping amiss around nodes action) :
    Keeping amiss around nodes (Walk.insideBlock span action) := by
  intro table site before ready
  refine .insideBlock steady_true fun inner _ types methods _ => ?_
  exact inside table site inner (ready.imp_right fun fitted =>
    { fitted with suits := fitted.suits.same types methods })

/-- A statement or expression does not change what is around the nodes inside it. -/
theorem code {action : Walk α} (isCode : node.isCode)
    (inside : Keeping amiss (.code around.self) node.children action) :
    Keeping amiss around [node] action := by
  intro table site before ready
  refine inside table site before (ready.imp_right fun fitted => ?_)
  obtain ⟨same, shaped⟩ := fitted.here.of_isCode isCode
  exact { fitted with suits := same ▸ fitted.suits, shaped }

section Code

variable {action : Walk α}

/-- A step in code finds the type and the method around it. -/
theorem step {good : Site → Progress → α → Progress → Prop}
    (met : ∀ site before, (before.scopes.type? = none → amiss) →
      (before.scopes.method? = none → amiss) →
      Meets Progress.Extends ⟨amiss, amiss⟩ site before action (good site before)) :
    Keeping amiss (.code self) [] action :=
  fun _ site before ready =>
    (met site before (inType_of_code ready) (inMethod_of_code ready)).result fun _ _ _ => trivial

theorem quietStep {good : Site → Progress → α → Progress → Prop}
    (met : ∀ site before, (before.scopes.type? = none → amiss) →
      (before.scopes.method? = none → amiss) →
      Meets Progress.Quiet ⟨amiss, amiss⟩ site before action (good site before)) :
    Keeping amiss (.code self) [] action :=
  step fun site before inType inMethod => (met site before inType inMethod).grown

end Code

theorem type {span : Span} {header : TypeHeader} {body : List Node} {members : Walk Unit}
    (inside : Keeping amiss (.body header.binding) body members) :
    Keeping amiss around [.type span header body] (declareType span header members) := by
  intro table site before ready
  refine declareType_meets steady_true span header (fun frame current same => ?_)
    fun inner type name named _ types _ => ?_
  · refine ready.resolve_right fun fitted => ?_
    obtain ⟨bound, -⟩ := fitted.here.of_type
    rw [fitted.package] at same
    exact declaredName_ne fitted.indexed fitted.suits bound current same
  · refine inside table site inner (ready.imp_right fun fitted => ?_)
    obtain ⟨bound, shaped⟩ := fitted.here.of_type
    refine fitted.enteredBody types ?_ shaped
    rw [named, fitted.package]
    exact declaredName_bears fitted.indexed fitted.suits bound type

theorem method {span : Span} {header : MethodHeader} {body : Option Node} {visit : Walk Unit}
    (inside : Keeping amiss (.code around.self) body.toList visit) :
    Keeping amiss around [.method span header body] (declareMethod span header visit) := by
  intro table site before ready
  have hosted : amiss ∨ Hosted table site around.self body.toList before.scopes :=
    ready.imp_right fun fitted => .of_shaped fitted fitted.here.of_method
  exact declareMethod_meets steady_true (inType_of_hosted hosted) span header
    fun inner _ _ _ entered => inside table site inner
      (hosted.imp_right fun hosted => hosted.entered entered.types entered.methods)

/-- Code that initializes fields stands in the method made up for it. -/
theorem insideInitializer {action : Walk Unit} (inside : Keeping amiss (.code self) nodes action)
    {table : TypeTable} {site : Site} {before : Progress} {type : TypeFrame}
    (named : before.store.identity? type.entity = some (.type, type.name)) (isStatic : Bool)
    (ready : amiss ∨ Hosted table site self nodes before.scopes) :
    Meets Progress.Extends ⟨amiss, amiss⟩ site before (Walk.insideInitializer type isStatic action)
      fun _ _ => True :=
  insideInitializer_meets steady_true named isStatic fun inner _ _ _ types methods =>
    inside table site inner (ready.imp_right fun hosted => hosted.entered types methods)

theorem initializer {span : Span} {isStatic : Bool} {body : Node} {action : Walk Unit}
    (inside : Keeping amiss (.code around.self) [body] action) :
    Keeping amiss around [.initializer span isStatic body]
      (do Walk.insideInitializer (← currentType) isStatic action) := by
  intro table site before ready
  have hosted : amiss ∨ Hosted table site around.self [body] before.scopes :=
    ready.imp_right fun fitted => .of_shaped fitted
      (fitted.here.of_initializer.imp_right List.forall_mem_singleton.mpr)
  refine .bind (currentType_meets (inType_of_hosted hosted)) fun type _ _ _ found => ?_
  obtain ⟨rfl, -, named⟩ := found
  exact inside.insideInitializer named isStatic hosted

theorem anonymous {span place : Span} {created : TypeUse} {target : Option MethodBinding}
    {binding : Option TypeBinding} {receiver : Option Node} {arguments body : List Node}
    {visitReceiver visitArguments members : Walk Unit}
    (first : Keeping amiss (.code around.self) receiver.toList visitReceiver)
    (given : Keeping amiss (.code around.self) arguments visitArguments)
    (inside : Keeping amiss (.body none) body members) :
    Keeping amiss around [.creation span created target receiver arguments (some (.mk place binding body))]
      (do
        let type ← createAnonymous span created arguments place binding
        visitReceiver
        visitArguments
        typeBody type.entity type.name false members) := by
  intro table site before ready
  have inCode := ready.imp_right fun fitted => by
    obtain ⟨same, parts, -⟩ := fitted.here.of_anonymous
    exact ({ fitted with suits := same ▸ fitted.suits, shaped := parts } :
      Fitted table site (.code around.self) (receiver.toList ++ arguments) before.scopes)
  refine .bind (createAnonymous_meets (inType_of_code inCode) (inMethod_of_code inCode)
    (inMethod_of_code inCode) span created arguments place binding) fun type middle restored _ found => ?_
  obtain ⟨named, -⟩ := found
  rw [← bind_assoc]
  refine .bind (first.append (fun _ => given) table site middle
    (inCode.imp_right fun fitted => fitted.restored restored)) fun _ ready' moved grown _ => ?_
  refine typeBody_meets steady_true (grown.identity named) false fun inner _ types _ => ?_
  refine inside table site inner (ready.imp_right fun fitted => ?_)
  obtain ⟨-, -, shaped⟩ := fitted.here.of_anonymous
  exact fitted.enteredBody types nofun shaped

end Keeping

theorem refer_keeping (span : Span) (kind : CallKind) (name : String)
    (binding : Option MethodBinding) (arguments : List Node) {receiver : Walk Receiver}
    (told : ∀ site before, (before.scopes.type? = none → amiss) →
      Meets Progress.Extends ⟨amiss, amiss⟩ site before receiver fun _ after => before = after) :
    Keeping amiss (.code self) [] (refer span kind name binding arguments receiver) :=
  .step fun site before inType inMethod =>
    refer_meets inMethod span kind name binding arguments (told site before inType)

mutual

theorem handle_keeping {around : Enclosure} : (node : Node) → Keeping amiss around [node] (handle node)
  | .type span header body => by
      rw [handle]
      exact .type (visitAll_keeping body)
  | .method span header body => by
      rw [handle]
      exact .method (visitOption_keeping body)
  | .fields span header declared => by
      rw [handle]
      intro table site before ready
      have hosted : amiss ∨ Hosted table site around.self (declared.filterMap (·.initializer?))
          before.scopes := ready.imp_right fun fitted => .of_shaped fitted fitted.here.of_fields
      refine .bind (currentType_meets (inType_of_hosted hosted)) fun type _ _ _ found => ?_
      obtain ⟨rfl, -, named⟩ := found
      refine .bind (areStatic_meets named header.modifiers) fun isStatic _ _ _ known => ?_
      obtain ⟨rfl, -⟩ := known
      exact visitFields_keeping type header isStatic declared table site before named hosted
  | .initializer span isStatic body => by
      rw [handle]
      exact .initializer (.visiting (handle_keeping body))
  | .block span statements => by
      rw [handle]
      exact .code rfl (.insideBlock (visitAll_keeping statements))
  | .locals _ header declared => by
      rw [handle]
      exact .code rfl (visitLocals_keeping header declared)
  | .call span header receiver arguments => by
      rw [handle]
      exact .code rfl (.after (refer_keeping span _ _ _ arguments fun _ _ _ => receiverOf_meets receiver)
        fun _ => .append (visitOption_keeping receiver) fun _ => visitAll_keeping arguments)
  | .superCall span header qualifier arguments => by
      rw [handle]
      exact .code rfl (.after (refer_keeping span _ _ _ arguments fun _ _ _ => .pure rfl)
        fun _ => visitAll_keeping arguments)
  | .ownConstructor span binding arguments => by
      rw [handle]
      exact .code rfl (.after (refer_keeping span _ _ _ arguments fun _ _ inType =>
        ownReceiver_meets inType) fun _ => visitAll_keeping arguments)
  | .superConstructor span binding receiver arguments => by
      rw [handle]
      exact .code rfl (.after (refer_keeping span _ _ _ arguments fun _ _ _ => .pure rfl)
        fun _ => .append (visitOption_keeping receiver) fun _ => visitAll_keeping arguments)
  | .creation span created binding receiver arguments none => by
      rw [handle]
      refine .code rfl (.after (refer_keeping span _ _ _ arguments fun _ _ _ => .pure rfl)
        fun _ => ?_)
      -- no body follows the arguments
      show Keeping amiss _ (receiver.toList ++ arguments ++ []) _
      rw [List.append_nil]
      exact .append (visitOption_keeping receiver) fun _ => visitAll_keeping arguments
  | .creation span created binding receiver arguments (some (.mk bodySpan bodyBinding body)) => by
      rw [handle]
      exact .anonymous (visitOption_keeping receiver) (visitAll_keeping arguments)
        (visitAll_keeping body)
  | .field span name binding receiver => by
      rw [handle]
      exact .code rfl (.after (.quietStep fun _ _ inType inMethod =>
        accessField_meets inType inMethod span name binding receiver)
        fun _ => .visiting (handle_keeping receiver))
  | .superField span name binding qualifier => by
      rw [handle]
      exact .code rfl (.quietStep fun _ _ inType inMethod =>
        accessSuperField_meets inType inMethod span name binding)
  | .qualified span name binding qualifier => by
      rw [handle]
      exact .code rfl (.after (.quietStep fun _ _ _ inMethod => accessIn_meets inMethod span name _)
        fun _ => .visiting (handle_keeping qualifier))
  | .simple span name binding => by
      rw [handle]
      exact .code rfl (.quietStep fun _ _ _ inMethod => accessIn_meets inMethod span name _)
  | .this .. => .code rfl (.nil ())
  | .cast span target operand => by
      rw [handle]
      exact .code rfl (.after (.step fun _ _ _ inMethod =>
        recordCheck_meets inMethod rfl rfl rfl span target)
        fun _ => .visiting (handle_keeping operand))
  | .instanceCheck span tested type operand => by
      rw [handle]
      exact .code rfl (.after (.step fun _ _ _ inMethod =>
        recordCheck_meets inMethod rfl rfl rfl span tested)
        fun _ => .visiting (handle_keeping operand))
  | .expression _ _ none children => .code rfl (visitAll_keeping children)
  | .expression span _ (some (name, use)) children =>
      .code rfl (.after (.quietStep fun _ _ _ inMethod =>
        declareInStatement_meets inMethod span name use) fun _ => visitAll_keeping children)
termination_by structural node => node

theorem visitAll_keeping {around : Enclosure} :
    (nodes : List Node) → Keeping amiss around nodes (visitAll nodes)
  | [] => by
      rw [visitAll]
      exact .nil ()
  | node :: nodes => by
      rw [visitAll]
      exact .append (.visiting (handle_keeping node)) fun _ => visitAll_keeping nodes
termination_by structural nodes => nodes

theorem visitOption_keeping {around : Enclosure} :
    (node : Option Node) → Keeping amiss around node.toList (visitOption node)
  | none => by
      rw [visitOption]
      exact .nil ()
  | some node => by
      rw [visitOption]
      exact .visiting (handle_keeping node)
termination_by structural node => node

theorem visitFields_keeping (type : TypeFrame) (header : VariablesHeader) (isStatic : Bool)
    {self : Option TypeBinding} :
    (declared : List DeclaredVariable) → (table : TypeTable) → (site : Site) →
      (before : Progress) → before.store.identity? type.entity = some (.type, type.name) →
      amiss ∨ Hosted table site self (declared.filterMap (·.initializer?)) before.scopes →
      Meets Progress.Extends ⟨amiss, amiss⟩ site before (visitFields type header isStatic declared)
        fun _ _ => True
  | [], _, _, _, _, _ => by
      rw [visitFields]
      exact .pure trivial
  | .mk declarator none :: declared, table, site, before, named, ready => by
      rw [visitFields]
      refine .bind (Meets.grown (declareField_meets named header declarator))
        fun _ middle restored grown _ => ?_
      exact visitFields_keeping type header isStatic declared table site middle
        (grown.identity named) (ready.imp_right fun hosted => hosted.restored restored)
  | .mk declarator (some node) :: declared, table, site, before, named, ready => by
      rw [visitFields]
      refine .bind (Meets.grown (declareField_meets named header declarator))
        fun _ middle restored grown _ => ?_
      have named := grown.identity named
      have ready := ready.imp_right fun hosted => hosted.restored restored
      have here : amiss ∨ Hosted table site self [node] middle.scopes := ready.imp_right
        fun ⟨outside, shaped⟩ => ⟨outside, List.forall_mem_singleton.mpr
          (List.forall_mem_cons.mp shaped).1⟩
      refine .bind ((handle_keeping node).visiting.insideInitializer named isStatic here)
        fun _ after restored grown _ => ?_
      exact visitFields_keeping type header isStatic declared table site after
        (grown.identity named) (ready.imp_right fun ⟨outside, shaped⟩ =>
          ⟨outside.restored restored, (List.forall_mem_cons.mp shaped).2⟩)
termination_by structural declared => declared

theorem visitLocals_keeping (header : VariablesHeader) {self : Option TypeBinding} :
    (declared : List DeclaredVariable) →
      Keeping amiss (.code self) (declared.filterMap (·.initializer?)) (visitLocals header declared)
  | [] => by
      rw [visitLocals]
      exact .nil ()
  | .mk declarator initializer :: declared => by
      rw [visitLocals]
      have parts : (DeclaredVariable.mk declarator initializer :: declared).filterMap
          (·.initializer?) = initializer.toList ++ declared.filterMap (·.initializer?) := by
        cases initializer <;> rfl
      rw [parts]
      exact .after (.quietStep fun _ _ _ inMethod => declareVariable_meets inMethod header declarator)
        fun _ => .append (visitOption_keeping initializer) fun _ => visitLocals_keeping header declared
termination_by structural declared => declared

end

theorem forM_visit_keeping (nodes : List Node) : Keeping amiss around nodes (nodes.forM visit) := by
  induction nodes with
  | nil => exact .nil ()
  | cons node nodes ih =>
      have first : Keeping amiss around [node] (visit node) := .visiting (handle_keeping node)
      exact first.append fun _ => ih

end Walk

/-- Nothing was entered and nothing recorded so far. -/
structure Progress.Blank (progress : Progress) : Prop where
  scopes : progress.scopes = ∅
  calls : progress.calls = #[]
  types : progress.types = #[]
  faults : progress.faults = 0
  warnings : progress.warnings = #[]

namespace CompilationUnit

/-- The walk over a unit starts with the package of the unit, in a state that is sound if the store
is, and with nothing recorded. -/
theorem walk_starts (unit : CompilationUnit) (config : Config) {store : Store}
    (sound : store.Sound) :
    ∃ site start, site.path = unit.path ∧ site.package = unit.package ∧ start.Sound site ∧
      store.Quiet start.store ∧ start.Blank ∧
      unit.walk config store = (unit.types.forM Walk.visit).perform site start := by
  have met : Edit.Meets Store.Quiet ⟨unit.path, False⟩ store _ _ :=
    Edit.intern_meets .package (unit.package.getD Naming.defaultPackage)
  obtain ⟨interned, quiet, named⟩ := met sound
  refine ⟨_, _, rfl, rfl, ?_, quiet, ⟨rfl, rfl, rfl, rfl, rfl⟩, rfl⟩
  exact ⟨interned, ⟨_, named⟩, fun _ => (nomatch ·), fun _ => (nomatch ·),
    fun _ member => absurd member (Array.not_mem_empty _), rfl⟩

/-- Whether an extraction succeeds or not, it extends a sound store to a sound one, and the callers
of the calls it keeps are methods. -/
theorem walk_sound (unit : CompilationUnit) (config : Config) {store : Store}
    (sound : store.Sound) :
    (unit.walk config store).2.store.Sound ∧ store.Extends (unit.walk config store).2.store ∧
      ∀ call ∈ (unit.walk config store).2.calls,
        (unit.walk config store).2.store.Holds .method call.caller := by
  obtain ⟨site, start, -, -, startSound, quiet, -, walked⟩ := unit.walk_starts config sound
  have keeping : Walk.Keeping True .outside unit.types (unit.types.forM Walk.visit) :=
    Walk.forM_visit_keeping unit.types
  obtain ⟨afterSound, -, grown, -⟩ := keeping default site start (.inl trivial) startSound
  rw [walked]
  exact ⟨afterSound.store, trans_of Store.Extends quiet.toExtends grown, afterSound.calls⟩

/-- An extraction succeeds if its walk ends well, as all scopes are closed then. -/
theorem extract_of_walk {unit : CompilationUnit} {config : Config} {store : Store}
    (finished : (unit.walk config store).1 = .ok ()) :
    (unit.extract config store).result = .ok (unit.report store (unit.walk config store).2) := by
  have balanced := unit.isBalanced_walk config store
  rw [extract]
  rcases walked : unit.walk config store with ⟨outcome, after⟩
  rw [walked] at finished balanced
  obtain rfl : outcome = .ok () := finished
  exact if_pos balanced

/-- An extraction that succeeds reports what its walk found. -/
theorem eq_report_of_extract {unit : CompilationUnit} {config : Config} {store : Store}
    {report : UnitReport} (succeeded : (unit.extract config store).result = .ok report) :
    (unit.walk config store).1 = .ok () ∧
      report = unit.report store (unit.walk config store).2 := by
  rw [extract] at succeeded
  rcases walked : unit.walk config store with ⟨fault | ⟨⟩, after⟩
  · rw [walked] at succeeded
    cases succeeded
  · rw [walked] at succeeded
    dsimp only at succeeded
    split at succeeded
    · cases succeeded
      exact ⟨rfl, rfl⟩
    · cases succeeded

end CompilationUnit

end JavaFacts
