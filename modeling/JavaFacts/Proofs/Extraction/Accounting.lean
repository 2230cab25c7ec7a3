import JavaFacts.Proofs.Extraction.Attribution
import Mathlib.Data.List.Forall2

/-!
The walk accounts for every call, cast and type check. Where all nodes have their place, no node is
left out, and what the walk records is what the facts of the tree say, in their order.
-/

namespace JavaFacts

/-- The names around the place where a walk stands. -/
def Scopes.around (scopes : Scopes) : Surroundings :=
  ⟨scopes.type?.map (·.name), scopes.method?.map (·.name)⟩

/-- Whether a walk stands in a type, and in a method, where it has to. -/
structure Scopes.Covers (scopes : Scopes) (inType inHost : Bool) : Prop where
  type : inType → scopes.type? ≠ none
  host : inHost → scopes.method? ≠ none

/-- The types that bear the flag of interfaces are those that did when the walk began and those
declared as interfaces since. -/
def Flags (start : Store) (earlier : List Declaration) (store : Store) : Prop :=
  ∀ name, store.IsInterfaceNamed name ↔ start.IsInterfaceNamed name ∨ ⟨name, true⟩ ∈ earlier

/-- The association that a fact is. -/
structure Fact.IsLinked (path : String) (store : Store) (fact : Fact)
    (origin : AssociationKind × EntityId × Option Anchor) : Prop where
  kind : origin.1 = fact.node.associationKind
  source : store.identity? origin.2.1 = some (.method, fact.host)
  anchor : origin.2.2 = some (Anchor.ofSpan path fact.node.span)

/-- The call kept for later that a fact is. -/
structure Fact.IsDeferred (path : String) (store : Store) (fact : Fact)
    (origin : EntityId × Anchor) : Prop where
  caller : store.identity? origin.1 = some (.method, fact.host)
  anchor : origin.2 = Anchor.ofSpan path fact.node.span

/-- What came to the records of a walk is what the facts and the declared types say. -/
def Recorded (path : String) (before after : Progress) (facts : List Fact)
    (declared : List Declaration) : Prop :=
  ∃ linked deferred types, before.Adds after linked deferred types ∧
    List.Forall₂ (Fact.IsLinked path after.store) (facts.filter (·.node.isBound)) linked ∧
    List.Forall₂ (Fact.IsDeferred path after.store) (facts.filter (!·.node.isBound)) deferred ∧
    List.Forall₂ (fun declaration type =>
      after.store.identity? type = some (.type, declaration.name)) declared types

/-- What a walk over some nodes has done. -/
structure Accounted (site : Site) (start : Store) (around : Surroundings) (earlier : List Declaration)
    (nodes : List Node) (before after : Progress) (facts : List Fact) (declared : List Declaration) :
    Prop where
  attributed : Attributed site.path start after.store around earlier nodes facts declared
  recorded : Recorded site.path before after facts declared
  flags : Flags start (earlier ++ declared) after.store

section Flags

variable {start before after : Store} {earlier : List Declaration} {name : String}

theorem Store.identity?_of_isInterface {store : Store} {id : EntityId}
    (flagged : store.isInterface id) : ∃ name, store.identity? id = some (.type, name) := by
  obtain ⟨entity, found, type⟩ := (Option.any_eq_true _ _).mp flagged
  rw [Bool.and_eq_true, beq_iff_eq] at type
  exact type.1 ▸ Store.holds_of_entity found

/-- A flag that an entity had before belongs to the name that it has now. -/
theorem Store.isInterfaceNamed_of_extends (grown : before.Extends after) {id : EntityId}
    (flagged : before.isInterface id) (named : after.identity? id = some (.type, name)) :
    before.IsInterfaceNamed name := by
  obtain ⟨former, known⟩ := Store.identity?_of_isInterface flagged
  have same := (grown.identity known).symm.trans named
  obtain rfl : former = name := (Prod.mk.inj (Option.some.inj same)).2
  exact ⟨id, known, flagged⟩

theorem Flags.declare (flags : Flags start earlier before) (grown : before.Extends after)
    {type : EntityId} {isInterface : Bool} (named : after.identity? type = some (.type, name))
    (flagged : ∀ id, after.isInterface id = (before.isInterface id || (id == type && isInterface))) :
    Flags start (earlier ++ [⟨name, isInterface⟩]) after := by
  intro other
  rw [List.mem_append, List.mem_singleton, ← or_assoc, ← flags other]
  constructor
  · rintro ⟨id, known, isFlagged⟩
    rw [flagged, Bool.or_eq_true, Bool.and_eq_true, beq_iff_eq] at isFlagged
    rcases isFlagged with former | ⟨rfl, own⟩
    · exact .inl (Store.isInterfaceNamed_of_extends grown former known)
    · have same := known.symm.trans named
      exact .inr (by rw [(Prod.mk.inj (Option.some.inj same)).2, own])
  · rintro (⟨id, known, former⟩ | same)
    · exact ⟨id, grown.identity known, by rw [flagged, former, Bool.true_or]⟩
    · cases same
      exact ⟨type, named, by rw [flagged, BEq.rfl, Bool.and_true, Bool.or_true]⟩

theorem Flags.same (flags : Flags start earlier before) (grown : before.Extends after)
    (flagged : ∀ id, after.isInterface id = before.isInterface id) : Flags start earlier after := by
  intro name
  rw [← flags name]
  constructor
  · rintro ⟨id, known, isFlagged⟩
    rw [flagged] at isFlagged
    exact Store.isInterfaceNamed_of_extends grown isFlagged known
  · rintro ⟨id, known, isFlagged⟩
    exact ⟨id, grown.identity known, by rw [flagged, isFlagged]⟩

theorem Flags.quiet (flags : Flags start earlier before) (quiet : before.Quiet after) :
    Flags start earlier after :=
  flags.same quiet.toExtends quiet.interfaces

end Flags

namespace Recorded

variable {path : String} {before middle after : Progress} {facts facts' : List Fact}
  {declared declared' : List Declaration}

theorem append (first : Recorded path before middle facts declared)
    (rest : Recorded path middle after facts' declared') (grown : middle.Extends after) :
    Recorded path before after (facts ++ facts') (declared ++ declared') := by
  obtain ⟨linked, deferred, types, adds, areLinked, areDeferred, areTypes⟩ := first
  obtain ⟨linked', deferred', types', adds', areLinked', areDeferred', areTypes'⟩ := rest
  refine ⟨_, _, _, adds.trans adds', ?_, ?_, ?_⟩
  · rw [List.filter_append]
    exact List.rel_append (areLinked.imp fun fact origin known =>
      ⟨known.kind, grown.identity known.source, known.anchor⟩) areLinked'
  · rw [List.filter_append]
    exact List.rel_append (areDeferred.imp fun fact origin known =>
      ⟨grown.identity known.caller, known.anchor⟩) areDeferred'
  · exact List.rel_append (areTypes.imp fun _ _ known => grown.identity known) areTypes'

theorem of_quiet (quiet : before.Quiet after) : Recorded path before after [] [] :=
  ⟨_, _, _, quiet.adds, .nil, .nil, .nil⟩

/-- A call, cast or type check in the name of the method around it. -/
theorem of_credits {site : Site} {node : Node} (sound : before.Sound site)
    (grown : before.Extends after)
    (credits : Walk.Credits site before after node.span
      (if node.isBound then some node.associationKind else none)) :
    ∃ host, before.scopes.around.host = some host ∧
      Recorded site.path before after [⟨node, host⟩] [] := by
  obtain ⟨⟨host, current, adds⟩, -⟩ := credits
  have named := grown.identity (sound.methods host (List.mem_of_mem_head? current)).1
  refine ⟨host.name, by rw [Scopes.around, current, Option.map_some], ?_⟩
  cases bound : node.isBound with
  | true =>
      rw [bound, if_pos rfl] at adds
      refine ⟨_, _, _, adds, ?_, ?_, .nil⟩
      · rw [List.filter_singleton, bound]
        exact .cons ⟨rfl, named, rfl⟩ .nil
      · rw [List.filter_singleton, bound]
        exact .nil
  | false =>
      rw [bound, if_neg Bool.false_ne_true] at adds
      refine ⟨_, _, _, adds, ?_, ?_, .nil⟩
      · rw [List.filter_singleton, bound]
        exact .nil
      · rw [List.filter_singleton, bound]
        exact .cons ⟨named, rfl⟩ .nil

end Recorded

namespace Accounted

variable {site : Site} {start : Store} {around : Surroundings} {earlier : List Declaration}
  {nodes nodes' : List Node} {before middle after : Progress}

theorem before_quiet {facts : List Fact} {declared : List Declaration}
    (accounted : Accounted site start around earlier nodes middle after facts declared)
    (quiet : before.Quiet middle) (grown : middle.Extends after) :
    Accounted site start around earlier nodes before after facts declared where
  attributed := accounted.attributed
  recorded := (Recorded.of_quiet quiet).append accounted.recorded grown
  flags := accounted.flags

theorem append {facts facts' : List Fact} {declared declared' : List Declaration}
    (first : Accounted site start around earlier nodes before middle facts declared)
    (rest : Accounted site start around (earlier ++ declared) nodes' middle after facts' declared')
    (grown : middle.Extends after) :
    Accounted site start around earlier (nodes ++ nodes') before after (facts ++ facts')
      (declared ++ declared') where
  attributed := .append (first.attributed.extended grown) rest.attributed
  recorded := first.recorded.append rest.recorded grown
  flags := by
    rw [← List.append_assoc]
    exact rest.flags

end Accounted

theorem Node.Placed.of_code {inType inHost : Bool} {node : Node}
    (placed : node.Placed inType inHost) (notMember : node.isMember = false)
    (notType : node.isType = false) :
    inType = true ∧ inHost = true ∧ ∀ child ∈ node.children, child.Placed true true := by
  cases placed with
  | type _ => cases notType
  | member isMember _ => rw [notMember] at isMember; cases isMember
  | code _ _ children => exact ⟨rfl, rfl, children⟩

theorem Node.Placed.of_type {inType inHost : Bool} {span : Span} {header : TypeHeader}
    {body : List Node} (placed : (Node.type span header body).Placed inType inHost) :
    ∀ node ∈ body, node.Placed true inHost := by
  cases placed with
  | type inner => exact inner
  | member isMember _ => cases isMember
  | code _ notType _ => cases notType

theorem Node.Placed.of_member {inType inHost : Bool} {node : Node}
    (placed : node.Placed inType inHost) (isMember : node.isMember) (notType : node.isType = false) :
    inType = true ∧ ∀ child ∈ node.children, child.Placed true true := by
  cases placed with
  | type _ => cases notType
  | member _ children => exact ⟨rfl, children⟩
  | code notMember _ _ => rw [notMember] at isMember; cases isMember

namespace Scopes

variable {before after : Scopes} {inType inHost : Bool}

theorem around_of_type {type : TypeFrame} (current : before.type? = some type) :
    before.around = ⟨some type.name, before.around.host⟩ := by
  rw [around, current]
  rfl

theorem around_of_method {host : MethodFrame} (current : before.method? = some host) :
    before.around = ⟨before.around.type, some host.name⟩ := by
  rw [around, current]
  rfl

theorem around_same (types : after.types = before.types) (methods : after.methods = before.methods) :
    after.around = before.around := by
  rw [around, around, type?, type?, method?, method?, types, methods]

theorem around_enteredType {type : TypeFrame} (types : after.types = type :: before.types)
    (methods : after.methods = before.methods) :
    after.around = ⟨some type.name, before.around.host⟩ := by
  rw [around, around, type?, method?, method?, types, methods]
  rfl

theorem around_enteredMethod {host : MethodFrame} (types : after.types = before.types)
    (methods : after.methods = host :: before.methods) :
    after.around = ⟨before.around.type, some host.name⟩ := by
  rw [around, around, type?, type?, method?, types, methods]
  rfl

theorem Covers.same (covers : before.Covers inType inHost) (types : after.types = before.types)
    (methods : after.methods = before.methods) : after.Covers inType inHost := by
  constructor
  · rw [type?, types]
    exact covers.type
  · rw [method?, methods]
    exact covers.host

theorem Covers.enteredType (covers : before.Covers inType inHost) {type : TypeFrame}
    (types : after.types = type :: before.types) (methods : after.methods = before.methods) :
    after.Covers true inHost := by
  constructor
  · rw [type?, types]
    intro _ outside
    cases outside
  · rw [method?, methods]
    exact covers.host

theorem Covers.enteredMethod (covers : before.Covers inType inHost) {host : MethodFrame}
    (types : after.types = before.types) (methods : after.methods = host :: before.methods) :
    after.Covers inType true := by
  constructor
  · rw [type?, types]
    exact covers.type
  · rw [method?, methods]
    intro _ outside
    cases outside

theorem Restored.around (restored : before.Restored after) : after.around = before.around :=
  around_same restored.types restored.methods

theorem Restored.covers (restored : before.Restored after) (covers : before.Covers inType inHost) :
    after.Covers inType inHost :=
  covers.same restored.types restored.methods

end Scopes

namespace Walk

/-- What an action that walks over some nodes is to do. -/
def Accounts (site : Site) (start : Store) (around : Surroundings) (earlier : List Declaration)
    (nodes : List Node) (before : Progress) : Unit → Progress → Prop :=
  fun _ after => ∃ facts declared,
    Accounted site start around earlier nodes before after facts declared

/-- The action accounts for some nodes, wherever they have their place. -/
def Accounting (inType inHost : Bool) (nodes : List Node) (action : Walk Unit) : Prop :=
  ∀ site start before earlier, (∀ node ∈ nodes, node.Placed inType inHost) →
    before.scopes.Covers inType inHost → Flags start earlier before.store →
    Meets Progress.Extends ⟨False, True⟩ site before action
      (Accounts site start before.scopes.around earlier nodes before)

variable {site : Site} {start : Store} {around : Surroundings} {earlier : List Declaration}
  {nodes nodes' : List Node} {before : Progress} {inType inHost : Bool}

theorem accounts_steady : Steady (Accounts site start around earlier nodes before) := by
  intro _ after later quiet ⟨facts, declared, accounted⟩
  have recorded := accounted.recorded.append (Recorded.of_quiet quiet) quiet.extends
  rw [List.append_nil, List.append_nil] at recorded
  exact ⟨facts, declared, accounted.attributed.extended quiet.extends, recorded,
    accounted.flags.quiet quiet.store⟩

theorem accounts_nil (flags : Flags start earlier before.store) :
    Accounts site start around earlier [] before () before :=
  ⟨[], [], .nil, .of_quiet (refl_of Progress.Quiet before), by rwa [List.append_nil]⟩

/-- Quiet steps before the nodes account for nothing. -/
theorem accounts_from_quiet {around : Surroundings} {middle : Progress} {action : Walk Unit}
    (quiet : before.Quiet middle)
    (met : Meets Progress.Extends ⟨False, True⟩ site middle action
      (Accounts site start around earlier nodes middle)) :
    Meets Progress.Extends ⟨False, True⟩ site middle action
      (Accounts site start around earlier nodes before) := by
  refine .imp met (fun _ grown => grown) fun _ after _ grown accounted => ?_
  obtain ⟨facts, declared, accounted⟩ := accounted
  exact ⟨facts, declared, accounted.before_quiet quiet grown⟩

namespace Accounting

theorem nil : Accounting inType inHost [] (pure ()) := by
  intro site start before earlier placed covers flags
  exact .pure (accounts_nil flags)

theorem append {action next : Walk Unit} (first : Accounting inType inHost nodes action)
    (rest : Accounting inType inHost nodes' next) :
    Accounting inType inHost (nodes ++ nodes') (action >>= fun _ => next) := by
  intro site start before earlier placed covers flags
  have here := fun node member => placed node (List.mem_append_left _ member)
  have behind := fun node member => placed node (List.mem_append_right _ member)
  refine .bind (first site start before earlier here covers flags)
    fun _ middle restored _ accounted => ?_
  obtain ⟨facts, declared, accounted⟩ := accounted
  refine .imp (rest site start middle (earlier ++ declared) behind (restored.covers covers)
    accounted.flags) (fun _ grown => grown) fun _ after _ grown later => ?_
  obtain ⟨facts', declared', later⟩ := later
  rw [restored.around] at later
  exact ⟨_, _, accounted.append later grown⟩

theorem visiting {node : Node} {handle : Walk Unit} (handled : Accounting inType inHost nodes handle) :
    Accounting inType inHost nodes (Walk.visiting node handle) :=
  fun site start before earlier placed covers flags =>
    .visiting (fun lacks => lacks.elim) (handled site start before earlier placed covers flags)

/-- A quiet step without nodes. -/
theorem of_quiet {own : Walk Unit}
    (quiet : ∀ site before, before.scopes.Covers inType inHost →
      Meets Progress.Quiet ⟨False, True⟩ site before own fun _ _ => True) :
    Accounting inType inHost [] own := by
  intro site start before earlier placed covers flags
  exact .imp (quiet site before covers) (fun _ quiet => quiet.extends)
    fun _ _ _ quiet _ => accounts_steady quiet (accounts_nil flags)

/-- A quiet step before the nodes. -/
theorem after_quiet {own : Walk α} {rest : Walk Unit}
    (quiet : ∀ site before, before.scopes.Covers inType inHost →
      Meets Progress.Quiet ⟨False, True⟩ site before own fun _ _ => True)
    (children : Accounting inType inHost nodes rest) :
    Accounting inType inHost nodes (own >>= fun _ => rest) := by
  intro site start before earlier placed covers flags
  refine .bind (Meets.grown (quiet site before covers)) fun _ middle restored _ known => ?_
  have met := children site start middle earlier placed (restored.covers covers)
    (flags.quiet known.2.store)
  rw [restored.around] at met
  exact accounts_from_quiet known.2 met

theorem insideBlock {span : Span} {action : Walk Unit}
    (children : Accounting inType inHost nodes action) :
    Accounting inType inHost nodes (Walk.insideBlock span action) := by
  intro site start before earlier placed covers flags
  refine .insideBlock accounts_steady fun inner quiet types methods _ => ?_
  have met := children site start inner earlier placed (covers.same types methods)
    (flags.quiet quiet.store)
  rw [Scopes.around_same types methods] at met
  exact accounts_from_quiet quiet met

/-- A statement or expression that is neither a call nor a cast nor a type check. -/
theorem plain {node : Node} {action : Walk Unit} (notCall : node.isCallOrCheck = false)
    (notMember : node.isMember = false) (notType : node.isType = false)
    (children : Accounting true true node.children action) :
    Accounting inType inHost [node] action := by
  intro site start before earlier placed covers flags
  obtain ⟨rfl, rfl, inner⟩ := (placed node List.mem_cons_self).of_code notMember notType
  refine .result (children site start before earlier inner covers flags) fun _ after accounted => ?_
  obtain ⟨facts, declared, accounted⟩ := accounted
  exact ⟨facts, declared, .plain notCall notMember notType accounted.attributed, accounted.recorded,
    accounted.flags⟩

/-- A call, a cast or a type check; the creation of an anonymous class does more. -/
theorem recorded {node : Node} {own : Walk α} {rest : Walk Unit} (isCallOrCheck : node.isCallOrCheck)
    (named : node.isAnonymousCreation = false)
    (credits : ∀ site before, before.scopes.Covers true true →
      Meets Progress.Extends ⟨False, True⟩ site before own fun _ after =>
        Credits site before after node.span
          (if node.isBound then some node.associationKind else none))
    (children : Accounting true true node.children rest) :
    Accounting inType inHost [node] (own >>= fun _ => rest) := by
  intro site start before earlier placed covers flags
  have notMember : node.isMember = false := by
    cases node <;> first | rfl | cases isCallOrCheck
  have notType : node.isType = false := by
    cases node <;> first | rfl | cases isCallOrCheck
  obtain ⟨rfl, rfl, inner⟩ := (placed node List.mem_cons_self).of_code notMember notType
  refine .of_sound fun sound => ?_
  refine .bind (credits site before covers) fun _ middle restored grown credited => ?_
  obtain ⟨host, hosted, fact⟩ := Recorded.of_credits sound grown credited
  refine .imp (children site start middle earlier inner (restored.covers covers)
    (flags.same grown credited.flags)) (fun _ grown => grown) fun _ after _ grown accounted => ?_
  obtain ⟨facts, declared, accounted⟩ := accounted
  have around : before.scopes.around = ⟨before.scopes.around.type, some host⟩ := by rw [← hosted]
  rw [restored.around, around] at accounted
  rw [around]
  exact ⟨⟨node, host⟩ :: facts, declared, .recorded isCallOrCheck named accounted.attributed,
    fact.append accounted.recorded grown, accounted.flags⟩

theorem type {span : Span} {header : TypeHeader} {body : List Node} {members : Walk Unit}
    (children : Accounting true inHost body members) :
    Accounting inType inHost [.type span header body] (declareType span header members) := by
  intro site start before earlier placed covers flags
  have inner : ∀ node ∈ body, node.Placed true inHost := (placed _ List.mem_cons_self).of_type
  refine declareType_meets accounts_steady span header (fun _ _ _ => trivial)
    fun entered type name _ declares types methods => ?_
  refine .imp (children site start entered (earlier ++ [Declaration.ofHeader name header]) inner
    (covers.enteredType types methods) (flags.declare declares.grown declares.named declares.flags))
    (fun _ grown => grown) fun _ after _ grown accounted => ?_
  obtain ⟨facts, declared, accounted⟩ := accounted
  rw [Scopes.around_enteredType types methods] at accounted
  have own : Recorded site.path before entered [] [Declaration.ofHeader name header] :=
    ⟨_, _, _, declares.adds, .nil, .nil, .cons declares.named .nil⟩
  refine ⟨facts, Declaration.ofHeader name header :: declared,
    .type ⟨type, grown.identity declares.named, grown.anchor declares.anchor⟩ accounted.attributed,
    own.append accounted.recorded grown, ?_⟩
  have flags := accounted.flags
  rwa [List.append_assoc] at flags

theorem method {span : Span} {header : MethodHeader} {body : Option Node} {visit : Walk Unit}
    (children : Accounting true true body.toList visit) :
    Accounting inType inHost [.method span header body] (declareMethod span header visit) := by
  intro site start before earlier placed covers flags
  obtain ⟨rfl, inner⟩ := (placed _ List.mem_cons_self).of_member rfl rfl
  refine declareMethod_meets accounts_steady (fun outside => (covers.type rfl outside).elim) span
    header fun ready type method hidden entered => ?_
  have met := children site start ready earlier inner
    (covers.enteredMethod entered.types entered.methods) (flags.quiet entered.quiet.store)
  have around := Scopes.around_of_type entered.current
  rw [Scopes.around_enteredMethod entered.types entered.methods, around] at met
  rw [around]
  refine .imp (accounts_from_quiet entered.quiet met) (fun _ grown => grown)
    fun _ after _ grown accounted => ?_
  obtain ⟨facts, declared, accounted⟩ := accounted
  exact ⟨facts, declared,
    .method ⟨method, grown.identity entered.named, grown.anchor entered.placed⟩ accounted.attributed,
    accounted.recorded, accounted.flags⟩

/-- Code that initializes fields belongs to the method made up for it. -/
theorem insideInitializer {action : Walk Unit} (children : Accounting true true nodes action)
    {type : TypeFrame} {before : Progress}
    (named : before.store.identity? type.entity = some (.type, type.name))
    (current : before.scopes.type? = some type) (placed : ∀ node ∈ nodes, node.Placed true true)
    (flags : Flags start earlier before.store) (isStatic : Bool) :
    Meets Progress.Extends ⟨False, True⟩ site before (Walk.insideInitializer type isStatic action)
      (Accounts site start ⟨some type.name, some (initializerHost type.name isStatic)⟩ earlier nodes
        before) := by
  refine insideInitializer_meets accounts_steady named isStatic
    fun inner host hidden quiet types methods => ?_
  have covers : before.scopes.Covers true false :=
    ⟨fun _ outside => (nomatch current.symm.trans outside), (nomatch ·)⟩
  have met := children site start inner earlier placed (covers.enteredMethod types methods)
    (flags.quiet quiet.store)
  rw [Scopes.around_enteredMethod types methods, Scopes.around_of_type current] at met
  exact accounts_from_quiet quiet met

theorem initializer {span : Span} {isStatic : Bool} {body : Node} {action : Walk Unit}
    (children : Accounting true true [body] action) :
    Accounting inType inHost [.initializer span isStatic body]
      (do Walk.insideInitializer (← currentType) isStatic action) := by
  intro site start before earlier placed covers flags
  obtain ⟨rfl, inner⟩ := (placed _ List.mem_cons_self).of_member rfl rfl
  refine .bind (currentType_meets fun outside => (covers.type rfl outside).elim)
    fun type _ _ _ found => ?_
  obtain ⟨rfl, current, named⟩ := found
  refine .result (children.insideInitializer named current inner flags isStatic)
    fun _ after accounted => ?_
  obtain ⟨facts, declared, accounted⟩ := accounted
  rw [Scopes.around_of_type current]
  exact ⟨facts, declared, .initializer accounted.attributed, accounted.recorded, accounted.flags⟩

/-- The fields of one declaration, given what becomes of their initializers. -/
theorem fields {span : Span} {header : VariablesHeader} {values : List DeclaredVariable}
    {visit : TypeFrame → Bool → Walk Unit}
    (children : ∀ type isStatic site start before earlier,
      before.store.identity? type.entity = some (.type, type.name) →
      before.scopes.type? = some type →
      (∀ node ∈ values.filterMap (·.initializer?), node.Placed true true) →
      Flags start earlier before.store →
      Meets Progress.Extends ⟨False, True⟩ site before (visit type isStatic)
        (Accounts site start ⟨some type.name, some (initializerHost type.name isStatic)⟩ earlier
          (values.filterMap (·.initializer?)) before)) :
    Accounting inType inHost [.fields span header values]
      (do
        let type ← currentType
        let isStatic ← areStatic type header.modifiers
        visit type isStatic) := by
  intro site start before earlier placed covers flags
  obtain ⟨rfl, inner⟩ := (placed _ List.mem_cons_self).of_member rfl rfl
  refine .of_sound fun sound => ?_
  refine .bind (currentType_meets fun outside => (covers.type rfl outside).elim)
    fun type _ _ _ found => ?_
  obtain ⟨rfl, current, named⟩ := found
  refine .bind (areStatic_meets named header.modifiers) fun isStatic _ _ _ known => ?_
  obtain ⟨rfl, static⟩ := known
  refine .result (children type isStatic site start before earlier named current inner flags)
    fun _ after accounted => ?_
  obtain ⟨facts, declared, accounted⟩ := accounted
  -- the walk reads the flag of the entity, the facts speak of the name
  have flagged : before.store.isInterface type.entity ↔ before.store.IsInterfaceNamed type.name :=
    ⟨fun flagged => ⟨type.entity, named, flagged⟩,
      fun ⟨id, known, flagged⟩ => sound.store.unique known named ▸ flagged⟩
  have marker : isStatic ↔ header.modifiers.contains Modifiers.isStatic ∨
      start.IsInterfaceNamed type.name ∨ ⟨type.name, true⟩ ∈ earlier := by
    rw [static, Bool.or_eq_true, flagged, flags type.name]
    exact or_comm
  rw [Scopes.around_of_type current]
  exact ⟨facts, declared, .fields marker accounted.attributed, accounted.recorded, accounted.flags⟩

/-- The creation of an anonymous class is recorded before its parts, and these before its body. -/
theorem anonymous {span bodySpan : Span} {created : TypeUse} {binding : Option MethodBinding}
    {bodyBinding : Option TypeBinding} {receiver : Option Node} {arguments body : List Node}
    {visitReceiver visitArguments members : Walk Unit}
    (inReceiver : Accounting true true receiver.toList visitReceiver)
    (inArguments : Accounting true true arguments visitArguments)
    (inBody : Accounting true true body members) :
    Accounting inType inHost
      [.creation span created binding receiver arguments (some (.mk bodySpan bodyBinding body))]
      (do
        let type ← createAnonymous span created arguments bodySpan bodyBinding
        visitReceiver
        visitArguments
        typeBody type.entity type.name false members) := by
  intro site start before earlier placed covers flags
  obtain ⟨rfl, rfl, inside⟩ := (placed _ List.mem_cons_self).of_code rfl rfl
  have partsPlaced := fun node member => inside node (List.mem_append_left _ member)
  have bodyPlaced := fun node member => inside node (List.mem_append_right _ member)
  refine .of_sound fun sound => ?_
  refine .bind (createAnonymous_meets (fun outside => (covers.type rfl outside).elim)
    (fun outside => (covers.host rfl outside).elim) (fun _ => trivial) span created arguments
    bodySpan bodyBinding)
    fun type middle restored grown found => ?_
  obtain ⟨named, placedAt, ⟨host, current, adds⟩, flagged⟩ := found
  have hostNamed := grown.identity (sound.methods host (List.mem_of_mem_head? current)).1
  have flags := flags.declare grown named
    fun id => (flagged id).trans (by rw [Bool.and_false, Bool.or_false])
  have outside := Scopes.around_of_method current
  have around := restored.around.trans outside
  rw [← bind_assoc]
  refine .bind (append inReceiver inArguments site start middle _ partsPlaced
    (restored.covers covers) flags) fun _ ready moved grownParts parts => ?_
  obtain ⟨facts, declared, parts⟩ := parts
  refine typeBody_meets accounts_steady (grownParts.identity named) false
    fun inner quiet types methods => ?_
  refine .imp (inBody site start inner _ bodyPlaced
    ((moved.covers (restored.covers covers)).enteredType types methods)
    (parts.flags.quiet quiet.store)) (fun _ grown => grown) fun _ after _ grownBody accounted => ?_
  obtain ⟨facts', declared', accounted⟩ := accounted
  rw [Scopes.around_enteredType types methods, moved.around, around] at accounted
  have accounted := accounted.before_quiet quiet grownBody
  have onward : ready.Extends after := trans_of Progress.Extends quiet.extends grownBody
  have grownAfter : middle.Extends after := trans_of Progress.Extends grownParts onward
  have own : Recorded site.path before middle
      [⟨.creation span created binding receiver arguments (some (.mk bodySpan bodyBinding body)),
        host.name⟩] [⟨type.name, false⟩] :=
    ⟨_, _, _, adds, .cons ⟨rfl, hostNamed, rfl⟩ .nil, .nil, .cons named .nil⟩
  -- the parts were recorded behind the creation itself, and the body behind the parts
  have inside := parts.recorded.append accounted.recorded onward
  rw [around] at parts
  rw [outside]
  refine ⟨_, _, .anonymous ⟨type.entity, grownAfter.identity named, grownAfter.anchor placedAt⟩
    (parts.attributed.extended onward) accounted.attributed, own.append inside grownAfter, ?_⟩
  have flags := accounted.flags
  rwa [List.append_assoc, List.append_assoc] at flags

end Accounting

mutual

theorem handle_accounting {inType inHost : Bool} :
    (node : Node) → Accounting inType inHost [node] (handle node)
  | .type span header body => by
      rw [handle]
      exact .type (visitAll_accounting body)
  | .method span header body => by
      rw [handle]
      exact .method (visitOption_accounting body)
  | .fields span header declared => by
      rw [handle]
      exact .fields fun type isStatic => visitFields_accounting type header isStatic declared
  | .initializer span isStatic body => by
      rw [handle]
      exact .initializer (.visiting (handle_accounting body))
  | .block span statements => by
      rw [handle]
      exact .plain rfl rfl rfl (.insideBlock (visitAll_accounting statements))
  | .locals span header declared => by
      rw [handle]
      exact .plain rfl rfl rfl (visitLocals_accounting header declared)
  | .call span header receiver arguments => by
      rw [handle]
      exact .recorded rfl rfl
        (fun _ _ covers => refer_meets (fun outside => (covers.host rfl outside).elim) span _ _ _
          arguments (receiverOf_meets receiver))
        (.append (visitOption_accounting receiver) (visitAll_accounting arguments))
  | .superCall span header qualifier arguments => by
      rw [handle]
      exact .recorded rfl rfl
        (fun _ _ covers => refer_meets (fun outside => (covers.host rfl outside).elim) span _ _ _
          arguments (.pure rfl))
        (visitAll_accounting arguments)
  | .ownConstructor span binding arguments => by
      rw [handle]
      exact .recorded rfl rfl
        (fun _ _ covers => refer_meets (fun outside => (covers.host rfl outside).elim) span _ _ _
          arguments (ownReceiver_meets fun outside => (covers.type rfl outside).elim))
        (visitAll_accounting arguments)
  | .superConstructor span binding receiver arguments => by
      rw [handle]
      exact .recorded rfl rfl
        (fun _ _ covers => refer_meets (fun outside => (covers.host rfl outside).elim) span _ _ _
          arguments (.pure rfl))
        (.append (visitOption_accounting receiver) (visitAll_accounting arguments))
  | .creation span created binding receiver arguments none => by
      rw [handle]
      refine .recorded rfl rfl
        (fun _ _ covers => refer_meets (fun outside => (covers.host rfl outside).elim) span _ _ _
          arguments (.pure rfl)) ?_
      -- no body follows the arguments
      have parts : Accounting true true (receiver.toList ++ arguments) _ :=
        .append (visitOption_accounting receiver) (visitAll_accounting arguments)
      rwa [← List.append_nil (receiver.toList ++ arguments)] at parts
  | .creation span created binding receiver arguments (some (.mk bodySpan bodyBinding body)) => by
      rw [handle]
      exact .anonymous (visitOption_accounting receiver) (visitAll_accounting arguments)
        (visitAll_accounting body)
  | .field span name binding receiver => by
      rw [handle]
      exact .plain rfl rfl rfl (.after_quiet
        (fun _ _ covers => accessField_meets (fun outside => (covers.type rfl outside).elim)
          (fun outside => (covers.host rfl outside).elim) span name binding receiver)
        (.visiting (handle_accounting receiver)))
  | .superField span name binding qualifier => by
      rw [handle]
      exact .plain rfl rfl rfl (.of_quiet
        fun _ _ covers => accessSuperField_meets (fun outside => (covers.type rfl outside).elim)
          (fun outside => (covers.host rfl outside).elim) span name binding)
  | .qualified span name binding qualifier => by
      rw [handle]
      exact .plain rfl rfl rfl (.after_quiet
        (fun _ _ covers => accessIn_meets (fun outside => (covers.host rfl outside).elim) span name _)
        (.visiting (handle_accounting qualifier)))
  | .simple span name binding => by
      rw [handle]
      exact .plain rfl rfl rfl (.of_quiet
        fun _ _ covers => accessIn_meets (fun outside => (covers.host rfl outside).elim) span name _)
  | .this .. => .plain rfl rfl rfl .nil
  | .cast span target operand => by
      rw [handle]
      exact .recorded rfl rfl
        (fun _ _ covers => recordCheck_meets (fun outside => (covers.host rfl outside).elim) rfl rfl
          rfl span target)
        (.visiting (handle_accounting operand))
  | .instanceCheck span tested known operand => by
      rw [handle]
      exact .recorded rfl rfl
        (fun _ _ covers => recordCheck_meets (fun outside => (covers.host rfl outside).elim) rfl rfl
          rfl span tested)
        (.visiting (handle_accounting operand))
  | .expression _ _ none children => .plain rfl rfl rfl (visitAll_accounting children)
  | .expression span _ (some (name, use)) children =>
      .plain rfl rfl rfl (.after_quiet
        (fun _ _ covers => declareInStatement_meets (fun outside => (covers.host rfl outside).elim)
          span name use)
        (visitAll_accounting children))
termination_by structural node => node

theorem visitAll_accounting {inType inHost : Bool} :
    (nodes : List Node) → Accounting inType inHost nodes (visitAll nodes)
  | [] => by
      rw [visitAll]
      exact .nil
  | node :: nodes => by
      rw [visitAll]
      exact .append (.visiting (handle_accounting node)) (visitAll_accounting nodes)
termination_by structural nodes => nodes

theorem visitOption_accounting {inType inHost : Bool} :
    (node : Option Node) → Accounting inType inHost node.toList (visitOption node)
  | none => by
      rw [visitOption]
      exact .nil
  | some node => by
      rw [visitOption]
      exact .visiting (handle_accounting node)
termination_by structural node => node

theorem visitFields_accounting (type : TypeFrame) (header : VariablesHeader) (isStatic : Bool) :
    (declared : List DeclaredVariable) → (site : Site) → (start : Store) → (before : Progress) →
      (earlier : List Declaration) →
      before.store.identity? type.entity = some (.type, type.name) →
      before.scopes.type? = some type →
      (∀ node ∈ declared.filterMap (·.initializer?), node.Placed true true) →
      Flags start earlier before.store →
      Meets Progress.Extends ⟨False, True⟩ site before (visitFields type header isStatic declared)
        (Accounts site start ⟨some type.name, some (initializerHost type.name isStatic)⟩ earlier
          (declared.filterMap (·.initializer?)) before)
  | [], _, _, _, _, _, _, _, flags => by
      rw [visitFields]
      exact .pure (accounts_nil flags)
  | .mk declarator none :: declared, site, start, before, earlier, named, current, placed, flags => by
      rw [visitFields]
      refine .bind (Meets.grown (declareField_meets named header declarator))
        fun _ middle restored grown known => ?_
      have still : middle.scopes.type? = some type := by
        rw [Scopes.type?, restored.types]
        exact current
      exact accounts_from_quiet known.2 (visitFields_accounting type header isStatic declared site
        start middle earlier (grown.identity named) still placed (flags.quiet known.2.store))
  | .mk declarator (some node) :: declared, site, start, before, earlier, named, current, placed,
      flags => by
      rw [visitFields]
      have here : ∀ other ∈ [node], other.Placed true true :=
        fun other member => placed other (List.mem_append_left (declared.filterMap _) member)
      have behind := fun other member => placed other (List.mem_cons_of_mem node member)
      refine .bind (Meets.grown (declareField_meets named header declarator))
        fun _ middle restored grown known => ?_
      have still : middle.scopes.type? = some type := by
        rw [Scopes.type?, restored.types]
        exact current
      have named := grown.identity named
      refine .bind ((Accounting.visiting (handle_accounting node)).insideInitializer named still here
        (flags.quiet known.2.store) isStatic) fun _ inner restored grown accounted => ?_
      obtain ⟨facts, decls, accounted⟩ := accounted
      have still : inner.scopes.type? = some type := by
        rw [Scopes.type?, restored.types]
        exact still
      have accounted := accounted.before_quiet known.2 grown
      refine .imp (visitFields_accounting type header isStatic declared site start inner
        (earlier ++ decls) (grown.identity named) still behind accounted.flags) (fun _ grown => grown)
        fun _ after _ grown later => ?_
      obtain ⟨facts', decls', later⟩ := later
      exact ⟨_, _, accounted.append later grown⟩
termination_by structural declared => declared

theorem visitLocals_accounting (header : VariablesHeader) :
    (declared : List DeclaredVariable) →
      Accounting true true (declared.filterMap (·.initializer?)) (visitLocals header declared)
  | [] => by
      rw [visitLocals]
      exact .nil
  | .mk declarator initializer :: declared => by
      rw [visitLocals]
      have parts : (DeclaredVariable.mk declarator initializer :: declared).filterMap
          (·.initializer?) = initializer.toList ++ declared.filterMap (·.initializer?) := by
        cases initializer <;> rfl
      rw [parts]
      exact .after_quiet
        (fun _ _ covers => declareVariable_meets (fun outside => (covers.host rfl outside).elim)
          header declarator)
        (.append (visitOption_accounting initializer) (visitLocals_accounting header declared))
termination_by structural declared => declared

end

theorem forM_visit_accounting {inType inHost : Bool} (nodes : List Node) :
    Accounting inType inHost nodes (nodes.forM visit) := by
  induction nodes with
  | nil => exact .nil
  | cons node nodes ih =>
      have first : Accounting inType inHost [node] (visit node) := .visiting (handle_accounting node)
      exact first.append ih

end Walk

end JavaFacts
