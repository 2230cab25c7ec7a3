import JavaFacts.Proofs.Outline.Composition
import JavaFacts.Proofs.Outline.Law
import JavaFacts.Proofs.Outline.Refinement

/-!
The outline of every tree obeys the law of its parts.
-/

namespace JavaFacts

theorem mem_placedBy_last {history : List Step} {identity : Identity} {step : Step}
    (placed : step.placed = [identity]) : identity ∈ placedBy (history ++ [step]) := by
  rw [placedBy_append_singleton, placed]
  exact List.mem_append_right _ List.mem_cons_self

theorem mem_placedBy_dropLast {history : List Step} {identity : Identity} {first second : Step}
    (placed : first.placed = [identity]) :
    identity ∈ placedBy (history ++ [first] ++ [second]).dropLast := by
  rw [List.dropLast_concat]
  exact mem_placedBy_last placed

namespace Node

theorem partsAll_append (around : Around) (nodes others : List Node) :
    partsAll around (nodes ++ others) = partsAll around nodes ++ partsAll around others := by
  induction nodes with
  | nil => rw [List.nil_append, partsAll, List.nil_append]
  | cons node nodes ih => rw [List.cons_append, partsAll, ih, partsAll, List.append_assoc]

theorem partsAll_singleton (around : Around) (node : Node) :
    partsAll around [node] = parts around node := by
  rw [partsAll, partsAll, List.append_nil]

theorem partsAll_toList (around : Around) (node : Option Node) :
    partsAll around node.toList = partsOption around node := by
  cases node with
  | none => rw [Option.toList_none, partsAll, partsOption]
  | some node => rw [Option.toList_some, partsAll_singleton, partsOption]

theorem partsAll_children_subset {node : Node} (isPlain : node.isPlain) (around : Around) :
    partsAll around node.children ⊆ parts around node := by
  cases node with
  | type | method | fields | initializer | block | locals => cases isPlain
  | creation span created binding receiver arguments anonymous =>
      cases anonymous with
      | none => simp [children, parts, partsAll_append, partsAll_toList]
      | some anonymous => cases isPlain
  | _ => simp [children, parts, partsAll_append, partsAll_toList, partsAll]

end Node

namespace Outline

variable {setting : Setting} {history : List Step} {standing : Standing}

theorem typeBody_keeps {name : String} (isInterface : Bool) {members : Outline Unit}
    (fits : standing.Fits setting history) (placed : (.type, name) ∈ placedBy history.dropLast)
    (nests : ∃ outer, setting.nests outer name)
    (inside : ∀ outer ∈ standing.types, setting.nests (some outer) name)
    (visited : ∀ later after, after.Fits setting later → after.types = name :: standing.types →
      Abides setting later after members) :
    Abides setting history standing (typeBody name isInterface members) := by
  have entered : (standing.enterType name).Fits setting history := {
    types := List.forall_mem_cons.mpr ⟨⟨placed, nests⟩, fits.types⟩
    nested := .cons inside fits.nested
    methods := fun method member =>
      have known := fits.methods method member
      ⟨known.1, List.mem_cons_of_mem _ known.2.1, known.2.2⟩
    localBlocks := fits.localBlocks }
  refine .inside fits (fun after same => ?_) (fun _ same => same) (fun _ => rfl) ?_
  · rw [Standing.leaveType, same]
    rfl
  · cases isInterface with
    | true =>
        exact .andThen (visited history _ entered rfl) fun _ _ _ onward => .pure onward.fits trivial
    | false =>
        refine .recording ⟨placed, List.mem_cons_self⟩ (.andThen (visited _ _ (entered.step _) rfl)
          fun _ later after onward => ?_)
        have grown := (List.prefix_append _ _).trans onward.grown
        exact .record onward.fits (placedBy_subset (dropLast_grown grown) placed) trivial

/-- What the law asks of the owner of a type that is declared here. -/
theorem lawful_typeOwner (fits : standing.Fits setting history) {name : String}
    (nests : setting.nests standing.types.head? name) :
    (standing.typeOwner setting.origin = (.package, setting.origin.packageName) ∧
      setting.nests none name) ∨
    ∃ outer, (.type, outer) ∈ placedBy history.dropLast ∧ setting.nests (some outer) name ∧
      (standing.typeOwner setting.origin = (.type, outer) ∨
        ∃ method, standing.typeOwner setting.origin = (.method, method) ∧
          method ∈ enteredBy history ∧ NamedMethod setting.parts outer method) := by
  unfold Standing.typeOwner
  rcases types : standing.types with - | ⟨type, outer⟩ <;> rw [types] at nests
  · exact .inl ⟨rfl, nests⟩
  · have placed := (fits.types type (types ▸ List.mem_cons_self)).1
    rcases methods : standing.methods with - | ⟨method, others⟩
    · exact .inr ⟨type, placed, nests, .inl rfl⟩
    · have known := fits.methods method (methods ▸ List.mem_cons_self)
      by_cases same : method.declaringType = type
      · exact .inr ⟨type, placed, nests, .inr ⟨method.name, by simp [same], known.1,
          same ▸ known.2.2⟩⟩
      · exact .inr ⟨type, placed, nests, .inl (by simp [same])⟩

/-- The types around lie around a type that is declared inside the innermost of them. -/
theorem nests_of_head (sound : setting.Sound) (fits : standing.Fits setting history) {name : String}
    (nests : setting.nests standing.types.head? name) :
    ∀ outer ∈ standing.types, setting.nests (some outer) name := by
  have nested := fits.nested
  rcases types : standing.types with - | ⟨type, others⟩ <;> rw [types] at nests nested
  · exact fun _ => (nomatch ·)
  · intro outer member
    rcases List.mem_cons.mp member with rfl | member
    · exact nests
    · exact sound.trans ((List.pairwise_cons.mp nested).1 outer member) nests

/-- The links of a type that was just declared to its supertypes. -/
theorem lawful_supertypes {step : Step} {name : String} {links : List Link}
    (placed : step.placed = [(.type, name)])
    (upward : ∀ link ∈ links, link.kind.isHierarchy ∧ link.source = name) :
    (Event.supertypes links).Obeys setting (history ++ [step]) :=
  ⟨name, ⟨history, step, rfl, placed⟩, upward⟩

theorem supertypeLinks_upward (header : TypeHeader) (origin : Origin) (name : String) :
    ∀ link ∈ header.supertypeLinks origin name, link.kind.isHierarchy ∧ link.source = name := by
  intro link member
  rcases List.mem_append.mp member with superclass | interface
  · obtain ⟨use, -, rfl⟩ := List.mem_map.mp superclass
    exact ⟨rfl, rfl⟩
  · obtain ⟨use, -, rfl⟩ := List.mem_map.mp interface
    exact ⟨rfl, rfl⟩

theorem declareType_keeps (sound : setting.Sound) (span : Span) {around : Around}
    {header : TypeHeader} {members : Outline Unit} (part : .type around header ∈ setting.parts)
    (fits : standing.Fits setting history) (place : around.Fits standing.types)
    (visited : ∀ later after, after.Fits setting later → (Around.named header).Fits after.types →
      Abides setting later after members) :
    Abides setting history standing (declareType span header members) := by
  have nests := sound.type part standing place fun type member => (fits.types type member).2
  refine .fromOrigin (.fromStanding (.asking (fun name gives => lawful_typeOwner fits (nests name gives))
    fun name gives => .changing rfl rfl (.recording
      (lawful_supertypes rfl (supertypeLinks_upward _ _ _)) ?_)))
  have added : (standing.addType name).Fits setting history := { fits with }
  have nests := nests name gives
  refine typeBody_keeps _ ((added.step _).step _) (mem_placedBy_dropLast rfl) ⟨_, nests⟩
    (nests_of_head sound fits nests) fun later after fits types => ?_
  refine visited later after fits ⟨name, _, types, fun bound known => ?_⟩
  have bound : standing.naming setting.origin header = .given bound := by
    rw [Standing.naming, known]
  have gives : (standing.naming setting.origin header).Gives name := gives
  rwa [bound] at gives

theorem declareAnonymous_keeps (sound : setting.Sound) (span : Span) {name enclosing : String}
    (supertype : TypeUse) (fits : standing.Fits setting history)
    (innermost : standing.types.head? = some enclosing)
    (nests : setting.nests (some enclosing) name) :
    Keeps setting history standing (declareAnonymous span name supertype) fun _ later =>
      (.type, name) ∈ placedBy later.dropLast := by
  have around := nests_of_head sound fits (innermost ▸ nests)
  -- the owner is the innermost method, also if that is one of a type further out
  have owned {owner : Identity} (outer : String)
      (member : outer ∈ standing.types) (owns : owner = (.type, outer) ∨
        ∃ method, owner = (.method, method) ∧ method ∈ enteredBy history ∧
          NamedMethod setting.parts outer method) :
      Keeps setting history standing (do
        let origin ← Outline.origin
        let _ ← Outline.ask (.declareType (.given name) (origin.anchor span) owner
          Modifiers.isAnonymous)
        Outline.change (·.addType name)
        Outline.record (.supertypes [origin.link (if supertype.binding.any (·.isInterface) then
          .subtyping else .inheritance) name supertype.name supertype.span]))
        fun _ later => (.type, name) ∈ placedBy later.dropLast := by
    refine .fromOrigin (.asking (fun given same => .inr ⟨outer, (fits.types outer member).1,
      same ▸ around outer member, owns⟩) fun answer same => .changing rfl rfl ?_)
    have placed : [(EntityKind.type, answer)] = [(.type, name)] :=
      congrArg (fun given => [(EntityKind.type, given)]) same
    have added : (standing.addType name).Fits setting history := { fits with }
    refine .record (added.step _) (lawful_supertypes placed fun link member => ?_)
      (mem_placedBy_dropLast placed)
    rw [List.mem_singleton.mp member]
    exact ⟨by dsimp only [Origin.link]; split <;> rfl, rfl⟩
  refine .fromStanding ?_
  rcases methods : standing.methods with - | ⟨method, others⟩
  · refine .fromCurrentType fits fun type current => ?_
    obtain rfl := Option.some.inj (innermost.symm.trans current)
    exact owned enclosing (List.mem_of_mem_head? current) (.inl rfl)
  · have known := fits.methods method (methods ▸ List.mem_cons_self)
    exact owned method.declaringType known.2.1 (.inr ⟨method.name, rfl, known.1, known.2.2⟩)

theorem createAnonymous_keeps (sound : setting.Sound) (span : Span) (created : TypeUse)
    (arguments : List Node) (bodySpan : Span) {binding : Option TypeBinding}
    (part : .anonymousClass binding ∈ setting.parts) (fits : standing.Fits setting history) :
    Keeps setting history standing (createAnonymous span created arguments bodySpan binding)
      fun name later => (.type, name) ∈ placedBy later.dropLast ∧
        ∃ enclosing, standing.types.head? = some enclosing ∧
          setting.nests (some enclosing) name := by
  refine .fromCurrentType fits fun enclosing innermost => .fromStanding (.changing rfl rfl ?_)
  have nests := sound.anonymousClass part enclosing (standing.anonymousCounts enclosing)
    (fits.types enclosing (List.mem_of_mem_head? innermost)).2
  refine .bind (declareAnonymous_keeps sound bodySpan created { fits with } innermost nests)
    fun _ middle between declared placed => ?_
  refine .fromCurrentMethod declared.fits fun caller member => .fromOrigin (.recording
    ⟨placed, rfl, (declared.fits.methods caller member).1⟩ (.pure (declared.fits.step _) ?_))
  exact ⟨placedBy_subset (dropLast_grown (List.prefix_append _ _)) placed, enclosing, innermost, nests⟩

theorem parameterEvents_named (origin : Origin) (method : String) (position : Nat)
    (parameters : List (FormalParameter × String)) :
    ∀ event ∈ parameterEvents origin method position parameters,
      ∃ parameter ∈ parameters, event.name = method ++ "." ++ parameter.1.name := by
  induction parameters generalizing position with
  | nil => exact fun _ => (nomatch ·)
  | cons parameter parameters ih =>
      intro event member
      rcases List.mem_cons.mp member with rfl | member
      · exact ⟨parameter, List.mem_cons_self, rfl⟩
      · obtain ⟨other, known, named⟩ := ih (position + 1) event member
        exact ⟨other, List.mem_cons_of_mem _ known, named⟩

/-- Inside of a method that was just entered. -/
theorem insideMethod_keeps {name type : String} {action : Outline Unit}
    (fits : standing.Fits setting history)
    (within : Abides setting history (standing.enterMethod name type) action) :
    Abides setting history standing (insideMethod name type action) :=
  .inside fits (fun _ same => same) (fun after same => by rw [Standing.leaveMethod, same]; rfl)
    (fun _ => rfl) within

theorem fits_enterMethod {name type : String} (fits : standing.Fits setting history)
    (member : type ∈ standing.types) (entered : name ∈ enteredBy history)
    (named : NamedMethod setting.parts type name) :
    (standing.enterMethod name type).Fits setting history :=
  { fits with methods := List.forall_mem_cons.mpr ⟨⟨entered, member, named⟩, fits.methods⟩ }

theorem declareMethod_keeps (span : Span) {header : MethodHeader} {body : Outline Unit}
    (part : .method header ∈ setting.parts) (fits : standing.Fits setting history)
    (visited : ∀ later after, after.Fits setting later → after.types = standing.types →
      Abides setting later after body) :
    Abides setting history standing (declareMethod span header body) := by
  refine .fromCurrentType fits fun type current => .fromOrigin ?_
  have member := List.mem_of_mem_head? current
  refine .recording ⟨(fits.types type member).1, header, part, rfl, rfl, rfl⟩ ?_
  refine insideMethod_keeps (fits.step _) (.recording ⟨⟨history, _, rfl, rfl⟩, header, part, ?_⟩ ?_)
  · intro event listed
    obtain ⟨parameter, known, named⟩ := parameterEvents_named _ _ _ _ event listed
    exact ⟨parameter.1, (List.of_mem_zip known).1, named⟩
  · refine visited _ _ (fits_enterMethod ((fits.step _).step _) member ?_ (.declared part)) rfl
    rw [enteredBy_append_singleton]
    exact List.mem_append_right _ List.mem_cons_self

theorem declareField_keeps {type : String} (header : VariablesHeader) {declarator : Declarator}
    (part : .field declarator.name ∈ setting.parts) (fits : standing.Fits setting history)
    (member : type ∈ standing.types) :
    Abides setting history standing (declareField type header declarator) :=
  .fromOrigin (.record fits ⟨(fits.types type member).1, declarator.name, part, rfl⟩ trivial)

theorem areStatic_keeps {type : String} (modifiers : Modifiers)
    (fits : standing.Fits setting history) (member : type ∈ standing.types) :
    Abides setting history standing (areStatic type modifiers) :=
  .asking (fits.types type member).1 fun _ _ => .pure (fits.step _) trivial

theorem insideInitializer_keeps {type : String} (isStatic : Bool) {action : Outline Unit}
    (fits : standing.Fits setting history) (member : type ∈ standing.types)
    (visited : ∀ later after, after.Fits setting later → after.types = standing.types →
      Abides setting later after action) :
    Abides setting history standing (insideInitializer type isStatic action) := by
  have marker : (if isStatic then Naming.staticInitializer else Naming.instanceInitializer) ∈
      [Naming.instanceInitializer, Naming.staticInitializer] := by
    cases isStatic
    · exact List.mem_cons_self
    · exact List.mem_cons_of_mem _ List.mem_cons_self
  refine .recording ⟨(fits.types type member).1, marker⟩ (insideMethod_keeps (fits.step _) ?_)
  refine visited _ _ (fits_enterMethod (fits.step _) member ?_ (.host marker)) rfl
  rw [enteredBy_append_singleton]
  exact List.mem_append_right _ List.mem_cons_self

theorem fits_placeLocal {name : String} (fits : standing.Fits setting history)
    (placed : (.localVariable, name) ∈ placedBy history) :
    (standing.placeLocal name).Fits setting history ∧
      (standing.placeLocal name).types = standing.types ∧
      (standing.placeLocal name).methods = standing.methods := by
  unfold Standing.placeLocal
  cases standing.block with
  | none => exact ⟨fits, rfl, rfl⟩
  | some block =>
      refine ⟨{ fits with localBlocks := fun other somewhere => ?_ }, rfl, rfl⟩
      by_cases same : other = name
      · exact same ▸ placed
      · exact fits.localBlocks other (by simpa [Function.update_of_ne same] using somewhere)

theorem declareLocal_keeps {name : String} (span : Span)
    (part : .localVariable name ∈ setting.parts) (fits : standing.Fits setting history) :
    Keeps setting history standing (declareLocal name span) fun unique later =>
      JustPlaced later (.localVariable, unique) := by
  refine .fromCurrentMethod fits fun method member =>
    .fromStanding (.changing rfl rfl (.fromOrigin ?_))
  have named : standing.localName method.name name = method.name ++ "." ++ name ∨
      ∃ ordinal : Nat, standing.localName method.name name =
        method.name ++ "." ++ name ++ "#" ++ toString ordinal := by
    unfold Standing.localName
    dsimp only
    split
    · exact .inl rfl
    · exact .inr ⟨_, rfl⟩
  refine .recording ⟨(fits.methods method member).1, name, part, named⟩ ?_
  have counted : (standing.countLocal method.name name).Fits setting history := { fits with }
  have placed : Step.placed ⟨.record (.localVariable (standing.localName method.name name)
      (setting.origin.anchor span) method.name), ()⟩ = [(.localVariable, _)] := rfl
  obtain ⟨still, types, methods⟩ := fits_placeLocal (counted.step _) (mem_placedBy_last placed)
  exact .changing types methods (.pure still ⟨history, _, rfl, rfl⟩)

theorem declareVariable_keeps (header : VariablesHeader) {declarator : Declarator}
    (part : .localVariable declarator.name ∈ setting.parts) (fits : standing.Fits setting history) :
    Abides setting history standing (declareVariable header declarator) :=
  .bind (declareLocal_keeps _ part fits) fun _ _ _ onward placed => .record onward.fits placed trivial

theorem declareInStatement_keeps (span : Span) {name : String} (use : TypeUse)
    (part : .localVariable name ∈ setting.parts) (fits : standing.Fits setting history) :
    Abides setting history standing (declareInStatement span name use) :=
  .bind (declareLocal_keeps _ part fits) fun _ _ _ onward placed => .record onward.fits placed trivial

theorem accessIn_keeps (span : Span) (field : String) (type : Option String)
    (fits : standing.Fits setting history) :
    Abides setting history standing (accessIn span field type) := by
  cases type with
  | none => exact .pure fits trivial
  | some type =>
      exact .fromCurrentMethod fits fun method member =>
        .fromOrigin (.record fits ⟨rfl, (fits.methods method member).1, rfl⟩ trivial)

theorem accessField_keeps (span : Span) (name : String) (binding : Option VariableBinding)
    (receiver : Node) (fits : standing.Fits setting history) :
    Abides setting history standing (accessField span name binding receiver) := by
  unfold accessField
  split
  · exact accessIn_keeps span name _ fits
  · exact .fromCurrentType fits fun _ _ => accessIn_keeps span name _ fits
  · exact .pure fits trivial

theorem accessSuperField_keeps (span : Span) (name : String) (binding : Option VariableBinding)
    (fits : standing.Fits setting history) :
    Abides setting history standing (accessSuperField span name binding) := by
  cases binding with
  | some binding => exact accessIn_keeps span name _ fits
  | none =>
      exact .fromCurrentType fits fun type current =>
        .asking (fits.types type (List.mem_of_mem_head? current)).1 fun _ _ =>
          accessIn_keeps span name _ (fits.step _)

theorem recordCheck_keeps {kind : AssociationKind} (check : kind = .castTo ∨ kind = .instanceCheck)
    (span : Span) (use : TypeUse) (fits : standing.Fits setting history) :
    Abides setting history standing (recordCheck kind span use) :=
  .fromCurrentMethod fits fun method member =>
    .fromOrigin (.record fits ⟨check, (fits.methods method member).1⟩ trivial)

theorem linkBound_keeps (span : Span) {binding : Option MethodBinding} (arguments : List Node)
    (part : .call binding ∈ setting.parts) (fits : standing.Fits setting history) :
    Abides setting history standing (linkBound span binding arguments) := by
  unfold linkBound
  cases binding with
  | none => exact .pure fits trivial
  | some binding =>
      dsimp only
      split
      · exact .pure fits trivial
      · cases named : Naming.boundMethodName? binding with
        | none => exact .pure fits trivial
        | some target =>
            exact .fromCurrentMethod fits fun caller member => .fromOrigin (.recording
              ⟨⟨binding, part, named⟩, rfl, (fits.methods caller member).1, rfl⟩
              (.pure (fits.step _) trivial))

theorem defer_keeps (span : Span) (kind : CallKind) (name : String) (receiver : Receiver)
    (arguments : List Node) (fits : standing.Fits setting history) :
    Abides setting history standing (defer span kind name receiver arguments) := by
  refine .fromCurrentMethod fits fun caller member => .fromStanding (.asking
    ⟨(fits.methods caller member).1, fits.localBlocks⟩ fun levels _ => .fromOrigin ?_)
  exact ⟨⟨List.prefix_rfl, { fits.step _ with }, rfl, rfl⟩, fun _ _ => trivial⟩

/-- The receiver is asked for where the call cannot be linked at once. -/
theorem refer_keeps (span : Span) (kind : CallKind) (name : String)
    {binding : Option MethodBinding} (arguments : List Node) {receiver : Outline Receiver}
    (part : .call binding ∈ setting.parts) (fits : standing.Fits setting history)
    (received : ∀ later after, after.Fits setting later → Abides setting later after receiver) :
    Abides setting history standing (refer span kind name binding arguments receiver) := by
  refine .andThen (linkBound_keeps span arguments part fits) fun linked later after onward => ?_
  cases linked with
  | true => exact .pure onward.fits trivial
  | false =>
      exact .andThen (received later after onward.fits) fun receiver _ _ onward =>
        defer_keeps span kind name receiver arguments onward.fits

/-- What is asked of every node of a tree. -/
def Lawful (setting : Setting) (around : Around) (action : Outline Unit) : Prop :=
  ∀ (history : List Step) (standing : Standing), standing.Fits setting history →
    around.Fits standing.types → Abides setting history standing action

namespace Lawful

variable {around : Around} {node : Node}

theorem visiting {action : Outline Unit} (visited : Lawful setting around action) :
    Lawful setting around (Outline.visiting action) :=
  fun history standing fits place => .visiting (visited history standing fits place)

theorem andThen {first : Outline Unit} {rest : Outline Unit} (one : Lawful setting around first)
    (two : Lawful setting around rest) : Lawful setting around (first >>= fun _ => rest) :=
  fun history standing fits place => .andThen (one history standing fits place)
    fun _ later after onward => two later after onward.fits (onward.types ▸ place)

theorem own (isPlain : node.isPlain) (parts : node.parts around ⊆ setting.parts) :
    Lawful setting around (Outline.own node) := by
  intro history standing fits _
  cases node with
  | call span header receiver arguments =>
      rw [Node.parts, List.cons_subset] at parts
      exact refer_keeps span _ _ _ parts.1 fits fun _ _ fits => .fromOrigin (.pure fits trivial)
  | superCall span header qualifier arguments =>
      rw [Node.parts, List.cons_subset] at parts
      exact refer_keeps span _ _ _ parts.1 fits fun _ _ fits => .pure fits trivial
  | ownConstructor span binding arguments =>
      rw [Node.parts, List.cons_subset] at parts
      exact refer_keeps span _ _ _ parts.1 fits fun _ _ fits =>
        .fromCurrentType fits fun _ _ => .pure fits trivial
  | superConstructor span binding receiver arguments =>
      rw [Node.parts, List.cons_subset] at parts
      exact refer_keeps span _ _ _ parts.1 fits fun _ _ fits => .pure fits trivial
  | creation span created binding receiver arguments anonymous =>
      cases anonymous with
      | none =>
          rw [Node.parts, List.cons_subset] at parts
          exact refer_keeps span _ _ _ parts.1 fits fun _ _ fits => .pure fits trivial
      | some anonymous => cases isPlain
  | field span name binding receiver => exact accessField_keeps span name binding receiver fits
  | superField span name binding qualifier => exact accessSuperField_keeps span name binding fits
  | qualified span name binding qualifier => exact accessIn_keeps span name _ fits
  | simple span name binding => exact accessIn_keeps span name _ fits
  | this span qualifier type => exact .pure fits trivial
  | cast span target operand => exact recordCheck_keeps (.inl rfl) span target fits
  | instanceCheck span tested type operand => exact recordCheck_keeps (.inr rfl) span tested fits
  | expression span type declares children =>
      cases declares with
      | none => exact .pure fits trivial
      | some declared =>
          exact declareInStatement_keeps span declared.2 (parts List.mem_cons_self) fits
  | type | method | fields | initializer | block | locals => cases isPlain

end Lawful

/-- The visit of trees whose parts are those of the setting obeys the law. -/
def LawfulParts (setting : Setting) (nodes : List Node) (action : Outline Unit) : Prop :=
  ∀ around, Node.partsAll around nodes ⊆ setting.parts → Lawful setting around action

theorem DeclaresEach.keeps {declare : Declarator → Outline Unit} {within : Outline Unit → Outline Unit}
    {declared : List DeclaredVariable} {action : Outline Unit} {around : Around} {part : String → Part}
    (member : List String → Prop)
    (declares : DeclaresEach (LawfulParts setting) declare within declared action)
    (declaring : ∀ {history standing} {declarator : Declarator},
      part declarator.name ∈ setting.parts → standing.Fits setting history → member standing.types →
      Abides setting history standing (declare declarator))
    (initializing : ∀ {history standing visit}, Lawful setting around visit →
      standing.Fits setting history → around.Fits standing.types → member standing.types →
      Abides setting history standing (within visit))
    (parts : Node.partsVariables around part declared ⊆ setting.parts)
    (fits : standing.Fits setting history) (place : around.Fits standing.types)
    (inside : member standing.types) : Abides setting history standing action := by
  induction declares generalizing history standing with
  | nil => exact .pure fits trivial
  | bare _ ih =>
      rw [Node.partsVariables, List.cons_subset, List.append_subset] at parts
      exact .andThen (declaring parts.1 fits inside) fun _ _ _ onward =>
        ih parts.2.2 onward.fits (onward.types ▸ place) (onward.types ▸ inside)
  | initialized visited _ ih =>
      rw [Node.partsVariables, List.cons_subset, List.append_subset] at parts
      refine .andThen (declaring parts.1 fits inside) fun _ _ _ declared => ?_
      have visits := Lawful.visiting (visited around (by rw [Node.partsAll_singleton]; exact parts.2.1))
      refine .andThen (initializing visits declared.fits (declared.types ▸ place)
        (declared.types ▸ inside)) fun _ _ _ initialized => ?_
      have types := initialized.types.trans declared.types
      exact ih parts.2.2 initialized.fits (types ▸ place) (types ▸ inside)

theorem compositional_lawful (sound : setting.Sound) : Compositional (LawfulParts setting) where
  nil _ _ _ _ fits _ := .pure fits trivial
  cons visited visits around parts := by
    rw [Node.partsAll, List.append_subset] at parts
    exact .andThen (.visiting (visited around (by rw [Node.partsAll_singleton]; exact parts.1)))
      (visits around parts.2)
  type span header members around parts := by
    rw [Node.partsAll_singleton, Node.parts, List.cons_subset] at parts
    exact fun history standing fits place =>
      declareType_keeps sound span parts.1 fits place (members _ parts.2)
  method span header visited around parts := by
    rw [Node.partsAll_singleton, Node.parts, List.cons_subset, ← Node.partsAll_toList] at parts
    exact fun history standing fits place => declareMethod_keeps span parts.1 fits
      fun later after fits types => visited around parts.2 later after fits (types ▸ place)
  fields span header declares around parts := by
    rw [Node.partsAll_singleton, Node.parts] at parts
    intro history standing fits place
    refine .fromCurrentType fits fun type current => ?_
    have member := List.mem_of_mem_head? current
    refine .andThen (areStatic_keeps header.modifiers fits member)
      fun isStatic _ _ onward => (declares type isStatic).keeps (type ∈ ·)
        (declareField_keeps header) ?_ parts onward.fits (onward.types ▸ place) (onward.types ▸ member)
    intro history standing visit visited fits place member
    exact insideInitializer_keeps isStatic fits member
      fun later after fits types => visited later after fits (types ▸ place)
  initializer span isStatic visited around parts := by
    rw [Node.partsAll_singleton, Node.parts, ← Node.partsAll_singleton] at parts
    intro history standing fits place
    refine .fromCurrentType fits fun type current => ?_
    have visits := Lawful.visiting (visited around parts)
    exact insideInitializer_keeps isStatic fits (List.mem_of_mem_head? current)
      fun later after fits types => visits later after fits (types ▸ place)
  block span visits around parts := by
    rw [Node.partsAll_singleton, Node.parts] at parts
    exact fun history standing fits place => .inside fits (fun _ same => same) (fun _ same => same)
      (fun _ => rfl) (visits around parts _ _ { fits with } place)
  locals span header declares around parts := by
    rw [Node.partsAll_singleton, Node.parts] at parts
    intro history standing fits place
    exact declares.keeps (fun _ => True) (fun part fits _ => declareVariable_keeps header part fits)
      (fun visited fits place _ => visited _ _ fits place) parts fits place trivial
  creation span created binding bodySpan bodyBinding visits members around parts := by
    rw [Node.partsAll_singleton, Node.parts, List.cons_subset, List.append_subset] at parts
    intro history standing fits place
    refine .bind (createAnonymous_keeps sound span created _ bodySpan parts.1 fits)
      fun name _ _ created known => ?_
    obtain ⟨placed, enclosing, innermost, nests⟩ := known
    refine .andThen (visits around (by rw [Node.partsAll_append, Node.partsAll_toList]; exact parts.2.1)
      _ _ created.fits (created.types ▸ place)) fun _ _ _ visited => ?_
    have types := visited.types.trans created.types
    refine typeBody_keeps false visited.fits (placedBy_subset (dropLast_grown visited.grown) placed)
      ⟨_, nests⟩ (nests_of_head sound visited.fits (types ▸ innermost ▸ nests)) ?_
    exact fun later after fits types =>
      members .anonymous parts.2.2 later after fits (types ▸ List.cons_ne_nil _ _)
  plain isPlain visits around parts := by
    rw [Node.partsAll_singleton] at parts
    exact .andThen (.own isPlain parts)
      (visits around (List.Subset.trans (Node.partsAll_children_subset isPlain around) parts))

end Outline

theorem Standing.fits_initial (setting : Setting) : Standing.initial.Fits setting [] where
  types _ := (nomatch ·)
  nested := .nil
  methods _ := (nomatch ·)
  localBlocks _ somewhere := absurd rfl somewhere

/-- What the law for the plan of a unit depends on. -/
def CompilationUnit.setting (unit : CompilationUnit) (config : Config)
    (nests : Option String → String → Prop) : Setting :=
  ⟨unit.origin config, unit.parts, nests⟩

/-- The plan of a unit obeys the law of the unit, whatever answers it gets. -/
theorem CompilationUnit.lawful_plan (unit : CompilationUnit) (config : Config)
    {nests : Option String → String → Prop} (sound : (unit.setting config nests).Sound) :
    (unit.plan config).Lawful (Request.Obeys (unit.setting config nests)) (fun _ _ => True) [] :=
  Plan.Lawful.weaken ((Outline.compositional_lawful sound).visitAll unit.types .outside
    (List.Subset.refl _) _ _ (Standing.fits_initial _) rfl) fun _ _ _ => trivial

/-- Names may be anything. -/
theorem Setting.sound_true (origin : Origin) (parts : List Part) :
    Setting.Sound ⟨origin, parts, fun _ _ => True⟩ where
  trans := by
    intros
    trivial
  type := by
    intros
    trivial
  anonymousClass := by
    intros
    trivial

end JavaFacts
