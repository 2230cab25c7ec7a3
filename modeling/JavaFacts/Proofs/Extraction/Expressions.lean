import JavaFacts.Extraction.Expressions
import JavaFacts.Proofs.Extraction.Types

/-!
What accesses, casts, type checks and calls come to. Each cast, type check and call adds one
association or one call kept for later, in the name of the method around it.
-/

namespace JavaFacts.Walk

open Progress (Follows)

variable {relation : Progress → Progress → Prop} {within : Store → Store → Prop}
  {lapses : Lapses} {site : Site} {before : Progress}

theorem accessIn_meets (known : before.scopes.method? = none → lapses.missing) (span : Span)
    (field : String) (typeName : Option String) :
    Meets Progress.Quiet lapses site before (accessIn span field typeName) fun _ _ => True := by
  cases typeName with
  | none => exact .pure trivial
  | some typeName =>
      show Meets _ _ _ _ (recordAccess span typeName field) _
      unfold recordAccess
      refine .bind (currentMethod_meets known) fun method _ _ _ found => ?_
      obtain ⟨rfl, -, named, -⟩ := found
      refine .bind (.edit (Edit.ensureField_meets typeName field)) fun entity _ _ quiet held => ?_
      exact link_quiet .access rfl ⟨_, quiet.store.identity named⟩ held.2 span

theorem accessField_meets (inType : before.scopes.type? = none → lapses.missing)
    (inMethod : before.scopes.method? = none → lapses.missing) (span : Span) (name : String)
    (binding : Option VariableBinding) (receiver : Node) :
    Meets Progress.Quiet lapses site before (accessField span name binding receiver)
      fun _ _ => True := by
  unfold accessField
  split
  · exact accessIn_meets inMethod span name _
  · refine .bind (currentType_meets inType) fun type _ _ _ found => ?_
    obtain ⟨rfl, -⟩ := found
    exact accessIn_meets inMethod span name _
  · exact .pure trivial

theorem accessSuperField_meets (inType : before.scopes.type? = none → lapses.missing)
    (inMethod : before.scopes.method? = none → lapses.missing) (span : Span) (name : String)
    (binding : Option VariableBinding) :
    Meets Progress.Quiet lapses site before (accessSuperField span name binding)
      fun _ _ => True := by
  cases binding with
  | some binding => exact accessIn_meets inMethod span name _
  | none =>
      refine .bind (currentType_meets inType) fun type _ _ _ found => ?_
      obtain ⟨rfl, -⟩ := found
      refine .bind .get fun _ _ _ _ same => ?_
      obtain ⟨rfl, rfl⟩ := same
      exact accessIn_meets inMethod span name _

/-- What the node at a span added, in the name of the method around it. -/
structure Credits (site : Site) (before after : Progress) (span : Span)
    (linked : Option AssociationKind) : Prop where
  credited : ∃ host, before.scopes.method? = some host ∧
    match linked with
    | some kind => before.Adds after [(kind, host.entity, some (Anchor.ofSpan site.path span))] [] []
    | none => before.Adds after [] [(host.entity, Anchor.ofSpan site.path span)] []
  flags : before.SameFlags after

theorem recordCheck_meets (inMethod : before.scopes.method? = none → lapses.missing)
    {kind : AssociationKind} (fromMethod : kind.sourceKind = .method)
    (toType : kind.targetKind = .type) (recorded : kind.isCallOrCheck) (span : Span)
    (use : TypeUse) :
    Meets Progress.Extends lapses site before (recordCheck kind span use)
      fun _ after => Credits site before after span (some kind) := by
  unfold recordCheck
  refine .bind (currentMethod_meets inMethod) fun host _ _ _ found => ?_
  obtain ⟨rfl, current, named, -⟩ := found
  refine .bind (Meets.grown (.edit (Edit.typeOf_meets use))) fun type middle _ _ known => ?_
  obtain ⟨⟨-, held⟩, quiet⟩ := known
  refine .result (link_adds kind recorded (fromMethod ▸ ⟨_, quiet.store.identity named⟩) (toType ▸ held)
    span) fun _ after added => ?_
  exact ⟨⟨host, current, quiet.adds.trans added.1⟩,
    fun id => (added.2 id).trans (quiet.store.interfaces id)⟩

theorem summarize_meets [IsPreorder Progress relation] (node : Node) :
    Meets relation lapses site before (summarize node) fun _ after => before = after :=
  .unchanged rfl rfl

theorem mapM_unchanged [IsPreorder Progress relation] {items : List ι} {action : ι → Walk α}
    (each : ∀ item, Meets relation lapses site before (action item) fun _ after => before = after) :
    Meets relation lapses site before (items.mapM action) fun _ after => before = after := by
  induction items with
  | nil => exact .unchanged rfl rfl
  | cons item items ih =>
      rw [List.mapM_cons]
      refine .bind (each item) fun _ _ _ _ same => ?_
      subst same
      refine .bind ih fun _ _ _ _ same => ?_
      subst same
      exact .pure rfl

theorem receiverOf_meets [IsPreorder Progress relation] (receiver : Option Node) :
    Meets relation lapses site before (receiverOf receiver) fun _ after => before = after := by
  unfold receiverOf
  split
  · exact .pure rfl
  · exact .pure rfl
  · refine .result (.map (summarize_meets _)) fun _ _ known => ?_
    obtain ⟨_, -, same⟩ := known
    exact same

theorem ownReceiver_meets [IsPreorder Progress relation]
    (inType : before.scopes.type? = none → lapses.missing) :
    Meets relation lapses site before ownReceiver fun _ after => before = after := by
  unfold ownReceiver
  refine .bind (currentType_meets inType) fun _ _ _ _ found => ?_
  exact .pure found.1

theorem argumentType_meets [IsPreorder Progress relation] (argument : Node) :
    Meets relation lapses site before (argumentType argument) fun _ after => before = after := by
  unfold argumentType
  exact .bind (summarize_meets argument) fun _ _ _ _ same => .pure same

theorem recordReturnType_meets {grounds : Grounds} {store : Store} {method : EntityId}
    (held : store.Holds .method method) (returned : Option TypeBinding) :
    Edit.Meets Store.Quiet grounds store (recordReturnType method returned) fun _ _ => True := by
  unfold recordReturnType
  cases returned with
  | none => exact .pure trivial
  | some type =>
      refine .bind (Edit.entity_meets held) fun entity _ _ known => ?_
      obtain ⟨rfl, -⟩ := known
      split
      · refine .bind (Edit.ensureType_meets _) fun type _ quiet typed => ?_
        refine Edit.update_typed (held.extended quiet.toExtends) (by decide)
          (fun _ => ⟨rfl, rfl, rfl, fun place => place⟩) (fun _ => rfl) fun _ _ known => .inl ?_
        exact ⟨_, Option.some.inj known ▸ typed⟩
      · exact .pure trivial

/-- Whether a call is linked as soon as it is found: the target has a name, and the types of the
arguments are known. -/
def isBound (binding : Option MethodBinding) (arguments : List Node) : Bool :=
  binding.any fun method =>
    arguments.all (fun argument => isResolved argument.type?) &&
      (Naming.boundMethodName? method).isSome

theorem linkBound_meets (inMethod : before.scopes.method? = none → lapses.missing) (span : Span)
    (binding : Option MethodBinding) (arguments : List Node) :
    Meets Progress.Extends lapses site before (linkBound span binding arguments)
      fun linked after => linked = isBound binding arguments ∧
        if isBound binding arguments then Credits site before after span (some .invocation)
        else before = after := by
  unfold linkBound isBound
  cases binding with
  | none => exact .pure ⟨rfl, rfl⟩
  | some binding =>
      dsimp only
      rw [Option.any_some]
      split
      · rename_i unresolved
        rw [Bool.not_eq_true'] at unresolved
        rw [unresolved, Bool.false_and]
        exact .pure ⟨rfl, rfl⟩
      · rename_i resolved
        rw [Bool.not_eq_true, Bool.not_eq_false'] at resolved
        rw [resolved, Bool.true_and]
        cases named : Naming.boundMethodName? binding with
        | none => exact .pure ⟨rfl, rfl⟩
        | some names =>
            obtain ⟨typeName, name⟩ := names
            refine .bind (currentMethod_meets inMethod) fun host _ _ _ found => ?_
            obtain ⟨rfl, current, hostNamed, -⟩ := found
            refine .bind (Meets.grown (.edit (?_ : Edit.Meets _ _ _ _ fun target after =>
              after.Holds .method target))) fun target middle _ _ known => ?_
            · refine .bind (Edit.ensureMethod_meets _ _ _) fun target _ _ targetNamed => ?_
              exact .bind (recordReturnType_meets ⟨_, targetNamed⟩ _)
                fun _ _ quiet _ => .pure ⟨_, quiet.identity targetNamed⟩
            · obtain ⟨⟨-, held⟩, quiet⟩ := known
              refine .bind (link_adds .invocation rfl ⟨_, quiet.store.identity hostNamed⟩ held span)
                fun _ after _ _ added => .pure ⟨rfl, ?_⟩
              exact ⟨⟨host, current, quiet.adds.trans added.1⟩,
                fun id => (added.2 id).trans (quiet.store.interfaces id)⟩

theorem defer_meets (inMethod : before.scopes.method? = none → lapses.missing) (span : Span)
    (kind : CallKind) (name : String) (receiver : Receiver) (arguments : List Node) :
    Meets Progress.Extends lapses site before (defer span kind name receiver arguments)
      fun _ after => Credits site before after span none := by
  unfold defer
  refine .bind (currentMethod_meets inMethod) fun host _ _ _ found => ?_
  obtain ⟨rfl, current, named, -⟩ := found
  refine .bind .get fun _ _ _ _ same => ?_
  obtain ⟨rfl, rfl⟩ := same
  refine .bind (mapM_unchanged summarize_meets) fun operands _ _ _ same => ?_
  subst same
  refine .bind (anchor_meets span) fun place _ _ _ same => ?_
  obtain ⟨rfl, rfl⟩ := same
  refine .bind (statement_meets span) fun text _ _ _ same => ?_
  subst same
  intro sound
  rw [perform_modify]
  refine ⟨{ sound with calls := fun call member => ?_ }, .refl sound.violation,
    refl_of Store.Extends before.store, .inr ⟨rfl, rfl⟩, ⟨host, current, ?_⟩, fun _ => rfl⟩
  · rcases Array.mem_push.mp member with member | rfl
    · exact sound.calls call member
    · exact ⟨_, named⟩
  · refine ⟨(List.append_nil _).symm, ?_, (List.append_nil _).symm⟩
    rw [Array.toList_push, List.map_append]
    rfl

/-- A call is linked or kept for later, never both and never neither. -/
theorem refer_meets (inMethod : before.scopes.method? = none → lapses.missing) (span : Span)
    (kind : CallKind) (name : String) (binding : Option MethodBinding) (arguments : List Node)
    {receiver : Walk Receiver}
    (told : Meets Progress.Extends lapses site before receiver fun _ after => before = after) :
    Meets Progress.Extends lapses site before (refer span kind name binding arguments receiver)
      fun _ after => Credits site before after span
        (if isBound binding arguments then some .invocation else none) := by
  unfold refer
  refine .bind (linkBound_meets inMethod span binding arguments) fun linked middle _ _ known => ?_
  obtain ⟨rfl, outcome⟩ := known
  cases bound : isBound binding arguments with
  | true =>
      rw [if_pos bound] at outcome
      exact .pure outcome
  | false =>
      rw [if_neg (Bool.eq_false_iff.mp bound)] at outcome
      subst outcome
      refine .bind told fun receiver _ _ _ same => ?_
      subst same
      exact defer_meets inMethod span kind name receiver arguments

/-- The creation of an anonymous class declares the class at its body and links the call at once. -/
theorem createAnonymous_meets (inType : before.scopes.type? = none → lapses.missing)
    (inMethod : before.scopes.method? = none → lapses.missing)
    (apart : before.scopes.method? = none → lapses.looped) (span : Span) (created : TypeUse)
    (arguments : List Node) (bodySpan : Span) (binding : Option TypeBinding) :
    Meets Progress.Extends lapses site before
      (createAnonymous span created arguments bodySpan binding) fun frame after =>
        after.store.identity? frame.entity = some (.type, frame.name) ∧
          after.store.anchor? frame.entity = some (Anchor.ofSpan site.path bodySpan) ∧
          (∃ host, before.scopes.method? = some host ∧
            before.Adds after [(.invocation, host.entity, some (Anchor.ofSpan site.path span))] []
              [frame.entity]) ∧
          before.SameFlags after := by
  unfold createAnonymous
  refine .bind (currentType_meets inType) fun enclosing _ _ _ found => ?_
  obtain ⟨rfl, outer, -⟩ := found
  refine .bind (Meets.grown (.changedScopes fun clear => .counters clear _ _ _))
    fun ordinal counted scopes _ known => ?_
  have countQuiet := known.2
  have stillIn : counted.scopes.type? = none → lapses.missing := by
    rw [Scopes.type?, scopes.types]
    exact inType
  have stillApart : counted.scopes.method? = none → lapses.looped := by
    rw [Scopes.method?, scopes.methods]
    exact apart
  refine .bind (declareAnonymous_meets stillIn stillApart bodySpan _ created)
    fun type declared restored _ declares => ?_
  have scopes := scopes.trans restored
  have stillIn : declared.scopes.method? = none → lapses.missing := by
    rw [Scopes.method?, scopes.methods]
    exact inMethod
  refine .bind (currentMethod_meets stillIn) fun host _ _ _ found => ?_
  obtain ⟨rfl, current, hostNamed, -⟩ := found
  rw [Scopes.method?, scopes.methods] at current
  refine .bind (mapM_unchanged argumentType_meets) fun argumentTypes _ _ _ same => ?_
  subst same
  refine .bind (Meets.grown (.edit (?_ : Edit.Meets _ _ _ _ fun constructor after =>
    after.Holds .method constructor))) fun constructor made _ _ known => ?_
  · refine .bind (Edit.ensureMethod_meets _ _ _) fun constructor _ _ named => ?_
    exact .bind (Edit.addModifiers_quiet ⟨_, named⟩ (by simp))
      fun _ _ quiet _ => .pure ⟨_, quiet.identity named⟩
  · obtain ⟨⟨-, held⟩, madeQuiet⟩ := known
    refine .bind (Meets.grown (.addMethod constructor)) fun _ listed _ _ known => ?_
    have quiet := trans_of Progress.Quiet madeQuiet known.2
    refine .bind (link_adds .invocation rfl ⟨_, quiet.store.identity hostNamed⟩
      (held.extended known.2.extends) span) fun _ linked _ grown added => .pure ?_
    have declares := declares.quiet quiet
    refine ⟨grown.identity declares.named, grown.anchor declares.anchor, ⟨host, current, ?_⟩,
      fun id => ?_⟩
    · exact countQuiet.adds.trans (declares.adds.trans added.1)
    · rw [added.2 id, declares.flags id, Bool.and_false, Bool.or_false]
      exact countQuiet.store.interfaces id

end JavaFacts.Walk
