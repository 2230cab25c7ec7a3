import JavaFacts.Extraction.Expressions
import JavaFacts.Proofs.Outline.Members

/-!
Accesses, type checks and calls follow their outlines.
-/

namespace JavaFacts.Walk

variable {site : Site} {before : Progress} {standing : Standing}

theorem areStatic_follows {type : TypeFrame} {name : String} (means : type.Means before.store name)
    (modifiers : Modifiers) :
    Follows site before standing (areStatic type modifiers) (Outline.areStatic name modifiers)
      fun isStatic named _ => isStatic = named := by
  refine .of_stands fun stands => ?_
  unfold areStatic Outline.areStatic
  obtain ⟨entity, found, -⟩ := Store.exists_entity_of_identity means.entity
  have flags : before.store.facts.isInterface name =
      entity.modifiers.contains Modifiers.isInterface := by
    rw [Facts.isInterface, stands.store.toSound.lookup_of_entity means.entity found]
    rfl
  refine .ahead entity ?_ (.answered (before.store.facts.isInterface name) rfl ?_)
  · rw [perform_edit, Edit.perform_entity found]
    rfl
  · rw [flags]
    exact .pure rfl

theorem recordAccess_does {method : MethodFrame} {named : MethodStanding}
    (means : method.Means before.store named) (span : Span) (type field : String) :
    Does site before
      (Change.applyAll before.store.facts (Event.changes (.access type field
        (site.origin.link .access named.name (Naming.fieldName type field) span))))
      (do
        let entity ← edit (Edit.ensureField type field)
        link .access method.entity entity span)
      fun _ _ => True := by
  refine .andThen (.edit _ (Edit.ensureField_does type field)) fun entity middle grown same found => ?_
  have linked := link_does site .access span (grown.identity means.entity) found
  rw [same] at linked
  exact linked

theorem accessIn_follows (span : Span) (field : String) (type : Option String) :
    Follows site before standing (accessIn span field type) (Outline.accessIn span field type)
      fun _ _ _ => True := by
  unfold accessIn Outline.accessIn
  cases type with
  | none => exact .pure trivial
  | some type =>
      unfold recordAccess
      refine .bind currentMethod_follows fun method named middle _ _ means => ?_
      exact .fromOrigin (.record _ (recordAccess_does means span type field))

theorem accessField_follows (span : Span) (name : String) (binding : Option VariableBinding)
    (receiver : Node) :
    Follows site before standing (accessField span name binding receiver)
      (Outline.accessField span name binding receiver) fun _ _ _ => True := by
  unfold accessField Outline.accessField
  cases binding with
  | some binding => exact accessIn_follows span name _
  | none =>
      cases receiver
      case this _ qualifier _ =>
        cases qualifier with
        | none =>
            refine .bind currentType_follows fun frame type middle _ _ means => ?_
            obtain ⟨rfl, -⟩ := means
            exact accessIn_follows span name _
        | some _ => exact .pure trivial
      all_goals exact .pure trivial

theorem accessSuperField_follows (span : Span) (name : String) (binding : Option VariableBinding) :
    Follows site before standing (accessSuperField span name binding)
      (Outline.accessSuperField span name binding) fun _ _ _ => True := by
  unfold accessSuperField Outline.accessSuperField
  cases binding with
  | some binding => exact accessIn_follows span name _
  | none =>
      refine .bind currentType_follows fun frame type middle _ _ means => ?_
      refine .of_stands fun stands => .ahead middle rfl ?_
      refine .answered (middle.store.facts.superclass? type) rfl ?_
      dsimp only
      rw [Store.superclass?_facts stands.store.toSound means.entity]
      exact accessIn_follows span name _

theorem recordCheck_follows {kind : AssociationKind} (check : kind.sourceKind = .method)
    (checked : kind.targetKind = .type) (span : Span) (use : TypeUse) :
    Follows site before standing (recordCheck kind span use) (Outline.recordCheck kind span use)
      fun _ _ _ => True := by
  unfold recordCheck Outline.recordCheck
  refine .bind currentMethod_follows fun method named middle _ _ means => ?_
  refine .fromOrigin (.record (fun _ _ => True) ?_)
  refine .andThen (.edit _ (Edit.typeOf_does use)) fun type typed grown same found => ?_
  have linked := link_does site kind span
    (check ▸ grown.identity means.entity) (checked ▸ found)
  rw [same] at linked
  exact linked

theorem perform_summarize (node : Node) :
    (summarize node).perform site before = (.ok (site.origin.operand node), before) :=
  rfl

theorem perform_mapM_summarize (nodes : List Node) :
    (nodes.mapM summarize).perform site before =
      (.ok (nodes.map site.origin.operand), before) := by
  induction nodes with
  | nil => rfl
  | cons node nodes ih =>
      rw [List.mapM_cons, perform_bind, perform_summarize]
      dsimp only
      rw [perform_bind, ih]
      rfl

theorem perform_mapM_argumentType (nodes : List Node) :
    (nodes.mapM argumentType).perform site before =
      (.ok (nodes.map site.origin.argumentType), before) := by
  induction nodes with
  | nil => rfl
  | cons node nodes ih =>
      have first : (argumentType node).perform site before =
          (.ok (site.origin.argumentType node), before) := rfl
      rw [List.mapM_cons, perform_bind, first]
      dsimp only
      rw [perform_bind, ih]
      rfl

theorem recordReturnType_does {before : Store} {method : EntityId} {name : String}
    (named : before.identity? method = some (.method, name)) (returned : Option TypeBinding) :
    Edit.Does before
      (.ok ((returned.map fun type => Naming.typeName (some type) none).elim before.facts
        (before.facts.withReturnType name)))
      (recordReturnType method returned) fun _ _ => True := by
  unfold recordReturnType
  cases returned with
  | none => exact .pure trivial
  | some type =>
      refine .of_whole fun whole => ?_
      refine .andThen (Edit.entity_does named) fun entity middle _ _ known => ?_
      obtain ⟨rfl, found, entry⟩ := known
      have typed : ((before.facts.lookup (.method, name)).bind (·.declaredType)).isSome =
          entity.declaredType.isSome := by
        rw [entry, Option.bind_some, Store.entryOf]
        cases declared : entity.declaredType with
        | none => rfl
        | some declared =>
            obtain ⟨_, typeNamed⟩ := (whole.entity found).declaredType ‹_›
            rw [Option.bind_some, typeNamed]
            rfl
      simp only [Option.map_some, Option.elim_some]
      rw [Facts.withReturnType, typed]
      cases declared : entity.declaredType with
      | some _ =>
          simp only [Option.isNone_some, Bool.false_eq_true, ↓reduceIte, Option.isSome_some]
          exact .pure trivial
      | none =>
          simp only [Option.isNone_none, ↓reduceIte, Option.isSome_none, Bool.false_eq_true]
          refine .andThen (Edit.ensureType_does _) fun typeEntity after grown same typeNamed => ?_
          rw [← same]
          refine Edit.detail_does _ (grown.identity named)
            (fun _ => ⟨rfl, rfl, rfl, fun place => place⟩) (fun _ => rfl) (fun _ => rfl)
            (fun _ _ known => .inl ?_) fun entity => ?_
          · obtain rfl := Option.some.inj known
            exact ⟨_, typeNamed⟩
          · have kept : (some typeEntity).bind (fun id => (after.identity? id).map (·.2)) =
                some (Naming.typeName (some type) none) := by
              rw [Option.bind_some, typeNamed, Option.map_some]
            have flags : entity.modifiers ∪ ∅ = entity.modifiers := Modifiers.union_empty _
            simp only [Store.entryOf, Entry.detailed, kept, flags]
            rfl

/-- A call whose target is known. -/
theorem boundCall_does {caller : MethodFrame} {named : MethodStanding}
    (means : caller.Means before.store named) (span : Span) (type name : String)
    (parameterTypes : List String) (returned : Option TypeBinding) :
    Does site before
      (Change.applyAll before.store.facts (Event.changes (.call type name parameterTypes
        (returned.map fun type => Naming.typeName (some type) none)
        (site.origin.link .invocation named.name name span))))
      (do
        let target ← edit do
          let target ← Edit.ensureMethod type name parameterTypes
          recordReturnType target returned
          pure target
        link .invocation caller.entity target span)
      fun _ _ => True := by
  have apart : Change.applyAll before.store.facts (Event.changes (.call type name parameterTypes
        (returned.map fun type => Naming.typeName (some type) none)
        (site.origin.link .invocation named.name name span))) =
      .ok (((returned.map fun type => Naming.typeName (some type) none).elim
          (before.store.facts.withMethod type name parameterTypes)
          ((before.store.facts.withMethod type name parameterTypes).withReturnType name)).linked
        (site.origin.link .invocation named.name name span)) := by
    cases returned <;> rfl
  rw [apart]
  have ensured : Edit.Does before.store
      (.ok ((returned.map fun type => Naming.typeName (some type) none).elim
        (before.store.facts.withMethod type name parameterTypes)
        ((before.store.facts.withMethod type name parameterTypes).withReturnType name)))
      (do
        let target ← Edit.ensureMethod type name parameterTypes
        recordReturnType target returned
        pure target)
      fun target after => after.identity? target = some (.method, name) := by
    refine .andThen (Edit.ensureMethod_does type name parameterTypes) fun target known _ same found => ?_
    rw [← same]
    refine .andThen (recordReturnType_does found returned) fun _ after grown same _ => ?_
    exact same ▸ .pure (grown.identity found)
  refine .andThen (.edit _ ensured) fun target middle grown same found => ?_
  have linked := link_does site .invocation span (grown.identity means.entity) found
  rw [same] at linked
  exact linked

theorem linkBound_follows (span : Span) (binding : Option MethodBinding) (arguments : List Node) :
    Follows site before standing (linkBound span binding arguments)
      (Outline.linkBound span binding arguments) fun linked named _ => linked = named := by
  unfold linkBound Outline.linkBound
  cases binding with
  | none => exact .pure rfl
  | some binding =>
      dsimp only
      split
      · exact .pure rfl
      · cases Naming.boundMethodName? binding with
        | none => exact .pure rfl
        | some bound =>
            obtain ⟨type, name⟩ := bound
            refine .bind currentMethod_follows fun caller named middle _ _ means => ?_
            refine .fromOrigin ?_
            rw [← bind_assoc]
            refine .andThen (.record (fun _ _ => True) ?_) (.pure rfl)
            exact boundCall_does means span type name (Naming.parameterTypes binding)
              binding.returnType

/-- A call is kept with what is visible at it. -/
theorem defer_follows (span : Span) (kind : CallKind) (name : String) (receiver : Receiver)
    (arguments : List Node) :
    Follows site before standing (defer span kind name receiver arguments)
      (Outline.defer span kind name receiver arguments) fun _ _ _ => True := by
  unfold defer Outline.defer
  refine .bind currentMethod_follows fun caller named middle later _ means => ?_
  refine .of_stands fun stands => .fromStanding ?_
  refine .answered (middle.store.facts.visible named.name later.localBlocks
    later.openBlocks.2 later.openBlocks.1) rfl ?_
  refine .ahead middle rfl (.ahead _ (perform_mapM_summarize arguments) ?_)
  refine .ahead (site.origin.anchor span) rfl
    (.ahead (site.origin.statement span) rfl (.fromOrigin ?_))
  refine .changed _ (perform_modify _) rfl (fun stands => { stands with calls := ?_ }) trivial
  obtain ⟨numbers, lists, captured⟩ := stands.capture means.entity
  rw [Array.toList_push]
  refine List.rel_append stands.calls (.cons ?_ .nil)
  exact ⟨means.entity, means.declaringType, ⟨numbers, lists, captured⟩, rfl⟩

theorem perform_receiverOf (receiver : Option Node) :
    (receiverOf receiver).perform site before = (.ok (site.origin.receiverOf receiver), before) := by
  cases receiver with
  | none => rfl
  | some receiver =>
      cases receiver
      case this _ qualifier _ => cases qualifier <;> rfl
      all_goals rfl

theorem receiverOf_follows (receiver : Option Node) :
    Follows site before standing (receiverOf receiver) (Outline.receiverOf receiver)
      fun result named _ => result = named := by
  refine .congr_outline (pure (site.origin.receiverOf receiver)) rfl ?_
  intro stands
  rw [perform_receiverOf]
  exact ⟨refl_of Store.Extends before.store, rfl, stands, rfl⟩

theorem ownReceiver_follows :
    Follows site before standing ownReceiver Outline.ownReceiver
      fun result named _ => result = named := by
  unfold ownReceiver Outline.ownReceiver
  refine .bind currentType_follows fun frame type middle _ _ means => ?_
  exact .pure (congrArg Receiver.ofType means.named)

theorem refer_follows (span : Span) (kind : CallKind) (name : String)
    (binding : Option MethodBinding) (arguments : List Node) {receiver : Walk Receiver}
    {outline : Outline Receiver}
    (received : ∀ inner later, Follows site inner later receiver outline
      fun result named _ => result = named) :
    Follows site before standing (refer span kind name binding arguments receiver)
      (Outline.refer span kind name binding arguments outline) fun _ _ _ => True := by
  unfold refer Outline.refer
  refine .bind (linkBound_follows span binding arguments) fun linked _ middle later _ same => ?_
  obtain rfl := same
  cases linked with
  | true => exact .pure trivial
  | false =>
      refine .bind (received middle later) fun receiver _ middle _ _ same => ?_
      obtain rfl := same
      exact defer_follows span kind name receiver arguments

theorem countAnonymous_stands (name : String) (stands : before.Stands site standing) :
    Progress.Stands site { before with scopes := (before.scopes.nextAnonymous name).2 }
      (standing.countAnonymous name) := by
  refine { stands with anonymousCounts := fun other => ?_ }
  simp only [Scopes.nextAnonymous, Std.HashMap.getD_insert, Standing.countAnonymous,
    stands.anonymousCounts]
  by_cases same : name = other
  · subst same
    simp
  · simp only [beq_eq_false_iff_ne.mpr same, Bool.false_eq_true, ↓reduceIte,
      Function.update_of_ne (Ne.symm same)]

theorem declareAnonymous_follows (span : Span) (name : String) (supertype : TypeUse) :
    Follows site before standing (declareAnonymous span name supertype)
      (Outline.declareAnonymous span name supertype) fun type _ after =>
        after.store.identity? type = some (.type, name) := by
  refine .of_stands fun stands => ?_
  unfold declareAnonymous Outline.declareAnonymous
  refine .ahead before rfl (.fromStanding ?_)
  -- what is left to do once the owner is known
  have declares (owner : EntityId) (identity : Identity) (middle : Progress) (later : Standing)
      (ownerNamed : middle.store.identity? owner = some identity)
      (allowed : identity.1 ∈ EntityKind.ownerKinds .type) :
      Follows site middle later
        (do
          let anchor ← anchor span
          let type ← edit do
            let type ← Edit.declareNamed .type name anchor
            Edit.setOwner type owner
            Edit.addModifiers type Modifiers.isAnonymous
            pure type
          addType type
          linkSupertype type (if supertype.binding.any (·.isInterface) then .subtyping
            else .inheritance) supertype
          pure type)
        (do
          let origin ← Outline.origin
          let _ ← Outline.ask (.declareType (.given name) (origin.anchor span) identity
            Modifiers.isAnonymous)
          Outline.change (·.addType name)
          Outline.record (.supertypes [origin.link (if supertype.binding.any (·.isInterface) then
            .subtyping else .inheritance) name supertype.name supertype.span]))
        fun type _ after => after.store.identity? type = some (.type, name) := by
    refine .ahead (site.origin.anchor span) rfl (.fromOrigin ?_)
    refine .bind (.of_does (.edit _ (declaredType_does (.given name) _ ownerNamed allowed _)))
      fun type _ declared _ _ answered => ?_
    obtain ⟨named, -⟩ := answered
    refine .bind (addType_follows named) fun _ _ added _ _ same => ?_
    have upward : (if supertype.binding.any (·.isInterface) then AssociationKind.subtyping
        else .inheritance).isHierarchy := by split <;> rfl
    refine .record (fun type after => after.store.identity? type = some (.type, name)) ?_
    have named := same ▸ named
    refine .andThen (linkSupertype_does upward named supertype) fun _ after grown linked _ => ?_
    have expected : Change.applyAll added.store.facts (Event.changes (.supertypes
        [site.origin.link (if supertype.binding.any (·.isInterface) then .subtyping
          else .inheritance) name supertype.name supertype.span])) = .ok after.store.facts :=
      congrArg Except.ok linked.symm
    rw [expected]
    exact .pure (grown.identity named)
  have methods := stands.methods
  rw [Scopes.method?]
  rcases scopesMethods : before.scopes.methods with - | ⟨method, frames⟩ <;>
    rcases standingMethods : standing.methods with - | ⟨named, namedMethods⟩ <;>
    rw [scopesMethods, standingMethods] at methods <;> cases methods
  · simp only [List.head?_nil]
    rw [bind_map_left]
    refine .bind currentType_follows fun frame type middle later _ means => ?_
    exact declares frame.entity (.type, type) middle later means.entity (by simp [EntityKind.ownerKinds])
  · rename_i means _
    exact declares method.entity (.method, named.name) before standing means.entity
      (by simp [EntityKind.ownerKinds])

/-- The constructor of an anonymous class and the call of it. -/
theorem anonymousConstructor_does {caller : MethodFrame} {named : MethodStanding}
    (means : caller.Means before.store named) (span : Span) (type : String)
    (parameterTypes : List String) :
    Does site before
      (Change.applyAll before.store.facts (Event.changes (.anonymousConstructor type parameterTypes
        (site.origin.link .invocation named.name (Naming.methodName type "" true parameterTypes)
          span))))
      (do
        let constructor ← edit do
          let unique := Naming.methodName type "" true parameterTypes
          let constructor ← Edit.ensureMethod type unique parameterTypes
          Edit.addModifiers constructor Modifiers.isSynthetic
          pure constructor
        addMethod constructor
        link .invocation caller.entity constructor span)
      fun _ _ => True := by
  have ensured : Edit.Does before.store
      (.ok ((before.store.facts.withMethod type (Naming.methodName type "" true parameterTypes)
        parameterTypes).detailed (.method, Naming.methodName type "" true parameterTypes)
          { modifiers := Modifiers.isSynthetic }))
      (do
        let unique := Naming.methodName type "" true parameterTypes
        let constructor ← Edit.ensureMethod type unique parameterTypes
        Edit.addModifiers constructor Modifiers.isSynthetic
        pure constructor)
      fun constructor after => after.identity? constructor =
        some (.method, Naming.methodName type "" true parameterTypes) := by
    refine .andThen (Edit.ensureMethod_does type _ parameterTypes) fun constructor known _ same found => ?_
    rw [← same]
    refine .andThen (Edit.addModifiers_does found _) fun _ after grown same _ => ?_
    exact same ▸ .pure (grown.identity found)
  refine .andThen (.edit _ ensured) fun constructor middle grown same found => ?_
  refine .andThen (.addMethod constructor) fun _ added _ kept stored => ?_
  have linked : Walk.Does site added _ (link .invocation caller.entity constructor span) _ :=
    link_does site .invocation span (stored ▸ grown.identity means.entity) (stored ▸ found)
  rw [kept, same] at linked
  exact linked

theorem createAnonymous_follows (span : Span) (created : TypeUse) (arguments : List Node)
    (bodySpan : Span) (binding : Option TypeBinding) :
    Follows site before standing (createAnonymous span created arguments bodySpan binding)
      (Outline.createAnonymous span created arguments bodySpan binding) fun frame name after =>
        frame.Means after.store name := by
  unfold createAnonymous Outline.createAnonymous
  refine .bind currentType_follows fun frame enclosing middle later _ means => ?_
  obtain ⟨rfl, -⟩ := means
  refine .of_stands fun stands => .fromStanding ?_
  have ordinal : (middle.scopes.nextAnonymous frame.name).1 = later.anonymousCounts frame.name :=
    stands.anonymousCounts frame.name
  refine .bind (.changed (fun result _ _ => result = later.anonymousCounts frame.name)
    (perform_modifyGetScopes _) rfl (countAnonymous_stands frame.name) ordinal)
    fun _ _ counted _ _ known => ?_
  obtain rfl := known
  dsimp only
  generalize (binding.bind Naming.bindingName?).getD
    (Naming.anonymousName frame.name (later.anonymousCounts frame.name)) = name
  refine .bind (declareAnonymous_follows bodySpan name created) fun type _ declared _ _ named => ?_
  refine .bind currentMethod_follows fun caller method middle _ grown means => ?_
  have named := grown.identity named
  refine .ahead _ (perform_mapM_argumentType arguments) (.fromOrigin ?_)
  have frame (inner : Progress) (reached : Standing) (grown : middle.store.Extends inner.store) :
      Follows site inner reached (pure (⟨type, name⟩ : TypeFrame)) (pure name)
        fun frame name after => frame.Means after.store name :=
    .pure ⟨rfl, grown.identity named⟩
  refine .congr_action ?_ (.bind
    (.record _ (anonymousConstructor_does means span name (arguments.map site.origin.argumentType)))
    fun _ _ after later grown _ => frame after later grown)
  simp only [bind_assoc]

end JavaFacts.Walk
