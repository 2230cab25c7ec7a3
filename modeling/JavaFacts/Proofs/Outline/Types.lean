import JavaFacts.Proofs.Outline.Queries

/-!
The declarations of types follow their outlines, and so do the steps that other handlers share with
them.
-/

namespace JavaFacts.Walk

variable {site : Site} {before : Progress} {standing : Standing}

theorem link_does (site : Site) (kind : AssociationKind) {source target : EntityId}
    {sourceName targetName : String} (span : Span)
    (left : before.store.identity? source = some (kind.sourceKind, sourceName))
    (right : before.store.identity? target = some (kind.targetKind, targetName)) :
    Does site before
      (.ok (before.store.facts.linked (site.origin.link kind sourceName targetName span)))
      (link kind source target span) fun _ _ => True := by
  unfold link
  refine .ahead (site.origin.anchor span) rfl ?_
  refine .ahead (site.origin.statement span) rfl ?_
  refine .andThen (.edit _ (Edit.addAssociation_does left right)) fun _ middle _ same _ => ?_
  exact same ▸ .pure trivial

theorem linkSupertype_does {type : EntityId} {kind : AssociationKind} (upward : kind.isHierarchy)
    {name : String} (named : before.store.identity? type = some (.type, name))
    (supertype : TypeUse) :
    Does site before
      (.ok ((before.store.facts.withType supertype.name).linkedOnce
        (site.origin.link kind name supertype.name supertype.span)))
      (linkSupertype type kind supertype) fun _ _ => True := by
  unfold linkSupertype
  refine .andThen (.edit _ (Edit.typeOf_does supertype)) fun target middle grown same targetNamed => ?_
  have named := grown.identity named
  have targetNamed : middle.store.identity? target = some (.type, supertype.name) := targetNamed
  have same : middle.store.facts = before.store.facts.withType supertype.name := same
  refine .of_whole fun whole => ?_
  refine .ahead middle rfl ?_
  rw [Store.isLinked_facts whole.toSound upward named targetNamed, Facts.linkedOnce, ← same]
  have typed : kind.sourceKind = .type ∧ kind.targetKind = .type := by
    cases kind <;> first | exact ⟨rfl, rfl⟩ | cases upward
  split
  · rename_i linked
    rw [if_pos (by exact linked)]
    exact .pure trivial
  · rename_i unlinked
    rw [if_neg (by exact unlinked)]
    exact link_does site _ _ (typed.1 ▸ named) (typed.2 ▸ targetNamed)

/-- Linking supertypes one after the other is linking all of them. -/
theorem linkSupertypes_does {type : EntityId} {kind : AssociationKind} (upward : kind.isHierarchy)
    (site : Site) {name : String} (supertypes : List TypeUse)
    (named : before.store.identity? type = some (.type, name)) :
    Does site before
      (Change.applyAll before.store.facts (Event.changes (.supertypes
        (supertypes.map fun use => site.origin.link kind name use.name use.span))))
      (supertypes.forM (linkSupertype type kind)) fun _ _ => True := by
  induction supertypes generalizing before with
  | nil => exact .pure trivial
  | cons supertype supertypes ih =>
      refine .andThen (linkSupertype_does upward named supertype) fun _ middle grown same _ => ?_
      have rest := ih (grown.identity named)
      rw [same] at rest
      exact rest

theorem madeUpMethod_does {type : EntityId} {typeName name : String} {before : Store}
    (typed : before.identity? type = some (.type, typeName)) (flags : Modifiers) :
    Edit.Does before
      (.ok ((before.facts.adopted (.method, name) (.type, typeName)).detailed (.method, name)
        { modifiers := flags }))
      (do
        let method ← Edit.intern .method name
        Edit.setOwner method type
        Edit.addModifiers method flags
        pure method)
      fun method after => after.identity? method = some (.method, name) := by
  refine Edit.adopt_does typed (by simp [EntityKind.ownerKinds]) (by simp)
    fun method middle _ named same => ?_
  refine .andThen (Edit.addModifiers_does named flags) fun _ after grown described _ => ?_
  rw [← same, ← described]
  exact .pure (grown.identity named)

theorem ensureInitializer_does {type : EntityId} {typeName : String} (marker : String)
    (typed : before.store.identity? type = some (.type, typeName)) :
    Does site before (Change.applyAll before.store.facts (Event.host typeName marker).changes)
      (ensureInitializer type typeName marker) fun method after =>
        after.store.identity? method = some (.method, Naming.initializerName typeName marker) := by
  unfold ensureInitializer
  refine .ahead before rfl ?_
  refine .andThen (.edit _ (madeUpMethod_does typed (hostFlags marker)))
    fun method middle _ same named => ?_
  have expected : Change.applyAll before.store.facts (Event.host typeName marker).changes =
      .ok middle.store.facts := congrArg Except.ok same.symm
  rw [expected]
  split
  · refine .andThen (.addMethod method) fun _ after _ kept reached => ?_
    rw [← kept]
    exact .pure (reached ▸ named)
  · exact .pure named

theorem addDefaultConstructor_does {type : EntityId} {typeName : String}
    (typed : before.store.identity? type = some (.type, typeName)) :
    Does site before (Change.applyAll before.store.facts (Event.constructor typeName).changes)
      (addDefaultConstructor type typeName) fun _ _ => True := by
  unfold addDefaultConstructor
  refine .of_whole fun whole => ?_
  refine .ahead before rfl ?_
  have expected : Change.applyAll before.store.facts (Event.constructor typeName).changes =
      .ok (before.store.facts.withConstructor typeName) := rfl
  rw [expected, Facts.withConstructor]
  dsimp only
  rw [Store.any_membersOfKind_constructor whole.toSound typed]
  split
  · exact .pure trivial
  · refine .andThen (.edit _ (madeUpMethod_does typed _)) fun constructor middle _ same _ => ?_
    rw [← same]
    exact .result (.addMethod constructor) fun _ _ _ => trivial

theorem currentType_follows :
    Follows site before standing currentType Outline.currentType fun frame name after =>
      frame.Means after.store name := by
  refine .of_stands fun stands => ?_
  unfold currentType Outline.currentType
  refine .ahead before rfl (.fromStanding ?_)
  have types := stands.types
  rw [Scopes.type?]
  rcases scopesTypes : before.scopes.types with - | ⟨frame, frames⟩ <;>
    rcases standingTypes : standing.types with - | ⟨type, outerTypes⟩ <;>
    rw [scopesTypes, standingTypes] at types <;> cases types
  · exact .lacking
  · rename_i means _
    exact .pure means

theorem currentMethod_follows :
    Follows site before standing currentMethod Outline.currentMethod fun frame method after =>
      frame.Means after.store method := by
  refine .of_stands fun stands => ?_
  unfold currentMethod Outline.currentMethod
  refine .ahead before rfl (.fromStanding ?_)
  have methods := stands.methods
  rw [Scopes.method?]
  rcases scopesMethods : before.scopes.methods with - | ⟨method, frames⟩ <;>
    rcases standingMethods : standing.methods with - | ⟨named, namedMethods⟩ <;>
    rw [scopesMethods, standingMethods] at methods <;> cases methods
  · exact .lacking
  · rename_i means _
    exact .pure means

theorem insideType_follows {type : EntityId} {name : String} {action : Walk Unit}
    {outline : Outline Unit} (restoring : Restoring action)
    (named : before.store.identity? type = some (.type, name))
    (within : ∀ inner, inner.store = before.store →
      Follows site inner (standing.enterType name) action outline fun _ _ _ => True) :
    Follows site before standing (insideType type name action) (Outline.insideType name outline)
      fun _ _ _ => True := by
  refine .inside rfl (fun stands => ?_) (fun after later stands restored afterStands _ => ?_)
    restoring (within _ rfl)
  · exact { stands with types := .cons ⟨rfl, named⟩ stands.types }
  · have closed := restored_closeType restored
    have blocks : (closeType (before.scopes.enterType ⟨type, name⟩).1 after.scopes) =
        { after.scopes with types := before.scopes.types } := by
      have types : after.scopes.types = ⟨type, name⟩ :: before.scopes.types := restored.types
      simp only [Scopes.enterType, closeType, Scopes.leaveType, types, BEq.rfl, ↓reduceIte,
        Except.map, Walk.closed]
    have types : List.Forall₂ (fun frame name => TypeFrame.Means frame after.store name)
        before.scopes.types later.types.tail := by
      have types := afterStands.types
      rw [restored.types] at types
      rcases laterTypes : later.types with - | ⟨inner, outer⟩ <;> rw [laterTypes] at types <;>
        cases types
      assumption
    rw [blocks]
    exact { afterStands with types := types }

theorem insideMethod_follows {method declaringType : EntityId} {name typeName : String}
    {action : Walk Unit} {outline : Outline Unit} (restoring : Restoring action)
    (named : before.store.identity? method = some (.method, name))
    (typed : before.store.identity? declaringType = some (.type, typeName))
    (within : ∀ inner, inner.store = before.store →
      Follows site inner (standing.enterMethod name typeName) action outline fun _ _ _ => True) :
    Follows site before standing (insideMethod method name declaringType action)
      (Outline.insideMethod name typeName outline) fun _ _ _ => True := by
  refine .inside rfl (fun stands => ?_) (fun after later stands restored afterStands _ => ?_)
    restoring (within _ rfl)
  · exact { stands with
      methods := .cons ⟨rfl, named, typed, stands.block⟩ stands.methods, block := rfl }
  · have blocks : (closeMethod (before.scopes.enterMethod method name declaringType).1 after.scopes) =
        { after.scopes with methods := before.scopes.methods, block := before.scopes.block } := by
      have methods : after.scopes.methods =
          ⟨method, name, declaringType, before.scopes.block⟩ :: before.scopes.methods :=
        restored.methods
      simp only [Scopes.enterMethod, closeMethod, Scopes.leaveMethod, methods, BEq.rfl, ↓reduceIte,
        Except.map, Walk.closed]
    have methods := afterStands.methods
    rw [restored.methods] at methods
    rcases laterMethods : later.methods with - | ⟨inner, outer⟩ <;> rw [laterMethods] at methods <;>
      cases methods
    rename_i means rest
    rw [blocks]
    refine { afterStands with methods := ?_, block := ?_ }
    · rw [Standing.leaveMethod, laterMethods]
      exact rest
    · rw [Standing.leaveMethod, laterMethods]
      exact means.hidden

theorem insideBlock_follows {span : Span} {action : Walk Unit} {outline : Outline Unit}
    (restoring : Restoring action)
    (within : ∀ inner, inner.store = before.store →
      Follows site inner (standing.enterBlock span) action outline fun _ _ _ => True) :
    Follows site before standing (insideBlock span action) (Outline.insideBlock span outline)
      fun _ _ _ => True := by
  refine .inside rfl (fun stands => ?_) (fun after later stands restored afterStands _ => ?_)
    restoring (within _ rfl)
  · refine { stands with blocks := ?_, block := ?_ }
    · have block? : before.scopes.block? = standing.openScopes.block? := funext stands.block?
      simp only [Standing.enterBlock, Scopes.enterBlock, block?, stands.blocks, stands.block]
      rfl
    · simp only [Standing.enterBlock, Scopes.enterBlock, Standing.openScopes, stands.blocks]
  · have current : after.scopes.block = some before.scopes.blocks.size := restored.block
    have left : closeBlock (before.scopes.enterBlock span).1 after.scopes =
        { after.scopes with
          block := (after.scopes.block? before.scopes.blocks.size).bind (·.outer) } := by
      simp only [Scopes.enterBlock, closeBlock, Scopes.leaveBlock, current, BEq.rfl, ↓reduceIte,
        Walk.closed]
    rw [left]
    refine { afterStands with block := ?_ }
    rw [Standing.leaveBlock, ← afterStands.block, current, Option.bind_some, Scopes.block?,
      afterStands.blocks]
    rfl

theorem typeBody_follows {type : EntityId} {name : String} (isInterface : Bool)
    {members : Walk Unit} {outline : Outline Unit} (restoring : Restoring members)
    (named : before.store.identity? type = some (.type, name))
    (visited : ∀ inner later, before.store.Extends inner.store →
      Follows site inner later members outline fun _ _ _ => True) :
    Follows site before standing (typeBody type name isInterface members)
      (Outline.typeBody name isInterface outline) fun _ _ _ => True := by
  unfold typeBody Outline.typeBody
  refine .unseen _ (perform_modifyScopes _) rfl (fun stands => { stands with
    anonymousCounts := fun other => ?_ }) ?_
  · rw [← stands.anonymousCounts]
    simp only [Scopes.seedAnonymous, Std.HashMap.getD_insertIfNew]
    split
    · rename_i seeded
      obtain rfl := eq_of_beq seeded.1
      exact (Std.HashMap.getD_eq_fallback seeded.2).symm
    · rfl
  refine insideType_follows ?_ named fun inner same => ?_
  · cases isInterface with
    | true => exact .bind restoring fun _ => .pure ()
    | false =>
        exact .bind (ensureInitializer_restoring _ _ _) fun _ => .bind restoring fun _ =>
          addDefaultConstructor_restoring _ _
  have grown : before.store.Extends inner.store := same ▸ refl_of Store.Extends before.store
  cases isInterface with
  | true => exact .andThen (visited inner _ grown) (.pure trivial)
  | false =>
      refine .bind (.record _ (ensureInitializer_does _ (grown.identity named)))
        fun _ _ hosted _ hosting _ => ?_
      have grown := trans_of Store.Extends grown hosting
      refine .bind (visited hosted _ grown) fun _ _ after _ later _ => ?_
      have grown := trans_of Store.Extends grown later
      exact .record _ (addDefaultConstructor_does (grown.identity named))

/-- A type that is declared. -/
theorem declaredType_does {before : Store} (naming : TypeNaming) (anchor : Anchor) {owner : EntityId}
    {ownerIdentity : Identity} (ownerNamed : before.identity? owner = some ownerIdentity)
    (allowed : ownerIdentity.1 ∈ EntityKind.ownerKinds .type) (flags : Modifiers) :
    Edit.Does before
      (((Request.declareType naming anchor ownerIdentity flags).perform before.facts).map (·.2))
      (do
        let type ← Edit.declareNamed .type (before.facts.chosenName anchor naming) anchor
        Edit.setOwner type owner
        Edit.addModifiers type flags
        pure type)
      fun type after =>
        after.identity? type = some (.type, before.facts.chosenName anchor naming) := by
  have expected : ((Request.declareType naming anchor ownerIdentity flags).perform before.facts).map
        (·.2) =
      (before.facts.placed (.type, before.facts.chosenName anchor naming) anchor ownerIdentity >>=
        fun placed => .ok (placed.detailed (.type, before.facts.chosenName anchor naming)
          { modifiers := flags })) := by
    rw [Request.perform]
    cases before.facts.placed (.type, before.facts.chosenName anchor naming) anchor ownerIdentity <;>
      rfl
  rw [expected]
  refine Edit.place_does ownerNamed allowed fun type placed _ named => ?_
  refine .andThen (Edit.addModifiers_does named flags) fun _ after grown same _ => ?_
  exact same ▸ .pure (grown.identity named)

/-- The name that a declared type got is the answer. -/
theorem name_of_perform {facts after : Facts} {naming : TypeNaming} {anchor : Anchor}
    {owner : Identity} {flags : Modifiers} {name : String}
    (answered : (Request.declareType naming anchor owner flags).perform facts = .ok (name, after)) :
    name = facts.chosenName anchor naming := by
  rw [Request.perform] at answered
  cases placed : facts.placed (.type, facts.chosenName anchor naming) anchor owner with
  | error _ =>
      rw [placed] at answered
      cases answered
  | ok _ =>
      rw [placed] at answered
      cases answered
      rfl

theorem addType_follows {type : EntityId} {name : String}
    (named : before.store.identity? type = some (.type, name)) :
    Follows site before standing (addType type) (Outline.change (·.addType name))
      fun _ _ after => after.store = before.store := by
  refine .changed _ (perform_modify _) rfl (fun stands => { stands with declaredTypes := ?_ }) rfl
  rw [Array.toList_push]
  exact List.rel_append stands.declaredTypes (.cons named .nil)

theorem allowed_typeOwner (origin : Origin) :
    (standing.typeOwner origin).1 ∈ EntityKind.ownerKinds .type := by
  unfold Standing.typeOwner
  split
  · split <;> simp [EntityKind.ownerKinds]
  · simp [EntityKind.ownerKinds]
  · simp [EntityKind.ownerKinds]

/-- The superclass comes before the interfaces. -/
theorem supertypes_does {type : EntityId} {name : String} (header : TypeHeader)
    {next : Walk α} {outline : Outline β} {agree : α → β → Progress → Prop}
    (named : before.store.identity? type = some (.type, name))
    (rest : ∀ middle later, before.store.Extends middle.store →
      Follows site middle later next outline agree) :
    Follows site before standing
      (do
        match header.superclass with
        | some superclass => linkSupertype type .inheritance superclass
        | none => pure ()
        header.interfaces.forM (linkSupertype type .subtyping)
        next)
      (do
        Outline.record (.supertypes (header.supertypeLinks site.origin name))
        outline) agree := by
  cases extended : header.superclass with
  | none =>
      have links : header.supertypeLinks site.origin name =
          header.interfaces.map fun use => site.origin.link .subtyping name use.name use.span := by
        rw [TypeHeader.supertypeLinks, extended]
        rfl
      rw [links]
      refine .bind (.record _ (linkSupertypes_does rfl site _ named)) fun _ _ middle later grown _ => ?_
      exact rest middle later grown
  | some superclass =>
      have links : header.supertypeLinks site.origin name =
          site.origin.link .inheritance name superclass.name superclass.span ::
            header.interfaces.map fun use =>
              site.origin.link .subtyping name use.name use.span := by
        rw [TypeHeader.supertypeLinks, extended]
        rfl
      rw [links]
      dsimp only
      rw [← bind_assoc]
      refine .bind (.record (fun _ _ => True) ?_) fun _ _ middle later grown _ =>
        rest middle later grown
      refine .andThen (linkSupertype_does rfl named superclass) fun _ middle grown same _ => ?_
      have upward : AssociationKind.subtyping.isHierarchy := rfl
      have rest := linkSupertypes_does upward site header.interfaces (grown.identity named)
      rw [same] at rest
      exact rest

theorem declareType_follows (span : Span) (header : TypeHeader) {members : Walk Unit}
    {outline : Outline Unit} (restoring : Restoring members)
    (visited : ∀ inner later, Follows site inner later members outline fun _ _ _ => True) :
    Follows site before standing (declareType span header members)
      (Outline.declareType span header outline) fun _ _ _ => True := by
  refine .of_stands fun stands => ?_
  unfold declareType Outline.declareType
  refine .ahead site rfl (.ahead before rfl
    (.ahead (site.origin.anchor span) rfl (.fromOrigin (.fromStanding ?_))))
  dsimp only
  rw [stands.declaredName]
  refine .bind (.of_does (.edit _ (declaredType_does _ _ stands.declaredOwner (allowed_typeOwner _) _)))
    fun type name middle later _ answered => ?_
  obtain ⟨named, answered⟩ := answered
  rw [← name_of_perform answered] at named ⊢
  refine .bind (addType_follows named) fun _ _ added _ _ same => ?_
  refine supertypes_does header (same ▸ named) fun middle later grown => ?_
  exact typeBody_follows _ restoring (grown.identity (same ▸ named)) fun inner later _ =>
    visited inner later

end JavaFacts.Walk
