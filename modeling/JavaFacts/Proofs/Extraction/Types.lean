import JavaFacts.Proofs.Extraction.Outcome

/-!
What the steps of the handlers come to. All but the calls, casts and type checks and the declared
types are quiet. A step asks for no more around it than it needs: the type, the method, or both.
-/

namespace JavaFacts

/-- Kind, source and place of an association. -/
def Association.origin (association : Association) : AssociationKind × EntityId × Option Anchor :=
  (association.kind, association.source, association.anchor)

/-- Caller and place of a call. -/
def Call.origin (call : Call) : EntityId × Anchor :=
  (call.caller, call.anchor)

/-- What came to the calls, casts and type checks, linked or kept for later, and to the declared
types. -/
structure Progress.Adds (before after : Progress)
    (linked : List (AssociationKind × EntityId × Option Anchor))
    (deferred : List (EntityId × Anchor)) (types : List EntityId) : Prop where
  linked : after.store.callsAndChecks.map (·.origin) =
    before.store.callsAndChecks.map (·.origin) ++ linked
  deferred : after.calls.toList.map (·.origin) = before.calls.toList.map (·.origin) ++ deferred
  types : after.types.toList = before.types.toList ++ types

/-- No type became an interface. -/
def Progress.SameFlags (before after : Progress) : Prop :=
  ∀ id, after.store.isInterface id = before.store.isInterface id

namespace Progress

variable {before middle after : Progress}

theorem Quiet.adds (quiet : before.Quiet after) : before.Adds after [] [] [] where
  linked := by rw [quiet.store.callsAndChecks, List.append_nil]
  deferred := by rw [quiet.calls, List.append_nil]
  types := by rw [quiet.types, List.append_nil]

theorem Adds.trans {linked linked' : List (AssociationKind × EntityId × Option Anchor)}
    {deferred deferred' : List (EntityId × Anchor)} {types types' : List EntityId}
    (first : before.Adds middle linked deferred types)
    (second : middle.Adds after linked' deferred' types') :
    before.Adds after (linked ++ linked') (deferred ++ deferred') (types ++ types') where
  linked := by rw [second.linked, first.linked, List.append_assoc]
  deferred := by rw [second.deferred, first.deferred, List.append_assoc]
  types := by rw [second.types, first.types, List.append_assoc]

end Progress

namespace Walk

open Progress (Follows)

variable {relation : Progress → Progress → Prop} {within : Store → Store → Prop}
  {lapses : Lapses} {site : Site} {before : Progress}

theorem currentType_meets [IsPreorder Progress relation]
    (known : before.scopes.type? = none → lapses.missing) :
    Meets relation lapses site before currentType fun frame after =>
      before = after ∧ before.scopes.type? = some frame ∧
        before.store.identity? frame.entity = some (.type, frame.name) := by
  refine .of_sound fun sound => ?_
  unfold currentType
  refine .bind .get fun progress middle _ _ same => ?_
  obtain ⟨rfl, rfl⟩ := same
  cases found : before.scopes.type? with
  | some frame => exact .pure ⟨rfl, rfl, sound.types frame (List.mem_of_mem_head? found)⟩
  | none => exact .fault (known found)

theorem currentMethod_meets [IsPreorder Progress relation]
    (known : before.scopes.method? = none → lapses.missing) :
    Meets relation lapses site before currentMethod fun frame after =>
      before = after ∧ before.scopes.method? = some frame ∧
        before.store.identity? frame.entity = some (.method, frame.name) ∧
        before.store.Holds .type frame.declaringType := by
  refine .of_sound fun sound => ?_
  unfold currentMethod
  refine .bind .get fun progress middle _ _ same => ?_
  obtain ⟨rfl, rfl⟩ := same
  cases found : before.scopes.method? with
  | some frame => exact .pure ⟨rfl, rfl, sound.methods frame (List.mem_of_mem_head? found)⟩
  | none => exact .fault (known found)

theorem anchor_meets [IsPreorder Progress relation] (span : Span) :
    Meets relation lapses site before (anchor span) fun place after =>
      before = after ∧ place = Anchor.ofSpan site.path span :=
  .unchanged rfl ⟨rfl, rfl⟩

theorem statement_meets [IsPreorder Progress relation] (span : Span) :
    Meets relation lapses site before (statement span) fun _ after => before = after :=
  .unchanged rfl rfl

theorem link_meets [Follows relation within] [IsPreorder Store within] {kind : AssociationKind}
    {source target : EntityId} {span : Span} (left : before.store.Holds kind.sourceKind source)
    (right : before.store.Holds kind.targetKind target)
    (related : ∀ statement, within before.store (before.store.appended kind source target
      (some (Anchor.ofSpan site.path span)) statement)) :
    Meets relation lapses site before (link kind source target span) fun _ after =>
      ∃ statement, after = { before with
        store := before.store.appended kind source target (some (Anchor.ofSpan site.path span))
          statement } := by
  unfold link
  refine .bind (anchor_meets span) fun place middle _ _ known => ?_
  obtain ⟨rfl, rfl⟩ := known
  refine .bind (statement_meets span) fun text middle _ _ same => ?_
  obtain rfl := same
  refine .bind (.edit (Edit.addAssociation_meets left right (related text)))
    fun _ middle _ _ added => ?_
  obtain ⟨same, stored⟩ := added
  exact .pure ⟨text, by rw [same, stored]⟩

/-- Supertypes and accesses to fields are linked quietly. -/
theorem link_quiet (kind : AssociationKind) (plain : kind.isCallOrCheck = false)
    {source target : EntityId} (left : before.store.Holds kind.sourceKind source)
    (right : before.store.Holds kind.targetKind target) (span : Span) :
    Meets Progress.Quiet lapses site before (link kind source target span) fun _ _ => True :=
  .result (link_meets left right fun _ => Store.quiet_appended plain) fun _ _ _ => trivial

/-- A call, cast or type check that is linked at once. -/
theorem link_adds (kind : AssociationKind) (recorded : kind.isCallOrCheck) {source target : EntityId}
    (left : before.store.Holds kind.sourceKind source)
    (right : before.store.Holds kind.targetKind target) (span : Span) :
    Meets Progress.Extends lapses site before (link kind source target span) fun _ after =>
      before.Adds after [(kind, source, some (Anchor.ofSpan site.path span))] [] [] ∧
        before.SameFlags after := by
  refine .result (link_meets left right fun _ => Store.extends_appended) ?_
  rintro _ _ ⟨statement, rfl⟩
  refine ⟨⟨?_, (List.append_nil _).symm, (List.append_nil _).symm⟩, fun _ => rfl⟩
  rw [Store.callsAndChecks_appended, if_pos recorded, List.map_append]
  rfl

theorem ensureInitializer_meets {type : EntityId} {typeName : String} (marker : String)
    (typed : before.store.Holds .type type) :
    Meets Progress.Quiet lapses site before (ensureInitializer type typeName marker)
      fun method after =>
        after.store.identity? method = some (.method, Naming.initializerName typeName marker) := by
  unfold ensureInitializer
  refine .bind .get fun progress middle _ _ same => ?_
  obtain ⟨rfl, rfl⟩ := same
  refine .bind (.edit (Edit.madeUpMethod_meets _ typed _)) fun method middle _ _ named => ?_
  dsimp only
  split
  · refine .bind (.addMethod method) fun _ after _ _ same => ?_
    exact .pure (by rw [same.2]; exact named.2)
  · exact .pure named.2

theorem addDefaultConstructor_meets {type : EntityId} {typeName : String}
    (typed : before.store.Holds .type type) :
    Meets Progress.Quiet lapses site before (addDefaultConstructor type typeName)
      fun _ _ => True := by
  unfold addDefaultConstructor
  refine .bind .get fun progress middle _ _ same => ?_
  obtain ⟨rfl, rfl⟩ := same
  dsimp only
  split
  · exact .pure trivial
  · exact .bind (.edit (Edit.madeUpMethod_meets _ typed _)) fun constructor _ _ _ _ =>
      .result (.addMethod constructor) fun _ _ _ => trivial

theorem linkSupertype_meets {type : EntityId} {kind : AssociationKind} (upward : kind.isHierarchy)
    (typed : before.store.Holds .type type) (supertype : TypeUse) :
    Meets Progress.Quiet lapses site before (linkSupertype type kind supertype)
      fun _ _ => True := by
  have plain : kind.isCallOrCheck = false := by cases kind <;> first | rfl | cases upward
  unfold linkSupertype
  refine .bind (.edit (Edit.typeOf_meets supertype)) fun target middle _ quiet found => ?_
  refine .bind .get fun progress middle _ _ same => ?_
  obtain ⟨rfl, rfl⟩ := same
  split
  · exact .pure trivial
  · have left := typed.extended quiet.store.toExtends
    refine link_quiet kind plain ?_ ?_ supertype.span
    · cases kind <;> first | exact left | cases upward
    · cases kind <;> first | exact found.2 | cases upward

theorem forM_meets [IsPreorder Progress relation] {items : List ι} {action : ι → Walk Unit}
    (each : ∀ item middle, relation before middle →
      Meets relation lapses site middle (action item) fun _ _ => True) :
    Meets relation lapses site before (items.forM action) fun _ _ => True := by
  induction items generalizing before with
  | nil => exact .pure trivial
  | cons item items ih =>
      refine .bind (each item before (refl_of relation before)) fun _ middle _ related _ => ?_
      exact ih fun item later onward => each item later (trans_of relation related onward)

theorem typeBody_meets {good : Unit → Progress → Prop} (steady : Steady good) {type : EntityId}
    {name : String} (named : before.store.identity? type = some (.type, name)) (isInterface : Bool)
    {members : Walk Unit}
    (visited : ∀ inner, before.Quiet inner →
      inner.scopes.types = ⟨type, name⟩ :: before.scopes.types →
      inner.scopes.methods = before.scopes.methods →
      Meets Progress.Extends lapses site inner members good) :
    Meets Progress.Extends lapses site before (typeBody type name isInterface members) good := by
  unfold typeBody
  refine .bind (Meets.grown (.modifiedScopes fun clear => .counters clear _ _ _))
    fun _ seeded restored _ same => ?_
  obtain ⟨store, seedQuiet⟩ := same
  refine .insideType steady (store ▸ named) fun inner enterQuiet types methods _ => ?_
  have entered := trans_of Progress.Quiet seedQuiet enterQuiet
  rw [restored.types] at types
  rw [restored.methods] at methods
  have typed : inner.store.identity? type = some (.type, name) := entered.store.identity named
  cases isInterface with
  | true =>
      refine .bind (visited inner entered types methods) fun _ after _ _ reached => ?_
      exact .pure reached
  | false =>
      refine .bind (Meets.grown (ensureInitializer_meets _ ⟨name, typed⟩))
        fun _ hosted restored _ host => ?_
      have hosting := trans_of Progress.Quiet entered host.2
      refine .bind (visited hosted hosting (restored.types.trans types)
        (restored.methods.trans methods)) fun _ after _ grown reached => ?_
      have typed : after.store.identity? type = some (.type, name) :=
        grown.identity (hosting.store.identity named)
      exact .imp (addDefaultConstructor_meets ⟨name, typed⟩) (fun _ quiet => quiet.extends)
        fun _ _ _ quiet _ => steady quiet reached

/-- A declared type as its members find it. -/
structure Declares (site : Site) (before inner : Progress) (type : EntityId) (name : String)
    (span : Span) (isInterface : Bool) : Prop where
  grown : before.Extends inner
  adds : before.Adds inner [] [] [type]
  flags : ∀ id, inner.store.isInterface id =
    (before.store.isInterface id || (id == type && isInterface))
  named : inner.store.identity? type = some (.type, name)
  anchor : inner.store.anchor? type = some (Anchor.ofSpan site.path span)

theorem Declares.quiet {inner later : Progress} {type : EntityId} {name : String} {span : Span}
    {isInterface : Bool} (declares : Declares site before inner type name span isInterface)
    (quiet : inner.Quiet later) : Declares site before later type name span isInterface where
  grown := trans_of Progress.Extends declares.grown quiet.extends
  adds := declares.adds.trans quiet.adds
  flags id := (quiet.store.interfaces id).trans (declares.flags id)
  named := quiet.store.identity declares.named
  anchor := quiet.store.anchor declares.anchor

/-- The owner of a declared type is a package, a method, or else the type around it. -/
theorem declaredOwner_holds (sound : before.Sound site) :
    ∃ kind ∈ EntityKind.ownerKinds .type,
      before.store.Holds kind (declaredOwner site before.scopes) ∧
        (kind = .type → ∃ frame, before.scopes.type? = some frame ∧
          before.store.identity? (declaredOwner site before.scopes) = some (.type, frame.name)) := by
  have inType {frame : TypeFrame} {outer : List TypeFrame} (types : before.scopes.types = frame :: outer) :
      before.scopes.type? = some frame ∧
        before.store.identity? frame.entity = some (.type, frame.name) :=
    ⟨by rw [Scopes.type?, types]; rfl, sound.types frame (by rw [types]; exact List.mem_cons_self)⟩
  unfold declaredOwner
  split
  · rename_i types methods
    split
    · have held := (sound.methods _ (by rw [methods]; exact List.mem_cons_self)).1
      exact ⟨.method, by decide, ⟨_, held⟩, nofun⟩
    · have held := (inType types).2
      exact ⟨.type, by decide, ⟨_, held⟩, fun _ => ⟨_, inType types⟩⟩
  · rename_i types _
    have held := (inType types).2
    exact ⟨.type, by decide, ⟨_, held⟩, fun _ => ⟨_, inType types⟩⟩
  · exact ⟨.package, by decide, sound.package, nofun⟩

theorem addType_meets (type : EntityId) :
    Meets Progress.Extends lapses site before (addType type) fun _ after =>
      after = { before with types := before.types.push type } :=
  fun sound => ⟨{ sound with }, .refl sound.violation, refl_of Store.Extends before.store,
    .inr ⟨rfl, rfl⟩, rfl⟩

theorem Declares.of_edit {declared : Progress} {type : EntityId} {name : String} {span : Span}
    {isInterface : Bool} (grown : before.Extends declared)
    (same : declared = { before with store := declared.store })
    (named : declared.store.identity? type = some (.type, name))
    (anchor : declared.store.anchor? type = some (Anchor.ofSpan site.path span))
    (recorded : declared.store.callsAndChecks = before.store.callsAndChecks)
    (flags : ∀ id, declared.store.isInterface id =
      (before.store.isInterface id || (id == type && isInterface))) :
    Declares site before { declared with types := declared.types.push type } type name span
      isInterface where
  grown := grown
  adds := by
    rw [same]
    exact ⟨by rw [recorded, List.append_nil], (List.append_nil _).symm, Array.toList_push⟩
  flags := flags
  named := named
  anchor := anchor

theorem declareType_meets {good : Unit → Progress → Prop} (steady : Steady good) (span : Span)
    (header : TypeHeader) {members : Walk Unit}
    (apart : ∀ frame, before.scopes.type? = some frame →
      frame.name = declaredName before.store before.scopes site.package header
        (Anchor.ofSpan site.path span) → lapses.looped)
    (visited : ∀ inner type name,
      name = declaredName before.store before.scopes site.package header
        (Anchor.ofSpan site.path span) →
      Declares site before inner type name span
        ((header.modifiers ∪ kindModifiers header.kind).contains Modifiers.isInterface) →
      inner.scopes.types = ⟨type, name⟩ :: before.scopes.types →
      inner.scopes.methods = before.scopes.methods →
      Meets Progress.Extends lapses site inner members good) :
    Meets Progress.Extends lapses site before (declareType span header members) good := by
  refine .of_sound fun sound => ?_
  obtain ⟨kind, allowed, around, innermost⟩ := declaredOwner_holds sound
  unfold declareType
  refine .bind .read fun _ _ _ _ same => ?_
  obtain ⟨rfl, rfl⟩ := same
  refine .bind .get fun _ _ _ _ same => ?_
  obtain ⟨rfl, rfl⟩ := same
  refine .bind (anchor_meets span) fun place _ _ _ same => ?_
  obtain ⟨rfl, rfl⟩ := same
  have looped (inType : kind = .type)
      (same : before.store.identity? (declaredOwner site before.scopes) = some (.type,
        declaredName before.store before.scopes site.package header (Anchor.ofSpan site.path span))) :
      lapses.looped := by
    obtain ⟨frame, current, named⟩ := innermost inType
    exact apart frame current (Prod.mk.inj (Option.some.inj (named.symm.trans same))).2
  refine .bind (.edit (Edit.declaredType_meets around allowed looped rfl _))
    fun type declared scopes grown known => ?_
  obtain ⟨same, named, placed, recorded, flags⟩ := known
  have declares := Declares.of_edit grown same named placed recorded flags
  refine .bind (addType_meets type) fun _ listed _ _ added => ?_
  subst added
  -- both with a superclass and without one the interfaces come next
  have finish (linked : Progress) (restored : before.scopes.Restored linked.scopes)
      (quiet : Progress.Quiet { declared with types := declared.types.push type } linked) :
      Meets Progress.Extends lapses site linked (do
        header.interfaces.forM (linkSupertype type .subtyping)
        typeBody type (declaredName before.store before.scopes site.package header
          (Anchor.ofSpan site.path span)) (header.kind == .interface) members) good := by
    have declares := declares.quiet quiet
    refine .bind (Meets.grown (forM_meets fun supertype middle quiet => linkSupertype_meets rfl
      ⟨_, quiet.store.identity declares.named⟩ supertype)) fun _ middle unmoved _ linked => ?_
    have declares := declares.quiet linked.2
    refine typeBody_meets steady declares.named _ fun inner quiet types methods => ?_
    refine visited inner type _ rfl (declares.quiet quiet) ?_ ?_
    · rw [types, unmoved.types, restored.types]
    · rw [methods, unmoved.methods, restored.methods]
  cases header.superclass with
  | none => exact finish _ scopes (refl_of Progress.Quiet _)
  | some superclass =>
      refine .bind (Meets.grown (linkSupertype_meets rfl ⟨_, declares.named⟩ superclass))
        fun _ linked restored _ quiet => finish linked (scopes.trans restored) quiet.2

/-- An anonymous class is never an interface. Inside of a method it cannot own itself. -/
theorem declareAnonymous_meets (known : before.scopes.type? = none → lapses.missing)
    (apart : before.scopes.method? = none → lapses.looped) (span : Span) (name : String)
    (supertype : TypeUse) :
    Meets Progress.Extends lapses site before (declareAnonymous span name supertype)
      fun type after => Declares site before after type name span false := by
  -- the owner is looked up first, and all that follows is the same for both kinds of owner
  have finish (owner : EntityId) (ownerKind : EntityKind)
      (around : before.store.Holds ownerKind owner)
      (allowed : ownerKind ∈ EntityKind.ownerKinds .type)
      (apart : ownerKind = .type → lapses.looped) :
      Meets Progress.Extends lapses site before (do
        let anchor ← anchor span
        let type ← edit do
          let type ← Edit.declareNamed .type name anchor
          Edit.setOwner type owner
          Edit.addModifiers type Modifiers.isAnonymous
          pure type
        addType type
        let isInterface := supertype.binding.any (·.isInterface)
        linkSupertype type (if isInterface then .subtyping else .inheritance) supertype
        pure type) fun type after => Declares site before after type name span false := by
    refine .bind (anchor_meets span) fun place _ _ _ same => ?_
    obtain ⟨rfl, rfl⟩ := same
    refine .bind (.edit (Edit.declaredType_meets around allowed (fun kind _ => apart kind) rfl _))
      fun type declared scopes grown known => ?_
    obtain ⟨same, named, placed, recorded, flags⟩ := known
    have declares := Declares.of_edit grown same named placed recorded flags
    refine .bind (addType_meets type) fun _ listed _ _ added => ?_
    subst added
    refine .bind (Meets.grown (linkSupertype_meets ?_ ⟨_, declares.named⟩ supertype))
      fun _ linked _ _ quiet => .pure ?_
    · split <;> rfl
    · have plain : Modifiers.isAnonymous.contains Modifiers.isInterface = false := by decide
      exact plain ▸ declares.quiet quiet.2
  refine .of_sound fun sound => ?_
  unfold declareAnonymous
  refine .bind .get fun _ _ _ _ same => ?_
  obtain ⟨rfl, rfl⟩ := same
  cases current : before.scopes.method? with
  | some method =>
      have held := (sound.methods method (List.mem_of_mem_head? current)).1
      exact finish method.entity .method ⟨_, held⟩ (by decide) nofun
  | none =>
      refine .bind (.map (currentType_meets known)) fun _ _ _ _ found => ?_
      obtain ⟨type, rfl, rfl, _, named⟩ := found
      exact finish type.entity .type ⟨_, named⟩ (by decide) fun _ => apart current

end Walk

end JavaFacts
