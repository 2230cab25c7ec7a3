import JavaFacts.Proofs.Outline.Types

/-!
The declarations of members and variables follow their outlines.
-/

namespace JavaFacts.Walk

variable {site : Site} {before : Progress} {standing : Standing}

theorem declareParameter_does {method : EntityId} {methodName : String}
    (named : before.store.identity? method = some (.method, methodName)) (position : Nat)
    (parameter : FormalParameter) (signature : String) :
    Does site before
      (before.store.facts.placed (.parameter, methodName ++ "." ++ parameter.name)
          (site.origin.anchor parameter.span) (.method, methodName) >>= fun facts =>
        .ok ((facts.withType parameter.type.name).detailed
          (.parameter, methodName ++ "." ++ parameter.name)
          { modifiers := parameter.modifiers, declaredType := parameter.type.name
            signatureType := signature, position }))
      (declareParameter method methodName position parameter signature) fun _ _ => True := by
  unfold declareParameter
  refine .ahead (site.origin.anchor parameter.span) rfl
    (.edit (fun _ _ => True) ?_)
  refine Edit.place_does named (by simp [EntityKind.ownerKinds]) fun entity placed _ placedNamed => ?_
  refine .andThen (Edit.typeOf_does parameter.type) fun type typed grown same typeNamed => ?_
  have same : typed.facts = placed.facts.withType parameter.type.name := same
  rw [← same]
  refine Edit.detail_does _ (grown.identity placedNamed) (fun _ => ⟨rfl, rfl, rfl, fun place => place⟩)
    (fun _ => rfl) (fun _ => rfl) (fun _ _ known => .inl ?_) fun entity => ?_
  · obtain rfl := Option.some.inj known
    exact ⟨_, typeNamed⟩
  · rw [Store.entryOf, Store.entryOf, Entry.detailed, Option.bind_some, typeNamed]
    rfl

theorem declareParameters_does {method : EntityId} {methodName : String}
    (parameters : List (FormalParameter × String)) (position : Nat)
    (named : before.store.identity? method = some (.method, methodName)) :
    Does site before
      (Change.applyAll before.store.facts (Event.changes
        (.parameters methodName (parameterEvents site.origin methodName position parameters))))
      (declareParameters method methodName position parameters) fun _ _ => True := by
  induction parameters generalizing before position with
  | nil =>
      rw [declareParameters]
      exact .pure trivial
  | cons parameter parameters ih =>
      obtain ⟨parameter, signature⟩ := parameter
      rw [declareParameters]
      have apart : Change.applyAll before.store.facts (Event.changes (.parameters methodName
            (parameterEvents site.origin methodName position ((parameter, signature) :: parameters)))) =
          (before.store.facts.placed (.parameter, methodName ++ "." ++ parameter.name)
              (site.origin.anchor parameter.span) (.method, methodName) >>= fun facts =>
            .ok ((facts.withType parameter.type.name).detailed
              (.parameter, methodName ++ "." ++ parameter.name)
              { modifiers := parameter.modifiers, declaredType := parameter.type.name
                signatureType := signature, position })) >>= fun facts =>
          Change.applyAll facts (Event.changes (.parameters methodName
            (parameterEvents site.origin methodName (position + 1) parameters))) := by
        rw [parameterEvents, Event.changes, List.flatMap_cons, List.cons_append, Change.applyAll,
          Change.apply]
        cases before.store.facts.placed (.parameter, methodName ++ "." ++ parameter.name)
          (site.origin.anchor parameter.span) (.method, methodName) <;> rfl
      rw [apart]
      refine .bind (declareParameter_does named position parameter signature)
        fun _ middle grown _ _ => ?_
      exact ih (position + 1) (grown.identity named)

theorem describedMethod_does {before : Store} {method : EntityId} {name : String}
    (named : before.identity? method = some (.method, name)) {returned : Option EntityId}
    {returnedName : Option String}
    (means : List.Forall₂ (fun type name => before.identity? type = some (.type, name))
      returned.toList returnedName.toList) (modifiers : Modifiers) (signatures : List String) :
    Edit.Does before
      (.ok (before.facts.detailed (.method, name)
        { modifiers, declaredType := returnedName, parameterTypes := some signatures }))
      (do
        Edit.update method fun entity => { entity with
          modifiers := entity.modifiers ∪ modifiers, parameterTypes := signatures
          declaredType := returned <|> entity.declaredType }
        pure method)
      fun method after => after.identity? method = some (.method, name) := by
  have typed : returned.bind (fun type => (before.identity? type).map (·.2)) = returnedName := by
    rcases returned with - | type <;> rcases returnedName with - | typeName <;> cases means
    · rfl
    · rename_i typeNamed _
      rw [Option.bind_some, typeNamed, Option.map_some]
  refine .andThen (Edit.detail_does {
      modifiers, declaredType := returnedName, parameterTypes := some signatures } named
    (fun _ => ⟨rfl, rfl, rfl, fun place => place⟩) (fun _ => rfl) (fun _ => rfl)
    (fun entity type known => ?_) fun entity => ?_) fun _ after grown same _ => ?_
  · rcases returned with - | returned
    · exact .inr known
    · obtain rfl := Option.some.inj known
      rcases returnedName with - | typeName <;> cases means
      exact .inl ⟨typeName, ‹_›⟩
  · have kept : (returned <|> entity.declaredType).bind
          (fun type => (before.identity? type).map (·.2)) =
        (returnedName <|> entity.declaredType.bind fun type => (before.identity? type).map (·.2)) := by
      rcases returned with - | returned <;> rcases returnedName with - | typeName <;> cases means
      · rfl
      · exact typed
    simp only [Store.entryOf, Entry.detailed, kept]
    rfl
  · exact same ▸ .pure (grown.identity named)

/-- A declared method without its parameters. -/
theorem declaredMethod_does {before : Store} {type : EntityId} {typeName : String}
    (typed : before.identity? type = some (.type, typeName)) (name : String) (anchor : Anchor)
    (header : MethodHeader) (signatures : List String) :
    Edit.Does before
      (Change.applyAll before.facts (Event.changes
        (.method name anchor typeName header.returned header.modifiers signatures)))
      (do
        let method ← Edit.declareNamed .method name anchor
        Edit.setOwner method type
        let returned ← match header.returnType, header.isConstructor with
          | some returned, false => some <$> Edit.typeOf returned
          | _, _ => pure none
        Edit.update method fun entity => { entity with
          modifiers := entity.modifiers ∪ header.modifiers, parameterTypes := signatures
          declaredType := returned <|> entity.declaredType }
        pure method)
      fun method after => after.identity? method = some (.method, name) := by
  have apart : Change.applyAll before.facts (Event.changes
        (.method name anchor typeName header.returned header.modifiers signatures)) =
      (before.facts.placed (.method, name) anchor (.type, typeName) >>= fun facts =>
        .ok ((header.returned.elim facts facts.withType).detailed (.method, name)
          { modifiers := header.modifiers, declaredType := header.returned
            parameterTypes := some signatures })) := by
    rw [Event.changes, List.append_assoc, List.singleton_append, Change.applyAll, Change.apply]
    cases before.facts.placed (.method, name) anchor (.type, typeName) with
    | error _ => rfl
    | ok facts => cases header.returned <;> rfl
  rw [apart]
  refine Edit.place_does typed (by simp [EntityKind.ownerKinds]) fun method placed _ named => ?_
  unfold MethodHeader.returned
  cases header.returnType with
  | none =>
      have nothing : Edit.Does placed (.ok placed.facts) (pure none) fun (result : Option EntityId)
          after => none = result ∧ placed = after := .pure ⟨rfl, rfl⟩
      refine .andThen nothing fun _ _ _ _ known => ?_
      obtain ⟨rfl, rfl⟩ := known
      exact describedMethod_does named .nil _ _
  | some returned =>
      cases header.isConstructor with
      | true =>
          have nothing : Edit.Does placed (.ok placed.facts) (pure none) fun (result : Option EntityId)
              after => none = result ∧ placed = after := .pure ⟨rfl, rfl⟩
          refine .andThen nothing fun _ _ _ _ known => ?_
          obtain ⟨rfl, rfl⟩ := known
          exact describedMethod_does named .nil _ _
      | false =>
          refine .andThen (.map (Edit.typeOf_does returned)) fun _ typed grown same known => ?_
          obtain ⟨type, rfl, typeNamed⟩ := known
          have means : List.Forall₂ (fun type name => typed.identity? type = some (.type, name))
              (some type).toList (some returned.name).toList := .cons typeNamed .nil
          have described := describedMethod_does (grown.identity named) means header.modifiers signatures
          rw [same] at described
          exact described

theorem declareMethod_follows (span : Span) (header : MethodHeader) {body : Walk Unit}
    {outline : Outline Unit} (restoring : Restoring body)
    (visited : ∀ inner later, Follows site inner later body outline fun _ _ _ => True) :
    Follows site before standing (declareMethod span header body)
      (Outline.declareMethod span header outline) fun _ _ _ => True := by
  unfold declareMethod Outline.declareMethod
  refine .bind currentType_follows fun frame type middle later _ means => ?_
  refine .ahead (site.origin.anchor span) rfl (.fromOrigin ?_)
  obtain ⟨rfl, typed⟩ := means
  dsimp only
  refine .bind (.record _ (.edit _ (declaredMethod_does typed _ _ header _)))
    fun method _ declared later grown named => ?_
  have typed := grown.identity typed
  refine .unseen { declared with methods := declared.methods.push method } rfl rfl
    (fun stands => stands.extended stands.store (refl_of Store.Extends declared.store) rfl rfl rfl) ?_
  refine insideMethod_follows ?_ named typed fun inner same => ?_
  · exact .bind (declareParameters_restoring _ _ _ _) fun _ => restoring
  · refine .bind (.record _ (declareParameters_does _ _ (same ▸ named))) fun _ _ inner later _ _ => ?_
    exact visited inner later

theorem insideInitializer_follows {type : TypeFrame} {name : String} (isStatic : Bool)
    {action : Walk Unit} {outline : Outline Unit} (restoring : Restoring action)
    (means : type.Means before.store name)
    (visited : ∀ inner later, Follows site inner later action outline fun _ _ _ => True) :
    Follows site before standing (insideInitializer type isStatic action)
      (Outline.insideInitializer name isStatic outline) fun _ _ _ => True := by
  unfold insideInitializer Outline.insideInitializer
  obtain ⟨rfl, typed⟩ := means
  refine .bind (.record _ (ensureInitializer_does _ typed)) fun method _ middle later grown named => ?_
  exact insideMethod_follows restoring named (grown.identity typed) fun inner _ => visited inner _

/-- The type of a variable and how it is written in signatures. -/
theorem recordType_does {before : Store} {entity : EntityId} {identity : Identity}
    (named : before.identity? entity = some identity) (use : TypeUse) (declarator : Declarator) :
    Edit.Does before
      (.ok ((before.facts.withType (declarator.typeName use)).detailed identity
        { declaredType := declarator.typeName use
          signatureType := declarator.signatureType use }))
      (recordType entity use declarator) fun _ _ => True := by
  unfold recordType
  refine .andThen (Edit.ensureType_does (declarator.typeName use)) fun type typed grown same found => ?_
  rw [← same]
  refine Edit.detail_does _ (grown.identity named) (fun _ => ⟨rfl, rfl, rfl, fun place => place⟩)
    (fun _ => rfl) (fun _ => rfl) (fun _ _ known => .inl ?_) fun entity => ?_
  · obtain rfl := Option.some.inj known
    exact ⟨_, found⟩
  · have type : (some type).bind (fun id => (typed.identity? id).map (·.2)) =
        some (declarator.typeName use) := by
      rw [Option.bind_some, found, Option.map_some]
    have flags : entity.modifiers ∪ ∅ = entity.modifiers := Modifiers.union_empty _
    simp only [Store.entryOf, Entry.detailed, type, flags]
    rfl

theorem declareField_follows {type : TypeFrame} {name : String} (means : type.Means before.store name)
    (header : VariablesHeader) (declarator : Declarator) :
    Follows site before standing (declareField type header declarator)
      (Outline.declareField name header declarator) fun _ _ _ => True := by
  unfold declareField Outline.declareField
  obtain ⟨rfl, typed⟩ := means
  refine .ahead (site.origin.anchor declarator.span) rfl (.fromOrigin ?_)
  have apart : Change.applyAll before.store.facts (Event.changes
        (.field (Naming.fieldName type.name declarator.name) (site.origin.anchor declarator.span)
          type.name header.modifiers (declarator.typeName header.type)
          (declarator.signatureType header.type))) =
      (before.store.facts.placed (.field, Naming.fieldName type.name declarator.name)
          (site.origin.anchor declarator.span) (.type, type.name) >>= fun facts =>
        .ok (((facts.detailed (.field, Naming.fieldName type.name declarator.name)
            { modifiers := header.modifiers }).withType (declarator.typeName header.type)).detailed
          (.field, Naming.fieldName type.name declarator.name)
          { declaredType := declarator.typeName header.type
            signatureType := declarator.signatureType header.type })) := by
    rw [Event.changes, Change.applyAll, Change.apply]
    cases before.store.facts.placed (.field, Naming.fieldName type.name declarator.name)
      (site.origin.anchor declarator.span) (.type, type.name) <;> rfl
  refine .record _ (.edit (fun _ _ => True) ?_)
  rw [apart]
  refine Edit.place_does typed (by simp [EntityKind.ownerKinds]) fun field placed _ named => ?_
  refine .andThen (Edit.addModifiers_does named header.modifiers) fun _ described grown same _ => ?_
  rw [← same]
  exact recordType_does (grown.identity named) header.type declarator

/-- A local variable that is declared belongs to the method around it. -/
theorem declaredLocal_does {before : Store} {method : EntityId} {methodName : String}
    (named : before.identity? method = some (.method, methodName)) (name : String) (anchor : Anchor) :
    Edit.Does before
      (Change.applyAll before.facts (Event.changes (.localVariable name anchor methodName)))
      (do
        let entity ← Edit.declareNamed .localVariable name anchor
        Edit.setOwner entity method
        pure entity)
      fun entity after => after.identity? entity = some (.localVariable, name) := by
  have apart : Change.applyAll before.facts (Event.changes (.localVariable name anchor methodName)) =
      (before.facts.placed (.localVariable, name) anchor (.method, methodName) >>= .ok) := by
    rw [Event.changes, Change.applyAll, Change.apply]
    cases before.facts.placed (.localVariable, name) anchor (.method, methodName) <;> rfl
  rw [apart]
  exact Edit.place_does named (by simp [EntityKind.ownerKinds]) fun entity placed _ named =>
    .pure named

theorem nextLocalName_stands {method : EntityId} {methodName : String}
    (named : before.store.identity? method = some (.method, methodName)) (name : String)
    (stands : before.Stands site standing) :
    Progress.Stands site
      { before with scopes := (before.scopes.nextLocalName method methodName name).2 }
      (standing.countLocal methodName name) := by
  have count : before.scopes.localCounts.getD (method, name) 0 =
      standing.localCounts methodName name := by
    rw [stands.localCounts, Store.countByName, named]
  refine { stands with localCounts := fun id other => ?_, counted := fun other otherName counted => ?_ }
  · simp only [Scopes.nextLocalName, Std.HashMap.getD_insert, Standing.countLocal, count,
      Store.countByName]
    by_cases same : method = id
    · subst same
      rw [named]
      by_cases equal : name = other
      · subst equal
        simp
      · have different : ((method, name) == (method, other)) = false := by simp [equal]
        simp only [different, Bool.false_eq_true, ↓reduceIte, Function.update_of_ne (Ne.symm equal)]
        rw [stands.localCounts, Store.countByName, named]
    · have different : ((method, name) == (id, other)) = false := by simp [same]
      simp only [different, Bool.false_eq_true, ↓reduceIte]
      rw [stands.localCounts, Store.countByName]
      rcases identified : before.store.identity? id with - | ⟨kind, otherMethod⟩
      · rfl
      · cases kind <;> try rfl
        have apart : otherMethod ≠ methodName := by
          rintro rfl
          exact same (stands.store.toSound.unique named identified)
        simp only [apart, ↓reduceIte]
  · by_cases same : other = methodName
    · exact ⟨method, same ▸ named⟩
    · simp only [Standing.countLocal, same, ↓reduceIte] at counted
      exact stands.counted other otherName counted

theorem placeLocal_stands {entity : EntityId} {name : String} {block : BlockId}
    (named : before.store.identity? entity = some (.localVariable, name))
    (current : standing.block = some block) (stands : before.Stands site standing) :
    Progress.Stands site { before with scopes := before.scopes.placeLocal entity block }
      (standing.placeLocal name) := by
  have placed : standing.placeLocal name =
      { standing with localBlocks := Function.update standing.localBlocks name (some block) } := by
    rw [Standing.placeLocal, current]
  rw [placed]
  refine { stands with localBlocks := fun id => ?_, placed := fun other located => ?_ }
  · simp only [Scopes.placeLocal, Scopes.blockOfLocal?, Std.HashMap.getElem?_insert,
      Store.blockByName]
    by_cases same : entity = id
    · subst same
      simp [named]
    · have kept := stands.localBlocks id
      rw [Scopes.blockOfLocal?, Store.blockByName] at kept
      simp only [beq_eq_false_iff_ne.mpr same, Bool.false_eq_true, ↓reduceIte, kept]
      rcases identified : before.store.identity? id with - | ⟨kind, other⟩
      · rfl
      · cases kind <;> try rfl
        have apart : other ≠ name := by
          rintro rfl
          exact same (stands.store.toSound.unique named identified)
        simp only [Function.update_of_ne apart]
  · by_cases same : other = name
    · exact ⟨entity, same ▸ named⟩
    · have located : Function.update standing.localBlocks name (some block) other ≠ none := located
      rw [Function.update_of_ne same] at located
      exact stands.placed other located

theorem declareLocal_follows (name : String) (span : Span) :
    Follows site before standing (declareLocal name span) (Outline.declareLocal name span)
      fun entity unique after =>
        after.store.identity? entity = some (.localVariable, unique) := by
  refine .of_stands fun stands => ?_
  unfold declareLocal Outline.declareLocal
  refine .ahead before rfl ?_
  have methods := stands.methods
  rw [Scopes.method?]
  rcases scopesMethods : before.scopes.methods with - | ⟨method, frames⟩ <;>
    rcases standingMethods : standing.methods with - | ⟨named, namedMethods⟩ <;>
    rw [scopesMethods, standingMethods] at methods <;> cases methods
  · exact .congr_outline Outline.lacking
      (Outline.currentMethod_bind_lacking standingMethods _ _) .lacking
  · rename_i means _
    obtain ⟨sameName, methodNamed, -, -⟩ := means
    refine .congr_outline _ (Outline.currentMethod_bind standingMethods _ _) (.fromStanding ?_)
    simp only [List.head?_cons, sameName]
    have unique : (before.scopes.nextLocalName method.entity named.name name).1 =
        standing.localName named.name name := by
      rw [Scopes.nextLocalName, Standing.localName, stands.localCounts, Store.countByName,
        methodNamed]
    refine .bind (.changed (fun result _ after =>
        result = standing.localName named.name name ∧ after.store = before.store)
      (perform_modifyGetScopes _) rfl (nextLocalName_stands methodNamed name) ⟨unique, rfl⟩)
      fun _ _ counted _ _ known => ?_
    obtain ⟨rfl, same⟩ := known
    refine .ahead (site.origin.anchor span) rfl (.fromOrigin ?_)
    refine .bind (.record _ (.edit _ (declaredLocal_does (same ▸ methodNamed) _ _)))
      fun entity _ declared later _ entityNamed => ?_
    refine .ahead declared rfl (.of_stands fun stands => ?_)
    cases current : declared.scopes.block with
    | none =>
        have nowhere : later.placeLocal (standing.localName named.name name) = later := by
          rw [Standing.placeLocal, ← stands.block, current]
        refine .congr_outline (pure (standing.localName named.name name)) ?_
          (.pure entityNamed)
        show Plan.done (some _, later.placeLocal (standing.localName named.name name)) = _
        rw [nowhere]
        rfl
    | some block =>
        refine .bind (.changed (fun _ _ after => after.store = declared.store)
          (perform_modifyScopes _) rfl
          (placeLocal_stands entityNamed (stands.block.symm.trans current)) rfl)
          fun _ _ after _ _ same => ?_
        exact .pure (same ▸ entityNamed)

theorem declareVariable_follows (header : VariablesHeader) (declarator : Declarator) :
    Follows site before standing (declareVariable header declarator)
      (Outline.declareVariable header declarator) fun _ _ _ => True := by
  unfold declareVariable Outline.declareVariable
  refine .bind (declareLocal_follows _ _) fun entity name middle _ _ named => ?_
  refine .record _ (.edit (fun _ _ => True) ?_)
  refine .andThen (Edit.addModifiers_does named header.modifiers) fun _ described grown same _ => ?_
  have recorded := recordType_does (grown.identity named) header.type declarator
  rw [same] at recorded
  exact recorded

theorem declareInStatement_follows (span : Span) (name : String) (use : TypeUse) :
    Follows site before standing (declareInStatement span name use)
      (Outline.declareInStatement span name use) fun _ _ _ => True := by
  unfold declareInStatement Outline.declareInStatement
  refine .bind (declareLocal_follows _ _) fun entity unique middle _ _ named => ?_
  refine .record _ (.edit (fun _ _ => True) ?_)
  have bare : middle.store.facts.detailed (.localVariable, unique) { modifiers := ∅ } =
      middle.store.facts := by
    refine Facts.update_of_unchanged fun entry _ => ?_
    rw [Entry.detailed, Modifiers.union_empty]
    rfl
  have apart : Change.applyAll middle.store.facts (Event.changes
        (.localType unique ∅ use.name (Naming.signatureName use.binding use.written))) =
      .ok ((middle.store.facts.withType use.name).detailed (.localVariable, unique)
        { declaredType := use.name
          signatureType := Naming.signatureName use.binding use.written }) := by
    rw [Event.changes, Change.applyAll, Change.apply, bare]
    rfl
  rw [apart]
  refine .andThen (Edit.typeOf_does use) fun type typed grown same typeNamed => ?_
  have same : typed.facts = middle.store.facts.withType use.name := same
  rw [← same]
  refine Edit.detail_does _ (grown.identity named) (fun _ => ⟨rfl, rfl, rfl, fun place => place⟩)
    (fun _ => rfl) (fun _ => rfl) (fun _ _ known => .inl ?_) fun entity => ?_
  · obtain rfl := Option.some.inj known
    exact ⟨_, typeNamed⟩
  · have kept : (some type).bind (fun id => (typed.identity? id).map (·.2)) = some use.name := by
      rw [Option.bind_some, typeNamed, Option.map_some]
      rfl
    have flags : entity.modifiers ∪ ∅ = entity.modifiers := Modifiers.union_empty _
    simp only [Store.entryOf, Entry.detailed, kept, flags]
    rfl

end JavaFacts.Walk
