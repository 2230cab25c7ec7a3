import JavaFacts.Extraction.Members
import JavaFacts.Proofs.Extraction.Types

/-!
What the declarations of methods, fields and variables come to. They are quiet but for the nodes
inside of them.
-/

namespace JavaFacts.Walk

open Progress (Follows)

variable {relation : Progress → Progress → Prop} {within : Store → Store → Prop}
  {lapses : Lapses} {site : Site} {before : Progress}

theorem declareParameter_meets {method : EntityId} (declared : before.store.Holds .method method)
    (methodName : String) (position : Nat) (parameter : FormalParameter) (signature : String) :
    Meets Progress.Quiet lapses site before
      (declareParameter method methodName position parameter signature) fun _ after =>
        ∃ entity, after.store.identity? entity =
          some (.parameter, methodName ++ "." ++ parameter.name) := by
  unfold declareParameter
  refine .bind (anchor_meets parameter.span) fun place _ _ _ same => ?_
  obtain ⟨rfl, rfl⟩ := same
  refine .result (.edit (?_ : Edit.Meets _ _ _ _ fun _ after => ∃ entity,
    after.identity? entity = some (.parameter, methodName ++ "." ++ parameter.name)))
    fun _ _ known => known.2
  refine Edit.declaring_meets (fun quiet => quiet) declared (by decide) nofun rfl
    fun entity _ _ named _ => ?_
  refine .bind (Edit.typeOf_meets parameter.type) fun type _ quiet typed => ?_
  have named := quiet.identity named
  refine .imp (Edit.update_typed ⟨_, named⟩ (by decide)
    (fun _ => ⟨rfl, rfl, rfl, fun place => place⟩) (fun _ => rfl) fun _ _ known => .inl ?_)
    (fun _ quiet => quiet) fun _ _ quiet _ => ⟨entity, quiet.identity named⟩
  exact Option.some.inj known ▸ typed

theorem declareParameters_meets {method : EntityId} (declared : before.store.Holds .method method)
    (methodName : String) (position : Nat) (parameters : List (FormalParameter × String)) :
    Meets Progress.Quiet lapses site before
      (declareParameters method methodName position parameters) fun _ _ => True := by
  induction parameters generalizing before position with
  | nil => exact .pure trivial
  | cons parameter parameters ih =>
      exact .bind (declareParameter_meets declared _ _ _ _)
        fun _ _ _ quiet _ => ih (declared.extended quiet.extends) _

theorem declaredMethod_meets {grounds : Grounds} {store : Store} {type : EntityId}
    (typed : store.Holds .type type) (header : MethodHeader) (name : String) {anchor : Anchor}
    (within : anchor.file = grounds.file) :
    Edit.Meets Store.Quiet grounds store
      (do
        let method ← Edit.declareNamed .method name anchor
        Edit.setOwner method type
        let returned ← match header.returnType, header.isConstructor with
          | some returned, false => some <$> Edit.typeOf returned
          | _, _ => pure none
        Edit.update method fun entity => { entity with
          modifiers := entity.modifiers ∪ header.modifiers
          parameterTypes := parameterTypes header
          declaredType := returned <|> entity.declaredType }
        pure method)
      fun method after =>
        after.identity? method = some (.method, name) ∧ after.anchor? method = some anchor := by
  refine Edit.declaring_meets (fun quiet => quiet) typed (by decide) nofun within
    fun method owned _ named placed => ?_
  -- the type that the method returns may be missing
  have finish (store : Store) (quiet : owned.Quiet store) (returned : Option EntityId)
      (known : ∀ type, returned = some type → store.Holds .type type) :
      Edit.Meets Store.Quiet grounds store
        (do
          Edit.update method fun entity => { entity with
            modifiers := entity.modifiers ∪ header.modifiers
            parameterTypes := parameterTypes header
            declaredType := returned <|> entity.declaredType }
          pure method)
        fun method after =>
          after.identity? method = some (.method, name) ∧ after.anchor? method = some anchor := by
    have named := quiet.identity named
    have placed := quiet.anchor placed
    refine .bind (Edit.update_typed ⟨_, named⟩ (by decide)
      (fun _ => ⟨rfl, rfl, rfl, fun place => place⟩) (fun _ => rfl) fun entity type same => ?_)
      fun _ _ quiet _ => .pure ⟨quiet.identity named, quiet.anchor placed⟩
    cases returned with
    | none => exact .inr same
    | some returned => exact .inl (known type same)
  split
  · refine .bind (.map (Edit.typeOf_meets _)) fun _ store quiet known => ?_
    obtain ⟨type, rfl, typed⟩ := known
    exact finish store quiet (some type) fun _ same => Option.some.inj same ▸ typed
  · exact finish owned (refl_of Store.Quiet owned) none fun _ => (nomatch ·)

/-- The name of a declared method. -/
def methodHost (typeName : String) (header : MethodHeader) : String :=
  Naming.methodName typeName header.name header.isConstructor (parameterTypes header)

/-- The name of the method that hosts code that initializes fields. -/
def initializerHost (typeName : String) (isStatic : Bool) : String :=
  Naming.initializerName typeName
    (if isStatic then Naming.staticInitializer else Naming.instanceInitializer)

/-- The method is found by its name and declared at its place before its body is visited. -/
structure MethodEntered (site : Site) (before : Progress) (span : Span) (header : MethodHeader)
    (inner : Progress) (type : TypeFrame) (method : EntityId) (hidden : Option BlockId) : Prop where
  quiet : before.Quiet inner
  current : before.scopes.type? = some type
  named : inner.store.identity? method = some (.method, methodHost type.name header)
  placed : inner.store.anchor? method = some (Anchor.ofSpan site.path span)
  types : inner.scopes.types = before.scopes.types
  methods : inner.scopes.methods =
    ⟨method, methodHost type.name header, type.entity, hidden⟩ :: before.scopes.methods

theorem declareMethod_meets {good : Unit → Progress → Prop} (steady : Steady good)
    (known : before.scopes.type? = none → lapses.missing) (span : Span) (header : MethodHeader)
    {body : Walk Unit}
    (visited : ∀ inner type method hidden,
      MethodEntered site before span header inner type method hidden →
      Meets Progress.Extends lapses site inner body good) :
    Meets Progress.Extends lapses site before (declareMethod span header body) good := by
  unfold declareMethod
  refine .bind (currentType_meets known) fun type _ _ _ same => ?_
  obtain ⟨rfl, current, typeNamed⟩ := same
  refine .bind (anchor_meets span) fun place _ _ _ same => ?_
  obtain ⟨rfl, rfl⟩ := same
  refine .bind (Meets.grown (.edit (declaredMethod_meets ⟨_, typeNamed⟩ header _ rfl)))
    fun method declared restored _ known => ?_
  obtain ⟨⟨-, named, placed⟩, declareQuiet⟩ := known
  refine .bind (Meets.grown (.addMethod method)) fun _ listed kept _ known => ?_
  have quiet := trans_of Progress.Quiet declareQuiet known.2
  have named := known.2.store.identity named
  have placed := known.2.store.anchor placed
  have scopes := restored.trans kept
  refine .insideMethod steady named ⟨_, quiet.store.identity typeNamed⟩
    fun inner hidden entered types methods _ => ?_
  have quiet := trans_of Progress.Quiet quiet entered
  have named := entered.store.identity named
  refine .bind (Meets.grown (declareParameters_meets ⟨_, named⟩ _ _ _))
    fun _ ready unmoved _ known => ?_
  exact visited ready type method hidden {
    quiet := trans_of Progress.Quiet quiet known.2
    current
    named := known.2.store.identity named
    placed := known.2.store.anchor (entered.store.anchor placed)
    types := by rw [unmoved.types, types, scopes.types]
    methods := by
      rw [unmoved.methods, methods, scopes.methods]
      rfl }

theorem recordType_meets {grounds : Grounds} {store : Store} {kind : EntityKind} {entity : EntityId}
    (held : store.Holds kind entity) (plain : kind ≠ .type) (use : TypeUse)
    (declarator : Declarator) :
    Edit.Meets Store.Quiet grounds store (recordType entity use declarator) fun _ _ => True := by
  unfold recordType
  refine .bind (Edit.ensureType_meets _) fun type _ quiet typed => ?_
  refine Edit.update_typed (held.extended quiet.toExtends) plain
    (fun _ => ⟨rfl, rfl, rfl, fun place => place⟩) (fun _ => rfl) fun _ _ known => .inl ?_
  exact ⟨_, Option.some.inj known ▸ typed⟩

theorem declareField_meets {type : TypeFrame}
    (named : before.store.identity? type.entity = some (.type, type.name))
    (header : VariablesHeader) (declarator : Declarator) :
    Meets Progress.Quiet lapses site before (declareField type header declarator)
      fun _ _ => True := by
  unfold declareField
  refine .bind (anchor_meets declarator.span) fun place _ _ _ same => ?_
  obtain ⟨rfl, rfl⟩ := same
  refine .result (.edit (?_ : Edit.Meets _ _ _ _ fun _ _ => True)) fun _ _ _ => trivial
  refine Edit.declaring_meets (fun quiet => quiet) ⟨_, named⟩ (by decide) nofun rfl
    fun field _ _ fieldNamed _ => ?_
  refine .bind (Edit.addModifiers_quiet ⟨_, fieldNamed⟩ (nomatch ·)) fun _ _ quiet _ => ?_
  exact recordType_meets ⟨_, quiet.identity fieldNamed⟩ (by decide) header.type declarator

theorem areStatic_meets [Follows relation within] [IsPreorder Store within] {type : TypeFrame}
    (named : before.store.identity? type.entity = some (.type, type.name)) (modifiers : Modifiers) :
    Meets relation lapses site before (areStatic type modifiers) fun isStatic after =>
      before = after ∧
        isStatic = (before.store.isInterface type.entity || modifiers.contains Modifiers.isStatic) := by
  unfold areStatic
  have held : before.store.Holds .type type.entity := ⟨_, named⟩
  refine .bind (.edit (Edit.entity_meets held)) fun entity after _ _ known => ?_
  obtain ⟨same, stored, found, kind⟩ := known
  refine .pure ⟨?_, ?_⟩
  · rw [same, ← stored]
  · rw [Store.isInterface, found, Option.any_some, kind]
    rfl

theorem insideInitializer_meets {good : Unit → Progress → Prop} (steady : Steady good)
    {type : TypeFrame} (named : before.store.identity? type.entity = some (.type, type.name))
    (isStatic : Bool) {action : Walk Unit}
    (visited : ∀ inner host hidden, before.Quiet inner →
      inner.scopes.types = before.scopes.types →
      inner.scopes.methods =
        ⟨host, initializerHost type.name isStatic, type.entity, hidden⟩ :: before.scopes.methods →
      Meets Progress.Extends lapses site inner action good) :
    Meets Progress.Extends lapses site before (insideInitializer type isStatic action) good := by
  unfold insideInitializer
  refine .bind (Meets.grown (ensureInitializer_meets _ ⟨_, named⟩)) fun host hosted restored _ known => ?_
  obtain ⟨hostNamed, hostQuiet⟩ := known
  refine .insideMethod steady hostNamed ⟨_, hostQuiet.store.identity named⟩
    fun inner hidden enterQuiet types methods _ => ?_
  exact visited inner host hidden (trans_of Progress.Quiet hostQuiet enterQuiet)
    (types.trans restored.types) (restored.methods ▸ methods)

theorem declareLocal_meets (known : before.scopes.method? = none → lapses.missing) (name : String)
    (span : Span) :
    Meets Progress.Quiet lapses site before (declareLocal name span) fun entity after =>
      after.store.Holds .localVariable entity := by
  refine .of_sound fun sound => ?_
  unfold declareLocal
  refine .bind .get fun _ _ _ _ same => ?_
  obtain ⟨rfl, rfl⟩ := same
  cases current : before.scopes.method? with
  | none => exact .fault (known current)
  | some method =>
      have held := (sound.methods method (List.mem_of_mem_head? current)).1
      refine .bind (.changedScopes fun clear => .counters clear _ _ _) fun unique _ _ quiet _ => ?_
      have held := quiet.store.identity held
      refine .bind (anchor_meets span) fun place _ _ _ same => ?_
      obtain ⟨rfl, rfl⟩ := same
      refine .bind (.edit (?_ : Edit.Meets _ _ _ _ fun entity after =>
        after.Holds .localVariable entity)) fun entity _ _ _ known => ?_
      · exact Edit.declaring_meets (fun quiet => quiet) ⟨_, held⟩ (by decide) nofun rfl
          fun entity _ _ named _ => .pure ⟨_, named⟩
      · obtain ⟨-, localHeld⟩ := known
        refine .bind .get fun _ _ _ _ same => ?_
        obtain ⟨rfl, rfl⟩ := same
        dsimp only
        split
        · exact .bind (.modifiedScopes fun clear => .counters clear _ _ _)
            fun _ _ _ quiet _ => .pure (localHeld.extended quiet.extends)
        · exact .pure localHeld

theorem declareVariable_meets (known : before.scopes.method? = none → lapses.missing)
    (header : VariablesHeader) (declarator : Declarator) :
    Meets Progress.Quiet lapses site before (declareVariable header declarator)
      fun _ _ => True := by
  unfold declareVariable
  refine .bind (declareLocal_meets known _ _) fun entity _ _ _ held => ?_
  refine .result (.edit (?_ : Edit.Meets _ _ _ _ fun _ _ => True)) fun _ _ _ => trivial
  refine .bind (Edit.addModifiers_quiet held (nomatch ·)) fun _ _ quiet _ => ?_
  exact recordType_meets (held.extended quiet.toExtends) (by decide) _ _

theorem declareInStatement_meets (known : before.scopes.method? = none → lapses.missing) (span : Span)
    (name : String) (use : TypeUse) :
    Meets Progress.Quiet lapses site before (declareInStatement span name use)
      fun _ _ => True := by
  unfold declareInStatement
  refine .bind (declareLocal_meets known _ _) fun entity _ _ _ held => ?_
  refine .result (.edit (?_ : Edit.Meets _ _ _ _ fun _ _ => True)) fun _ _ _ => trivial
  refine .bind (Edit.typeOf_meets use) fun type _ quiet typed => ?_
  refine Edit.update_typed (held.extended quiet.toExtends) (by decide)
    (fun _ => ⟨rfl, rfl, rfl, fun place => place⟩) (fun _ => rfl) fun _ _ known => .inl ?_
  exact Option.some.inj known ▸ typed

end JavaFacts.Walk
