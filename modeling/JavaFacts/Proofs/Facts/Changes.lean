import JavaFacts.Extraction.Placeholders
import JavaFacts.Proofs.Facts.Names

/-!
The requests on a store by names: what each of them makes of the facts, or at which facts it is
refused. The numbers of a store have no influence on that.
-/

namespace JavaFacts

/-- What a declaration tells about the entity that it declares. -/
structure Detail where
  modifiers : Modifiers := ∅
  declaredType : Option String := none
  signatureType : Option String := none
  parameterTypes : Option (List String) := none
  position : Option Nat := none

/-- The entry with what a declaration tells. What it does not tell stays. -/
def Entry.detailed (entry : Entry) (detail : Detail) : Entry :=
  { entry with
    modifiers := entry.modifiers ∪ detail.modifiers
    declaredType := detail.declaredType <|> entry.declaredType
    signatureType := detail.signatureType <|> entry.signatureType
    parameterTypes := detail.parameterTypes.getD entry.parameterTypes
    position := detail.position <|> entry.position }

/-- No flags add nothing. -/
theorem Modifiers.union_empty (modifiers : Modifiers) : modifiers ∪ ∅ = modifiers := by
  have empty : modifiers.bits ||| 0 = modifiers.bits := BitVec.or_zero
  show Modifiers.mk (modifiers.bits ||| 0) = modifiers
  rw [empty]

/-- What a refused request leaves behind, and its error. -/
structure Refusal where
  facts : Facts
  error : FactError

namespace FactError

/-- An entity is declared at a place and at another one, too. -/
def redeclared (identity : Identity) (existing : Option Anchor) (anchor : Anchor) : FactError :=
  .duplicateDeclaration identity.1.name identity.2 ((existing.map (·.render)).getD "") anchor.render

/-- An entity would own itself. -/
def looped (identity : Identity) : FactError :=
  .invalidOperation ("entity " ++ identity.2 ++ " cannot own itself")

end FactError

namespace Facts

/-- The facts with a declaration of `child` inside of `owner`. It is refused if there is another one
at another place, and if the child would own itself. -/
def placed (facts : Facts) (child : Identity) (anchor : Anchor) (owner : Identity) :
    Except Refusal Facts :=
  let known := facts.interned child
  if (known.anchor? child).any (· != anchor) then
    .error ⟨known, .redeclared child (known.anchor? child) anchor⟩
  else
    let declared := known.update child fun entry => { entry with anchor := some anchor }
    if child = owner then .error ⟨declared, .looped child⟩ else .ok (declared.owned child owner)

/-- The facts with an entity that belongs to `owner`. -/
def adopted (facts : Facts) (child owner : Identity) : Facts :=
  (facts.interned child).owned child owner

def detailed (facts : Facts) (identity : Identity) (detail : Detail) : Facts :=
  facts.update identity (·.detailed detail)

/-- The facts with a type that source refers to. -/
def withType (facts : Facts) (name : String) : Facts :=
  let known := facts.interned (.type, name)
  if (known.owner? (.type, name)).isSome then known
  else
    let package := Naming.packageOf name
    let owned := known.interned (.package, package) |>.owned (.type, name) (.package, package)
    if package = Naming.primitivePackage then
      owned.detailed (.type, name) { modifiers := Modifiers.isSynthetic }
    else owned

def withMethod (facts : Facts) (type name : String) (parameterTypes : List String) : Facts :=
  let known := facts.interned (.method, name)
  if (known.owner? (.method, name)).isSome then known
  else
    (known.withType type |>.owned (.method, name) (.type, type)).detailed (.method, name)
      { parameterTypes }

def withField (facts : Facts) (type field : String) : Facts :=
  let name := Naming.fieldName type field
  let known := facts.interned (.field, name)
  if (known.owner? (.field, name)).isSome then known
  else known.withType type |>.owned (.field, name) (.type, type)

/-- The facts with the type that a method returns, unless it is known. -/
def withReturnType (facts : Facts) (method type : String) : Facts :=
  if ((facts.lookup (.method, method)).bind (·.declaredType)).isSome then facts
  else (facts.withType type).detailed (.method, method) { declaredType := type }

def isLinked (facts : Facts) (kind : AssociationKind) (source target : String) : Bool :=
  facts.links.any fun link => link.kind == kind && link.source == source && link.target == target

def linkedOnce (facts : Facts) (link : Link) : Facts :=
  if facts.isLinked link.kind link.source link.target then facts else facts.linked link

def hasConstructor (facts : Facts) (type : String) : Bool :=
  (facts.members (.type, type)).any fun member =>
    member.1 == .method && Text.startsWith member.2 (Naming.constructorStem type)

/-- The facts with a constructor of the type, which is made up if there is none. -/
def withConstructor (facts : Facts) (type : String) : Facts :=
  if facts.hasConstructor type then facts
  else
    let constructor := (.method, Naming.methodName type "" true [])
    (facts.adopted constructor (.type, type)).detailed constructor
      { modifiers := Modifiers.isSynthetic }

end Facts

/-- A request on the facts. -/
inductive Change where
  | place (child : Identity) (anchor : Anchor) (owner : Identity)
  | adopt (child owner : Identity)
  | describe (identity : Identity) (detail : Detail)
  | ensureType (name : String)
  | ensureMethod (type name : String) (parameterTypes : List String)
  | ensureField (type field : String)
  | ensureReturnType (method type : String)
  | ensureConstructor (type : String)
  | append (link : Link)
  | appendOnce (link : Link)

/-- The facts after a request. -/
def Change.apply (facts : Facts) : Change → Except Refusal Facts
  | place child anchor owner => facts.placed child anchor owner
  | adopt child owner => .ok (facts.adopted child owner)
  | describe identity detail => .ok (facts.detailed identity detail)
  | ensureType name => .ok (facts.withType name)
  | ensureMethod type name parameterTypes => .ok (facts.withMethod type name parameterTypes)
  | ensureField type field => .ok (facts.withField type field)
  | ensureReturnType method type => .ok (facts.withReturnType method type)
  | ensureConstructor type => .ok (facts.withConstructor type)
  | append link => .ok (facts.linked link)
  | appendOnce link => .ok (facts.linkedOnce link)

/-- The facts after several requests, which end with the first one that is refused. -/
def Change.applyAll (facts : Facts) : List Change → Except Refusal Facts
  | [] => .ok facts
  | change :: changes =>
      match change.apply facts with
      | .ok facts => applyAll facts changes
      | .error refusal => .error refusal

namespace Edit

/-- From a whole store the request leads to a whole one that extends it and has the facts expected.
It is refused if and only if that is expected, with the error expected, and only for a contradiction. -/
def Does (before : Store) (expected : Except Refusal Facts) (request : Edit α)
    (good : α → Store → Prop) : Prop :=
  before.Whole →
    let after := (request.perform before).2
    after.Whole ∧ before.Extends after ∧
      match (request.perform before).1, expected with
      | .ok result, .ok facts => after.facts = facts ∧ good result after
      | .error error, .error refusal =>
          after.facts = refusal.facts ∧ error = refusal.error ∧ error.breaksInvariant
      | _, _ => False

namespace Does

variable {before : Store} {expected : Except Refusal Facts} {facts : Facts}

theorem bind {request : Edit α} {next : α → Edit β} {onward : Facts → Except Refusal Facts}
    {between : α → Store → Prop} {good : β → Store → Prop}
    (first : Does before expected request between)
    (rest : ∀ result middle, before.Extends middle → expected = .ok middle.facts →
      between result middle → Does middle (onward middle.facts) (next result) good) :
    Does before (expected >>= onward) (request >>= next) good := by
  intro whole
  obtain ⟨middleWhole, grown, outcome⟩ := first whole
  rw [perform_bind]
  rcases performed : request.perform before with ⟨error | result, middle⟩ <;>
    rw [performed] at middleWhole grown outcome <;> rcases expected with refusal | facts
  · exact ⟨middleWhole, grown, outcome⟩
  · exact outcome.elim
  · exact outcome.elim
  · obtain ⟨rfl, reached⟩ := outcome
    obtain ⟨afterWhole, later, outcome⟩ := rest result middle grown rfl reached middleWhole
    exact ⟨afterWhole, trans_of Store.Extends grown later, outcome⟩

/-- A request that is not refused comes first. -/
theorem andThen {request : Edit α} {next : α → Edit β} {between : α → Store → Prop}
    {good : β → Store → Prop} (first : Does before (.ok facts) request between)
    (rest : ∀ result middle, before.Extends middle → middle.facts = facts →
      between result middle → Does middle expected (next result) good) :
    Does before expected (request >>= next) good := by
  have apart : Does before ((.ok facts : Except Refusal Facts) >>= fun _ => expected)
      (request >>= next) good :=
    first.bind fun result middle grown same reached =>
      rest result middle grown (Except.ok.inj same).symm reached
  exact apart

theorem pure {good : α → Store → Prop} {result : α} (reached : good result before) :
    Does before (.ok before.facts) (Pure.pure result) good :=
  fun whole => ⟨whole, refl_of Store.Extends before, rfl, reached⟩

theorem get : Does before (.ok before.facts) MonadState.get fun store after =>
    before = store ∧ before = after :=
  fun whole => ⟨whole, refl_of Store.Extends before, rfl, rfl, rfl⟩

theorem refused {good : α → Store → Prop} {error : FactError} (fatal : error.breaksInvariant) :
    Does before (.error ⟨before.facts, error⟩) (throw error) good :=
  fun whole => ⟨whole, refl_of Store.Extends before, rfl, rfl, fatal⟩

theorem of_whole {request : Edit α} {good : α → Store → Prop}
    (does : before.Whole → Does before expected request good) :
    Does before expected request good :=
  fun whole => does whole whole

theorem map {request : Edit α} {change : α → β} {between : α → Store → Prop}
    (does : Does before expected request between) :
    Does before expected (change <$> request) fun result after =>
      ∃ former, result = change former ∧ between former after := by
  rw [← bind_pure_comp]
  have same : (expected >>= .ok) = expected := by cases expected <;> rfl
  exact same ▸ does.bind fun former _ _ _ reached => .pure ⟨former, rfl, reached⟩

end Does

variable {before : Store} {kind : EntityKind} {id : EntityId} {identity : Identity}

theorem intern_does (kind : EntityKind) (name : String) :
    Does before (.ok (before.facts.interned (kind, name))) (intern kind name) fun id after =>
      after.identity? id = some (kind, name) := by
  intro whole
  rw [perform_intern]
  cases found : before.find? kind name with
  | some id =>
      have named : before.identity? id = some (kind, name) := whole.find.mp found
      obtain ⟨entity, stored, -⟩ := Store.exists_entity_of_identity named
      simp only [Store.intern, found]
      exact ⟨whole, refl_of Store.Extends before,
        (Facts.interned_of_known (whole.lookup_of_entity named stored)).symm, named⟩
  | none =>
      simp only [Store.intern, found]
      refine ⟨whole.added found, Store.quiet_added.toExtends, Store.facts_added whole found, ?_⟩
      exact (Store.identity?_added _).trans (if_pos rfl)

theorem entity_does (named : before.identity? id = some identity) :
    Does before (.ok before.facts) (entity id) fun entity after =>
      before = after ∧ before.entity? id = some entity ∧
        before.facts.lookup identity = some (before.entryOf entity) := by
  intro whole
  obtain ⟨entity, found, -⟩ := Store.exists_entity_of_identity named
  rw [perform_entity found]
  exact ⟨whole, refl_of Store.Extends before, rfl, rfl, found, whole.lookup_of_entity named found⟩

theorem update_does {revise : Entity → Entity} {change : Entry → Entry}
    (named : before.identity? id = some identity)
    (keeps : ∀ entity, before.entity? id = some entity → entity.Keeps (revise entity))
    (still : ∀ entity, before.entity? id = some entity → entity.Sound before →
      (revise entity).Sound before)
    (members : ∀ entity, before.entity? id = some entity → ∀ member ∈ (revise entity).members,
      member ∈ entity.members ∨ ∃ identity, before.identity? member = some identity)
    (agrees : ∀ entity, before.entity? id = some entity →
      before.entryOf (revise entity) = change (before.entryOf entity)) :
    Does before (.ok (before.facts.update identity change)) (update id revise) fun _ _ => True := by
  intro whole
  obtain ⟨entity, found, -⟩ := Store.exists_entity_of_identity named
  rw [perform_update found]
  exact ⟨whole.change keeps still members, Store.extends_change keeps,
    Store.facts_change whole.toSound named keeps agrees, trivial⟩

/-- An update of what a declaration tells. -/
theorem detail_does {revise : Entity → Entity} (detail : Detail)
    (named : before.identity? id = some identity)
    (keeps : ∀ entity : Entity, entity.Keeps (revise entity))
    (owner : ∀ entity, (revise entity).owner = entity.owner)
    (members : ∀ entity, (revise entity).members = entity.members)
    (typed : ∀ entity type, (revise entity).declaredType = some type →
      before.Holds .type type ∨ entity.declaredType = some type)
    (agrees : ∀ entity, before.entryOf (revise entity) = (before.entryOf entity).detailed detail) :
    Does before (.ok (before.facts.detailed identity detail)) (update id revise)
      fun _ _ => True := by
  refine update_does named (fun entity _ => keeps entity) (fun entity _ sound => ?_)
    (fun entity _ member listed => ?_) fun entity _ => agrees entity
  · refine ⟨fun owned => ?_, fun known => ?_⟩
    · rw [(keeps entity).kind]
      exact sound.owner ((owner entity).symm.trans owned)
    · exact (typed entity _ known).elim (fun held => held) sound.declaredType
  · exact .inl (members entity ▸ listed)

theorem addModifiers_does (named : before.identity? id = some identity) (modifiers : Modifiers) :
    Does before (.ok (before.facts.detailed identity { modifiers })) (addModifiers id modifiers)
      fun _ _ => True :=
  detail_does _ named (fun _ => ⟨rfl, rfl, rfl, fun place => place⟩) (fun _ => rfl) (fun _ => rfl)
    (fun _ _ known => .inr known) fun _ => rfl

section Owners

variable {child owner : EntityId} {childIdentity ownerIdentity : Identity}

theorem updateMembers_does (revise : Array EntityId → Array EntityId)
    (change : List Identity → List Identity) (named : before.identity? id = some identity)
    (listed : ∀ members, ∀ member ∈ revise members,
      member ∈ members ∨ ∃ identity, before.identity? member = some identity)
    (agrees : ∀ entity, before.entity? id = some entity →
      (revise entity.members).toList.filterMap before.identity? =
        change (entity.members.toList.filterMap before.identity?)) :
    Does before
      (.ok (before.facts.update identity fun entry => { entry with members := change entry.members }))
      (update id fun entity => { entity with members := revise entity.members })
      fun _ _ => True := by
  refine update_does named (fun _ _ => ⟨rfl, rfl, rfl, fun place => place⟩)
    (fun entity _ sound => ⟨sound.owner, sound.declaredType⟩)
    (fun entity _ => listed entity.members) fun entity found => ?_
  rw [Store.entryOf, agrees entity found]
  rfl

/-- The former owner gives up the child. -/
theorem release_does (whole : before.Whole) (named : before.identity? id = some identity)
    (childNamed : before.identity? child = some childIdentity) :
    Does before
      (.ok (before.facts.update identity fun entry =>
        { entry with members := entry.members.filter (· ≠ childIdentity) }))
      (update id fun entity => { entity with members := entity.members.filter (· != child) })
      fun _ _ => True := by
  refine updateMembers_does (·.filter (· != child)) (·.filter (· ≠ childIdentity))
    named (fun members member listed => .inl (Array.mem_filter.mp listed).1) fun entity found => ?_
  rw [Array.toList_filter, List.filterMap_filter, List.filter_filterMap]
  refine List.filterMap_congr fun member listed => ?_
  obtain ⟨other, memberNamed⟩ := whole.members found member (Array.mem_toList_iff.mp listed)
  by_cases same : member = child
  · subst same
    obtain rfl := Option.some.inj (memberNamed.symm.trans childNamed)
    simp [memberNamed, Option.filter]
  · have different : other ≠ childIdentity := by
      rintro rfl
      exact same (whole.toSound.unique memberNamed childNamed)
    simp [same, memberNamed, Option.filter, different]

/-- The new owner takes the child. -/
theorem take_does (named : before.identity? owner = some ownerIdentity)
    (childNamed : before.identity? child = some childIdentity) :
    Does before
      (.ok (before.facts.update ownerIdentity fun entry =>
        { entry with members := entry.members ++ [childIdentity] }))
      (update owner fun entity => { entity with members := entity.members.push child })
      fun _ _ => True := by
  refine updateMembers_does (·.push child) (· ++ [childIdentity]) named
    (fun members member listed => ?_) fun entity found => ?_
  · rcases Array.mem_push.mp listed with known | rfl
    · exact .inl known
    · exact .inr ⟨childIdentity, childNamed⟩
  · rw [Array.toList_push, List.filterMap_append]
    simp [childNamed]

theorem assign_does (childNamed : before.identity? child = some childIdentity)
    (ownerNamed : before.identity? owner = some ownerIdentity)
    (allowed : ownerIdentity.1 ∈ childIdentity.1.ownerKinds) :
    Does before
      (.ok (before.facts.update childIdentity fun entry => { entry with owner := some ownerIdentity }))
      (update child fun entity => { entity with owner := some owner }) fun _ _ => True := by
  refine update_does childNamed (fun _ _ => ⟨rfl, rfl, rfl, fun place => place⟩)
    (fun entity found sound => ⟨fun same => ?_, sound.declaredType⟩)
    (fun entity _ member listed => .inl listed) fun entity _ => ?_
  · obtain rfl := Option.some.inj same
    obtain rfl := Option.some.inj ((Store.identity?_of_entity found).symm.trans childNamed)
    exact ⟨ownerIdentity.1, allowed, ownerIdentity.2, ownerNamed⟩
  · simp only [Store.entryOf, Option.bind_some, ownerNamed]

theorem setOwner_does (childNamed : before.identity? child = some childIdentity)
    (ownerNamed : before.identity? owner = some ownerIdentity)
    (allowed : ownerIdentity.1 ∈ childIdentity.1.ownerKinds) (different : childIdentity ≠ ownerIdentity) :
    Does before (.ok (before.facts.owned childIdentity ownerIdentity)) (setOwner child owner)
      fun _ _ => True := by
  refine .of_whole fun whole => ?_
  -- what is left to do once the former owner, if there was one, gave up the child
  have moved (store : Store) (grown : before.Extends store) :
      Does store
        (.ok ((store.facts.update childIdentity fun entry =>
          { entry with owner := some ownerIdentity }).update ownerIdentity fun entry =>
            { entry with members := entry.members ++ [childIdentity] }))
        (do
          update child fun entity => { entity with owner := some owner }
          update owner fun entity => { entity with members := entity.members.push child })
        fun _ _ => True := by
    refine .andThen (assign_does (grown.identity childNamed) (grown.identity ownerNamed) allowed)
      fun _ middle later same _ => ?_
    rw [← same]
    exact take_does (later.identity (grown.identity ownerNamed))
      (later.identity (grown.identity childNamed))
  have unequal : child ≠ owner := by
    rintro rfl
    exact different (Option.some.inj (childNamed.symm.trans ownerNamed))
  unfold setOwner
  rw [if_neg (by simpa using unequal)]
  refine .andThen (entity_does ownerNamed) fun _ middle _ _ known => ?_
  obtain ⟨rfl, -⟩ := known
  refine .andThen (entity_does childNamed) fun entity middle _ _ known => ?_
  obtain ⟨rfl, found, entry⟩ := known
  have former : before.facts.owner? childIdentity = entity.owner.bind before.identity? := by
    rw [Facts.owner?, entry, Option.bind_some, Store.entryOf]
  dsimp only
  by_cases kept : entity.owner = some owner
  · rw [if_pos (by simpa using kept), Facts.owned, former, kept, Option.bind_some, ownerNamed,
      if_pos rfl]
    exact .pure trivial
  · rw [if_neg (by simpa using kept)]
    cases known : entity.owner with
    | none =>
        rw [Facts.owned, former, known]
        exact moved before (refl_of Store.Extends before)
    | some old =>
        obtain ⟨oldKind, -, oldName, oldNamed⟩ := (whole.entity found).owner known
        have other : (oldKind, oldName) ≠ ownerIdentity := by
          intro same
          rw [same] at oldNamed
          exact kept (known.trans (congrArg some (whole.toSound.unique oldNamed ownerNamed)))
        rw [Facts.owned, former, known, Option.bind_some, oldNamed, if_neg (by simpa using other)]
        refine .andThen (release_does whole oldNamed childNamed) fun _ middle grown same _ => ?_
        dsimp only
        rw [← same]
        exact moved middle grown

end Owners

theorem declare_does (named : before.identity? id = some identity) (anchor : Anchor) :
    Does before
      (if (before.facts.anchor? identity).any (· != anchor) then
          .error ⟨before.facts, .redeclared identity (before.facts.anchor? identity) anchor⟩
        else .ok (before.facts.update identity fun entry => { entry with anchor := some anchor }))
      (declare id anchor) fun _ _ => True := by
  unfold declare
  refine .andThen (entity_does named) fun entity middle _ _ known => ?_
  obtain ⟨rfl, found, entry⟩ := known
  have place : before.facts.anchor? identity = entity.anchor := by
    rw [Facts.anchor?, entry, Option.bind_some, Store.entryOf]
  rw [place]
  cases declared : entity.anchor with
  | some existing =>
      dsimp only
      by_cases same : existing = anchor
      · subst same
        have agrees : (some existing).any (· != existing) = false := by simp
        have kept : before.facts.update identity (fun entry =>
            { entry with anchor := some existing }) = before.facts := by
          refine Facts.update_of_unchanged fun known found => ?_
          obtain rfl := Option.some.inj (entry.symm.trans found)
          rw [Store.entryOf, declared]
        rw [agrees, if_neg Bool.false_ne_true, kept, if_pos BEq.rfl]
        exact .pure trivial
      · have conflict : (some existing).any (· != anchor) = true := by simpa using same
        have error : FactError.redeclared identity (some existing) anchor = .duplicateDeclaration
            entity.kind.name entity.name existing.render anchor.render := by
          rw [Option.some.inj (named.symm.trans (Store.identity?_of_entity found))]
          rfl
        rw [conflict, if_pos rfl, if_neg (by simpa using same), error]
        exact .refused rfl
  | none =>
      rw [if_neg (by simp)]
      refine update_does named (fun known stored => ?_)
        (fun _ _ sound => ⟨sound.owner, sound.declaredType⟩) (fun _ _ _ listed => .inl listed)
        fun _ _ => rfl
      obtain rfl := Option.some.inj (found.symm.trans stored)
      exact ⟨rfl, rfl, rfl, fun place =>
        absurd (declared.symm.trans place) (Option.some_ne_none _).symm⟩

theorem setOwner_refused {child owner : EntityId}
    (childNamed : before.identity? child = some identity)
    (ownerNamed : before.identity? owner = some identity) :
    Does before (.error ⟨before.facts, .looped identity⟩) (setOwner child owner) fun _ _ => True := by
  refine .of_whole fun whole => ?_
  obtain rfl := whole.toSound.unique childNamed ownerNamed
  unfold setOwner
  rw [if_pos BEq.rfl]
  refine .andThen .get fun store middle _ _ known => ?_
  obtain ⟨rfl, rfl⟩ := known
  rw [FactError.looped, ← Store.nameOf_eq childNamed]
  exact .refused rfl

/-- An entity is declared at a place and inside of another one before more is done. -/
theorem place_does {name : String} {anchor : Anchor} {owner : EntityId} {ownerIdentity : Identity}
    {next : EntityId → Edit α} {onward : Facts → Except Refusal Facts} {good : α → Store → Prop}
    (ownerNamed : before.identity? owner = some ownerIdentity)
    (allowed : ownerIdentity.1 ∈ kind.ownerKinds)
    (rest : ∀ id after, before.Extends after → after.identity? id = some (kind, name) →
      Does after (onward after.facts) (next id) good) :
    Does before (before.facts.placed (kind, name) anchor ownerIdentity >>= onward)
      (do
        let id ← declareNamed kind name anchor
        setOwner id owner
        next id) good := by
  rw [declareNamed_bind]
  refine .andThen (intern_does kind name) fun id known grown same named => ?_
  have ownerNamed := grown.identity ownerNamed
  have apart : before.facts.placed (kind, name) anchor ownerIdentity >>= onward =
      (if (known.facts.anchor? (kind, name)).any (· != anchor) then
          .error ⟨known.facts, .redeclared (kind, name) (known.facts.anchor? (kind, name)) anchor⟩
        else .ok (known.facts.update (kind, name) fun entry => { entry with anchor := some anchor })) >>=
        fun declared =>
          (if (kind, name) = ownerIdentity then .error ⟨declared, .looped (kind, name)⟩
            else .ok (declared.owned (kind, name) ownerIdentity)) >>= onward := by
    rw [Facts.placed, ← same]
    dsimp only
    split
    · rfl
    · split <;> rfl
  rw [apart]
  refine .bind (declare_does named anchor) fun _ declared later _ _ => ?_
  have named := later.identity named
  have ownerNamed := later.identity ownerNamed
  have given : Does declared
      (if (kind, name) = ownerIdentity then .error ⟨declared.facts, .looped (kind, name)⟩
        else .ok (declared.facts.owned (kind, name) ownerIdentity))
      (setOwner id owner) fun _ _ => True := ?_
  · exact .bind given fun _ owned grown' _ _ =>
      rest id owned (trans_of Store.Extends (trans_of Store.Extends grown later) grown')
        (grown'.identity named)
  by_cases self : (kind, name) = ownerIdentity
  · subst self
    rw [if_pos rfl]
    exact setOwner_refused named ownerNamed
  · rw [if_neg self]
    exact setOwner_does named ownerNamed allowed self

/-- An entity comes to belong to another one of a different kind before more is done. -/
theorem adopt_does {name : String} {owner : EntityId} {ownerIdentity : Identity}
    {next : EntityId → Edit α} {expected : Except Refusal Facts} {good : α → Store → Prop}
    (ownerNamed : before.identity? owner = some ownerIdentity)
    (allowed : ownerIdentity.1 ∈ kind.ownerKinds) (different : kind ≠ ownerIdentity.1)
    (rest : ∀ id after, before.Extends after → after.identity? id = some (kind, name) →
      after.facts = before.facts.adopted (kind, name) ownerIdentity →
      Does after expected (next id) good) :
    Does before expected
      (do
        let id ← intern kind name
        setOwner id owner
        next id) good := by
  refine .andThen (intern_does kind name) fun id known grown same named => ?_
  have apart : (kind, name) ≠ ownerIdentity := fun same => different (congrArg Prod.fst same)
  refine .andThen (setOwner_does named (grown.identity ownerNamed) allowed apart)
    fun _ owned later sameOwned _ => ?_
  refine rest id owned (trans_of Store.Extends grown later) (later.identity named) ?_
  rw [sameOwned, same, Facts.adopted]

theorem isSome_owner? (whole : before.Whole) {entity : Entity} (found : before.entity? id = some entity)
    (entry : before.facts.lookup identity = some (before.entryOf entity)) :
    (before.facts.owner? identity).isSome = entity.owner.isSome := by
  rw [Facts.owner?, entry, Option.bind_some, whole.isSome_owner found]

theorem ensureType_does (name : String) :
    Does before (.ok (before.facts.withType name)) (ensureType name) fun type after =>
      after.identity? type = some (.type, name) := by
  unfold ensureType
  refine .andThen (intern_does .type name) fun type known _ same named => ?_
  refine .of_whole fun whole => ?_
  refine .andThen (entity_does named) fun entity middle _ _ found => ?_
  obtain ⟨rfl, found, entry⟩ := found
  have settled := isSome_owner? whole found entry
  rw [same] at settled
  cases owner : entity.owner with
  | none =>
    simp only [Option.isNone_none, ↓reduceIte]
    rw [Facts.withType, settled, owner, Option.isSome_none, if_neg Bool.false_ne_true, ← same]
    dsimp only
    refine .andThen (intern_does .package _) fun package packaged grown samePackage packageNamed => ?_
    have named := grown.identity named
    refine .andThen (setOwner_does named packageNamed (by simp [EntityKind.ownerKinds]) (by simp))
      fun _ owned later sameOwned _ => ?_
    have named := later.identity named
    rw [← samePackage, ← sameOwned]
    by_cases primitive : Naming.packageOf name = Naming.primitivePackage
    · simp only [primitive, BEq.rfl, ↓reduceIte]
      refine .andThen (addModifiers_does named _) fun _ after grown same _ => ?_
      exact same ▸ .pure (grown.identity named)
    · simp only [primitive, beq_iff_eq, ↓reduceIte]
      exact .pure named
  | some _ =>
    simp only [Option.isNone_some, Bool.false_eq_true, ↓reduceIte]
    rw [Facts.withType, settled, owner, Option.isSome_some, if_pos rfl, ← same]
    exact .pure named

theorem typeOf_does (use : TypeUse) :
    Does before (.ok (before.facts.withType (Naming.typeName use.binding use.written))) (typeOf use)
      fun type after =>
        after.identity? type = some (.type, Naming.typeName use.binding use.written) :=
  ensureType_does _

theorem ensureMethod_does (typeName name : String) (parameterTypes : List String) :
    Does before (.ok (before.facts.withMethod typeName name parameterTypes))
      (ensureMethod typeName name parameterTypes) fun method after =>
        after.identity? method = some (.method, name) := by
  unfold ensureMethod
  refine .andThen (intern_does .method name) fun method known _ same named => ?_
  refine .of_whole fun whole => ?_
  refine .andThen (entity_does named) fun entity middle _ _ found => ?_
  obtain ⟨rfl, found, entry⟩ := found
  have settled := isSome_owner? whole found entry
  rw [same] at settled
  cases owner : entity.owner with
  | none =>
    simp only [Option.isNone_none, ↓reduceIte]
    rw [Facts.withMethod, settled, owner, Option.isSome_none, if_neg Bool.false_ne_true, ← same]
    refine .andThen (ensureType_does typeName) fun type typed grown sameTyped typeNamed => ?_
    have named := grown.identity named
    refine .andThen (setOwner_does named typeNamed (by simp [EntityKind.ownerKinds]) (by simp))
      fun _ owned later sameOwned _ => ?_
    have named := later.identity named
    rw [← sameTyped, ← sameOwned]
    refine .andThen (detail_does { parameterTypes } named
      (fun _ => ⟨rfl, rfl, rfl, fun place => place⟩) (fun _ => rfl) (fun _ => rfl)
      (fun _ _ known => .inr known) fun entity => ?_) fun _ after grown same _ => ?_
    · have bare : entity.modifiers ∪ ∅ = entity.modifiers := Modifiers.union_empty _
      simp [Store.entryOf, Entry.detailed, bare]
    · exact same ▸ .pure (grown.identity named)
  | some _ =>
    simp only [Option.isNone_some, Bool.false_eq_true, ↓reduceIte]
    rw [Facts.withMethod, settled, owner, Option.isSome_some, if_pos rfl, ← same]
    exact .pure named

theorem ensureField_does (typeName name : String) :
    Does before (.ok (before.facts.withField typeName name)) (ensureField typeName name)
      fun field after => after.identity? field = some (.field, Naming.fieldName typeName name) := by
  unfold ensureField
  refine .andThen (intern_does .field _) fun field known _ same named => ?_
  refine .of_whole fun whole => ?_
  refine .andThen (entity_does named) fun entity middle _ _ found => ?_
  obtain ⟨rfl, found, entry⟩ := found
  have settled := isSome_owner? whole found entry
  rw [same] at settled
  cases owner : entity.owner with
  | none =>
    simp only [Option.isNone_none, ↓reduceIte]
    rw [Facts.withField, settled, owner, Option.isSome_none, if_neg Bool.false_ne_true, ← same]
    refine .andThen (ensureType_does typeName) fun type typed grown sameTyped typeNamed => ?_
    have named := grown.identity named
    refine .andThen (setOwner_does named typeNamed (by simp [EntityKind.ownerKinds]) (by simp))
      fun _ owned later sameOwned _ => ?_
    rw [← sameTyped, ← sameOwned]
    exact .pure (later.identity named)
  | some _ =>
    simp only [Option.isNone_some, Bool.false_eq_true, ↓reduceIte]
    rw [Facts.withField, settled, owner, Option.isSome_some, if_pos rfl, ← same]
    exact .pure named

theorem addAssociation_does {kind : AssociationKind} {source target : EntityId}
    {anchor : Option Anchor} {statement sourceName targetName : String}
    (left : before.identity? source = some (kind.sourceKind, sourceName))
    (right : before.identity? target = some (kind.targetKind, targetName)) :
    Does before (.ok (before.facts.linked ⟨kind, sourceName, targetName, anchor, statement⟩))
      (addAssociation kind source target anchor statement) fun _ _ => True := by
  unfold addAssociation
  refine .andThen (entity_does left) fun _ middle _ _ known => ?_
  obtain ⟨rfl, -⟩ := known
  refine .andThen (entity_does right) fun _ middle _ _ known => ?_
  obtain ⟨rfl, -⟩ := known
  exact fun whole => ⟨whole.appended ⟨_, left⟩ ⟨_, right⟩, Store.extends_appended,
    Store.facts_appended left right, trivial⟩

end Edit

end JavaFacts
