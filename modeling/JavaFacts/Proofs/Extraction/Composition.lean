import JavaFacts.Proofs.Extraction.Perform
import JavaFacts.Proofs.Facts.Requests

/-!
What all visits have in common. A property of actions that lasts when actions are put together holds of
the visit of every node, once it holds of the few actions that a walk is made of. It may rest on the
entities that earlier actions gave, such as the method that is entered.
-/

namespace JavaFacts

namespace Store

/-- Whether the number stands for an entity. -/
def Knows (store : Store) (id : EntityId) : Prop :=
  ∃ entity, store.entity? id = some entity

/-- No association was added or changed, every entity is still one, and numbers are in order if they
were. -/
structure Retains (before after : Store) : Prop where
  associations : after.associations = before.associations
  known : ∀ id, before.Knows id → after.Knows id
  identified : before.Identified → after.Identified

instance : IsPreorder Store Retains where
  refl _ := ⟨rfl, fun _ known => known, id⟩
  trans _ _ _ first second :=
    ⟨second.associations.trans first.associations,
      fun id known => second.known id (first.known id known), second.identified ∘ first.identified⟩

theorem Identified.knows_intern {store : Store} (identified : store.Identified) (kind : EntityKind)
    (name : String) : (store.intern kind name).2.Knows (store.intern kind name).1 := by
  unfold intern
  cases found : store.find? kind name with
  | some id =>
      obtain ⟨entity, stored, -⟩ := Option.map_eq_some_iff.mp (identified.find.mp found)
      exact ⟨entity, stored⟩
  | none => exact ⟨_, Array.getElem?_push_size⟩

end Store

namespace Edit

/-- Whatever its outcome, the request neither touches an association nor the meaning of a number. -/
def Retaining (request : Edit α) : Prop :=
  ∀ before : Store, before.Retains (request.perform before).2

namespace Retaining

theorem bind {request : Edit α} {next : α → Edit β} (first : Retaining request)
    (rest : ∀ result, Retaining (next result)) : Retaining (request >>= next) := by
  intro before
  have kept := first before
  rw [perform_bind]
  rcases performed : request.perform before with ⟨error | result, middle⟩
  · rw [performed] at kept
    exact kept
  · rw [performed] at kept
    exact trans_of Store.Retains kept (rest result middle)

theorem pure (result : α) : Retaining (Pure.pure result : Edit α) :=
  refl_of Store.Retains

theorem map {request : Edit α} {change : α → β} (kept : Retaining request) :
    Retaining (change <$> request) := by
  rw [← bind_pure_comp]
  exact kept.bind fun _ => .pure _

theorem get : Retaining (MonadState.get : Edit Store) :=
  refl_of Store.Retains

theorem refused (error : FactError) : Retaining (throw error : Edit α) :=
  refl_of Store.Retains

theorem intern (kind : EntityKind) (name : String) : Retaining (Edit.intern kind name) := by
  intro before
  rw [perform_intern, Store.intern]
  cases missing : before.find? kind name with
  | some id => exact refl_of Store.Retains before
  | none =>
      refine ⟨rfl, fun id known => ?_, fun identified => identified.added missing⟩
      obtain ⟨entity, stored⟩ := known
      have new : (before.added kind name).entity? id = _ := before.entity?_added id
      split at new
      · exact ⟨_, new⟩
      · exact ⟨entity, new.trans stored⟩

theorem entity (id : EntityId) : Retaining (Edit.entity id) := by
  refine .bind .get fun store => ?_
  cases store.entity? id with
  | some entity => exact .pure entity
  | none => exact .refused _

theorem update (id : EntityId) {change : Entity → Entity}
    (same : ∀ entity : Entity, entity.SameIdentity (change entity)) :
    Retaining (Edit.update id change) := by
  refine .bind (.entity id) fun _ before => ?_
  refine ⟨rfl, fun other known => ?_, fun identified => identified.change fun entity _ => same entity⟩
  obtain ⟨entity, stored⟩ := known
  have changed : (before.change id change).entity? other = _ := before.entity?_change other
  rw [stored] at changed
  split at changed
  · exact ⟨_, changed⟩
  · exact ⟨entity, changed⟩

theorem addModifiers (id : EntityId) (modifiers : Modifiers) :
    Retaining (Edit.addModifiers id modifiers) :=
  .update id fun _ => ⟨rfl, rfl, rfl⟩

theorem setOwner (child owner : EntityId) : Retaining (Edit.setOwner child owner) := by
  unfold Edit.setOwner
  split
  · exact .bind .get fun _ => .refused _
  · refine .bind (.entity owner) fun _ => .bind (.entity child) fun known => ?_
    dsimp only
    split
    · exact .pure ()
    · have adopted : Retaining (do
          Edit.update child fun entity => { entity with owner := some owner }
          Edit.update owner fun entity => { entity with members := entity.members.push child }) :=
        .bind (.update _ fun _ => ⟨rfl, rfl, rfl⟩) fun _ => .update _ fun _ => ⟨rfl, rfl, rfl⟩
      cases known.owner with
      | some former => exact .bind (.update former fun _ => ⟨rfl, rfl, rfl⟩) fun _ => adopted
      | none => exact adopted

theorem declare (id : EntityId) (anchor : Anchor) : Retaining (Edit.declare id anchor) := by
  refine .bind (.entity id) fun entity => ?_
  cases entity.anchor with
  | none => exact .update id fun _ => ⟨rfl, rfl, rfl⟩
  | some place =>
      dsimp only
      split
      · exact .pure ()
      · exact .refused _

theorem declareNamed (kind : EntityKind) (name : String) (anchor : Anchor) :
    Retaining (Edit.declareNamed kind name anchor) :=
  .bind (.intern kind name) fun id => .bind (.declare id anchor) fun _ => .pure id

theorem ensureType (name : String) : Retaining (Edit.ensureType name) := by
  refine .bind (.intern _ _) fun type => .bind (.entity type) fun known => ?_
  dsimp only
  split
  · refine .bind (.intern _ _) fun package => .bind (.setOwner type package) fun _ => ?_
    split
    · exact .bind (.addModifiers type _) fun _ => .pure type
    · exact .pure type
  · exact .pure type

theorem typeOf (use : TypeUse) : Retaining (Edit.typeOf use) :=
  .ensureType _

theorem ensureMethod (typeName name : String) (parameterTypes : List String) :
    Retaining (Edit.ensureMethod typeName name parameterTypes) := by
  refine .bind (.intern _ _) fun method => .bind (.entity method) fun known => ?_
  dsimp only
  split
  · exact .bind (.ensureType typeName) fun owner => .bind (.setOwner method owner) fun _ =>
      .bind (.update method fun _ => ⟨rfl, rfl, rfl⟩) fun _ => .pure method
  · exact .pure method

theorem ensureField (typeName name : String) : Retaining (Edit.ensureField typeName name) := by
  refine .bind (.intern _ _) fun field => .bind (.entity field) fun known => ?_
  dsimp only
  split
  · exact .bind (.ensureType typeName) fun owner => .bind (.setOwner field owner) fun _ => .pure field
  · exact .pure field

theorem recordType (entity : EntityId) (use : TypeUse) (declarator : Declarator) :
    Retaining (Walk.recordType entity use declarator) :=
  .bind (.ensureType _) fun _ => .update entity fun _ => ⟨rfl, rfl, rfl⟩

theorem recordReturnType (method : EntityId) (returned : Option TypeBinding) :
    Retaining (Walk.recordReturnType method returned) := by
  cases returned with
  | none => exact .pure ()
  | some type =>
      refine .bind (.entity method) fun known => ?_
      split
      · exact .bind (.ensureType _) fun _ => .update method fun _ => ⟨rfl, rfl, rfl⟩
      · exact .pure ()

end Retaining

/-- Given entities that are known, the number that the request gives stands for an entity. -/
def Gives (known : List EntityId) (request : Edit EntityId) : Prop :=
  ∀ before : Store, before.Identified → (∀ id ∈ known, before.Knows id) → ∀ result after,
    request.perform before = (.ok result, after) → after.Knows result

namespace Gives

variable {known : List EntityId}

theorem intern {next : EntityId → Edit EntityId} {kind : EntityKind} {name : String}
    (rest : ∀ id, Gives (id :: known) (next id)) : Gives known (Edit.intern kind name >>= next) := by
  intro before identified knows result after performed
  rw [perform_bind, perform_intern] at performed
  have retains := Retaining.intern kind name before
  rw [perform_intern] at retains
  refine rest _ _ (retains.identified identified) ?_ result after performed
  exact List.forall_mem_cons.mpr
    ⟨identified.knows_intern kind name, fun id member => retains.known id (knows id member)⟩

theorem bind {request : Edit α} {next : α → Edit EntityId} (first : Retaining request)
    (rest : ∀ result, Gives known (next result)) : Gives known (request >>= next) := by
  intro before identified knows result after performed
  have retains := first before
  rw [perform_bind] at performed
  rcases ran : request.perform before with ⟨error | given, middle⟩ <;> rw [ran] at performed retains
  · cases performed
  · exact rest given middle (retains.identified identified)
      (fun id member => retains.known id (knows id member)) result after performed

theorem pure {id : EntityId} (member : id ∈ known) : Gives known (Pure.pure id) := by
  intro before _ knows result after performed
  cases performed
  exact knows id member

end Gives

end Edit

/-- A call of the method that is kept with its place and its text, as long as nobody searched for its
target. -/
structure Call.Waits (call : Call) (caller : EntityId) (anchor : Anchor) (statement : String) :
    Prop where
  state : call.state = .captured
  caller : call.caller = caller
  anchor : call.anchor = anchor
  statement : call.statement = statement

/-- Nothing but counters and tables differs, so that both are the same place to stand in. -/
def Scopes.CountsFrom (before after : Scopes) : Prop :=
  ∃ anonymousCounts localBlocks localCounts,
    after = { before with anonymousCounts, localBlocks, localCounts }

namespace Walk

/-- A property of actions that holds of those that a walk is made of and lasts when they are put
together. It may rest on entities that are known. -/
structure Compositional (holds : List EntityId → ∀ {α : Type}, Walk α → Prop) : Prop where
  bind {known : List EntityId} {α β : Type} {action : Walk α} {next : α → Walk β} :
    holds known action → (∀ result, holds known (next result)) → holds known (action >>= next)
  pure {known : List EntityId} {α : Type} (result : α) : holds known (Pure.pure result)
  get {known : List EntityId} : holds known MonadState.get
  read {known : List EntityId} : holds known MonadReader.read
  fault {known : List EntityId} {α : Type} (reason : String) : holds known (Walk.fault reason : Walk α)
  edit {known : List EntityId} {α : Type} {request : Edit α} :
    request.Retaining → holds known (Walk.edit request)
  /-- What a request gives is known from then on. -/
  given {known : List EntityId} {β : Type} {request : Edit EntityId} {next : EntityId → Walk β} :
    request.Retaining → request.Gives [] → (∀ id, holds (id :: known) (next id)) →
      holds known (Walk.edit request >>= next)
  /-- So is the method around. -/
  hosted {known : List EntityId} {β : Type} {next : MethodFrame → Walk β} :
    (∀ host, holds (host.entity :: known) (next host)) → holds known (Walk.currentMethod >>= next)
  link {known : List EntityId} (kind : AssociationKind) (source target : EntityId) (span : Span) :
    holds known (Walk.link kind source target span)
  keep {known : List EntityId} (span : Span) {caller : EntityId} {call : Anchor → String → Call} :
    caller ∈ known → (∀ anchor statement, (call anchor statement).Waits caller anchor statement) →
    holds known (do
      let anchor ← Walk.anchor span
      let statement ← Walk.statement span
      modify fun progress => { progress with calls := progress.calls.push (call anchor statement) })
  addType {known : List EntityId} (type : EntityId) : holds known (Walk.addType type)
  addMethod {known : List EntityId} (method : EntityId) : holds known (Walk.addMethod method)
  modifiedScopes {known : List EntityId} {change : Scopes → Scopes} :
    (∀ before : Scopes, before.CountsFrom (change before)) → holds known (modifyScopes change)
  changedScopes {known : List EntityId} {α : Type} {change : Scopes → α × Scopes} :
    (∀ before : Scopes, before.CountsFrom (change before).2) → holds known (modifyGetScopes change)
  insideType {known : List EntityId} (entity : EntityId) (name : String) {action : Walk Unit} :
    holds known action → holds known (Walk.insideType entity name action)
  insideMethod {known : List EntityId} {entity : EntityId} (name : String) (declaringType : EntityId)
    {action : Walk Unit} : entity ∈ known → holds known action →
      holds known (Walk.insideMethod entity name declaringType action)
  insideBlock {known : List EntityId} (span : Span) {action : Walk Unit} :
    holds known action → holds known (Walk.insideBlock span action)
  visiting {known : List EntityId} {node : Node} {handle : Walk Unit} :
    holds known handle → holds known (Walk.visiting node handle)

namespace Compositional

variable {holds : List EntityId → ∀ {α : Type}, Walk α → Prop} (lasts : Compositional holds)
  {known : List EntityId}

include lasts

theorem map {action : Walk α} {change : α → β} (changed : holds known action) : holds known (change <$> action) := by
  rw [← bind_pure_comp]
  exact lasts.bind changed fun _ => lasts.pure _

theorem currentType : holds known Walk.currentType := by
  refine lasts.bind lasts.get fun progress => ?_
  cases progress.scopes.type? with
  | some frame => exact lasts.pure frame
  | none => exact lasts.fault _

theorem currentMethod : holds known Walk.currentMethod := by
  refine lasts.bind lasts.get fun progress => ?_
  cases progress.scopes.method? with
  | some frame => exact lasts.pure frame
  | none => exact lasts.fault _

theorem anchor (span : Span) : holds known (Walk.anchor span) :=
  lasts.bind lasts.read fun _ => lasts.pure _

theorem statement (span : Span) : holds known (Walk.statement span) :=
  lasts.bind lasts.read fun _ => lasts.pure _

theorem forM {items : List ι} {action : ι → Walk Unit} (each : ∀ item, holds known (action item)) :
    holds known (items.forM action) := by
  induction items with
  | nil => exact lasts.pure ()
  | cons item items ih => exact lasts.bind (each item) fun _ => ih

theorem mapM {ι α : Type} {items : List ι} {action : ι → Walk α} (each : ∀ item, holds known (action item)) :
    holds known (items.mapM action) := by
  induction items with
  | nil => exact lasts.pure []
  | cons item items ih =>
      rw [List.mapM_cons]
      exact lasts.bind (each item) fun _ => lasts.bind ih fun _ => lasts.pure _

theorem givenInitializer (type : EntityId) (typeName marker : String) {β : Type}
    {next : EntityId → Walk β} (rest : ∀ host, holds (host :: known) (next host)) :
    holds known (Walk.ensureInitializer type typeName marker >>= next) := by
  unfold Walk.ensureInitializer
  simp only [bind_assoc]
  refine lasts.bind lasts.get fun progress => lasts.given ?_ ?_ fun method => ?_
  · exact .bind (.intern _ _) fun _ => .bind (.setOwner _ _) fun _ => .bind (.addModifiers _ _)
      fun _ => .pure _
  · exact .intern fun _ => .bind (.setOwner _ _) fun _ => .bind (.addModifiers _ _)
      fun _ => .pure List.mem_cons_self
  · split
    · simp only [bind_assoc, pure_bind]
      exact lasts.bind (lasts.addMethod method) fun _ => rest method
    · rw [pure_bind]
      exact rest method

theorem ensureInitializer (type : EntityId) (typeName marker : String) :
    holds known (Walk.ensureInitializer type typeName marker) := by
  rw [← bind_pure (Walk.ensureInitializer type typeName marker)]
  exact lasts.givenInitializer type typeName marker fun host => lasts.pure host

theorem addDefaultConstructor (type : EntityId) (typeName : String) :
    holds known (Walk.addDefaultConstructor type typeName) := by
  refine lasts.bind lasts.get fun progress => ?_
  dsimp only
  split
  · exact lasts.pure ()
  · refine lasts.bind (lasts.edit ?_) fun constructor => lasts.addMethod constructor
    exact .bind (.intern _ _) fun _ => .bind (.setOwner _ _) fun _ => .bind (.addModifiers _ _)
      fun _ => .pure _

theorem linkSupertype (type : EntityId) (kind : AssociationKind) (supertype : TypeUse) :
    holds known (Walk.linkSupertype type kind supertype) := by
  refine lasts.bind (lasts.edit (.typeOf supertype)) fun target => lasts.bind lasts.get fun progress => ?_
  split
  · exact lasts.pure ()
  · exact lasts.link kind type target supertype.span

theorem typeBody (type : EntityId) (name : String) (isInterface : Bool) {members : Walk Unit}
    (visited : holds known members) : holds known (Walk.typeBody type name isInterface members) := by
  refine lasts.bind (lasts.modifiedScopes fun _ => ⟨_, _, _, rfl⟩) fun _ =>
    lasts.insideType type name ?_
  cases isInterface with
  | true => exact lasts.bind visited fun _ => lasts.pure _
  | false =>
      exact lasts.bind (lasts.ensureInitializer type name _) fun _ => lasts.bind visited fun _ =>
        lasts.addDefaultConstructor type name

theorem declareType (span : Span) (header : TypeHeader) {members : Walk Unit}
    (visited : holds known members) : holds known (Walk.declareType span header members) := by
  refine lasts.bind lasts.read fun site => lasts.bind lasts.get fun progress =>
    lasts.bind (lasts.anchor span) fun anchor => lasts.bind (lasts.edit ?_) fun type =>
      lasts.bind (lasts.addType type) fun _ => ?_
  · exact .bind (.declareNamed _ _ _) fun _ => .bind (.setOwner _ _) fun _ =>
      .bind (.addModifiers _ _) fun _ => .pure _
  · have interfaces : holds known (header.interfaces.forM (Walk.linkSupertype type .subtyping)) :=
      lasts.forM (lasts.linkSupertype type .subtyping)
    dsimp only
    split
    · exact lasts.bind (lasts.linkSupertype type _ _) fun _ => lasts.bind interfaces fun _ =>
        lasts.typeBody type _ _ visited
    · exact lasts.bind interfaces fun _ => lasts.typeBody type _ _ visited

theorem declareAnonymous (span : Span) (name : String) (supertype : TypeUse) :
    holds known (Walk.declareAnonymous span name supertype) := by
  refine lasts.bind lasts.get fun progress => ?_
  dsimp only
  split
  all_goals
    refine lasts.bind ?_ fun owner => lasts.bind (lasts.anchor span) fun anchor =>
      lasts.bind (lasts.edit (.bind (.declareNamed _ _ _) fun _ =>
        .bind (.setOwner _ _) fun _ => .bind (.addModifiers _ _) fun _ => .pure _)) fun type =>
          lasts.bind (lasts.addType type) fun _ =>
            lasts.bind (lasts.linkSupertype type _ supertype) fun _ => lasts.pure type
  · exact lasts.pure _
  · exact lasts.map lasts.currentType

theorem declareParameter (method : EntityId) (methodName : String) (position : Nat)
    (parameter : FormalParameter) (signature : String) :
    holds known (Walk.declareParameter method methodName position parameter signature) :=
  lasts.bind (lasts.anchor parameter.span) fun _ => lasts.edit <|
    .bind (.declareNamed _ _ _) fun _ => .bind (.setOwner _ _) fun _ =>
      .bind (.typeOf parameter.type) fun _ => .update _ fun _ => ⟨rfl, rfl, rfl⟩

theorem declareParameters (method : EntityId) (methodName : String) (position : Nat)
    (parameters : List (FormalParameter × String)) :
    holds known (Walk.declareParameters method methodName position parameters) := by
  induction parameters generalizing position with
  | nil => exact lasts.pure ()
  | cons parameter parameters ih =>
      exact lasts.bind (lasts.declareParameter method methodName position _ _) fun _ => ih (position + 1)

theorem declareMethod (span : Span) (header : MethodHeader) {body : Walk Unit}
    (visited : ∀ method, holds (method :: known) body) :
    holds known (Walk.declareMethod span header body) := by
  refine lasts.bind lasts.currentType fun type => lasts.bind (lasts.anchor span) fun _ =>
    lasts.given ?_ ?_ fun method => lasts.bind (lasts.addMethod method) fun _ =>
      lasts.insideMethod _ type.entity List.mem_cons_self <|
        lasts.bind (lasts.declareParameters method _ 0 _) fun _ => visited method
  · refine .bind (.declareNamed _ _ _) fun method => .bind (.setOwner _ _) fun _ => ?_
    dsimp only
    split
    · exact .bind (.map (.typeOf _)) fun _ =>
        .bind (.update method fun _ => ⟨rfl, rfl, rfl⟩) fun _ => .pure method
    · exact .bind (.pure none) fun _ =>
        .bind (.update method fun _ => ⟨rfl, rfl, rfl⟩) fun _ => .pure method
  · rw [Edit.declareNamed_bind]
    refine .intern fun method => .bind (.declare _ _) fun _ => .bind (.setOwner _ _) fun _ => ?_
    dsimp only
    split
    · exact .bind (.map (.typeOf _)) fun _ =>
        .bind (.update method fun _ => ⟨rfl, rfl, rfl⟩) fun _ => .pure List.mem_cons_self
    · exact .bind (.pure none) fun _ =>
        .bind (.update method fun _ => ⟨rfl, rfl, rfl⟩) fun _ => .pure List.mem_cons_self

theorem declareField (type : TypeFrame) (header : VariablesHeader) (declarator : Declarator) :
    holds known (Walk.declareField type header declarator) :=
  lasts.bind (lasts.anchor declarator.span) fun _ => lasts.edit <|
    .bind (.declareNamed _ _ _) fun _ => .bind (.setOwner _ _) fun _ =>
      .bind (.addModifiers _ _) fun _ => .recordType _ _ _

theorem areStatic (type : TypeFrame) (modifiers : Modifiers) : holds known (Walk.areStatic type modifiers) :=
  lasts.bind (lasts.edit (.entity type.entity)) fun _ => lasts.pure _

theorem insideInitializer (type : TypeFrame) (isStatic : Bool) {action : Walk Unit}
    (visited : ∀ host, holds (host :: known) action) :
    holds known (Walk.insideInitializer type isStatic action) :=
  lasts.givenInitializer type.entity type.name _ fun host =>
    lasts.insideMethod _ type.entity List.mem_cons_self (visited host)

theorem declareLocal (name : String) (span : Span) : holds known (Walk.declareLocal name span) := by
  refine lasts.bind lasts.get fun progress => ?_
  cases progress.scopes.method? with
  | none => exact lasts.fault _
  | some method =>
      refine lasts.bind (lasts.changedScopes fun _ => ⟨_, _, _, rfl⟩) fun unique =>
        lasts.bind (lasts.anchor span) fun anchor => lasts.bind (lasts.edit ?_) fun entity =>
          lasts.bind lasts.get fun progress => ?_
      · exact .bind (.declareNamed _ _ _) fun _ => .bind (.setOwner _ _)
          fun _ => .pure _
      · cases progress.scopes.block with
        | some block =>
            exact lasts.bind (lasts.modifiedScopes fun _ => ⟨_, _, _, rfl⟩) fun _ => lasts.pure entity
        | none => exact lasts.pure entity

theorem declareVariable (header : VariablesHeader) (declarator : Declarator) :
    holds known (Walk.declareVariable header declarator) :=
  lasts.bind (lasts.declareLocal _ _) fun _ => lasts.edit <|
    .bind (.addModifiers _ _) fun _ => .recordType _ _ _

theorem declareInStatement (span : Span) (name : String) (use : TypeUse) :
    holds known (Walk.declareInStatement span name use) :=
  lasts.bind (lasts.declareLocal name span) fun _ => lasts.edit <|
    .bind (.typeOf use) fun _ => .update _ fun _ => ⟨rfl, rfl, rfl⟩

theorem recordAccess (span : Span) (typeName field : String) :
    holds known (Walk.recordAccess span typeName field) :=
  lasts.bind lasts.currentMethod fun method => lasts.bind (lasts.edit (.ensureField _ _)) fun entity =>
    lasts.link .access method.entity entity span

theorem accessIn (span : Span) (field : String) (typeName : Option String) :
    holds known (Walk.accessIn span field typeName) := by
  cases typeName with
  | none => exact lasts.pure ()
  | some typeName => exact lasts.recordAccess span typeName field

theorem accessField (span : Span) (name : String) (binding : Option VariableBinding) (receiver : Node) :
    holds known (Walk.accessField span name binding receiver) := by
  unfold Walk.accessField
  split
  · exact lasts.accessIn span name _
  · exact lasts.bind lasts.currentType fun type => lasts.accessIn span name _
  · exact lasts.pure ()

theorem accessSuperField (span : Span) (name : String) (binding : Option VariableBinding) :
    holds known (Walk.accessSuperField span name binding) := by
  cases binding with
  | some binding => exact lasts.accessIn span name _
  | none =>
      exact lasts.bind lasts.currentType fun type => lasts.bind lasts.get fun progress =>
        lasts.accessIn span name _

theorem recordCheck (kind : AssociationKind) (span : Span) (use : TypeUse) :
    holds known (Walk.recordCheck kind span use) :=
  lasts.bind lasts.currentMethod fun method => lasts.bind (lasts.edit (.typeOf use)) fun type =>
    lasts.link kind method.entity type span

theorem summarize (node : Node) : holds known (Walk.summarize node) :=
  lasts.bind (lasts.statement node.span) fun _ => lasts.pure _

theorem linkBound (span : Span) (binding : Option MethodBinding) (arguments : List Node) :
    holds known (Walk.linkBound span binding arguments) := by
  cases binding with
  | none => exact lasts.pure false
  | some binding =>
      unfold Walk.linkBound
      dsimp only
      split
      · exact lasts.pure false
      · split
        · exact lasts.pure false
        · exact lasts.bind lasts.currentMethod fun caller =>
            lasts.bind (lasts.edit (.bind (.ensureMethod _ _ _) fun _ =>
              .bind (.recordReturnType _ _) fun _ => .pure _)) fun target =>
                lasts.bind (lasts.link .invocation caller.entity target span) fun _ => lasts.pure true

theorem defer (span : Span) (kind : CallKind) (name : String) (receiver : Receiver)
    (arguments : List Node) : holds known (Walk.defer span kind name receiver arguments) :=
  lasts.hosted fun _ => lasts.bind lasts.get fun _ => lasts.bind (lasts.mapM lasts.summarize) fun _ =>
    lasts.keep span List.mem_cons_self fun _ _ => ⟨rfl, rfl, rfl, rfl⟩

theorem receiverOf (receiver : Option Node) : holds known (Walk.receiverOf receiver) := by
  unfold Walk.receiverOf
  split
  · exact lasts.pure _
  · exact lasts.pure _
  · exact lasts.map (lasts.summarize _)

theorem refer (span : Span) (kind : CallKind) (name : String) (binding : Option MethodBinding)
    (arguments : List Node) {receiver : Walk Receiver} (told : holds known receiver) :
    holds known (Walk.refer span kind name binding arguments receiver) := by
  refine lasts.bind (lasts.linkBound span binding arguments) fun linked => ?_
  split
  · exact lasts.bind told fun receiver => lasts.defer span kind name receiver arguments
  · exact lasts.pure ()

theorem argumentType (argument : Node) : holds known (Walk.argumentType argument) :=
  lasts.bind (lasts.summarize argument) fun _ => lasts.pure _

theorem createAnonymous (span : Span) (created : TypeUse) (arguments : List Node) (bodySpan : Span)
    (binding : Option TypeBinding) :
    holds known (Walk.createAnonymous span created arguments bodySpan binding) :=
  lasts.bind lasts.currentType fun _ =>
    lasts.bind (lasts.changedScopes fun _ => ⟨_, _, _, rfl⟩) fun _ =>
      lasts.bind (lasts.declareAnonymous bodySpan _ created) fun _ =>
        lasts.bind lasts.currentMethod fun caller =>
          lasts.bind (lasts.mapM lasts.argumentType) fun _ =>
            lasts.bind (lasts.edit (.bind (.ensureMethod _ _ _) fun _ =>
              .bind (.addModifiers _ _) fun _ => .pure _)) fun constructor =>
                lasts.bind (lasts.addMethod constructor) fun _ =>
                  lasts.bind (lasts.link .invocation caller.entity constructor span) fun _ =>
                    lasts.pure _

mutual

theorem handle {known : List EntityId} : (node : Node) → holds known (Walk.handle node)
  | .type span header body => by
      rw [Walk.handle]
      exact lasts.declareType span header (visitAll body)
  | .method span header body => by
      rw [Walk.handle]
      exact lasts.declareMethod span header fun _ => visitOption body
  | .fields _ header declared => by
      rw [Walk.handle]
      exact lasts.bind lasts.currentType fun type =>
        lasts.bind (lasts.areStatic type header.modifiers) fun isStatic =>
          visitFields type header isStatic declared
  | .initializer _ isStatic body => by
      rw [Walk.handle]
      exact lasts.bind lasts.currentType fun type =>
        lasts.insideInitializer type isStatic fun _ => lasts.visiting (handle body)
  | .block span statements => by
      rw [Walk.handle]
      exact lasts.insideBlock span (visitAll statements)
  | .locals _ header declared => by
      rw [Walk.handle]
      exact visitLocals header declared
  | .call span header receiver arguments => by
      rw [Walk.handle]
      exact lasts.bind (lasts.refer span _ _ _ arguments (lasts.receiverOf receiver)) fun _ =>
        lasts.bind (visitOption receiver) fun _ => visitAll arguments
  | .superCall span header qualifier arguments => by
      rw [Walk.handle]
      exact lasts.bind (lasts.refer span _ _ _ arguments (lasts.pure _)) fun _ =>
        visitAll arguments
  | .ownConstructor span binding arguments => by
      rw [Walk.handle]
      exact lasts.bind (lasts.refer span _ _ _ arguments
        (lasts.bind lasts.currentType fun _ => lasts.pure _)) fun _ => visitAll arguments
  | .superConstructor span binding receiver arguments => by
      rw [Walk.handle]
      exact lasts.bind (lasts.refer span _ _ _ arguments (lasts.pure _)) fun _ =>
        lasts.bind (visitOption receiver) fun _ => visitAll arguments
  | .creation span created binding receiver arguments none => by
      rw [Walk.handle]
      exact lasts.bind (lasts.refer span _ _ _ arguments (lasts.pure _)) fun _ =>
        lasts.bind (visitOption receiver) fun _ => visitAll arguments
  | .creation span created binding receiver arguments (some (.mk bodySpan bodyBinding body)) => by
      rw [Walk.handle]
      exact lasts.bind (lasts.createAnonymous span created arguments bodySpan bodyBinding)
        fun type => lasts.bind (visitOption receiver) fun _ =>
          lasts.bind (visitAll arguments) fun _ =>
            lasts.typeBody type.entity type.name false (visitAll body)
  | .field span name binding receiver => by
      rw [Walk.handle]
      exact lasts.bind (lasts.accessField span name binding receiver) fun _ =>
        lasts.visiting (handle receiver)
  | .superField span name binding qualifier => by
      rw [Walk.handle]
      exact lasts.accessSuperField span name binding
  | .qualified span name binding qualifier => by
      rw [Walk.handle]
      exact lasts.bind (lasts.accessIn span name _) fun _ => lasts.visiting (handle qualifier)
  | .simple span name binding => by
      rw [Walk.handle]
      exact lasts.accessIn span name _
  | .this .. => lasts.pure ()
  | .cast span target operand => by
      rw [Walk.handle]
      exact lasts.bind (lasts.recordCheck .castTo span target) fun _ =>
        lasts.visiting (handle operand)
  | .instanceCheck span tested type operand => by
      rw [Walk.handle]
      exact lasts.bind (lasts.recordCheck .instanceCheck span tested) fun _ =>
        lasts.visiting (handle operand)
  | .expression _ _ none children => visitAll children
  | .expression span _ (some (name, use)) children =>
      lasts.bind (lasts.declareInStatement span name use) fun _ => visitAll children
termination_by structural node => node

theorem visitAll {known : List EntityId} : (nodes : List Node) → holds known (Walk.visitAll nodes)
  | [] => by
      rw [Walk.visitAll]
      exact lasts.pure ()
  | node :: nodes => by
      rw [Walk.visitAll]
      exact lasts.bind (lasts.visiting (handle node)) fun _ => visitAll nodes
termination_by structural nodes => nodes

theorem visitOption {known : List EntityId} : (node : Option Node) → holds known (Walk.visitOption node)
  | none => by
      rw [Walk.visitOption]
      exact lasts.pure ()
  | some node => by
      rw [Walk.visitOption]
      exact lasts.visiting (handle node)
termination_by structural node => node

theorem visitFields {known : List EntityId} (type : TypeFrame) (header : VariablesHeader) (isStatic : Bool) :
    (declared : List DeclaredVariable) → holds known (Walk.visitFields type header isStatic declared)
  | [] => by
      rw [Walk.visitFields]
      exact lasts.pure ()
  | .mk declarator none :: declared => by
      rw [Walk.visitFields]
      exact lasts.bind (lasts.declareField type header declarator) fun _ =>
        visitFields type header isStatic declared
  | .mk declarator (some node) :: declared => by
      rw [Walk.visitFields]
      exact lasts.bind (lasts.declareField type header declarator) fun _ =>
        lasts.bind (lasts.insideInitializer type isStatic fun _ => lasts.visiting (handle node))
          fun _ => visitFields type header isStatic declared
termination_by structural declared => declared

theorem visitLocals {known : List EntityId} (header : VariablesHeader) :
    (declared : List DeclaredVariable) → holds known (Walk.visitLocals header declared)
  | [] => by
      rw [Walk.visitLocals]
      exact lasts.pure ()
  | .mk declarator initializer :: declared => by
      rw [Walk.visitLocals]
      exact lasts.bind (lasts.declareVariable header declarator) fun _ =>
        lasts.bind (visitOption initializer) fun _ => visitLocals header declared
termination_by structural declared => declared

end

theorem visit (node : Node) : holds known (Walk.visit node) :=
  lasts.visiting (lasts.handle node)

theorem visitEach (nodes : List Node) : holds known (nodes.forM Walk.visit) :=
  lasts.forM lasts.visit

end Compositional

end Walk

end JavaFacts
