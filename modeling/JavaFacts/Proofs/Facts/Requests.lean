import JavaFacts.Proofs.Extraction.Perform
import JavaFacts.Proofs.Facts.Soundness

/-!
What the requests on a store do to it. Each of them leads from a sound store to a sound one that
extends it, and is refused only for a contradiction, as long as the entities it names exist.
-/

namespace JavaFacts

/-- Number, kind and name of an entity are those of another one. -/
structure Entity.SameIdentity (before after : Entity) : Prop where
  id : after.id = before.id
  kind : after.kind = before.kind
  name : after.name = before.name

/-- What a change of one entity leaves alone. -/
structure Entity.Keeps (before after : Entity) : Prop where
  id : after.id = before.id
  kind : after.kind = before.kind
  name : after.name = before.name
  anchor : ∀ {place}, before.anchor = some place → after.anchor = some place

theorem Entity.Keeps.same {before after : Entity} (keeps : before.Keeps after) :
    before.SameIdentity after :=
  ⟨keeps.id, keeps.kind, keeps.name⟩

/-- A single flag is in a union if it is in one of the parts. -/
theorem Modifiers.contains_union_flag (left right : Modifiers) {position : Nat} (small : position < 32) :
    (left ∪ right).contains (flag position) =
      (left.contains (flag position) || right.contains (flag position)) := by
  have single (modifiers : Modifiers) :
      modifiers.contains (flag position) = modifiers.bits.getLsbD position := by
    have bit : (flag position).bits = BitVec.twoPow 32 position := (BitVec.twoPow_eq 32 position).symm
    have apart : (0#32 == BitVec.twoPow 32 position) = false := by
      refine beq_eq_false_iff_ne.mpr fun same => ?_
      have bits := congrArg (BitVec.getLsbD · position) same
      simp [small] at bits
    rw [contains, bit, BitVec.and_twoPow]
    cases modifiers.bits.getLsbD position
    · exact apart
    · exact beq_self_eq_true _
  rw [single, single, single]
  exact BitVec.getLsbD_or

theorem Modifiers.contains_union_isInterface (left right : Modifiers) :
    (left ∪ right).contains isInterface =
      (left.contains isInterface || right.contains isInterface) :=
  contains_union_flag left right (by decide)

namespace Store

/-- The store with one entity replaced by what `change` makes of it. -/
def change (store : Store) (id : EntityId) (change : Entity → Entity) : Store :=
  { store with entities := store.entities.modify id change }

variable {before after store : Store} {kind : EntityKind} {id : EntityId} {entity : Entity}

section Change

variable {revise : Entity → Entity}

theorem entity?_change (other : EntityId) :
    (store.change id revise).entity? other =
      if id = other then (store.entity? other).map revise else store.entity? other := by
  rw [entity?, Store.change, Array.getElem?_modify]
  rfl

/-- The entities change in nothing but what identifies none of them. -/
theorem identity?_change_of_same
    (same : ∀ entity, store.entity? id = some entity → entity.SameIdentity (revise entity))
    (other : EntityId) : (store.change id revise).identity? other = store.identity? other := by
  rw [identity?, entity?_change]
  by_cases here : id = other
  · subst here
    cases found : store.entity? id with
    | none => simp [identity?, found]
    | some entity => simp [identity?, found, (same entity found).kind, (same entity found).name]
  · simp only [here, ↓reduceIte, identity?]

theorem identity?_change
    (keeps : ∀ entity, store.entity? id = some entity → entity.Keeps (revise entity))
    (other : EntityId) : (store.change id revise).identity? other = store.identity? other :=
  identity?_change_of_same (fun entity found => (keeps entity found).same) other

theorem Identified.change (identified : store.Identified)
    (same : ∀ entity, store.entity? id = some entity → entity.SameIdentity (revise entity)) :
    (store.change id revise).Identified := by
  refine ⟨fun {other entity} found => ?_, fun {kind name other} => ?_⟩
  · rw [entity?_change] at found
    split at found
    · rename_i here
      subst here
      obtain ⟨former, known, rfl⟩ := Option.map_eq_some_iff.mp found
      exact (same former known).id.trans (identified.entityId known)
    · exact identified.entityId found
  · rw [identity?_change_of_same same]
    exact identified.find

theorem extends_change
    (keeps : ∀ entity, store.entity? id = some entity → entity.Keeps (revise entity)) :
    store.Extends (store.change id revise) := by
  refine ⟨fun {other identity} known => ?_, fun {other place} declared => ?_, List.prefix_refl _⟩
  · rw [identity?_change keeps]
    exact known
  · obtain ⟨entity, found, anchored⟩ := Option.bind_eq_some_iff.mp declared
    rw [anchor?, entity?_change, found]
    by_cases same : id = other
    · subst same
      simp only [↓reduceIte, Option.map_some, Option.bind_some, (keeps entity found).anchor anchored]
    · simp only [same, ↓reduceIte, Option.bind_some, anchored]

theorem Sound.change (sound : store.Sound)
    (keeps : ∀ entity, store.entity? id = some entity → entity.Keeps (revise entity))
    (still : ∀ entity, store.entity? id = some entity → entity.Sound store →
      (revise entity).Sound store) : (store.change id revise).Sound := by
  have grown := extends_change keeps
  have identified := sound.identified.change fun entity found => (keeps entity found).same
  refine ⟨identified.entityId, ?_, identified.find, sound.associationId,
    fun found => (sound.association found).extended grown, sound.outgoing⟩
  intro other entity found
  rw [entity?_change] at found
  split at found
  · rename_i same
    subst same
    obtain ⟨former, known, rfl⟩ := Option.map_eq_some_iff.mp found
    exact (still former known (sound.entity known)).extended grown
  · exact (sound.entity found).extended grown

theorem quiet_change
    (keeps : ∀ entity, store.entity? id = some entity → entity.Keeps (revise entity))
    (flags : ∀ entity, store.entity? id = some entity → entity.kind = .type →
      (revise entity).modifiers.contains Modifiers.isInterface =
        entity.modifiers.contains Modifiers.isInterface) :
    store.Quiet (store.change id revise) := by
  refine ⟨extends_change keeps, rfl, fun other => ?_⟩
  rw [isInterface, isInterface, entity?_change]
  by_cases same : id = other
  · subst same
    cases found : store.entity? id with
    | none => simp only [Option.map_none, ite_self]
    | some entity =>
        simp only [↓reduceIte, Option.map_some, Option.any_some, (keeps entity found).kind]
        by_cases type : entity.kind = .type
        · rw [flags entity found type]
        · rw [beq_eq_false_iff_ne.mpr type, Bool.false_and, Bool.false_and]
  · simp only [same, ↓reduceIte]

end Change

section Intern

variable {name : String}

/-- The store with a new entity, of which only the identity is known. -/
def added (store : Store) (kind : EntityKind) (name : String) : Store :=
  { store with
    entities := store.entities.push (Entity.new store.entities.size kind name)
    ids := store.ids.insert (kind, name) store.entities.size }

theorem entity?_added (other : EntityId) :
    (store.added kind name).entity? other =
      if other = store.entities.size then some (Entity.new store.entities.size kind name)
      else store.entity? other := by
  rw [entity?, added, Array.getElem?_push]
  rfl

theorem identity?_added (other : EntityId) :
    (store.added kind name).identity? other =
      if other = store.entities.size then some (kind, name) else store.identity? other := by
  rw [identity?, entity?_added]
  split
  · rfl
  · rfl

theorem entity?_size : store.entity? store.entities.size = none :=
  Array.getElem?_size

theorem quiet_added : store.Quiet (store.added kind name) := by
  refine ⟨⟨fun {other identity} known => ?_, fun {other place} declared => ?_, List.prefix_refl _⟩,
    rfl, fun other => ?_⟩
  · rw [identity?_added]
    split
    · rename_i same
      rw [same, identity?, entity?_size] at known
      cases known
    · exact known
  · rw [anchor?, entity?_added]
    split
    · rename_i same
      rw [same, anchor?, entity?_size] at declared
      cases declared
    · exact declared
  · rw [isInterface, isInterface, entity?_added]
    split
    · rename_i same
      rw [same, entity?_size]
      have bare : (∅ : Modifiers).contains Modifiers.isInterface = false := by decide
      simp [Entity.new, bare]
    · rfl

theorem find?_added (otherKind : EntityKind) (otherName : String) :
    (store.added kind name).find? otherKind otherName =
      if (kind, name) = (otherKind, otherName) then some store.entities.size
      else store.find? otherKind otherName := by
  have inserted : (store.added kind name).find? otherKind otherName =
      if (kind, name) == (otherKind, otherName) then some store.entities.size
      else store.find? otherKind otherName := Std.HashMap.getElem?_insert
  rw [inserted]
  simp only [beq_iff_eq]

theorem Identified.added (identified : store.Identified) (missing : store.find? kind name = none) :
    (store.added kind name).Identified := by
  refine ⟨fun {other entity} found => ?_, fun {otherKind otherName other} => ?_⟩
  · rw [entity?_added] at found
    split at found
    · rename_i same
      cases found
      exact same.symm
    · exact identified.entityId found
  · rw [find?_added, identity?_added]
    by_cases same : (kind, name) = (otherKind, otherName)
    · cases same
      simp only [↓reduceIte, Option.some.injEq]
      refine ⟨fun new => by rw [if_pos new.symm], fun known => ?_⟩
      split at known
      · rename_i new
        exact new.symm
      · rw [← identified.find, missing] at known
        cases known
    · rw [if_neg same, identified.find]
      split
      · rename_i new
        subst new
        rw [identity?, entity?_size]
        constructor
        · intro unknown
          cases unknown
        · exact fun known => absurd (Option.some.inj known) same
      · rfl

theorem Sound.added (sound : store.Sound) (missing : store.find? kind name = none) :
    (store.added kind name).Sound := by
  have grown : store.Extends (store.added kind name) := quiet_added.toExtends
  have identified := sound.identified.added missing
  refine ⟨identified.entityId, ?_, identified.find, sound.associationId,
    fun found => (sound.association found).extended grown, sound.outgoing⟩
  intro other entity found
  rw [entity?_added] at found
  split at found
  · cases found
    exact ⟨fun owned => (by cases owned), fun typed => (by cases typed)⟩
  · exact (sound.entity found).extended grown

end Intern

section Append

/-- The store with one more association. -/
def appended (store : Store) (kind : AssociationKind) (source target : EntityId)
    (anchor : Option Anchor) (statement : String) : Store :=
  let id := store.associations.size
  { store with
    associations := store.associations.push { id, kind, source, target, anchor, statement }
    outgoing := store.outgoing.insert source ((store.outgoing.getD source #[]).push id)
    incoming := store.incoming.insert target ((store.incoming.getD target #[]).push id) }

variable {kind : AssociationKind} {source target : EntityId} {anchor : Option Anchor}
  {statement : String}

theorem extends_appended : store.Extends (store.appended kind source target anchor statement) := by
  refine ⟨id, id, ?_⟩
  rw [appended, Array.toList_push]
  exact List.prefix_append _ _

theorem callsAndChecks_appended :
    (store.appended kind source target anchor statement).callsAndChecks =
      store.callsAndChecks ++
        if kind.isCallOrCheck then
          [⟨store.associations.size, kind, source, target, anchor, statement⟩]
        else [] := by
  rw [callsAndChecks, appended, Array.toList_push, List.filter_append, callsAndChecks,
    List.filter_singleton, Bool.cond_eq_ite]

theorem quiet_appended (plain : kind.isCallOrCheck = false) :
    store.Quiet (store.appended kind source target anchor statement) := by
  refine ⟨extends_appended, ?_, fun _ => rfl⟩
  rw [callsAndChecks_appended, plain, if_neg Bool.false_ne_true, List.append_nil]

theorem association?_appended (other : AssociationId) :
    (store.appended kind source target anchor statement).association? other =
      if other = store.associations.size then
        some ⟨store.associations.size, kind, source, target, anchor, statement⟩
      else store.association? other := by
  rw [association?, appended, Array.getElem?_push]
  rfl

/-- An index of associations by one of their ends stays right if a new association is listed at its
end. -/
theorem toList_getD_insert {index : Std.HashMap EntityId (Array AssociationId)}
    {associations : Array Association} {near : Association → EntityId}
    (exact : ∀ id, (index.getD id #[]).toList =
      (associations.toList.filter (near · == id)).map (·.id)) (new : Association) (id : EntityId) :
    ((index.insert (near new) ((index.getD (near new) #[]).push new.id)).getD id #[]).toList =
      ((associations.push new).toList.filter (near · == id)).map (·.id) := by
  rw [Std.HashMap.getD_insert, Array.toList_push, List.filter_append, List.map_append,
    List.filter_singleton]
  by_cases same : near new = id
  · subst same
    simp only [BEq.rfl, ↓reduceIte, Array.toList_push, exact, cond_true, List.map_cons, List.map_nil]
  · simp only [beq_eq_false_iff_ne.mpr same, Bool.false_eq_true, ↓reduceIte, cond_false, List.map_nil,
      List.append_nil, exact]

theorem Indexed.appended (indexed : store.Indexed) :
    (store.appended kind source target anchor statement).Indexed := by
  refine ⟨fun {other association} known => ?_, toList_getD_insert indexed.outgoing
    ⟨store.associations.size, kind, source, target, anchor, statement⟩⟩
  rw [association?_appended] at known
  split at known
  · rename_i same
    cases known
    exact same.symm
  · exact indexed.associationId known

theorem Sound.appended (sound : store.Sound) (left : store.Holds kind.sourceKind source)
    (right : store.Holds kind.targetKind target) :
    (store.appended kind source target anchor statement).Sound := by
  have grown : store.Extends (store.appended kind source target anchor statement) :=
    extends_appended
  have indexed : (store.appended kind source target anchor statement).Indexed :=
    sound.indexed.appended
  refine ⟨sound.entityId, fun known => (sound.entity known).extended grown, sound.find,
    indexed.associationId, fun {other association} known => ?_, indexed.outgoing⟩
  rw [association?_appended] at known
  split at known
  · cases known
    exact ⟨left.extended grown, right.extended grown⟩
  · exact (sound.association known).extended grown

end Append

end Store

/-- What requests may contradict: declarations stand in one file, and an entity would own itself only
where `looped` holds. -/
structure Grounds where
  file : String
  looped : Prop

/-- The refusals that there are grounds for in a store. -/
inductive FactError.Arises (grounds : Grounds) (store : Store) : FactError → Prop where
  /-- An entity that is declared elsewhere is declared in the file. -/
  | conflict {id : EntityId} {entity : Entity} {existing anchor : Anchor} :
      store.entity? id = some entity → entity.anchor = some existing → existing ≠ anchor →
      anchor.file = grounds.file →
      Arises grounds store (.duplicateDeclaration entity.kind.name entity.name existing.render
        anchor.render)
  | loop {reason : String} : grounds.looped → Arises grounds store (.invalidOperation reason)

theorem FactError.Arises.breaksInvariant {grounds : Grounds} {store : Store} {error : FactError}
    (arises : error.Arises grounds store) : error.breaksInvariant := by
  cases arises <;> rfl

namespace Edit

/-- From a sound store the request leads to a sound store in that relation to it. Its result is as
said, and only a contradiction that there are grounds for keeps it from giving one. -/
def Meets (relation : Store → Store → Prop) (grounds : Grounds) (before : Store) (request : Edit α)
    (good : α → Store → Prop) : Prop :=
  before.Sound →
    (request.perform before).2.Sound ∧ relation before (request.perform before).2 ∧
      match (request.perform before).1 with
      | .ok result => good result (request.perform before).2
      | .error error => error.Arises grounds (request.perform before).2

variable {relation : Store → Store → Prop} {grounds : Grounds} {before : Store}

namespace Meets

theorem bind [IsPreorder Store relation] {request : Edit α} {next : α → Edit β}
    {between : α → Store → Prop} {good : β → Store → Prop}
    (first : Meets relation grounds before request between)
    (rest : ∀ result middle, relation before middle → between result middle →
      Meets relation grounds middle (next result) good) :
    Meets relation grounds before (request >>= next) good := by
  intro sound
  obtain ⟨middleSound, related, outcome⟩ := first sound
  rw [perform_bind]
  rcases performed : request.perform before with ⟨error | result, middle⟩
  · rw [performed] at middleSound related outcome
    exact ⟨middleSound, related, outcome⟩
  · rw [performed] at middleSound related outcome
    obtain ⟨afterSound, later, reached⟩ := rest result middle related outcome middleSound
    exact ⟨afterSound, trans_of relation related later, reached⟩

theorem pure [IsPreorder Store relation] {good : α → Store → Prop} {result : α}
    (reached : good result before) : Meets relation grounds before (Pure.pure result) good :=
  fun sound => ⟨sound, refl_of relation before, reached⟩

theorem refused [IsPreorder Store relation] {good : α → Store → Prop} {error : FactError}
    (arises : error.Arises grounds before) : Meets relation grounds before (throw error) good :=
  fun sound => ⟨sound, refl_of relation before, arises⟩

theorem get [IsPreorder Store relation] :
    Meets relation grounds before MonadState.get fun store after => before = store ∧ before = after :=
  fun sound => ⟨sound, refl_of relation before, rfl, rfl⟩

theorem map [IsPreorder Store relation] {request : Edit α} {change : α → β}
    {between : α → Store → Prop} (met : Meets relation grounds before request between) :
    Meets relation grounds before (change <$> request) fun result after =>
      ∃ former, result = change former ∧ between former after := by
  rw [← bind_pure_comp]
  exact met.bind fun former _ _ reached => .pure ⟨former, rfl, reached⟩

theorem of_sound {request : Edit α} {good : α → Store → Prop}
    (met : before.Sound → Meets relation grounds before request good) : Meets relation grounds before request good :=
  fun sound => met sound sound

theorem imp {other : Store → Store → Prop} {request : Edit α} {reached good : α → Store → Prop}
    (met : Meets relation grounds before request reached)
    (related : ∀ after, relation before after → other before after)
    (enough : ∀ result after, relation before after → reached result after → good result after) :
    Meets other grounds before request good := by
  intro sound
  obtain ⟨afterSound, later, outcome⟩ := met sound
  refine ⟨afterSound, related _ later, ?_⟩
  rcases performed : request.perform before with ⟨error | result, after⟩
  · rw [performed] at outcome
    exact outcome
  · rw [performed] at outcome later
    exact enough result after later outcome

/-- A request that need not be quiet follows one that is. -/
theorem quietly {request : Edit α} {good : α → Store → Prop}
    (related : ∀ after, before.Quiet after → relation before after)
    (met : Meets Store.Quiet grounds before request good) :
    Meets relation grounds before request fun result after => good result after ∧ before.Quiet after :=
  met.imp related fun _ _ quiet reached => ⟨reached, quiet⟩

end Meets

variable {kind : EntityKind} {id : EntityId}

theorem intern_meets (kind : EntityKind) (name : String) :
    Meets Store.Quiet grounds before (intern kind name) fun id after =>
      after.identity? id = some (kind, name) := by
  intro sound
  rw [perform_intern]
  cases found : before.find? kind name with
  | some id =>
      simp only [Store.intern, found]
      exact ⟨sound, refl_of Store.Quiet before, sound.find.mp found⟩
  | none =>
      simp only [Store.intern, found]
      refine ⟨sound.added found, Store.quiet_added, ?_⟩
      exact (Store.identity?_added _).trans (if_pos rfl)

theorem perform_entity {entity : Entity} (found : before.entity? id = some entity) :
    (Edit.entity id).perform before = (.ok entity, before) := by
  simp only [Edit.entity, perform_bind, perform_get, found, perform_pure]

theorem perform_entity_of_none (missing : before.entity? id = none) :
    (entity id).perform before = (.error (.entityNotFound (toString id)), before) := by
  simp only [entity, perform_bind, perform_get, missing]
  rfl

theorem entity_meets [IsPreorder Store relation] (held : before.Holds kind id) :
    Meets relation grounds before (entity id) fun entity after =>
      before = after ∧ before.entity? id = some entity ∧ entity.kind = kind := by
  intro sound
  obtain ⟨entity, found, same⟩ := held.exists_entity
  rw [perform_entity found]
  exact ⟨sound, refl_of relation before, rfl, found, same⟩

theorem perform_update {change : Entity → Entity} {entity : Entity}
    (found : before.entity? id = some entity) :
    (update id change).perform before = (.ok (), before.change id change) := by
  simp only [update, perform_bind, perform_entity found]
  rfl

theorem perform_addAssociation {kind : AssociationKind} {source target : EntityId}
    {anchor : Option Anchor} {statement : String} (left : (before.entity? source).isSome)
    (right : (before.entity? target).isSome) :
    (addAssociation kind source target anchor statement).perform before =
      (.ok before.associations.size, before.appended kind source target anchor statement) := by
  obtain ⟨_, left⟩ := Option.isSome_iff_exists.mp left
  obtain ⟨_, right⟩ := Option.isSome_iff_exists.mp right
  simp only [addAssociation, perform_bind, perform_entity left, perform_entity right]
  rfl

/-- A request for an association is refused and changes nothing, or both ends of it exist. -/
theorem addAssociation_cases (store : Store) (kind : AssociationKind) (source target : EntityId)
    (anchor : Option Anchor) (statement : String) :
    (∃ error, (addAssociation kind source target anchor statement).perform store =
      (.error error, store)) ∨ (store.entity? source).isSome ∧ (store.entity? target).isSome := by
  cases left : store.entity? source with
  | none =>
      refine .inl ⟨.entityNotFound (toString source), ?_⟩
      simp only [addAssociation, perform_bind, perform_entity_of_none left]
  | some known =>
      cases right : store.entity? target with
      | none =>
          refine .inl ⟨.entityNotFound (toString target), ?_⟩
          simp only [addAssociation, perform_bind, perform_entity left, perform_entity_of_none right]
      | some other => exact .inr ⟨rfl, rfl⟩

theorem update_meets {change : Entity → Entity} {entity : Entity}
    (found : before.entity? id = some entity) (keeps : entity.Keeps (change entity))
    (still : entity.Sound before → (change entity).Sound before) :
    Meets Store.Extends grounds before (update id change) fun _ after => after = before.change id change := by
  intro sound
  rw [perform_update found]
  have only {property : Entity → Prop} (holds : property entity) (other : Entity)
      (known : before.entity? id = some other) : property other := by
    rw [found] at known
    exact Option.some.inj known ▸ holds
  exact ⟨sound.change (only keeps) (only still), Store.extends_change (only keeps), rfl⟩

/-- A change that does not make an interface of a type. -/
theorem update_quiet {change : Entity → Entity} {entity : Entity}
    (found : before.entity? id = some entity) (keeps : entity.Keeps (change entity))
    (still : entity.Sound before → (change entity).Sound before)
    (flags : entity.kind = .type → (change entity).modifiers.contains Modifiers.isInterface =
      entity.modifiers.contains Modifiers.isInterface) :
    Meets Store.Quiet grounds before (update id change) fun _ after =>
      after = before.change id change := by
  intro sound
  have met : Meets Store.Extends grounds before (update id change) _ := update_meets found keeps still
  obtain ⟨afterSound, -, -⟩ := met sound
  rw [perform_update found] at afterSound ⊢
  refine ⟨afterSound, Store.quiet_change ?_ ?_, rfl⟩
  · intro other known
    rw [found] at known
    exact Option.some.inj known ▸ keeps
  · intro other known
    rw [found] at known
    exact Option.some.inj known ▸ flags

/-- A change of anything but a type that leaves the owner alone and gives it a type, if any, that
exists. -/
theorem update_typed {change : Entity → Entity} (held : before.Holds kind id) (plain : kind ≠ .type)
    (keeps : ∀ entity : Entity, entity.Keeps (change entity))
    (owner : ∀ entity, (change entity).owner = entity.owner)
    (typed : ∀ entity type, (change entity).declaredType = some type →
      before.Holds .type type ∨ entity.declaredType = some type) :
    Meets Store.Quiet grounds before (update id change) fun _ _ => True := by
  obtain ⟨entity, found, same⟩ := held.exists_entity
  refine .imp (update_quiet found (keeps entity) (fun sound => ⟨fun owned => ?_, fun known => ?_⟩)
    fun type => absurd (same.symm.trans type) plain) (fun _ quiet => quiet) fun _ _ _ _ => trivial
  · rw [(keeps entity).kind]
    exact sound.owner ((owner entity).symm.trans owned)
  · exact (typed entity _ known).elim (fun held => held) sound.declaredType

theorem updateMembers_meets (held : before.Holds kind id)
    (revise : Array EntityId → Array EntityId) :
    Meets Store.Quiet grounds before
      (update id fun entity => { entity with members := revise entity.members })
      fun _ _ => True := by
  obtain ⟨entity, found, -⟩ := held.exists_entity
  refine .imp (update_quiet found ⟨rfl, rfl, rfl, fun place => place⟩
    (fun sound => ⟨sound.owner, sound.declaredType⟩) fun _ => rfl)
    (fun _ quiet => quiet) fun _ _ _ _ => trivial

theorem setOwner_meets {childKind ownerKind : EntityKind} {child owner : EntityId}
    (held : before.Holds childKind child) (around : before.Holds ownerKind owner)
    (allowed : ownerKind ∈ childKind.ownerKinds)
    (apart : childKind = ownerKind → child = owner → grounds.looped) :
    Meets Store.Quiet grounds before (setOwner child owner) fun _ _ => True := by
  -- what is left to do once the former owner, if there was one, gave up the child
  have moved (store : Store) (quiet : before.Quiet store) : Meets Store.Quiet grounds store (do
      update child fun entity => { entity with owner := some owner }
      update owner fun entity => { entity with members := entity.members.push child })
      fun _ _ => True := by
    obtain ⟨entity, found, kind⟩ := (held.extended quiet.toExtends).exists_entity
    refine .bind (update_quiet found ⟨rfl, rfl, rfl, fun place => place⟩
      (fun sound => ⟨fun same => ?_, sound.declaredType⟩) fun _ => rfl)
      fun _ middle later _ => updateMembers_meets
        ((around.extended quiet.toExtends).extended later.toExtends) (·.push child)
    cases same
    exact ⟨ownerKind, kind ▸ allowed, around.extended quiet.toExtends⟩
  unfold setOwner
  split
  · rename_i same
    obtain rfl := eq_of_beq same
    refine .bind .get fun _ _ _ known => ?_
    obtain ⟨rfl, rfl⟩ := known
    exact .refused (.loop (apart (held.kind_eq around) rfl))
  · refine .bind (entity_meets around) fun _ middle _ known => ?_
    obtain ⟨rfl, -⟩ := known
    refine .bind (entity_meets held) fun entity middle _ known => ?_
    obtain ⟨rfl, found, -⟩ := known
    dsimp only
    split
    · exact .pure trivial
    · refine .of_sound fun sound => ?_
      cases former : entity.owner with
      | none => exact moved before (refl_of Store.Quiet before)
      | some old =>
          obtain ⟨_, _, oldHeld⟩ := (sound.entity found).owner former
          exact .bind (updateMembers_meets oldHeld (·.filter (· != child)))
            fun _ middle quiet _ => moved middle quiet

theorem declare_meets (held : before.Holds kind id) {anchor : Anchor}
    (within : anchor.file = grounds.file) :
    Meets Store.Quiet grounds before (declare id anchor) fun _ after => after.anchor? id = some anchor := by
  unfold declare
  refine .bind (entity_meets held) fun entity middle _ known => ?_
  obtain ⟨rfl, found, same⟩ := known
  cases declared : entity.anchor with
  | some existing =>
      dsimp only
      split
      · rename_i equal
        refine .pure ?_
        rw [Store.anchor?, found, Option.bind_some, declared, eq_of_beq equal]
      · rename_i unequal
        exact .refused (.conflict found declared (fun equal => unequal (beq_iff_eq.mpr equal)) within)
  | none =>
      refine .imp (update_quiet found
        ⟨rfl, rfl, rfl, fun place => nomatch declared.symm.trans place⟩
        (fun sound => ⟨sound.owner, sound.declaredType⟩) fun _ => rfl) (fun _ quiet => quiet) ?_
      rintro _ _ _ rfl
      rw [Store.anchor?, Store.entity?_change, if_pos rfl, found, Option.map_some, Option.bind_some]

theorem addModifiers_meets (held : before.Holds kind id) (modifiers : Modifiers) :
    Meets Store.Extends grounds before (addModifiers id modifiers) fun _ after =>
      after = before.change id fun entity =>
        { entity with modifiers := entity.modifiers ∪ modifiers } := by
  obtain ⟨entity, found, -⟩ := held.exists_entity
  exact update_meets found ⟨rfl, rfl, rfl, fun place => place⟩
    fun sound => ⟨sound.owner, sound.declaredType⟩

/-- Modifiers that do not make an interface of a type. -/
theorem addModifiers_quiet (held : before.Holds kind id) {modifiers : Modifiers}
    (plain : kind = .type → modifiers.contains Modifiers.isInterface = false) :
    Meets Store.Quiet grounds before (addModifiers id modifiers) fun _ _ => True := by
  obtain ⟨entity, found, same⟩ := held.exists_entity
  refine .imp (update_quiet found ⟨rfl, rfl, rfl, fun place => place⟩
    (fun sound => ⟨sound.owner, sound.declaredType⟩)
    fun type => ?_) (fun _ quiet => quiet) fun _ _ _ _ => trivial
  rw [Modifiers.contains_union_isInterface, plain (same.symm.trans type), Bool.or_false]

/-- An entity is declared at a place and inside of another one before more is done. -/
theorem declaring_meets [IsPreorder Store relation] {ownerKind : EntityKind} {owner : EntityId}
    {name : String} {anchor : Anchor} {next : EntityId → Edit α} {good : α → Store → Prop}
    (related : ∀ {first second : Store}, first.Quiet second → relation first second)
    (around : before.Holds ownerKind owner) (allowed : ownerKind ∈ kind.ownerKinds)
    (apart : ownerKind = kind → before.identity? owner = some (kind, name) → grounds.looped)
    (within : anchor.file = grounds.file)
    (rest : ∀ id after, before.Quiet after → after.identity? id = some (kind, name) →
      after.anchor? id = some anchor → Meets relation grounds after (next id) good) :
    Meets relation grounds before
      (do
        let id ← declareNamed kind name anchor
        setOwner id owner
        next id) good := by
  rw [declareNamed_bind]
  refine .bind (.quietly (fun _ => related) (intern_meets kind name)) fun id _ _ known => ?_
  obtain ⟨named, quiet⟩ := known
  refine .bind (.quietly (fun _ => related) (declare_meets ⟨name, named⟩ within))
    fun _ _ _ known => ?_
  obtain ⟨placed, declareQuiet⟩ := known
  have named := declareQuiet.identity named
  have quiet := trans_of Store.Quiet quiet declareQuiet
  -- the entity is its own owner only if the owner had its kind and name before
  have looped : kind = ownerKind → id = owner → grounds.looped := by
    rintro rfl rfl
    obtain ⟨former, identity⟩ := around
    have same := (quiet.identity identity).symm.trans named
    exact apart rfl (identity.trans same)
  refine .bind (.quietly (fun _ => related)
    (setOwner_meets ⟨name, named⟩ (around.extended quiet.toExtends) allowed looped))
    fun _ owned _ known => ?_
  exact rest id owned (trans_of Store.Quiet quiet known.2) (known.2.identity named)
    (known.2.anchor placed)

/-- A type that is declared at a place. -/
theorem declaredType_meets {name : String} {anchor : Anchor} {owner : EntityId}
    {ownerKind : EntityKind} (around : before.Holds ownerKind owner)
    (allowed : ownerKind ∈ EntityKind.ownerKinds .type)
    (apart : ownerKind = .type → before.identity? owner = some (.type, name) → grounds.looped)
    (within : anchor.file = grounds.file) (flags : Modifiers) :
    Meets Store.Extends grounds before
      (do
        let type ← declareNamed .type name anchor
        setOwner type owner
        addModifiers type flags
        pure type)
      fun type after =>
        after.identity? type = some (.type, name) ∧ after.anchor? type = some anchor ∧
          after.callsAndChecks = before.callsAndChecks ∧
          ∀ id, after.isInterface id =
            (before.isInterface id || (id == type && flags.contains Modifiers.isInterface)) := by
  refine declaring_meets (fun quiet => quiet.toExtends) around allowed apart within
    fun type owned quiet named placed => ?_
  refine .bind (addModifiers_meets ⟨name, named⟩ flags) fun _ after grown changed => ?_
  refine .pure ⟨grown.identity named, grown.anchor placed, ?_, fun id => ?_⟩
  · rw [changed]
    exact quiet.callsAndChecks
  · -- all before the last step is quiet, so the flags are the only ones that are new
    rw [← quiet.interfaces id, changed, Store.isInterface, Store.isInterface, Store.entity?_change]
    by_cases same : type = id
    · subst same
      obtain ⟨entity, found, kind⟩ := (Store.holds_of_identity named).exists_entity
      simp only [found, kind, ↓reduceIte, Option.map_some, Option.any_some, BEq.rfl, Bool.true_and,
        Modifiers.contains_union_isInterface]
    · have other : (id == type) = false := beq_eq_false_iff_ne.mpr (Ne.symm same)
      rw [if_neg same, other, Bool.false_and, Bool.or_false]

theorem addAssociation_meets [IsPreorder Store relation] {kind : AssociationKind}
    {source target : EntityId} {anchor : Option Anchor} {statement : String}
    (left : before.Holds kind.sourceKind source) (right : before.Holds kind.targetKind target)
    (related : relation before (before.appended kind source target anchor statement)) :
    Meets relation grounds before (addAssociation kind source target anchor statement)
      fun _ after => after = before.appended kind source target anchor statement := by
  unfold addAssociation
  refine .bind (entity_meets left) fun _ middle _ known => ?_
  obtain ⟨rfl, -⟩ := known
  refine .bind (entity_meets right) fun _ middle _ known => ?_
  obtain ⟨rfl, -⟩ := known
  exact fun sound => ⟨sound.appended left right, related, rfl⟩

end Edit

end JavaFacts
