import JavaFacts.Facts.Store
import Mathlib.Data.List.Infix

/-!
What a store of facts has to be, and how it may grow. In a sound store the indexes agree with what
they index, and every reference leads to an entity of a kind that fits. A store that extends another
one still knows every identity, every place of declaration and every association of it.
-/

namespace JavaFacts

/-- The kinds of the entities that may own one of a kind. -/
def EntityKind.ownerKinds : EntityKind → List EntityKind
  | .package => []
  | .type => [.package, .type, .method]
  | .method | .field => [.type]
  | .parameter | .localVariable => [.method]

namespace AssociationKind

def sourceKind : AssociationKind → EntityKind
  | inheritance | subtyping => .type
  | invocation | access | castTo | instanceCheck => .method

def targetKind : AssociationKind → EntityKind
  | inheritance | subtyping | castTo | instanceCheck => .type
  | invocation => .method
  | access => .field

/-- Whether associations of this kind stand for a call, a cast or a type check. -/
def isCallOrCheck : AssociationKind → Bool
  | invocation | castTo | instanceCheck => true
  | inheritance | subtyping | access => false

end AssociationKind

namespace Store

/-- Kind and unique name of an entity. -/
def identity? (store : Store) (id : EntityId) : Option (EntityKind × String) :=
  (store.entity? id).map fun entity => (entity.kind, entity.name)

/-- Whether there is an entity of that number and kind. -/
def Holds (store : Store) (kind : EntityKind) (id : EntityId) : Prop :=
  ∃ name, store.identity? id = some (kind, name)

/-- Where an entity is declared. -/
def anchor? (store : Store) (id : EntityId) : Option Anchor :=
  (store.entity? id).bind (·.anchor)

/-- Whether an entity is a type that bears the flag of interfaces. -/
def isInterface (store : Store) (id : EntityId) : Bool :=
  (store.entity? id).any fun entity =>
    entity.kind == .type && entity.modifiers.contains Modifiers.isInterface

/-- The associations that stand for calls, casts and type checks. -/
def callsAndChecks (store : Store) : List Association :=
  store.associations.toList.filter (·.kind.isCallOrCheck)

end Store

/-- Owner and type of an entity are entities that fit its kind. -/
structure Entity.Sound (entity : Entity) (store : Store) : Prop where
  owner : ∀ {owner}, entity.owner = some owner → ∃ kind ∈ entity.kind.ownerKinds, store.Holds kind owner
  declaredType : ∀ {type}, entity.declaredType = some type → store.Holds .type type

/-- Both ends of an association are entities that fit its kind. -/
structure Association.Sound (association : Association) (store : Store) : Prop where
  source : store.Holds association.kind.sourceKind association.source
  target : store.Holds association.kind.targetKind association.target

structure Store.Sound (store : Store) : Prop where
  entityId : ∀ {id entity}, store.entity? id = some entity → entity.id = id
  entity : ∀ {id entity}, store.entity? id = some entity → entity.Sound store
  find : ∀ {kind name id}, store.find? kind name = some id ↔ store.identity? id = some (kind, name)
  associationId : ∀ {id association}, store.association? id = some association → association.id = id
  association : ∀ {id association}, store.association? id = some association → association.Sound store
  outgoing : ∀ id, (store.outgoing.getD id #[]).toList =
    (store.associations.toList.filter (·.source == id)).map (·.id)

/-- Entities bear their numbers, and the index of identities is right. -/
structure Store.Identified (store : Store) : Prop where
  entityId : ∀ {id entity}, store.entity? id = some entity → entity.id = id
  find : ∀ {kind name id}, store.find? kind name = some id ↔ store.identity? id = some (kind, name)

theorem Store.Sound.identified {store : Store} (sound : store.Sound) : store.Identified :=
  ⟨sound.entityId, sound.find⟩

/-- Associations bear their numbers, and the index of those that leave an entity is right. -/
structure Store.Indexed (store : Store) : Prop where
  associationId : ∀ {id association}, store.association? id = some association → association.id = id
  outgoing : ∀ id, (store.outgoing.getD id #[]).toList =
    (store.associations.toList.filter (·.source == id)).map (·.id)

theorem Store.Sound.indexed {store : Store} (sound : store.Sound) : store.Indexed :=
  ⟨sound.associationId, sound.outgoing⟩

/-- What stays true of a store whatever is added. -/
structure Store.Extends (before after : Store) : Prop where
  identity : ∀ {id identity}, before.identity? id = some identity → after.identity? id = some identity
  anchor : ∀ {id place}, before.anchor? id = some place → after.anchor? id = some place
  associations : before.associations.toList <+: after.associations.toList

/-- A store that grew without calls, casts, type checks and interfaces. -/
structure Store.Quiet (before after : Store) : Prop extends before.Extends after where
  callsAndChecks : after.callsAndChecks = before.callsAndChecks
  interfaces : ∀ id, after.isInterface id = before.isInterface id

namespace Store

variable {before middle after store : Store}

instance : IsPreorder Store Extends where
  refl _ := ⟨id, id, List.prefix_refl _⟩
  trans _ _ _ first second :=
    ⟨second.identity ∘ first.identity, second.anchor ∘ first.anchor,
      first.associations.trans second.associations⟩

instance : IsPreorder Store Quiet where
  refl store := ⟨refl_of Extends store, rfl, fun _ => rfl⟩
  trans _ _ _ first second :=
    ⟨trans_of Extends first.toExtends second.toExtends, second.callsAndChecks.trans first.callsAndChecks,
      fun id => (second.interfaces id).trans (first.interfaces id)⟩

theorem Holds.extended {kind : EntityKind} {id : EntityId} (held : before.Holds kind id)
    (grown : before.Extends after) : after.Holds kind id :=
  held.imp fun _ => grown.identity

variable {kind : EntityKind} {id : EntityId} {entity : Entity}

theorem Holds.exists_entity (held : store.Holds kind id) :
    ∃ entity, store.entity? id = some entity ∧ entity.kind = kind := by
  obtain ⟨name, identity⟩ := held
  obtain ⟨entity, found, same⟩ := Option.map_eq_some_iff.mp identity
  exact ⟨entity, found, (Prod.mk.inj same).1⟩

/-- An entity has one kind. -/
theorem Holds.kind_eq {other : EntityKind} (held : store.Holds kind id) (known : store.Holds other id) :
    kind = other := by
  obtain ⟨_, first⟩ := held
  obtain ⟨_, second⟩ := known
  exact (Prod.mk.inj (Option.some.inj (first.symm.trans second))).1

theorem holds_of_entity (found : store.entity? id = some entity) : store.Holds entity.kind id :=
  ⟨entity.name, by rw [identity?, found, Option.map_some]⟩

theorem holds_of_identity {name : String} (identity : store.identity? id = some (kind, name)) :
    store.Holds kind id :=
  ⟨name, identity⟩

theorem nameOf_eq {name : String} (identity : store.identity? id = some (kind, name)) :
    store.nameOf id = name := by
  obtain ⟨entity, found, same⟩ := Option.map_eq_some_iff.mp identity
  rw [nameOf, found]
  exact (Prod.mk.inj same).2

end Store

variable {before after : Store}

/-- No two entities have one identity. -/
theorem Store.Identified.unique {store : Store} (identified : store.Identified)
    {left right : EntityId} {identity : EntityKind × String}
    (first : store.identity? left = some identity)
    (second : store.identity? right = some identity) : left = right :=
  Option.some.inj ((identified.find.mpr first).symm.trans (identified.find.mpr second))

theorem Store.Sound.unique {store : Store} (sound : store.Sound) {left right : EntityId}
    {identity : EntityKind × String} (first : store.identity? left = some identity)
    (second : store.identity? right = some identity) : left = right :=
  sound.identified.unique first second

/-- The members of an entity are listed under their own numbers. -/
theorem Store.entity?_of_mem_membersOfKind {store : Store} (sound : store.Sound) {id : EntityId}
    {kind : EntityKind} {member : Entity} (listed : member ∈ store.membersOfKind id kind) :
    store.entity? member.id = some member ∧ member.kind = kind := by
  unfold Store.membersOfKind at listed
  cases found : store.entity? id with
  | none =>
      rw [found] at listed
      cases listed
  | some owner =>
      rw [found] at listed
      obtain ⟨listed, same⟩ := List.mem_filter.mp listed
      obtain ⟨number, -, stored⟩ := List.mem_filterMap.mp listed
      rw [sound.entityId stored]
      exact ⟨stored, eq_of_beq same⟩

theorem Entity.Sound.extended {entity : Entity} (sound : entity.Sound before)
    (grown : before.Extends after) : entity.Sound after :=
  ⟨fun owned =>
      let ⟨kind, allowed, held⟩ := sound.owner owned
      ⟨kind, allowed, held.extended grown⟩,
    fun typed => (sound.declaredType typed).extended grown⟩

theorem Association.Sound.extended {association : Association} (sound : association.Sound before)
    (grown : before.Extends after) : association.Sound after :=
  ⟨sound.source.extended grown, sound.target.extended grown⟩

end JavaFacts
