import JavaFacts.Proofs.Outline.Follows

/-!
From names back to numbers. Stores that know the same identities in the same order, and the same
about each of them, hold the same entities; and a call or a list of entities by names stands for one
call or one list by numbers.
-/

namespace JavaFacts

namespace Store

variable {before after store : Store} {id other : EntityId} {kind : EntityKind}

/-- A reference to an entity of a known kind is told by the name. -/
theorem Sound.eq_of_name (sound : store.Sound) {first second : Option EntityId}
    (firstHeld : ∀ id, first = some id → store.Holds kind id)
    (secondHeld : ∀ id, second = some id → store.Holds kind id)
    (same : (first.bind fun id => (store.identity? id).map (·.2)) =
      second.bind fun id => (store.identity? id).map (·.2)) : first = second := by
  rcases first with - | one <;> rcases second with - | other
  · rfl
  · obtain ⟨name, named⟩ := secondHeld other rfl
    rw [Option.bind_some, named] at same
    cases same
  · obtain ⟨name, named⟩ := firstHeld one rfl
    rw [Option.bind_some, named] at same
    cases same
  · obtain ⟨name, named⟩ := firstHeld one rfl
    obtain ⟨name', named'⟩ := secondHeld other rfl
    rw [Option.bind_some, Option.bind_some, named, named'] at same
    obtain rfl := Option.some.inj same
    rw [sound.unique named named']

theorem Sound.eq_of_identity (sound : store.Sound) {first second : Option EntityId}
    (firstKnown : ∀ id, first = some id → ∃ identity, store.identity? id = some identity)
    (secondKnown : ∀ id, second = some id → ∃ identity, store.identity? id = some identity)
    (same : first.bind store.identity? = second.bind store.identity?) : first = second := by
  rcases first with - | one <;> rcases second with - | other
  · rfl
  · obtain ⟨identity, named⟩ := secondKnown other rfl
    rw [Option.bind_some, named] at same
    cases same
  · obtain ⟨identity, named⟩ := firstKnown one rfl
    rw [Option.bind_some, named] at same
    cases same
  · obtain ⟨identity, named⟩ := firstKnown one rfl
    rw [Option.bind_some, Option.bind_some, named] at same
    rw [sound.unique named same.symm]

theorem Sound.eq_of_identities (sound : store.Sound) {first second : List EntityId}
    (firstKnown : ∀ id ∈ first, ∃ identity, store.identity? id = some identity)
    (secondKnown : ∀ id ∈ second, ∃ identity, store.identity? id = some identity)
    (same : first.filterMap store.identity? = second.filterMap store.identity?) : first = second := by
  induction first generalizing second with
  | nil =>
      cases second with
      | nil => rfl
      | cons other second =>
          obtain ⟨identity, named⟩ := secondKnown other List.mem_cons_self
          rw [List.filterMap_cons_some named] at same
          cases same
  | cons one first ih =>
      rw [List.forall_mem_cons] at firstKnown
      obtain ⟨⟨identity, named⟩, firstKnown⟩ := firstKnown
      rw [List.filterMap_cons_some named] at same
      cases second with
      | nil => cases same
      | cons other second =>
          rw [List.forall_mem_cons] at secondKnown
          obtain ⟨⟨identity', named'⟩, secondKnown⟩ := secondKnown
          rw [List.filterMap_cons_some named'] at same
          obtain ⟨here, same⟩ := List.cons.inj same
          rw [sound.unique named (here ▸ named'), ih firstKnown secondKnown same]

/-- Two entities of which the same is known by names are the same. -/
theorem Whole.entity_eq (whole : before.Whole) (laterWhole : after.Whole)
    (identities : ∀ id, after.identity? id = before.identity? id) {entity later : Entity}
    (found : before.entity? id = some entity) (foundLater : after.entity? id = some later)
    (entries : after.entryOf later = before.entryOf entity) : later = entity := by
  have sameIdentities : after.identity? = before.identity? := funext identities
  have holds {kind : EntityKind} {id : EntityId} (held : after.Holds kind id) : before.Holds kind id :=
    held.imp fun _ named => (identities id).symm.trans named
  have fits := whole.entity found
  have laterFits := laterWhole.entity foundLater
  have known : later.owner = entity.owner := by
    refine whole.toSound.eq_of_identity (fun owner owned => ?_) (fun owner owned => ?_) ?_
    · obtain ⟨kind, -, held⟩ := laterFits.owner owned
      obtain ⟨name, named⟩ := holds held
      exact ⟨_, named⟩
    · obtain ⟨kind, -, name, named⟩ := fits.owner owned
      exact ⟨_, named⟩
    · rw [← sameIdentities]
      exact (congrArg Entry.owner entries).trans (by rw [sameIdentities]; rfl)
  have typed : later.declaredType = entity.declaredType := by
    refine whole.toSound.eq_of_name (fun _ typed => holds (laterFits.declaredType typed))
      (fun _ typed => fits.declaredType typed) ?_
    have same := congrArg Entry.declaredType entries
    simp only [entryOf, sameIdentities] at same
    exact same
  have members : later.members = entity.members := by
    refine Array.toList_inj.mp (whole.toSound.eq_of_identities (fun member listed => ?_)
      (fun member listed => whole.members found member (Array.mem_toList_iff.mp listed)) ?_)
    · rw [← identities]
      exact laterWhole.members foundLater member (Array.mem_toList_iff.mp listed)
    · have same := congrArg Entry.members entries
      simp only [entryOf, sameIdentities] at same
      exact same
  have named := identities id
  rw [identity?_of_entity found, identity?_of_entity foundLater, Option.some.injEq, Prod.mk.injEq] at named
  have numbered := laterWhole.entityId foundLater
  have numberedBefore := whole.entityId found
  obtain ⟨id', kind, name, modifiers, anchor, type, signature, parameters, position, owner, inside⟩ := later
  obtain ⟨id'', kind', name', modifiers', anchor', type', signature', parameters', position', owner',
    inside'⟩ := entity
  simp only [entryOf, Entry.mk.injEq] at entries
  obtain ⟨sameModifiers, sameAnchor, -, sameSignature, sameParameters, samePosition, -, -⟩ := entries
  simp only at known typed members named numbered numberedBefore
  obtain ⟨sameKind, sameName⟩ := named
  subst known typed members sameKind sameName numbered numberedBefore sameModifiers sameAnchor
    sameSignature sameParameters samePosition
  rfl

theorem Whole.entities_eq (whole : before.Whole) (laterWhole : after.Whole)
    (known : after.facts.known = before.facts.known) (lookup : after.facts.lookup = before.facts.lookup) :
    after.entities = before.entities := by
  have identities (id : EntityId) : after.identity? id = before.identity? id := by
    rw [← known_facts, ← known_facts, known]
  refine Array.ext_getElem? fun id => ?_
  have same := identities id
  rcases found : before.entity? id with - | entity
  · rw [identity?, identity?, found, Option.map_none, Option.map_eq_none_iff] at same
    exact same.trans found.symm
  · rw [identity?_of_entity found] at same
    obtain ⟨later, foundLater, -⟩ := exists_entity_of_identity same
    have entries : after.entryOf later = before.entryOf entity := by
      have one := laterWhole.toSound.lookup_of_entity same foundLater
      have other := whole.toSound.lookup_of_entity (identity?_of_entity found) found
      rw [lookup, other] at one
      exact (Option.some.inj one).symm
    rw [whole.entity_eq laterWhole identities found foundLater entries] at foundLater
    exact foundLater.trans found.symm

/-- What is known by names depends on the entities only. -/
theorem Whole.lookup_eq (whole : before.Whole) (laterWhole : after.Whole)
    (same : after.entities = before.entities) : after.facts.lookup = before.facts.lookup := by
  have found (id : EntityId) : after.entity? id = before.entity? id := by
    rw [entity?, entity?, same]
  have identities (id : EntityId) : after.identity? id = before.identity? id := by
    rw [identity?, identity?, found]
  funext identity
  have numbered : after.find? identity.1 identity.2 = before.find? identity.1 identity.2 :=
    Option.ext fun id => by rw [laterWhole.find, whole.find, identities]
  rw [lookup_facts, lookup_facts, numbered]
  cases before.find? identity.1 identity.2 with
  | none => rfl
  | some id =>
      rw [Option.bind_some, Option.bind_some, found, funext (entryOf_congr identities)]

theorem Whole.entities_ne (whole : before.Whole) (laterWhole : after.Whole) {facts later : Facts}
    (known : before.facts = facts) (laterKnown : after.facts = later) (identity : Identity)
    (differ : later.members identity ≠ facts.members identity) : after.entities ≠ before.entities := by
  intro same
  rw [← known, ← laterKnown, Facts.members, Facts.members, whole.lookup_eq laterWhole same] at differ
  exact differ rfl

theorem Sound.lists_unique (sound : store.Sound) {first second : List EntityId}
    {identities : List Identity} (lists : store.Lists first identities)
    (lists' : store.Lists second identities) : first = second := by
  have unique : Relator.LeftUnique fun (id : EntityId) (identity : Identity) =>
      store.identity? id = some identity := fun _ _ _ one other => sound.unique one other
  exact List.left_unique_forall₂' unique lists lists'

end Store

theorem Call.Means.unique {store : Store} (sound : store.Sound) {first second : Call}
    {deferred : DeferredCall} (means : first.Means store deferred) (means' : second.Means store deferred) :
    first = second := by
  have caller := sound.unique means.caller means'.caller
  have callerType := sound.unique means.callerType means'.callerType
  have visible : first.visible = second.visible := by
    obtain ⟨numbers, lists, visible⟩ := means.visible
    obtain ⟨numbers', lists', visible'⟩ := means'.visible
    have unique : Relator.LeftUnique store.Lists := fun _ _ _ one other => sound.lists_unique one other
    have same : numbers = numbers' := List.left_unique_forall₂' unique lists lists'
    rw [visible, visible', same]
  rw [means.rest, means'.rest, caller, callerType, visible]

end JavaFacts
