import JavaFacts.Proofs.Facts.Writes

/-!
What a store never takes back. A request may complete what is known about an entity, add flags to it
and move it, but whatever was told about it before, it still has a place, a type and an owner; so
stores only grow, whether requests are refused or not.
-/

namespace JavaFacts

namespace Modifiers

theorem contains_self (modifiers : Modifiers) : modifiers.contains modifiers := by
  rw [contains, BitVec.and_self, beq_self_eq_true]

theorem contains_trans {first second third : Modifiers} (upper : first.contains second)
    (lower : second.contains third) : first.contains third := by
  rw [contains, beq_iff_eq] at upper lower ⊢
  calc first.bits &&& third.bits
    _ = first.bits &&& second.bits &&& third.bits := by rw [BitVec.and_assoc, lower]
    _ = third.bits := by rw [upper, lower]

theorem contains_union (modifiers more : Modifiers) : (modifiers ∪ more).contains modifiers := by
  have absorbed : (modifiers.bits ||| more.bits) &&& modifiers.bits = modifiers.bits := by
    ext position
    simp only [BitVec.getElem_and, BitVec.getElem_or]
    cases modifiers.bits[position] <;> simp
  exact beq_iff_eq.mpr absorbed

end Modifiers

/-- What is known about an entity, and what is known later. -/
structure Entry.GrowsInto (before after : Entry) : Prop where
  modifiers : after.modifiers.contains before.modifiers
  anchor : ∀ {anchor}, before.anchor = some anchor → after.anchor = some anchor
  declaredType : before.declaredType.isSome → after.declaredType.isSome
  owner : before.owner.isSome → after.owner.isSome

theorem Entry.Becomes.growsInto {change : Change} {identity : Identity} {before after : Entry}
    (becomes : before.Becomes change identity after) : before.GrowsInto after where
  modifiers := by
    obtain ⟨more, same⟩ := becomes.modifiers
    rw [same]
    exact Modifiers.contains_union before.modifiers more
  anchor := becomes.anchor
  declaredType := becomes.typed
  owner := becomes.owned

def Facts.GrowsInto (before after : Facts) : Prop :=
  ∀ ⦃identity entry⦄, before.lookup identity = some entry →
    ∃ later, after.lookup identity = some later ∧ entry.GrowsInto later

instance : IsPreorder Entry Entry.GrowsInto where
  refl entry := ⟨entry.modifiers.contains_self, id, id, id⟩
  trans _ _ _ first second :=
    ⟨Modifiers.contains_trans second.modifiers first.modifiers, second.anchor ∘ first.anchor,
      second.declaredType ∘ first.declaredType, second.owner ∘ first.owner⟩

instance : IsPreorder Facts Facts.GrowsInto where
  refl _ _ entry known := ⟨entry, known, refl_of Entry.GrowsInto entry⟩
  trans _ _ _ first second _ _ known :=
    let ⟨_, found, grown⟩ := first known
    let ⟨last, found, grown'⟩ := second found
    ⟨last, found, trans_of Entry.GrowsInto grown grown'⟩

theorem Facts.growsInto_interned (facts : Facts) (identity : Identity) :
    facts.GrowsInto (facts.interned identity) := by
  intro other entry known
  refine ⟨entry, ?_, refl_of Entry.GrowsInto entry⟩
  rw [lookup_interned, known, Option.getD_some, ite_self]

namespace Change

theorem growsInto_left (change : Change) (facts : Facts) :
    facts.GrowsInto (left (change.apply facts)) := by
  intro identity entry known
  obtain ⟨later, found, becomes⟩ := (change.writes_left facts).becomes known
  exact ⟨later, found, becomes.growsInto⟩

theorem growsInto_applyAll (changes : List Change) (facts : Facts) :
    facts.GrowsInto (left (applyAll facts changes)) :=
  relates_applyAll_left growsInto_left changes facts

end Change

structure Entity.GrowsInto (before after : Entity) : Prop extends before.Keeps after where
  modifiers : after.modifiers.contains before.modifiers
  declaredType : before.declaredType.isSome → after.declaredType.isSome
  owner : before.owner.isSome → after.owner.isSome

/-- A store in which nothing is lost of another one. -/
structure Store.GrowsInto (before after : Store) : Prop where
  entity : ∀ {id entity}, before.entity? id = some entity →
    ∃ later, after.entity? id = some later ∧ entity.GrowsInto later
  associations : before.associations.toList <+: after.associations.toList

instance : IsPreorder Entity Entity.GrowsInto where
  refl entity := ⟨⟨rfl, rfl, rfl, id⟩, entity.modifiers.contains_self, id, id⟩
  trans _ _ _ first second :=
    ⟨⟨second.id.trans first.id, second.kind.trans first.kind, second.name.trans first.name,
        second.anchor ∘ first.anchor⟩,
      Modifiers.contains_trans second.modifiers first.modifiers,
      second.declaredType ∘ first.declaredType, second.owner ∘ first.owner⟩

namespace Store

variable {before after store : Store} {id : EntityId} {entity : Entity}

instance : IsPreorder Store GrowsInto where
  refl _ := ⟨fun {_ entity} found => ⟨entity, found, refl_of Entity.GrowsInto entity⟩,
    List.prefix_refl _⟩
  trans _ _ _ first second :=
    ⟨fun found =>
        let ⟨_, found, grown⟩ := first.entity found
        let ⟨last, found, grown'⟩ := second.entity found
        ⟨last, found, trans_of Entity.GrowsInto grown grown'⟩,
      first.associations.trans second.associations⟩

/-- What grows by names grows by numbers, as long as no number changes its meaning. -/
theorem Sound.growsInto (first : before.Sound) (last : after.Sound) (grown : before.Extends after)
    (facts : before.facts.GrowsInto after.facts) : before.GrowsInto after where
  associations := grown.associations
  entity {id entity} found := by
    have named := identity?_of_entity found
    have still := grown.identity named
    obtain ⟨later, foundLater, same⟩ := exists_entity_of_identity still
    obtain ⟨kind, name⟩ := Prod.mk.inj same
    obtain ⟨entry, known, becomes⟩ := facts (first.lookup_of_entity named found)
    obtain rfl := Option.some.inj ((last.lookup_of_entity still foundLater).symm.trans known)
    refine ⟨later, foundLater, ⟨?_, kind, name, becomes.anchor⟩, becomes.modifiers, ?_, ?_⟩
    · rw [first.entityId found, last.entityId foundLater]
    · rw [← first.isSome_declaredType found, ← last.isSome_declaredType foundLater]
      exact becomes.declaredType
    · rw [← first.isSome_owner found, ← last.isSome_owner foundLater]
      exact becomes.owner

theorem growsInto_appended (store : Store) (kind : AssociationKind) (source target : EntityId)
    (anchor : Option Anchor) (statement : String) :
    store.GrowsInto (store.appended kind source target anchor statement) where
  entity {_ entity} found := ⟨entity, found, refl_of Entity.GrowsInto entity⟩
  associations := by
    rw [appended, Array.toList_push]
    exact List.prefix_append _ _

end Store

end JavaFacts
