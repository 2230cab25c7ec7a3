import JavaFacts.Proofs.Facts.Operations

/-!
Numbers as identities of entities. Whatever operations a store went through, kind and name of an entity
lead to its number and back, and a number stands for the same kind and name until the store is cleared.
-/

namespace JavaFacts.Store

variable {store before after : Store} {kind : EntityKind} {name : String} {id child owner : EntityId}
  {operation : Operation}

theorem Identified.empty : (∅ : Store).Identified :=
  Sound.empty.identified

theorem identity?_moved (store : Store) (child owner id : EntityId) :
    (store.moved child owner).identity? id = store.identity? id := by
  rw [identity?, entity?_moved, Option.map_map]
  rfl

theorem ids_moved (store : Store) (child owner : EntityId) :
    (store.moved child owner).ids = store.ids := by
  rw [moved]
  cases store.ownerOf? child <;> rfl

theorem Identified.moved (identified : store.Identified) (child owner : EntityId) :
    (store.moved child owner).Identified := by
  refine ⟨fun {id entity} found => ?_, fun {kind name id} => ?_⟩
  · rw [entity?_moved] at found
    obtain ⟨former, known, rfl⟩ := Option.map_eq_some_iff.mp found
    have numbered : former.id = id := identified.entityId known
    exact numbered
  · rw [find?, ids_moved, identity?_moved]
    exact identified.find

theorem Step.identified (step : before.Step operation after) (identified : before.Identified) :
    after.Identified := by
  cases step with
  | unchanged => exact identified
  | interned missing => exact identified.added missing
  | moved => exact identified.moved _ _
  | revised id revision => exact identified.change fun entity _ => revision.identity entity
  | appended => exact ⟨identified.entityId, identified.find⟩
  | cleared => exact .empty

/-- Only clearing takes an identity away. -/
theorem Step.identity? (step : before.Step operation after) (kept : operation ≠ .clear)
    {identity : EntityKind × String} (known : before.identity? id = some identity) :
    after.identity? id = some identity := by
  cases step with
  | unchanged => exact known
  | interned => exact quiet_added.identity known
  | moved => exact (identity?_moved _ _ _ _).trans known
  | revised _ revision =>
      rw [identity?_change_of_same fun entity _ => revision.identity entity]
      exact known
  | appended => exact known
  | cleared => exact absurd rfl kept

theorem Identified.afterAll (identified : store.Identified) (operations : List Operation) :
    (store.afterAll operations).Identified := by
  induction operations generalizing store with
  | nil => exact identified
  | cons operation operations ih => exact ih ((step_after store operation).identified identified)

theorem identity?_afterAll {operations : List Operation} (kept : .clear ∉ operations)
    {identity : EntityKind × String} (known : store.identity? id = some identity) :
    (store.afterAll operations).identity? id = some identity := by
  induction operations generalizing store with
  | nil => exact known
  | cons operation operations ih =>
      rw [List.mem_cons, not_or] at kept
      exact ih kept.2 ((step_after store operation).identity? (Ne.symm kept.1) known)

/-- Interning gives a number that bears the identity from then on. -/
theorem Identified.identity?_intern (identified : store.Identified) (kind : EntityKind) (name : String) :
    (store.intern kind name).2.identity? (store.intern kind name).1 = some (kind, name) := by
  unfold intern
  cases found : store.find? kind name with
  | some id => exact identified.find.mp found
  | none => exact (identity?_added _).trans (if_pos rfl)

theorem Identified.intern (identified : store.Identified) (kind : EntityKind) (name : String) :
    (store.intern kind name).2.Identified := by
  unfold Store.intern
  cases found : store.find? kind name with
  | some id => exact identified
  | none => exact identified.added found

theorem intern_of_find (found : store.find? kind name = some id) :
    store.intern kind name = (id, store) := by
  rw [intern, found]

theorem find?_intern {otherKind : EntityKind} {otherName : String}
    (other : (otherKind, otherName) ≠ (kind, name)) :
    (store.intern kind name).2.find? otherKind otherName = store.find? otherKind otherName := by
  unfold intern
  cases found : store.find? kind name with
  | some id => rfl
  | none => exact (find?_added _ _).trans (if_neg other.symm)

/-- In a store behind any operations a number is an identity. An entity bears the number of its place;
kind and name belong to one entity at most, which is the one that a look-up leads to. Interning a pair
that is known changes nothing, that of a new pair adds one entity and disturbs no look-up of another
pair; the number that it gives is given again until the store is cleared. -/
theorem operations_keep_identities (operations : List Operation) :
    let store := (∅ : Store).afterAll operations
    (∀ id entity, store.entity? id = some entity → entity.id = id) ∧
      (∀ left right first second, store.entity? left = some first →
        store.entity? right = some second → first.kind = second.kind → first.name = second.name →
        left = right) ∧
      (∀ kind name id, store.find? kind name = some id ↔
        ∃ entity, store.entity? id = some entity ∧ entity.kind = kind ∧ entity.name = name) ∧
      ∀ kind name,
        let id := (store.intern kind name).1
        let grown := (store.intern kind name).2
        grown.find? kind name = some id ∧
          (∀ known, store.find? kind name = some known → id = known ∧ grown = store) ∧
          (store.find? kind name = none →
            id = store.entities.size ∧ grown.entities = store.entities.push (.new id kind name)) ∧
          (∀ otherKind otherName, (otherKind, otherName) ≠ (kind, name) →
            grown.find? otherKind otherName = store.find? otherKind otherName) ∧
          ∀ later, .clear ∉ later →
            (grown.afterAll later).intern kind name = (id, grown.afterAll later) := by
  intro store
  have identified : store.Identified := Identified.empty.afterAll operations
  refine ⟨fun id entity => identified.entityId, ?_, fun kind name id => ?_, fun kind name => ?_⟩
  · intro left right first second foundLeft foundRight sameKind sameName
    have named : store.identity? left = some (first.kind, first.name) := by
      rw [identity?, foundLeft, Option.map_some]
    refine identified.unique named ?_
    rw [identity?, foundRight, Option.map_some, sameKind, sameName]
  · rw [identified.find, identity?, Option.map_eq_some_iff]
    simp only [Prod.mk.injEq]
  · have named := identified.identity?_intern kind name
    have grownIdentified := identified.intern kind name
    dsimp only
    refine ⟨grownIdentified.find.mpr named, fun known found => ?_, fun missing => ?_,
      fun otherKind otherName other => find?_intern other, fun later kept => ?_⟩
    · rw [intern_of_find found]
      exact ⟨rfl, rfl⟩
    · rw [intern_of_missing missing]
      exact ⟨rfl, rfl⟩
    · exact intern_of_find ((grownIdentified.afterAll later).find.mpr (identity?_afterAll kept named))

/-- A package and a type of one name. -/
theorem operations_keep_identities_of_namesakes :
    let store := (∅ : Store).afterAll [.intern .package "p"]
    let grown := (store.intern .type "p").2
    let later := grown.afterAll [.setOwner 1 0, .intern .method "p"]
    grown.find? .package "p" = some 0 ∧ grown.entities.size = 2 ∧
      later.intern .type "p" = (1, later) := by
  intro store grown later
  have one : store = { (∅ : Store) with
      entities := #[.new 0 .package "p"], ids := .insert ∅ (.package, "p") 0 } :=
    congrArg Prod.snd (intern_empty .package "p")
  have package : store.find? .package "p" = some 0 := by
    rw [one]
    exact Std.HashMap.getElem?_insert_self
  have missing : store.find? .type "p" = none := by
    rw [one]
    exact Std.HashMap.getElem?_insert.trans Std.HashMap.getElem?_empty
  obtain ⟨-, -, -, interned⟩ := operations_keep_identities [.intern .package "p"]
  obtain ⟨-, -, new, others, again⟩ := interned .type "p"
  obtain ⟨number, entities⟩ := new missing
  have size : store.entities.size = 1 := by
    rw [one]
    rfl
  refine ⟨(others .package "p" (by decide)).trans package, ?_, ?_⟩
  · calc grown.entities.size
      _ = (store.entities.push (.new _ .type "p")).size := congrArg Array.size entities
      _ = store.entities.size + 1 := Array.size_push _
      _ = 2 := congrArg (· + 1) size
  · have kept := again [.setOwner 1 0, .intern .method "p"] (by simp)
    exact kept.trans (congrArg (·, later) (number.trans size))

end JavaFacts.Store
