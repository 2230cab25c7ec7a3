import JavaFacts.Proofs.Facts.Memberships

/-!
Requests that are refused. Behind any operations a request for an owner, a place or an association is
refused for what is wrong with the request itself and for nothing else, and no part of a refused one
is done.
-/

namespace JavaFacts

namespace Edit

variable {store : Store} {condition : Prop} {id child owner : EntityId}

/-- The request fails under the condition and only then, and changes nothing if it fails. -/
structure Guarded (request : Edit α) (store : Store) (condition : Prop) : Prop where
  refused : condition → ∃ error, request.perform store = (.error error, store)
  only : ∀ error after, request.perform store = (.error error, after) → condition ∧ after = store

namespace Guarded

variable {request : Edit α}

theorem of_refused {error : FactError} (performed : request.perform store = (.error error, store))
    (holds : condition) : Guarded request store condition where
  refused _ := ⟨error, performed⟩
  only error' after failed := by
    rw [performed] at failed
    exact ⟨holds, (Prod.mk.inj failed).2.symm⟩

theorem of_accepted {result : α} {after : Store}
    (performed : request.perform store = (.ok result, after)) (fails : ¬condition) :
    Guarded request store condition where
  refused holds := absurd holds fails
  only error' after failed := by
    rw [performed] at failed
    cases (Prod.mk.inj failed).1

end Guarded

/-- The former owner of a child would be the first entity that is written to. Where owners and members
agree it exists, so it is never what a request is refused for. -/
theorem setOwner_guarded (housed : store.Housed) (child owner : EntityId) :
    Guarded (setOwner child owner) store
      (store.entity? child = none ∨ store.entity? owner = none ∨ child = owner) := by
  by_cases fits : child ≠ owner ∧ (store.entity? owner).isSome ∧ (store.entity? child).isSome
  · obtain ⟨apart, around, known⟩ := fits
    obtain ⟨host, around⟩ := Option.isSome_iff_exists.mp around
    obtain ⟨entity, known⟩ := Option.isSome_iff_exists.mp known
    have former (old : EntityId) (owned : entity.owner = some old) : (store.entity? old).isSome := by
      have owns : store.ownerOf? child = some old := by
        rw [Store.ownerOf?, known, Option.bind_some, owned]
      exact Store.isSome_of_mem_membersOf (housed.mem_membersOf_iff.mpr owns)
    exact .of_accepted (perform_setOwner apart around known former) (by simp [apart, around, known])
  · obtain ⟨error, refused⟩ := (setOwner_cases store child owner).resolve_right
      fun accepted => fits ⟨accepted.1, accepted.2.1, accepted.2.2.1⟩
    rw [not_and_or, not_and_or, not_not, Option.not_isSome_iff_eq_none,
      Option.not_isSome_iff_eq_none] at fits
    refine .of_refused refused ?_
    rcases fits with self | unowned | unknown
    · exact .inr (.inr self)
    · exact .inr (.inl unowned)
    · exact .inl unknown

theorem perform_declare_of_found {entity : Entity} (found : store.entity? id = some entity)
    (anchor : Anchor) : (declare id anchor).perform store =
      match entity.anchor with
      | some place =>
          if place = anchor then (.ok (), store)
          else (.error (.duplicateDeclaration entity.kind.name entity.name place.render anchor.render),
            store)
      | none => (.ok (), store.change id fun entity => { entity with anchor := some anchor }) := by
  rw [declare, perform_bind, perform_entity found]
  dsimp only
  cases entity.anchor with
  | none => exact perform_update found
  | some place =>
      by_cases same : place = anchor
      · simp only [same, beq_self_eq_true, ↓reduceIte]
        rfl
      · simp only [beq_eq_false_iff_ne.mpr same, Bool.false_eq_true, same, ↓reduceIte]
        rfl

theorem declare_guarded (store : Store) (id : EntityId) (anchor : Anchor) :
    Guarded (declare id anchor) store
      (store.entity? id = none ∨ ∃ place, store.anchor? id = some place ∧ place ≠ anchor) := by
  cases found : store.entity? id with
  | none =>
      have refused : (declare id anchor).perform store =
          (.error (.entityNotFound (toString id)), store) := by
        rw [declare, perform_bind, perform_entity_of_none found]
      exact .of_refused refused (.inl rfl)
  | some entity =>
      have placed : store.anchor? id = entity.anchor := by rw [Store.anchor?, found, Option.bind_some]
      have performed := perform_declare_of_found found anchor
      rw [placed]
      cases declared : entity.anchor with
      | none =>
          rw [declared] at performed
          exact .of_accepted performed (by simp)
      | some place =>
          simp only [declared] at performed
          by_cases same : place = anchor
          · rw [if_pos same] at performed
            exact .of_accepted performed (by simp [same])
          · rw [if_neg same] at performed
            exact .of_refused performed (.inr ⟨place, rfl, same⟩)

theorem addAssociation_guarded (store : Store) (kind : AssociationKind) (source target : EntityId)
    (anchor : Option Anchor) (statement : String) :
    Guarded (addAssociation kind source target anchor statement) store
      (store.entity? source = none ∨ store.entity? target = none) := by
  by_cases known : (store.entity? source).isSome ∧ (store.entity? target).isSome
  · refine .of_accepted (perform_addAssociation known.1 known.2) ?_
    simpa [Option.isSome_iff_ne_none] using known
  · obtain ⟨error, refused⟩ :=
      (addAssociation_cases store kind source target anchor statement).resolve_right known
    rw [not_and_or, Option.not_isSome_iff_eq_none, Option.not_isSome_iff_eq_none] at known
    exact .of_refused refused known

end Edit

namespace Store

/-- In a store behind any operations, a request that is refused changes nothing. An owner is refused
if and only if one of the two entities is unknown or both are the same, a place if and only if the
entity is unknown or has another place, and an association if and only if one of its ends is unknown. -/
theorem operations_refuse_as_a_whole (operations : List Operation) :
    let store := (∅ : Store).afterAll operations
    (∀ child owner, (Edit.setOwner child owner).Guarded store
      (store.entity? child = none ∨ store.entity? owner = none ∨ child = owner)) ∧
    (∀ id anchor, (Edit.declare id anchor).Guarded store
      (store.entity? id = none ∨ ∃ place, store.anchor? id = some place ∧ place ≠ anchor)) ∧
    ∀ kind source target anchor statement,
      (Edit.addAssociation kind source target anchor statement).Guarded store
        (store.entity? source = none ∨ store.entity? target = none) := by
  intro store
  have housed : store.Housed := Housed.empty.afterAll operations
  exact ⟨Edit.setOwner_guarded housed, Edit.declare_guarded store, Edit.addAssociation_guarded store⟩

/-- A type that is declared once more at the same place, and then at another one. -/
theorem operations_refuse_as_a_whole_of_declared_type :
    let place : Anchor := ⟨"T.java", 0, 10⟩
    let store := (∅ : Store).afterAll [.intern .type "T", .declare 0 place]
    (∀ error after, (Edit.declare 0 place).perform store ≠ (.error error, after)) ∧
      (∃ error, (Edit.declare 0 ⟨"U.java", 0, 10⟩).perform store = (.error error, store)) ∧
      (∃ error, (Edit.setOwner 0 0).perform store = (.error error, store)) ∧
      ∃ error, (Edit.addAssociation .subtyping 0 1 none "").perform store = (.error error, store) := by
  intro place store
  let one := (∅ : Store).added .type "T"
  have declared : store = one.change 0 fun entity => { entity with anchor := some place } := by
    have performed := Edit.perform_declare_of_found (rfl : one.entity? 0 = some (.new 0 .type "T")) place
    calc store
      _ = one.after (.declare 0 place) := by
        simp [store, one, afterAll, after_intern, intern_of_missing, find?_empty]
      _ = _ := congrArg Prod.snd performed
  have type : store.entity? 0 = some { Entity.new 0 .type "T" with anchor := some place } := by
    rw [declared]
    rfl
  have missing : store.entity? 1 = none := by
    rw [declared]
    rfl
  have placed : store.anchor? 0 = some place := by
    rw [anchor?, type, Option.bind_some]
  obtain ⟨owners, places, ends⟩ :=
    operations_refuse_as_a_whole [.intern .type "T", .declare 0 place]
  refine ⟨fun error after failed => ?_, (places 0 _).refused (.inr ⟨place, placed, by decide⟩),
    (owners 0 0).refused (.inr (.inr rfl)), (ends .subtyping 0 1 none "").refused (.inr missing)⟩
  rcases ((places 0 place).only error after failed).1 with unknown | ⟨other, stands, differs⟩
  · rw [type] at unknown
    cases unknown
  · rw [placed] at stands
    exact differs (Option.some.inj stands).symm

end Store

end JavaFacts
