import JavaFacts.Proofs.Facts.Changes

/-!
Who owns whom among the facts. Requests never forget an entity, and leave none without an owner
except packages, whether they are refused or not.
-/

namespace JavaFacts

namespace Facts

def Knows (facts : Facts) (identity : Identity) : Prop :=
  facts.lookup identity ≠ none

/-- Whatever is known stays known. -/
def Retains (before after : Facts) : Prop :=
  ∀ identity, before.Knows identity → after.Knows identity

/-- Every entity has an owner that it may have, except packages and the entities exempted. -/
def OwnedBut (may : Identity → Identity → Prop) (exempt : Identity → Prop) (facts : Facts) : Prop :=
  ∀ identity, facts.Knows identity → identity.1 ≠ .package → ¬ exempt identity →
    ∃ owner, facts.owner? identity = some owner ∧ may identity owner

def OwnedBy (may : Identity → Identity → Prop) (facts : Facts) : Prop :=
  facts.OwnedBut may fun _ => False

instance : IsPreorder Facts Retains where
  refl _ _ := id
  trans _ _ _ first second identity := second identity ∘ first identity

variable {facts : Facts} {identity other child owner : Identity}

theorem knows_of_owner? (owned : facts.owner? identity = some owner) : facts.Knows identity := by
  intro missing
  rw [owner?, missing] at owned
  cases owned

theorem knows_interned :
    (facts.interned identity).Knows other ↔ facts.Knows other ∨ other = identity := by
  unfold Knows
  rw [lookup_interned]
  split
  · rename_i same
    exact ⟨fun _ => .inr same, fun _ => nofun⟩
  · rename_i different
    exact ⟨.inl, fun known => known.resolve_right different⟩

theorem knows_update {change : Entry → Entry} :
    (facts.update identity change).Knows other ↔ facts.Knows other := by
  unfold Knows
  rw [lookup_update]
  split
  · rw [ne_eq, ne_eq, Option.map_eq_none_iff]
  · exact Iff.rfl

theorem knows_detailed {detail : Detail} :
    (facts.detailed identity detail).Knows other ↔ facts.Knows other :=
  knows_update

theorem knows_owned : (facts.owned child owner).Knows other ↔ facts.Knows other := by
  unfold owned
  split
  · exact Iff.rfl
  · cases facts.owner? child with
    | none => exact knows_update.trans knows_update
    | some former => exact knows_update.trans (knows_update.trans knows_update)

theorem knows_adopted :
    (facts.adopted child owner).Knows other ↔ facts.Knows other ∨ other = child :=
  knows_owned.trans knows_interned

theorem retains_withType (name : String) : facts.Retains (facts.withType name) := by
  intro other known
  have interned : (facts.interned (.type, name)).Knows other := knows_interned.mpr (.inl known)
  unfold withType
  dsimp only
  split
  · exact interned
  · split
    · exact knows_detailed.mpr (knows_owned.mpr (knows_interned.mpr (.inl interned)))
    · exact knows_owned.mpr (knows_interned.mpr (.inl interned))

theorem retains_withMethod (type name : String) (parameterTypes : List String) :
    facts.Retains (facts.withMethod type name parameterTypes) := by
  intro other known
  have interned : (facts.interned (.method, name)).Knows other := knows_interned.mpr (.inl known)
  unfold withMethod
  dsimp only
  split
  · exact interned
  · exact knows_detailed.mpr (knows_owned.mpr (retains_withType type other interned))

theorem retains_withField (type field : String) : facts.Retains (facts.withField type field) := by
  intro other known
  have interned : (facts.interned (.field, Naming.fieldName type field)).Knows other :=
    knows_interned.mpr (.inl known)
  unfold withField
  dsimp only
  split
  · exact interned
  · exact knows_owned.mpr (retains_withType type other interned)

theorem retains_withReturnType (method type : String) :
    facts.Retains (facts.withReturnType method type) := by
  intro other known
  unfold withReturnType
  split
  · exact known
  · exact knows_detailed.mpr (retains_withType type other known)

theorem retains_withConstructor (type : String) : facts.Retains (facts.withConstructor type) := by
  intro other known
  unfold withConstructor
  split
  · exact known
  · exact knows_detailed.mpr (knows_adopted.mpr (.inl known))

theorem owner?_interned : (facts.interned identity).owner? other = facts.owner? other := by
  unfold owner?
  rw [lookup_interned]
  split
  · cases facts.lookup other <;> rfl
  · rfl

theorem owner?_update {change : Entry → Entry} (kept : ∀ entry, (change entry).owner = entry.owner) :
    (facts.update identity change).owner? other = facts.owner? other := by
  unfold owner?
  rw [lookup_update]
  split
  · cases facts.lookup other with
    | none => rfl
    | some entry => exact kept entry
  · rfl

theorem owner?_detailed {detail : Detail} :
    (facts.detailed identity detail).owner? other = facts.owner? other :=
  owner?_update fun _ => rfl

/-- The members of an entity have nothing to do with owners. -/
theorem owner?_updateMembers (change : List Identity → List Identity) :
    (facts.update identity fun entry => { entry with members := change entry.members }).owner? other =
      facts.owner? other :=
  owner?_update fun _ => rfl

theorem owner?_assign (known : facts.Knows child) :
    (facts.update child fun entry => { entry with owner := some owner }).owner? other =
      if other = child then some owner else facts.owner? other := by
  unfold owner?
  rw [lookup_update]
  split
  · rename_i same
    obtain ⟨entry, found⟩ := Option.ne_none_iff_exists'.mp known
    rw [same, found]
    rfl
  · rfl

theorem owner?_owned (known : facts.Knows child) :
    (facts.owned child owner).owner? other =
      if other = child then some owner else facts.owner? other := by
  unfold owned
  split
  · rename_i same
    split
    · rename_i selected
      rw [selected, same]
    · rfl
  · refine (owner?_updateMembers (· ++ [child])).trans ?_
    cases facts.owner? child with
    | none => exact owner?_assign known
    | some former =>
        refine (owner?_assign (knows_update.mpr known)).trans ?_
        exact congrArg (fun rest => if other = child then some owner else rest)
          (owner?_updateMembers (·.filter (· ≠ child)))

theorem members_interned : (facts.interned identity).members other = facts.members other := by
  rw [members, members, lookup_interned]
  split
  · cases facts.lookup other <;> rfl
  · rfl

theorem members_update {change : Entry → Entry} (kept : ∀ entry, (change entry).members = entry.members) :
    (facts.update identity change).members other = facts.members other := by
  rw [members, members, lookup_update]
  split
  · rw [Option.map_map]
    exact congrArg (Option.getD · []) (congrArg (Option.map · _) (funext kept))
  · rfl

theorem interned_of_owner? (owned : (facts.owner? child).isSome) : facts.interned child = facts := by
  obtain ⟨owner, owned⟩ := Option.isSome_iff_exists.mp owned
  obtain ⟨entry, found⟩ := Option.ne_none_iff_exists'.mp (knows_of_owner? owned)
  exact interned_of_known found

namespace OwnedBut

variable {may : Identity → Identity → Prop} {exempt : Identity → Prop}

theorem interned (owned : facts.OwnedBut may exempt) (child : Identity) :
    (facts.interned child).OwnedBut may fun other => exempt other ∨ other = child := by
  intro other known kind bound
  rw [owner?_interned]
  exact owned other ((knows_interned.mp known).resolve_right fun same => bound (.inr same)) kind
    fun free => bound (.inl free)

theorem internedPackage (owned : facts.OwnedBut may exempt) (name : String) :
    (facts.interned (.package, name)).OwnedBut may exempt := by
  intro other known kind bound
  rw [owner?_interned]
  exact owned other ((knows_interned.mp known).resolve_right fun same => kind (by rw [same])) kind bound

theorem unowned (owned : facts.OwnedBut may fun other => exempt other ∨ other = child)
    (known : facts.Knows child) (allowed : may child owner) :
    (facts.owned child owner).OwnedBut may exempt := by
  intro other otherKnown kind bound
  rw [owner?_owned known]
  split
  · rename_i same
    exact ⟨owner, rfl, same ▸ allowed⟩
  · rename_i different
    exact owned other (knows_owned.mp otherKnown) kind fun free =>
      free.elim bound different

theorem update {change : Entry → Entry} (owned : facts.OwnedBut may exempt)
    (kept : ∀ entry, (change entry).owner = entry.owner) :
    (facts.update identity change).OwnedBut may exempt := by
  intro other known kind bound
  rw [owner?_update kept]
  exact owned other (knows_update.mp known) kind bound

theorem detailed (owned : facts.OwnedBut may exempt) (detail : Detail) :
    (facts.detailed identity detail).OwnedBut may exempt :=
  owned.update fun _ => rfl

theorem adopted (owned : facts.OwnedBut may exempt) (allowed : may child owner) :
    (facts.adopted child owner).OwnedBut may exempt :=
  (owned.interned child).unowned (knows_interned.mpr (.inr rfl)) allowed

theorem withType (owned : facts.OwnedBut may exempt) {name : String}
    (allowed : may (.type, name) (.package, Naming.packageOf name)) :
    (facts.withType name).OwnedBut may exempt := by
  unfold Facts.withType
  dsimp only
  split
  · rename_i known
    rw [owner?_interned] at known
    rwa [interned_of_owner? known]
  · have interned := (owned.interned (.type, name)).internedPackage (Naming.packageOf name)
    have settled := interned.unowned (knows_interned.mpr (.inl (knows_interned.mpr (.inr rfl)))) allowed
    split
    · exact settled.detailed _
    · exact settled

theorem withMethod (owned : facts.OwnedBut may exempt) {type name : String}
    (parameterTypes : List String) (allowed : may (.type, type) (.package, Naming.packageOf type))
    (owns : may (.method, name) (.type, type)) :
    (facts.withMethod type name parameterTypes).OwnedBut may exempt := by
  unfold Facts.withMethod
  dsimp only
  split
  · rename_i known
    rw [owner?_interned] at known
    rwa [interned_of_owner? known]
  · have typed := (owned.interned (.method, name)).withType allowed
    exact (typed.unowned (retains_withType type _ (knows_interned.mpr (.inr rfl))) owns).detailed _

theorem withField (owned : facts.OwnedBut may exempt) {type field : String}
    (allowed : may (.type, type) (.package, Naming.packageOf type))
    (owns : may (.field, Naming.fieldName type field) (.type, type)) :
    (facts.withField type field).OwnedBut may exempt := by
  unfold Facts.withField
  dsimp only
  split
  · rename_i known
    rw [owner?_interned] at known
    rwa [interned_of_owner? known]
  · have typed := (owned.interned (.field, Naming.fieldName type field)).withType allowed
    exact typed.unowned (retains_withType type _ (knows_interned.mpr (.inr rfl))) owns

theorem withReturnType (owned : facts.OwnedBut may exempt) {method type : String}
    (allowed : may (.type, type) (.package, Naming.packageOf type)) :
    (facts.withReturnType method type).OwnedBut may exempt := by
  unfold Facts.withReturnType
  split
  · exact owned
  · exact (owned.withType allowed).detailed _

theorem withConstructor (owned : facts.OwnedBut may exempt) {type : String}
    (owns : may (.method, Naming.methodName type "" true []) (.type, type)) :
    (facts.withConstructor type).OwnedBut may exempt := by
  unfold Facts.withConstructor
  split
  · exact owned
  · exact (owned.adopted owns).detailed _

end OwnedBut

end Facts

namespace Change

/-- The entities that are known behind a request. -/
def targets : Change → List Identity
  | place child .. | adopt child _ => [child]
  | _ => []

/-- The owner that a request gives an entity is known, and one that the entity may have. -/
def Fits (may : Identity → Identity → Prop) (facts : Facts) : Change → Prop
  | place child _ owner => may child owner ∧ facts.Knows owner
  | adopt child owner => may child owner
  | ensureMethod type name _ => may (.method, name) (.type, type)
  | ensureField type field => may (.field, Naming.fieldName type field) (.type, type)
  | ensureConstructor type => may (.method, Naming.methodName type "" true []) (.type, type)
  | describe .. | ensureType _ | ensureReturnType .. | append _ | appendOnce _ => True

variable {may : Identity → Identity → Prop} {facts : Facts}

theorem Fits.retained {change : Change} {after : Facts} (fits : change.Fits may facts)
    (grown : facts.Retains after) : change.Fits may after := by
  cases change with
  | place child anchor owner => exact ⟨fits.1, grown owner fits.2⟩
  | _ => exact fits

/-- What a request leaves behind, whether it is refused or not. -/
def left : Except Refusal Facts → Facts
  | .ok facts => facts
  | .error refusal => refusal.facts

theorem apply_owned (packages : ∀ name, may (.type, name) (.package, Naming.packageOf name))
    (owned : facts.OwnedBy may) {change : Change} (fits : change.Fits may facts) :
    (left (change.apply facts)).OwnedBy may := by
  cases change with
  | place child anchor owner =>
      obtain ⟨allowed, known⟩ := fits
      rw [apply, Facts.placed]
      dsimp only
      split
      · -- only an entity with a place can be declared at another one
        rename_i elsewhere
        have placed : facts.Knows child := by
          intro missing
          rw [Facts.anchor?, Facts.lookup_interned, if_pos rfl, missing] at elsewhere
          cases elsewhere
        obtain ⟨entry, found⟩ := Option.ne_none_iff_exists'.mp placed
        rw [left, Facts.interned_of_known found]
        exact owned
      · split
        · rename_i same
          obtain ⟨entry, found⟩ := Option.ne_none_iff_exists'.mp (same ▸ known)
          rw [left, Facts.interned_of_known found]
          exact owned.update fun _ => rfl
        · have settled : ((facts.interned child).update child fun entry =>
              { entry with anchor := some anchor }).OwnedBut may fun other => False ∨ other = child :=
            (owned.interned child).update fun _ => rfl
          exact settled.unowned (Facts.knows_update.mpr (Facts.knows_interned.mpr (.inr rfl))) allowed
  | adopt child owner => exact owned.adopted fits
  | describe identity detail => exact owned.detailed detail
  | ensureType name => exact owned.withType (packages name)
  | ensureMethod type name parameterTypes => exact owned.withMethod parameterTypes (packages type) fits
  | ensureField type field => exact owned.withField (packages type) fits
  | ensureReturnType method type => exact owned.withReturnType (packages type)
  | ensureConstructor type => exact owned.withConstructor fits
  | append link => exact owned
  | appendOnce link =>
      rw [apply, left, Facts.linkedOnce]
      split
      · exact owned
      · exact owned

theorem retains_left (facts : Facts) (change : Change) : facts.Retains (left (change.apply facts)) := by
  cases change with
  | place child anchor owner =>
      intro other known
      have interned : (facts.interned child).Knows other := Facts.knows_interned.mpr (.inl known)
      rw [apply, Facts.placed]
      dsimp only
      split
      · exact interned
      · split
        · exact Facts.knows_update.mpr interned
        · exact Facts.knows_owned.mpr (Facts.knows_update.mpr interned)
  | adopt child owner => exact fun _ known => Facts.knows_adopted.mpr (.inl known)
  | describe identity detail => exact fun _ => Facts.knows_detailed.mpr
  | ensureType name => exact Facts.retains_withType name
  | ensureMethod type name parameterTypes => exact Facts.retains_withMethod type name parameterTypes
  | ensureField type field => exact Facts.retains_withField type field
  | ensureReturnType method type => exact Facts.retains_withReturnType method type
  | ensureConstructor type => exact Facts.retains_withConstructor type
  | append link => exact fun _ => id
  | appendOnce link =>
      rw [apply, left, Facts.linkedOnce]
      split
      · exact fun _ => id
      · exact fun _ => id

theorem knows_targets {change : Change} {after : Facts} (applied : change.apply facts = .ok after) :
    ∀ target ∈ change.targets, after.Knows target := by
  intro target member
  cases change with
  | place child anchor owner =>
      rw [List.mem_singleton.mp member]
      rw [apply, Facts.placed] at applied
      dsimp only at applied
      split at applied
      · cases applied
      · split at applied
        · cases applied
        · cases applied
          exact Facts.knows_owned.mpr (Facts.knows_update.mpr (Facts.knows_interned.mpr (.inr rfl)))
  | adopt child owner =>
      cases applied
      exact Facts.knows_adopted.mpr (.inr (List.mem_singleton.mp member))
  | _ => cases member

theorem applyAll_cons {change : Change} {changes : List Change} {after : Facts}
    (applied : applyAll facts (change :: changes) = .ok after) :
    ∃ middle, change.apply facts = .ok middle ∧ applyAll middle changes = .ok after := by
  rw [applyAll] at applied
  cases first : change.apply facts with
  | error middle =>
      rw [first] at applied
      cases applied
  | ok middle =>
      rw [first] at applied
      exact ⟨middle, rfl, applied⟩

theorem keeps_applyAll (holds : Facts → Prop) {changes : List Change}
    (keeps : ∀ change ∈ changes, ∀ facts after, holds facts → change.apply facts = .ok after →
      holds after)
    {after : Facts} (initial : holds facts) (applied : applyAll facts changes = .ok after) :
    holds after := by
  induction changes generalizing facts with
  | nil =>
      cases applied
      exact initial
  | cons change changes ih =>
      rw [List.forall_mem_cons] at keeps
      obtain ⟨middle, first, rest⟩ := applyAll_cons applied
      exact ih keeps.2 (keeps.1 facts middle initial first) rest

/-- What any request keeps, whether it is refused or not, several of them keep. -/
theorem relates_applyAll_left {relates : Facts → Facts → Prop} [IsPreorder Facts relates]
    (step : ∀ (change : Change) facts, relates facts (left (change.apply facts)))
    (changes : List Change) (facts : Facts) : relates facts (left (applyAll facts changes)) := by
  induction changes generalizing facts with
  | nil => exact refl_of relates facts
  | cons change changes ih =>
      have first := step change facts
      rw [applyAll]
      cases applied : change.apply facts with
      | error after =>
          rw [applied] at first
          exact first
      | ok after =>
          rw [applied] at first
          exact trans_of relates first (ih after)

theorem relates_applyAll {relates : Facts → Facts → Prop} [IsPreorder Facts relates]
    (step : ∀ (change : Change) facts, relates facts (left (change.apply facts)))
    {changes : List Change} {after : Facts} (applied : applyAll facts changes = .ok after) :
    relates facts after := by
  have kept := relates_applyAll_left step changes facts
  rwa [applied] at kept

theorem retains_applyAll {changes : List Change} {after : Facts}
    (applied : applyAll facts changes = .ok after) : facts.Retains after :=
  relates_applyAll (fun change facts => retains_left facts change) applied

/-- What several requests leave behind, whether one of them is refused or not. -/
theorem applyAll_owned (packages : ∀ name, may (.type, name) (.package, Naming.packageOf name))
    (owned : facts.OwnedBy may) {changes : List Change} (fits : ∀ change ∈ changes, change.Fits may facts) :
    (left (applyAll facts changes)).OwnedBy may ∧ facts.Retains (left (applyAll facts changes)) := by
  refine ⟨?_, relates_applyAll_left (fun change facts => retains_left facts change) changes facts⟩
  induction changes generalizing facts with
  | nil => exact owned
  | cons change changes ih =>
      rw [List.forall_mem_cons] at fits
      have settled := apply_owned packages owned fits.1
      have grown := retains_left facts change
      rw [applyAll]
      cases applied : change.apply facts with
      | error after =>
          rw [applied] at settled
          exact settled
      | ok after =>
          rw [applied] at settled grown
          exact ih settled fun other member => (fits.2 other member).retained grown

theorem knows_applyAll {changes : List Change} {after : Facts}
    (applied : applyAll facts changes = .ok after) :
    ∀ change ∈ changes, ∀ target ∈ change.targets, after.Knows target := by
  induction changes generalizing facts with
  | nil => exact fun _ => (nomatch ·)
  | cons change changes ih =>
      obtain ⟨middle, first, rest⟩ := applyAll_cons applied
      intro other member target targeted
      rcases List.mem_cons.mp member with rfl | member
      · exact retains_applyAll rest target (knows_targets first target targeted)
      · exact ih rest other member target targeted

end Change

namespace Store

theorem owner?_facts {store : Store} (sound : store.Sound) {id : EntityId} {entity : Entity}
    (found : store.entity? id = some entity) :
    store.facts.owner? (entity.kind, entity.name) = entity.owner.bind store.identity? := by
  rw [Facts.owner?, sound.lookup_of_entity (identity?_of_entity found) found]
  rfl

theorem knows_facts {store : Store} (sound : store.Sound) {id : EntityId} {entity : Entity}
    (found : store.entity? id = some entity) : store.facts.Knows (entity.kind, entity.name) := by
  rw [Facts.Knows, sound.lookup_of_entity (identity?_of_entity found) found]
  exact nofun

end Store

end JavaFacts
