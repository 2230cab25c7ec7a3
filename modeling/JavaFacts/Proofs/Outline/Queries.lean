import JavaFacts.Proofs.Facts.Supertypes
import JavaFacts.Proofs.Outline.Follows
import JavaFacts.Proofs.Scope.Shadowing

/-!
What a walk looks up in the store, by numbers and by names. Each look-up gives the same in both
forms.
-/

namespace JavaFacts

/-- Identity of an entity. -/
def Entity.identity (entity : Entity) : Identity :=
  (entity.kind, entity.name)

namespace Store

variable {store : Store} {id : EntityId} {identity : Identity}

theorem members_facts (sound : store.Sound) (named : store.identity? id = some identity)
    {entity : Entity} (found : store.entity? id = some entity) :
    store.facts.members identity =
      (entity.members.toList.filterMap store.entity?).map Entity.identity := by
  rw [Facts.members, sound.lookup_of_entity named found, Option.map_some, Option.getD_some,
    entryOf, List.map_filterMap]
  rfl

theorem map_membersOfKind (sound : store.Sound) (named : store.identity? id = some identity)
    (kind : EntityKind) :
    (store.membersOfKind id kind).map Entity.identity =
      (store.facts.members identity).filter (·.1 == kind) := by
  obtain ⟨entity, found, -⟩ := exists_entity_of_identity named
  rw [members_facts sound named found, membersOfKind, found, List.filter_map]
  rfl

theorem anchor?_facts (sound : store.Sound) {entity : Entity} (found : store.entity? id = some entity) :
    store.facts.anchor? entity.identity = entity.anchor := by
  have entry : store.facts.lookup entity.identity = some (store.entryOf entity) :=
    sound.lookup_of_entity (identity?_of_entity found) found
  rw [Facts.anchor?, entry, Option.bind_some, entryOf]

theorem any_membersOfKind_constructor (sound : store.Sound) {name : String}
    (named : store.identity? id = some (.type, name)) :
    ((store.membersOfKind id .method).any fun method =>
      Text.startsWith method.name (Naming.constructorStem name)) =
      store.facts.hasConstructor name := by
  have listed := map_membersOfKind sound named .method
  calc
    _ = ((store.membersOfKind id .method).map Entity.identity).any fun member =>
          Text.startsWith member.2 (Naming.constructorStem name) := by
      rw [List.any_map]
      rfl
    _ = store.facts.hasConstructor name := by
      rw [listed, List.any_filter]
      rfl

/-- A link of the hierarchy leaves a type if and only if it bears its name. -/
theorem source_linkOf (sound : store.Sound) {name : String}
    (named : store.identity? id = some (.type, name)) {association : Association}
    (listed : association ∈ store.associations.toList) (upward : association.kind.isHierarchy) :
    (association.source == id) = ((store.linkOf association).source == name) := by
  obtain ⟨number, bound, rfl⟩ := Array.mem_iff_getElem.mp (Array.mem_toList_iff.mp listed)
  obtain ⟨source, sourceNamed⟩ := (sound.association (Array.getElem?_eq_getElem bound)).source
  have typed : store.associations[number].kind.sourceKind = .type := by
    cases kind : store.associations[number].kind <;> rw [kind] at upward <;> first | rfl | cases upward
  rw [typed] at sourceNamed
  have equal : (linkOf store store.associations[number]).source = source := nameOf_eq sourceNamed
  rw [equal, Bool.eq_iff_iff, beq_iff_eq, beq_iff_eq]
  constructor
  · intro same
    rw [same] at sourceNamed
    exact (Prod.mk.inj (Option.some.inj (sourceNamed.symm.trans named))).2
  · rintro rfl
    exact sound.unique sourceNamed named

theorem target_linkOf (sound : store.Sound) {name : String}
    (named : store.identity? id = some (.type, name)) {association : Association}
    (listed : association ∈ store.associations.toList) (upward : association.kind.isHierarchy) :
    (association.target == id) = ((store.linkOf association).target == name) := by
  obtain ⟨number, bound, rfl⟩ := Array.mem_iff_getElem.mp (Array.mem_toList_iff.mp listed)
  obtain ⟨target, targetNamed⟩ := (sound.association (Array.getElem?_eq_getElem bound)).target
  have typed : store.associations[number].kind.targetKind = .type := by
    cases kind : store.associations[number].kind <;> rw [kind] at upward <;> first | rfl | cases upward
  rw [typed] at targetNamed
  have equal : (linkOf store store.associations[number]).target = target := nameOf_eq targetNamed
  rw [equal, Bool.eq_iff_iff, beq_iff_eq, beq_iff_eq]
  constructor
  · intro same
    rw [same] at targetNamed
    exact (Prod.mk.inj (Option.some.inj (targetNamed.symm.trans named))).2
  · rintro rfl
    exact sound.unique targetNamed named

theorem superclass?_facts (sound : store.Sound) {name : String}
    (named : store.identity? id = some (.type, name)) :
    (store.superclass? id).map store.nameOf = store.facts.superclass? name := by
  have selects : ∀ association ∈ store.associations.toList,
      (association.source == id && association.kind == .inheritance) =
        ((store.linkOf association).kind == .inheritance &&
          (store.linkOf association).source == name) := by
    intro association listed
    have kept : (store.linkOf association).kind = association.kind := rfl
    rw [kept, Bool.and_comm]
    by_cases inherits : association.kind = .inheritance
    · rw [source_linkOf sound named listed (by rw [inherits]; rfl)]
    · rw [beq_eq_false_iff_ne.mpr inherits, Bool.false_and, Bool.false_and]
  calc
    (store.superclass? id).map store.nameOf
        = ((store.associations.toList.filter fun association =>
            association.source == id && association.kind == .inheritance).head?).map
            fun association => store.nameOf association.target := by
      rw [superclass?, associationsFrom_eq sound.indexed, ← List.head?_filter, List.filter_filter,
        Option.map_map]
      simp only [Bool.and_comm]
      rfl
    _ = ((store.associations.toList.filter fun association =>
            (store.linkOf association).kind == .inheritance &&
              (store.linkOf association).source == name).head?).map
            fun association => (store.linkOf association).target := by
      rw [List.filter_congr selects]
      rfl
    _ = store.facts.superclass? name := by
      rw [Facts.superclass?, facts, List.find?_map, Option.map_map, ← List.head?_filter]
      rfl

theorem isLinked_facts (sound : store.Sound) {kind : AssociationKind} (upward : kind.isHierarchy)
    {target : EntityId} {name targetName : String}
    (named : store.identity? id = some (.type, name))
    (targetNamed : store.identity? target = some (.type, targetName)) :
    store.isLinked kind id target = store.facts.isLinked kind name targetName := by
  rw [isLinked, associationsFrom_eq sound.indexed, List.any_filter, Facts.isLinked, facts, List.any_map]
  rw [Bool.eq_iff_iff, List.any_eq_true, List.any_eq_true]
  have selects : ∀ association ∈ store.associations.toList,
      (association.source == id && (association.kind == kind && association.target == target)) =
        ((store.linkOf association).kind == kind && (store.linkOf association).source == name &&
          (store.linkOf association).target == targetName) := by
    intro association listed
    have kept : (store.linkOf association).kind = association.kind := rfl
    rw [kept]
    by_cases same : association.kind = kind
    · rw [source_linkOf sound named listed (same ▸ upward),
        target_linkOf sound targetNamed listed (same ▸ upward), same, BEq.rfl, Bool.true_and,
        Bool.true_and]
    · rw [beq_eq_false_iff_ne.mpr same, Bool.false_and, Bool.false_and, Bool.and_false,
        Bool.false_and]
  constructor
  · rintro ⟨association, listed, satisfied⟩
    exact ⟨association, listed, (selects association listed).symm.trans satisfied⟩
  · rintro ⟨association, listed, satisfied⟩
    exact ⟨association, listed, (selects association listed).trans satisfied⟩

theorem isTaken_facts (store : Store) (anchor : Anchor) (name : String) :
    Walk.isTaken store anchor name = store.facts.isTaken anchor name := by
  rw [Walk.isTaken, Facts.isTaken, Facts.anchor?, lookup_facts]
  cases (store.find? .type name).bind store.entity? <;> rfl

theorem freeName_facts (store : Store) (anchor : Anchor) (name : Nat → String) (steps ordinal : Nat) :
    Walk.freeName store anchor name steps ordinal =
      store.facts.freeName anchor name steps ordinal := by
  induction steps generalizing ordinal with
  | zero => rfl
  | succ steps ih => rw [Walk.freeName, Facts.freeName, isTaken_facts, ih]

theorem length_known (store : Store) : store.facts.known.length = store.entities.size := by
  rw [facts, List.length_map, Array.length_toList]

/-- Entities of a store with their numbers. -/
def Stored (store : Store) (entities : List Entity) : Prop :=
  ∀ entity ∈ entities, store.entity? entity.id = some entity

theorem lists_of_stored {entities : List Entity} (stored : store.Stored entities) :
    store.Lists (entities.map (·.id)) (entities.map Entity.identity) := by
  refine List.forall₂_map_left_iff.mpr (List.forall₂_map_right_iff.mpr ?_)
  exact List.forall₂_same.mpr fun entity listed => identity?_of_entity (stored entity listed)

/-- The levels of a snapshot are those of the entities in them. -/
theorem levelsOf_map (levels : List (List Entity)) :
    levelsOf (levels.map (·.map (·.id))) (levels.map (·.map Entity.identity)) =
      levels.map Snapshot.levelOf := by
  have level (entities : List Entity) :
      List.zipWith (fun id identity => (simpleName identity.1 identity.2, id))
        (entities.map (·.id)) (entities.map Entity.identity) = Snapshot.levelOf entities := by
    rw [List.zipWith_map, List.zipWith_self]
    rfl
  rw [levelsOf, List.zipWith_map, List.zipWith_self]
  exact List.map_congr_left fun entities _ => level entities

end Store

namespace Progress.Stands

variable {site : Site} {before : Progress} {standing : Standing}

/-- The types around are the same by number if and only if they are by name. -/
theorem isInMethod (stands : before.Stands site standing) :
    before.scopes.isInMethod = standing.isInMethod := by
  unfold Scopes.isInMethod Standing.isInMethod
  have types := stands.types
  have methods := stands.methods
  rcases scopesTypes : before.scopes.types with - | ⟨frame, frames⟩ <;>
    rcases standingTypes : standing.types with - | ⟨type, outerTypes⟩ <;>
    rw [scopesTypes, standingTypes] at types <;> cases types
  rename_i typeMeans _
  rcases scopesMethods : before.scopes.methods with - | ⟨method, frames⟩ <;>
    rcases standingMethods : standing.methods with - | ⟨named, namedMethods⟩ <;>
    rw [scopesMethods, standingMethods] at methods <;> cases methods
  rename_i methodMeans _
  have declaring := methodMeans.declaringType
  dsimp only
  rw [Bool.eq_iff_iff, beq_iff_eq, beq_iff_eq]
  constructor
  · intro same
    rw [same, typeMeans.entity] at declaring
    exact (Prod.mk.inj (Option.some.inj declaring)).2.symm
  · intro same
    rw [same] at declaring
    exact stands.store.toSound.unique declaring typeMeans.entity

theorem declaredName (stands : before.Stands site standing) (header : TypeHeader) (anchor : Anchor) :
    Walk.declaredName before.store before.scopes site.package header anchor =
      before.store.facts.chosenName anchor (standing.naming site.origin header) := by
  have inMethod := stands.isInMethod
  unfold Walk.declaredName Standing.naming
  cases header.binding.bind Naming.bindingName? with
  | some name => rfl
  | none =>
      have types := stands.types
      rw [Scopes.type?]
      rcases scopesTypes : before.scopes.types with - | ⟨frame, frames⟩ <;>
        rcases standingTypes : standing.types with - | ⟨type, outerTypes⟩ <;>
        rw [scopesTypes, standingTypes] at types <;> cases types
      · cases package : site.package with
        | none =>
            have origin : site.origin.package = none := package
            simp only [List.head?_nil, origin]
            rfl
        | some name =>
            have origin : site.origin.package = some name := package
            simp only [List.head?_nil, origin]
            rfl
      · rename_i means _
        simp only [List.head?_cons, inMethod, means.named]
        split
        · rw [Store.freeName_facts, ← Store.length_known]
          rfl
        · rfl

theorem declaredOwner (stands : before.Stands site standing) :
    before.store.identity? (Walk.declaredOwner site before.scopes) =
      some (standing.typeOwner site.origin) := by
  have inMethod := stands.isInMethod
  unfold Walk.declaredOwner Standing.typeOwner
  unfold Scopes.isInMethod Standing.isInMethod at inMethod
  have types := stands.types
  have methods := stands.methods
  rcases scopesTypes : before.scopes.types with - | ⟨frame, frames⟩ <;>
    rcases standingTypes : standing.types with - | ⟨type, outerTypes⟩ <;>
    rw [scopesTypes, standingTypes] at types <;> cases types
  · exact stands.package
  · rename_i means _
    rcases scopesMethods : before.scopes.methods with - | ⟨method, frames⟩ <;>
      rcases standingMethods : standing.methods with - | ⟨named, namedMethods⟩ <;>
      rw [scopesMethods, standingMethods] at methods <;> cases methods
    · exact means.entity
    · rename_i methodMeans _
      rw [scopesTypes, standingTypes, scopesMethods, standingMethods] at inMethod
      dsimp only at inMethod ⊢
      rw [inMethod]
      split
      · exact methodMeans.entity
      · exact means.entity

theorem block? (stands : before.Stands site standing) (id : BlockId) :
    before.scopes.block? id = standing.openScopes.block? id := by
  rw [Scopes.block?, stands.blocks]
  rfl

/-- A snapshot holds what the facts say is visible. -/
theorem capture (stands : before.Stands site standing) {method : EntityId} {name : String}
    (named : before.store.identity? method = some (.method, name)) :
    ∃ numbers,
      List.Forall₂ before.store.Lists numbers (before.store.facts.visible name standing.localBlocks
        standing.openBlocks.2 standing.openBlocks.1) ∧
      Snapshot.capture before.store before.scopes method before.scopes.block =
        (levelsOf numbers (before.store.facts.visible name standing.localBlocks
          standing.openBlocks.2 standing.openBlocks.1)).foldl Snapshot.addLevel ∅ := by
  have sound := stands.store.toSound
  let entities (limit : Nat) (blocks : List BlockId) : List (List Entity) :=
    blocks.map (Snapshot.localsOf before.store before.scopes method limit) ++
      [before.store.membersOfKind method .parameter]
  have visible (limit : Nat) (blocks : List BlockId) :
      before.store.facts.visible name standing.localBlocks limit blocks =
        (entities limit blocks).map (·.map Entity.identity) := by
    rw [Facts.visible, List.map_append, List.map_map, List.map_singleton,
      Store.map_membersOfKind sound named]
    congr 1
    refine List.map_congr_left fun block _ => ?_
    rw [Facts.localsIn, Function.comp_apply, Snapshot.localsOf]
    have listed := Store.map_membersOfKind sound named .localVariable
    calc
      _ = ((before.store.facts.members (.method, name)).filter (·.1 == .localVariable)).filter
            fun member => standing.localBlocks member.2 == some block &&
              (before.store.facts.anchor? member).any (·.stop ≤ limit) := by
        rw [List.filter_filter]
        refine List.filter_congr fun member _ => ?_
        rw [Bool.and_assoc, Bool.and_comm]
      _ = _ := by
        rw [← listed, List.filter_map]
        congr 1
        refine List.filter_congr fun member known => ?_
        obtain ⟨stored, kind⟩ := Store.entity?_of_mem_membersOfKind sound known
        have block := stands.localBlocks member.id
        rw [Store.blockByName, Store.identity?_of_entity stored, kind] at block
        rw [Function.comp_apply, Store.anchor?_facts sound stored, block]
        rfl
  have stored (limit : Nat) (blocks : List BlockId) :
      ∀ level ∈ entities limit blocks, before.store.Stored level := by
    intro level listed entity member
    rcases List.mem_append.mp listed with listed | listed
    · obtain ⟨block, -, rfl⟩ := List.mem_map.mp listed
      exact (Store.entity?_of_mem_membersOfKind sound (List.mem_filter.mp member).1).1
    · obtain rfl := List.mem_singleton.mp listed
      exact (Store.entity?_of_mem_membersOfKind sound member).1
  have captured : Snapshot.capture before.store before.scopes method before.scopes.block =
      ((entities standing.openBlocks.2 standing.openBlocks.1).map Snapshot.levelOf).foldl
        Snapshot.addLevel ∅ := by
    have block? := stands.block?
    have outer (steps : Nat) (id : BlockId) :
        before.scopes.outerBlocks steps id = standing.openScopes.outerBlocks steps id := by
      induction steps generalizing id with
      | zero => rfl
      | succ steps ih => simp only [Scopes.outerBlocks, block?, ih]
    rw [Snapshot.capture, Standing.openBlocks, stands.block]
    cases standing.block with
    | none => rfl
    | some id =>
        simp only [Option.bind_some, block?]
        cases standing.openScopes.block? id with
        | none => rfl
        | some block =>
            simp only [Option.map_some, Scopes.ancestry, outer]
            rw [List.map_append, List.map_map]
            rfl
  refine ⟨(entities standing.openBlocks.2 standing.openBlocks.1).map (·.map (·.id)), ?_, ?_⟩
  · rw [visible]
    refine List.forall₂_map_left_iff.mpr (List.forall₂_map_right_iff.mpr (List.forall₂_same.mpr ?_))
    exact fun level listed => Store.lists_of_stored (stored _ _ level listed)
  · rw [captured, visible, Store.levelsOf_map]

end Progress.Stands

end JavaFacts
