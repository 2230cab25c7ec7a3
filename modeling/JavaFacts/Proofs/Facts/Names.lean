import JavaFacts.Proofs.Facts.Requests

/-!
The facts of a store by names. An entity is its identity here, and whatever leads to an entity gives
the name of it; the numbers that a store gives out are gone. Stores with the same facts by names say
the same about a program.
-/

namespace JavaFacts

/-- Kind and unique name of an entity. -/
abbrev Identity := EntityKind × String

/-- What is known about an entity besides its identity. -/
structure Entry where
  modifiers : Modifiers
  anchor : Option Anchor
  /-- Name of the declared type. -/
  declaredType : Option String
  signatureType : Option String
  parameterTypes : List String
  position : Option Nat
  owner : Option Identity
  members : List Identity
deriving DecidableEq

/-- An entry of which nothing is known. -/
def Entry.bare : Entry :=
  { modifiers := ∅, anchor := none, declaredType := none, signatureType := none,
    parameterTypes := [], position := none, owner := none, members := [] }

/-- An association with the names of its ends. The kind of the association tells their kinds. -/
structure Link where
  kind : AssociationKind
  source : String
  target : String
  anchor : Option Anchor
  statement : String
deriving DecidableEq

@[ext]
structure Facts where
  /-- The entities in the order of their creation. -/
  known : List Identity
  lookup : Identity → Option Entry
  links : List Link

namespace Facts

def anchor? (facts : Facts) (identity : Identity) : Option Anchor :=
  (facts.lookup identity).bind (·.anchor)

def owner? (facts : Facts) (identity : Identity) : Option Identity :=
  (facts.lookup identity).bind (·.owner)

def members (facts : Facts) (identity : Identity) : List Identity :=
  ((facts.lookup identity).map (·.members)).getD []

/-- The facts with one entry replaced by what `change` makes of it. -/
def update (facts : Facts) (identity : Identity) (change : Entry → Entry) : Facts :=
  { facts with lookup := fun other =>
      if other = identity then (facts.lookup other).map change else facts.lookup other }

/-- The facts with an entry for that identity, which is new unless there is one. -/
def interned (facts : Facts) (identity : Identity) : Facts :=
  match facts.lookup identity with
  | some _ => facts
  | none =>
      { facts with
        known := facts.known ++ [identity]
        lookup := fun other => if other = identity then some .bare else facts.lookup other }

/-- The facts with `child` among the members of `owner`, and of no other entity. -/
def owned (facts : Facts) (child owner : Identity) : Facts :=
  if facts.owner? child = some owner then facts
  else
    let released := match facts.owner? child with
      | some former =>
          facts.update former fun entry =>
            { entry with members := entry.members.filter (· ≠ child) }
      | none => facts
    (released.update child fun entry => { entry with owner := some owner }).update owner
      fun entry => { entry with members := entry.members ++ [child] }

def linked (facts : Facts) (link : Link) : Facts :=
  { facts with links := facts.links ++ [link] }

variable {facts : Facts} {identity : Identity}

theorem lookup_update (change : Entry → Entry) (other : Identity) :
    (facts.update identity change).lookup other =
      if other = identity then (facts.lookup other).map change else facts.lookup other :=
  rfl

theorem interned_of_known {entry : Entry} (known : facts.lookup identity = some entry) :
    facts.interned identity = facts := by
  rw [interned, known]

theorem interned_of_missing (missing : facts.lookup identity = none) :
    facts.interned identity =
      { facts with
        known := facts.known ++ [identity]
        lookup := fun other => if other = identity then some .bare else facts.lookup other } := by
  rw [interned, missing]

theorem lookup_interned (other : Identity) :
    (facts.interned identity).lookup other =
      if other = identity then some ((facts.lookup other).getD .bare) else facts.lookup other := by
  cases known : facts.lookup identity with
  | some entry =>
      rw [interned_of_known known]
      split
      · rename_i same
        rw [same, known, Option.getD_some]
      · rfl
  | none =>
      rw [interned_of_missing known]
      by_cases same : other = identity
      · subst same
        simp only [↓reduceIte, known, Option.getD_none]
      · simp only [same, ↓reduceIte]

theorem update_of_unchanged {change : Entry → Entry}
    (unchanged : ∀ entry, facts.lookup identity = some entry → change entry = entry) :
    facts.update identity change = facts := by
  refine Facts.ext rfl (funext fun other => ?_) rfl
  rw [lookup_update]
  split
  · rename_i same
    subst same
    cases known : facts.lookup other with
    | none => rfl
    | some entry => rw [Option.map_some, unchanged entry known]
  · rfl

end Facts

namespace Store

/-- What is known about an entity, with names in place of numbers. -/
def entryOf (store : Store) (entity : Entity) : Entry where
  modifiers := entity.modifiers
  anchor := entity.anchor
  declaredType := entity.declaredType.bind fun type => (store.identity? type).map (·.2)
  signatureType := entity.signatureType
  parameterTypes := entity.parameterTypes
  position := entity.position
  owner := entity.owner.bind store.identity?
  members := entity.members.toList.filterMap store.identity?

def linkOf (store : Store) (association : Association) : Link where
  kind := association.kind
  source := store.nameOf association.source
  target := store.nameOf association.target
  anchor := association.anchor
  statement := association.statement

/-- The facts of a store by names. -/
def facts (store : Store) : Facts where
  known := store.entities.toList.map fun entity => (entity.kind, entity.name)
  lookup identity := ((store.find? identity.1 identity.2).bind store.entity?).map store.entryOf
  links := store.associations.toList.map store.linkOf

/-- A sound store in which all members of an entity exist. -/
structure Whole (store : Store) : Prop extends store.Sound where
  members : ∀ {id entity}, store.entity? id = some entity →
    ∀ member ∈ entity.members, ∃ identity, store.identity? member = some identity

variable {before after store : Store} {kind : EntityKind} {id : EntityId} {entity : Entity}
  {identity : Identity}

theorem lookup_facts (store : Store) (identity : Identity) :
    store.facts.lookup identity =
      ((store.find? identity.1 identity.2).bind store.entity?).map store.entryOf :=
  rfl

theorem known_facts (store : Store) (id : EntityId) : store.facts.known[id]? = store.identity? id := by
  rw [facts, List.getElem?_map, Array.getElem?_toList]
  rfl

/-- Facts are the same if the identities are, number by number, and so are the entries and the
links. -/
theorem facts_eq {expected : Facts} (identities : ∀ id, after.identity? id = expected.known[id]?)
    (entries : ∀ identity, after.facts.lookup identity = expected.lookup identity)
    (links : after.facts.links = expected.links) : after.facts = expected := by
  refine Facts.ext (List.ext_getElem? fun id => ?_) (funext entries) links
  rw [known_facts, identities]

theorem exists_entity_of_identity (named : store.identity? id = some identity) :
    ∃ entity, store.entity? id = some entity ∧ (entity.kind, entity.name) = identity :=
  Option.map_eq_some_iff.mp named

theorem identity?_of_entity (found : store.entity? id = some entity) :
    store.identity? id = some (entity.kind, entity.name) := by
  rw [identity?, found, Option.map_some]

namespace Sound

theorem find?_of_identity (sound : store.Sound) (named : store.identity? id = some identity) :
    store.find? identity.1 identity.2 = some id :=
  sound.find.mpr named

theorem lookup_facts (sound : store.Sound) (named : store.identity? id = some identity) :
    store.facts.lookup identity = (store.entity? id).map store.entryOf := by
  rw [Store.lookup_facts, sound.find?_of_identity named, Option.bind_some]

theorem lookup_of_entity (sound : store.Sound) (named : store.identity? id = some identity)
    (found : store.entity? id = some entity) :
    store.facts.lookup identity = some (store.entryOf entity) := by
  rw [sound.lookup_facts named, found, Option.map_some]

theorem lookup_of_find (missing : store.find? identity.1 identity.2 = none) :
    store.facts.lookup identity = none := by
  rw [Store.lookup_facts, missing]
  rfl

end Sound

theorem Sound.isSome_owner (sound : store.Sound) (found : store.entity? id = some entity) :
    (store.entryOf entity).owner.isSome = entity.owner.isSome := by
  rw [entryOf]
  cases owned : entity.owner with
  | none => rfl
  | some owner =>
      obtain ⟨_, -, _, named⟩ := (sound.entity found).owner owned
      rw [Option.bind_some, named]
      rfl

theorem Sound.isSome_declaredType (sound : store.Sound) (found : store.entity? id = some entity) :
    (store.entryOf entity).declaredType.isSome = entity.declaredType.isSome := by
  rw [entryOf]
  cases typed : entity.declaredType with
  | none => rfl
  | some type =>
      obtain ⟨_, named⟩ := (sound.entity found).declaredType typed
      rw [Option.bind_some, named]
      rfl

theorem entryOf_congr (same : ∀ id, after.identity? id = before.identity? id) (entity : Entity) :
    after.entryOf entity = before.entryOf entity := by
  have same : after.identity? = before.identity? := funext same
  simp only [entryOf, same]

/-- What is known about an entity stays the same if only others are added. -/
theorem Whole.entryOf_extended (whole : before.Whole) (grown : before.Extends after)
    (found : before.entity? id = some entity) : after.entryOf entity = before.entryOf entity := by
  have sound := whole.entity found
  have declaredType : (entity.declaredType.bind fun type => (after.identity? type).map (·.2)) =
      entity.declaredType.bind fun type => (before.identity? type).map (·.2) := by
    cases typed : entity.declaredType with
    | none => rfl
    | some type =>
        obtain ⟨name, named⟩ := sound.declaredType typed
        rw [Option.bind_some, Option.bind_some, named, grown.identity named]
  have owner : entity.owner.bind after.identity? = entity.owner.bind before.identity? := by
    cases owned : entity.owner with
    | none => rfl
    | some owner =>
        obtain ⟨kind, -, name, named⟩ := sound.owner owned
        rw [Option.bind_some, Option.bind_some, named, grown.identity named]
  have members : entity.members.toList.filterMap after.identity? =
      entity.members.toList.filterMap before.identity? := by
    refine List.filterMap_congr fun member listed => ?_
    obtain ⟨identity, named⟩ := whole.members found member (Array.mem_toList_iff.mp listed)
    rw [named, grown.identity named]
  simp only [entryOf, declaredType, owner, members]

theorem Sound.linkOf_extended (sound : before.Sound) (grown : before.Extends after)
    {association : Association} (listed : association ∈ before.associations) :
    after.linkOf association = before.linkOf association := by
  obtain ⟨number, bound, rfl⟩ := Array.mem_iff_getElem.mp listed
  have fits := sound.association (Array.getElem?_eq_getElem bound)
  obtain ⟨_, source⟩ := fits.source
  obtain ⟨_, target⟩ := fits.target
  simp only [linkOf, nameOf_eq source, nameOf_eq target, nameOf_eq (grown.identity source),
    nameOf_eq (grown.identity target)]

/-- The name of an entity is the second part of its identity. -/
theorem nameOf_congr (same : ∀ id, after.identity? id = before.identity? id) (id : EntityId) :
    after.nameOf id = before.nameOf id := by
  have name (store : Store) : store.nameOf id = ((store.identity? id).map (·.2)).getD "" := by
    rw [nameOf, identity?]
    cases store.entity? id <;> rfl
  rw [name, name, same]

theorem facts_change (sound : store.Sound) (named : store.identity? id = some identity)
    {revise : Entity → Entity} {change : Entry → Entry}
    (keeps : ∀ entity, store.entity? id = some entity → entity.Keeps (revise entity))
    (agrees : ∀ entity, store.entity? id = some entity →
      store.entryOf (revise entity) = change (store.entryOf entity)) :
    (store.change id revise).facts = store.facts.update identity change := by
  have same := identity?_change keeps
  have changedSound : ∀ kind name, (store.change id revise).find? kind name = store.find? kind name :=
    fun _ _ => rfl
  refine facts_eq (fun other => ?_) (fun other => ?_) ?_
  · rw [same]
    exact (known_facts store other).symm
  · rw [Facts.lookup_update, lookup_facts, changedSound]
    cases found : store.find? other.1 other.2 with
    | none =>
        rw [Sound.lookup_of_find found]
        split <;> rfl
    | some number =>
        have known : store.identity? number = some other := sound.find.mp found
        rw [Option.bind_some, entity?_change, sound.lookup_facts known]
        by_cases equal : other = identity
        · subst equal
          obtain rfl := sound.unique named known
          obtain ⟨entity, found, -⟩ := exists_entity_of_identity named
          rw [if_pos rfl, if_pos rfl, found, Option.map_some, Option.map_some, Option.map_some,
            Option.map_some, entryOf_congr same, agrees entity found]
        · have different : id ≠ number := by
            rintro rfl
            exact equal (Option.some.inj (known.symm.trans named))
          rw [if_neg different, if_neg equal]
          congr 1
          exact funext (entryOf_congr same)
  · refine List.map_congr_left fun association _ => ?_
    simp only [linkOf, nameOf_congr same]

theorem facts_added (whole : store.Whole) {name : String} (missing : store.find? kind name = none) :
    (store.added kind name).facts = store.facts.interned (kind, name) := by
  have grown : store.Extends (store.added kind name) := quiet_added.toExtends
  have addedSound := whole.toSound.added missing
  have bare : store.facts.lookup (kind, name) = none :=
    Sound.lookup_of_find (show store.find? (kind, name).1 (kind, name).2 = none from missing)
  refine facts_eq (fun id => ?_) (fun other => ?_) ?_
  · rw [identity?_added, Facts.interned_of_missing bare, List.getElem?_append]
    have size : store.facts.known.length = store.entities.size := by
      rw [facts, List.length_map, Array.length_toList]
    rw [size]
    rcases Nat.lt_trichotomy id store.entities.size with below | rfl | above
    · rw [if_neg (Nat.ne_of_lt below), if_pos below, known_facts]
    · simp
    · have beyond : id - store.entities.size ≠ 0 := Nat.sub_ne_zero_of_lt above
      rw [if_neg (Nat.ne_of_gt above), if_neg (Nat.lt_asymm above), identity?, entity?,
        Array.getElem?_eq_none (Nat.le_of_lt above)]
      simp [beyond]
  · rw [Facts.lookup_interned]
    by_cases same : other = (kind, name)
    · subst same
      have named : (store.added kind name).identity? store.entities.size = some (kind, name) := by
        rw [identity?_added, if_pos rfl]
      rw [if_pos rfl, bare, addedSound.lookup_facts named, entity?_added, if_pos rfl]
      rfl
    · rw [if_neg same]
      have found : (store.added kind name).find? other.1 other.2 = store.find? other.1 other.2 := by
        have inserted : (store.added kind name).find? other.1 other.2 =
            if (kind, name) == (other.1, other.2) then some store.entities.size
            else store.find? other.1 other.2 := Std.HashMap.getElem?_insert
        have different : ((kind, name) == (other.1, other.2)) = false :=
          beq_eq_false_iff_ne.mpr (Ne.symm same)
        rw [inserted, different, if_neg Bool.false_ne_true]
      cases known : store.find? other.1 other.2 with
      | none => rw [Sound.lookup_of_find (found.trans known), Sound.lookup_of_find known]
      | some id =>
          have named : store.identity? id = some other := whole.find.mp known
          obtain ⟨entity, stored, -⟩ := exists_entity_of_identity named
          have distinct : id ≠ store.entities.size := by
            rintro rfl
            rw [entity?_size] at stored
            cases stored
          rw [addedSound.lookup_facts (grown.identity named), whole.lookup_facts named, entity?_added,
            if_neg distinct, stored, Option.map_some, Option.map_some,
            whole.entryOf_extended grown stored]
  · rw [Facts.interned_of_missing bare]
    exact List.map_congr_left fun association listed =>
      whole.linkOf_extended grown (Array.mem_toList_iff.mp listed)

theorem facts_appended {kind : AssociationKind} {source target : EntityId} {anchor : Option Anchor}
    {statement : String} {sourceName targetName : String}
    (left : store.identity? source = some (kind.sourceKind, sourceName))
    (right : store.identity? target = some (kind.targetKind, targetName)) :
    (store.appended kind source target anchor statement).facts =
      store.facts.linked ⟨kind, sourceName, targetName, anchor, statement⟩ := by
  refine facts_eq (fun id => (known_facts store id).symm) (fun _ => rfl) ?_
  have last : store.linkOf ⟨store.associations.size, kind, source, target, anchor, statement⟩ =
      ⟨kind, sourceName, targetName, anchor, statement⟩ := by
    simp only [linkOf, nameOf_eq left, nameOf_eq right]
  calc
    (store.appended kind source target anchor statement).facts.links
        = (store.associations.push ⟨store.associations.size, kind, source, target, anchor,
            statement⟩).toList.map store.linkOf := rfl
    _ = store.facts.links ++ [⟨kind, sourceName, targetName, anchor, statement⟩] := by
      rw [Array.toList_push, List.map_append, List.map_singleton, last]
      rfl

theorem Whole.change (whole : store.Whole) {revise : Entity → Entity}
    (keeps : ∀ entity, store.entity? id = some entity → entity.Keeps (revise entity))
    (still : ∀ entity, store.entity? id = some entity → entity.Sound store →
      (revise entity).Sound store)
    (members : ∀ entity, store.entity? id = some entity → ∀ member ∈ (revise entity).members,
      member ∈ entity.members ∨ ∃ identity, store.identity? member = some identity) :
    (store.change id revise).Whole where
  toSound := whole.toSound.change keeps still
  members {other entity} found member listed := by
    rw [identity?_change keeps]
    rw [entity?_change] at found
    split at found
    · rename_i same
      subst same
      obtain ⟨former, known, rfl⟩ := Option.map_eq_some_iff.mp found
      exact (members former known member listed).elim (whole.members known member) fun known => known
    · exact whole.members found member listed

theorem Whole.added (whole : store.Whole) {name : String}
    (missing : store.find? kind name = none) : (store.added kind name).Whole where
  toSound := whole.toSound.added missing
  members {other entity} found member listed := by
    rw [entity?_added] at found
    split at found
    · cases found
      exact absurd listed (Array.not_mem_empty member)
    · obtain ⟨identity, named⟩ := whole.members found member listed
      exact ⟨identity, quiet_added.identity named⟩

theorem Whole.appended (whole : store.Whole) {kind : AssociationKind} {source target : EntityId}
    {anchor : Option Anchor} {statement : String} (left : store.Holds kind.sourceKind source)
    (right : store.Holds kind.targetKind target) :
    (store.appended kind source target anchor statement).Whole where
  toSound := whole.toSound.appended left right
  members {_ _} found member listed := whole.members found member listed

end Store

end JavaFacts
