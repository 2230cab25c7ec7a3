import JavaFacts.Proofs.Facts.Ownership

/-!
What a request writes at most. Requests are put together from a few kinds of writes, and what all of
these leave alone every request does: whatever has a place and an owner keeps them, unless the request
moves the entity itself.
-/

namespace JavaFacts

/-- A detail that tells flags only. -/
structure Detail.IsLight (detail : Detail) : Prop where
  declaredType : detail.declaredType = none
  signatureType : detail.signatureType = none
  parameterTypes : detail.parameterTypes = none
  position : detail.position = none

theorem Modifiers.union_assoc (first second third : Modifiers) :
    first ∪ second ∪ third = first ∪ (second ∪ third) :=
  congrArg Modifiers.mk (BitVec.or_assoc first.bits second.bits third.bits)

namespace Change

/-- The owners that a request gives to entities which may have had others. -/
def moves : Change → List (Identity × Identity)
  | place child _ owner | adopt child owner => [(child, owner)]
  | ensureConstructor type => [((.method, Naming.methodName type "" true []), (.type, type))]
  | _ => []

/-- Whether a request moves an entity to no owner but this one. -/
def KeepsIn (change : Change) (child owner : Identity) : Prop :=
  ∀ move ∈ change.moves, move.1 = child → move.2 = owner

/-- Whether a request tells nothing but flags about an entity by which it is declared. -/
def DescribesLightly (change : Change) (identity : Identity) : Prop :=
  ∀ detail, change = describe identity detail → detail.IsLight

end Change

/-- Name of the method of a parameter. -/
def Naming.holderOf (parameter : String) : String :=
  (Text.beforeLast? (· == '.') parameter).getD ""

/-- Whether every parameter belongs to the method that its name tells. -/
def Facts.AtHome (facts : Facts) : Prop :=
  ∀ ⦃name owner⦄, facts.owner? (.parameter, name) = some owner → owner = (.method, Naming.holderOf name)

/-- Whether a request moves parameters only to the methods that their names tell. -/
def Change.MovesHome (change : Change) : Prop :=
  ∀ move ∈ change.moves, move.1.1 = .parameter → move.2 = (.method, Naming.holderOf move.1.2)

/-- What a request leaves of an entry. -/
structure Entry.Becomes (change : Change) (identity : Identity) (before after : Entry) : Prop where
  modifiers : ∃ more, after.modifiers = before.modifiers ∪ more
  anchor : ∀ {anchor}, before.anchor = some anchor → after.anchor = some anchor
  typed : before.declaredType.isSome → after.declaredType.isSome
  owned : before.owner.isSome → after.owner.isSome
  owner : ∀ {owner}, before.owner = some owner → change.KeepsIn identity owner →
    after.owner = some owner
  detail : before.owner.isSome → change.DescribesLightly identity →
    (∀ {type}, before.declaredType = some type → after.declaredType = some type) ∧
      after.signatureType = before.signatureType ∧ after.parameterTypes = before.parameterTypes ∧
      after.position = before.position
  isInterface : before.owner.isSome → (∀ detail, change ≠ .describe identity detail) →
    after.modifiers.contains Modifiers.isInterface = before.modifiers.contains Modifiers.isInterface
  members : ∀ {member}, member ∈ before.members → change.KeepsIn member identity →
    member ∈ after.members

namespace Entry.Becomes

variable {change : Change} {identity : Identity} {before middle after : Entry}

theorem refl (entry : Entry) : entry.Becomes change identity entry where
  modifiers := ⟨∅, (Modifiers.union_empty _).symm⟩
  anchor same := same
  typed known := known
  owned known := known
  owner same _ := same
  detail _ _ := ⟨fun same => same, rfl, rfl, rfl⟩
  isInterface _ _ := rfl
  members listed _ := listed

theorem trans (first : before.Becomes change identity middle)
    (second : middle.Becomes change identity after) : before.Becomes change identity after where
  modifiers := by
    obtain ⟨more, first⟩ := first.modifiers
    obtain ⟨others, second⟩ := second.modifiers
    exact ⟨more ∪ others, by rw [second, first, Modifiers.union_assoc]⟩
  anchor same := second.anchor (first.anchor same)
  typed known := second.typed (first.typed known)
  owned known := second.owned (first.owned known)
  owner same keeps := second.owner (first.owner same keeps) keeps
  detail known light := by
    obtain ⟨type, signature, parameters, position⟩ := first.detail known light
    obtain ⟨type', signature', parameters', position'⟩ := second.detail (first.owned known) light
    exact ⟨fun same => type' (type same), signature'.trans signature, parameters'.trans parameters,
      position'.trans position⟩
  isInterface known other := (second.isInterface (first.owned known) other).trans (first.isInterface known other)
  members listed keeps := second.members (first.members listed keeps) keeps

end Entry.Becomes

/-- What a detail makes of an entry. -/
theorem Entry.Becomes.detailed {change : Change} {identity : Identity} {before entry : Entry}
    {detail : Detail} (becomes : before.Becomes change identity entry)
    (same : before.owner.isSome → change.DescribesLightly identity →
      (∀ {type}, entry.declaredType = some type → (detail.declaredType <|> entry.declaredType) = some type) ∧
        (detail.signatureType <|> entry.signatureType) = entry.signatureType ∧
        detail.parameterTypes.getD entry.parameterTypes = entry.parameterTypes ∧
        (detail.position <|> entry.position) = entry.position)
    (flags : before.owner.isSome → (∀ other, change ≠ .describe identity other) →
      detail.modifiers.contains Modifiers.isInterface = false) :
    before.Becomes change identity (entry.detailed detail) where
  modifiers := by
    obtain ⟨more, known⟩ := becomes.modifiers
    refine ⟨more ∪ detail.modifiers, ?_⟩
    rw [Entry.detailed, known, Modifiers.union_assoc]
  anchor placed := becomes.anchor placed
  typed known := by
    obtain ⟨type, typed⟩ := Option.isSome_iff_exists.mp (becomes.typed known)
    show (detail.declaredType <|> entry.declaredType).isSome
    rw [typed]
    cases detail.declaredType <;> rfl
  owned known := becomes.owned known
  owner owned keeps := becomes.owner owned keeps
  detail owned light := by
    obtain ⟨type, signature, parameters, position⟩ := becomes.detail owned light
    obtain ⟨type', signature', parameters', position'⟩ := same owned light
    exact ⟨fun typed => type' (type typed), signature'.trans signature, parameters'.trans parameters,
      position'.trans position⟩
  isInterface owned other := by
    rw [Entry.detailed, Modifiers.contains_union_isInterface, flags owned other, Bool.or_false]
    exact becomes.isInterface owned other
  members listed keeps := becomes.members listed keeps

/-- Whether a detail that is written does not hurt an entry with an owner, or is what the request is
about. -/
def Change.MayDetail (change : Change) (start facts : Facts) (identity : Identity)
    (detail : Detail) : Prop :=
  change = .describe identity detail ∨ detail = { modifiers := Modifiers.isSynthetic } ∨
    start.owner? identity = none ∨
    (((facts.lookup identity).bind (·.declaredType)).isSome = false ∧
      ∃ type : String, detail = { declaredType := type })

/-- The facts that writes for a request lead to. -/
inductive Change.Writes (change : Change) (start : Facts) : Facts → Prop where
  | start : Writes change start start
  | interned {facts : Facts} (identity : Identity) : Writes change start facts →
      Writes change start (facts.interned identity)
  | anchored {facts : Facts} {child owner : Identity} {anchor : Anchor} : Writes change start facts →
      change = .place child anchor owner →
      (∀ other, facts.anchor? child = some other → other = anchor) →
      Writes change start (facts.update child fun entry => { entry with anchor := some anchor })
  | owned {facts : Facts} {child owner : Identity} : Writes change start facts →
      facts.Knows child →
      (child, owner) ∈ change.moves ∨ facts.owner? child = none ∧ child.1 ≠ .parameter ∧
        owner.1 ≠ .method →
      Writes change start (facts.owned child owner)
  | detailed {facts : Facts} {identity : Identity} {detail : Detail} : Writes change start facts →
      change.MayDetail start facts identity detail →
      Writes change start (facts.detailed identity detail)
  | linked {facts : Facts} (link : Link) : Writes change start facts →
      change = .append link ∨ change = .appendOnce link →
      Writes change start (facts.linked link)

namespace Facts

variable {facts : Facts} {identity child owner : Identity}

theorem anchor?_interned (other : Identity) :
    (facts.interned identity).anchor? other = facts.anchor? other := by
  rw [anchor?, anchor?, lookup_interned]
  split
  · cases facts.lookup other <;> rfl
  · rfl

theorem known_owned : (facts.owned child owner).known = facts.known := by
  unfold owned
  split
  · rfl
  · split <;> rfl

/-- Whether everything that is known is in the list. -/
def Listed (facts : Facts) : Prop :=
  ∀ ⦃identity⦄, facts.Knows identity → identity ∈ facts.known

theorem Listed.interned (listed : facts.Listed) (identity : Identity) :
    (facts.interned identity).Listed := by
  cases found : facts.lookup identity with
  | some entry => rwa [interned_of_known found]
  | none =>
      intro other known
      rw [Facts.interned, found]
      rcases knows_interned.mp known with before | rfl
      · exact List.mem_append_left _ (listed before)
      · exact List.mem_append_right _ List.mem_cons_self

theorem listed_of_sound {store : Store} (sound : store.Sound) : store.facts.Listed := by
  intro identity known
  obtain ⟨entry, found⟩ := Option.ne_none_iff_exists'.mp known
  rw [Store.lookup_facts] at found
  obtain ⟨entity, found, -⟩ := Option.map_eq_some_iff.mp found
  obtain ⟨id, named, -⟩ := Option.bind_eq_some_iff.mp found
  exact List.mem_of_getElem? ((store.known_facts id).trans (sound.find.mp named))

/-- An update of one entry as a change of all of them. -/
theorem lookup_update_map (change : Entry → Entry) (other : Identity) :
    (facts.update identity change).lookup other =
      (facts.lookup other).map fun entry => if other = identity then change entry else entry := by
  rw [lookup_update]
  split
  · rfl
  · exact Option.map_id'.symm

/-- The entries behind a change of owner. -/
theorem lookup_owned (moved : facts.owner? child ≠ some owner) (other : Identity) :
    (facts.owned child owner).lookup other = (facts.lookup other).map fun entry =>
      { entry with
        owner := if other = child then some owner else entry.owner
        members := (if some other = facts.owner? child then entry.members.filter (· ≠ child)
          else entry.members) ++ if other = owner then [child] else [] } := by
  rw [owned, if_neg moved]
  cases facts.owner? child with
  | none =>
      simp only [lookup_update_map, Option.map_map]
      congr 1
      funext entry
      dsimp only [Function.comp_apply]
      split_ifs <;> first | rfl | contradiction | simp only [List.append_nil]
  | some former =>
      simp only [lookup_update_map, Option.map_map, Option.some.injEq]
      congr 1
      funext entry
      dsimp only [Function.comp_apply]
      split_ifs <;> first | rfl | simp only [List.append_nil]

theorem owned_self (owned : facts.owner? child = some owner) : facts.owned child owner = facts := by
  rw [Facts.owned, if_pos owned]

/-- A type that source refers to has nothing to do with methods and variables. -/
theorem lookup_withType (name : String) (noType : identity.1 ≠ .type) (noPackage : identity.1 ≠ .package) :
    (facts.withType name).lookup identity = facts.lookup identity := by
  have noChild : identity ≠ (.type, name) := fun same => noType (congrArg Prod.fst same)
  have noOwner : identity ≠ (.package, Naming.packageOf name) :=
    fun same => noPackage (congrArg Prod.fst same)
  have interned : (facts.interned (.type, name)).lookup identity = facts.lookup identity := by
    rw [lookup_interned, if_neg noChild]
  unfold withType
  dsimp only
  split
  · exact interned
  · rename_i unowned
    have unowned : (((facts.interned (.type, name)).interned
        (.package, Naming.packageOf name)).owner? (.type, name)) = none := by
      rw [owner?_interned]
      exact Option.not_isSome_iff_eq_none.mp unowned
    have owned : (((facts.interned (.type, name)).interned (.package, Naming.packageOf name)).owned
        (.type, name) (.package, Naming.packageOf name)).lookup identity = facts.lookup identity := by
      rw [lookup_owned (by rw [unowned]; nofun), unowned, lookup_interned, if_neg noOwner, interned]
      simp [noChild, noOwner]
    split
    · rw [detailed, lookup_update, if_neg noChild, owned]
    · exact owned

end Facts

namespace Change

variable {change : Change} {start facts : Facts} {identity : Identity}

namespace Writes

theorem withType (writes : change.Writes start facts) (name : String) :
    change.Writes start (facts.withType name) := by
  have interned := writes.interned (.type, name)
  unfold Facts.withType
  dsimp only
  split
  · exact interned
  · rename_i unowned
    have owned : change.Writes start
        (((facts.interned (.type, name)).interned (.package, Naming.packageOf name)).owned
          (.type, name) (.package, Naming.packageOf name)) :=
      .owned (interned.interned (.package, Naming.packageOf name))
      (Facts.knows_interned.mpr (.inl (Facts.knows_interned.mpr (.inr rfl))))
      (.inr ⟨by rw [Facts.owner?_interned]; exact Option.not_isSome_iff_eq_none.mp unowned,
        nofun, nofun⟩)
    split
    · exact owned.detailed (.inr (.inl rfl))
    · exact owned

theorem becomes (writes : change.Writes start facts) {entry : Entry}
    (known : start.lookup identity = some entry) :
    ∃ later, facts.lookup identity = some later ∧ entry.Becomes change identity later := by
  induction writes with
  | start => exact ⟨entry, known, .refl entry⟩
  | interned other _ ih =>
      obtain ⟨later, found, becomes⟩ := ih
      refine ⟨later, ?_, becomes⟩
      rw [Facts.lookup_interned, found, Option.getD_some, ite_self]
  | anchored _ _ same ih =>
      obtain ⟨later, found, becomes⟩ := ih
      rw [Facts.lookup_update_map, found]
      refine ⟨_, rfl, becomes.trans ?_⟩
      split
      · rename_i here
        refine { Entry.Becomes.refl later with anchor := fun placed => ?_ }
        exact congrArg some (same _ (by rw [Facts.anchor?, ← here, found]; exact placed)).symm
      · exact .refl later
  | @owned facts child owner _ knows moved ih =>
      obtain ⟨later, found, becomes⟩ := ih
      by_cases still : facts.owner? child = some owner
      · rw [Facts.owned_self still]
        exact ⟨later, found, becomes⟩
      rw [Facts.lookup_owned still, found]
      refine ⟨_, rfl, becomes.trans ?_⟩
      have here (former : Identity) (owned : later.owner = some former) (same : identity = child) :
          facts.owner? child = some former := by
        rw [Facts.owner?, ← same, found]
        exact owned
      exact { Entry.Becomes.refl later with
        owned := fun owned => by
          dsimp only
          split
          · rfl
          · exact owned
        owner := fun {former} owned keeps => by
          dsimp only
          split
          · rename_i same
            rcases moved with moved | ⟨unowned, -⟩
            · exact congrArg some (keeps _ moved same.symm)
            · rw [here former owned same] at unowned
              cases unowned
          · exact owned
        members := fun {member} listed keeps => by
          dsimp only
          by_cases same : member = child
          · rcases moved with moved | ⟨unowned, -⟩
            · have here : owner = identity := keeps _ moved same.symm
              rw [if_pos here.symm]
              exact List.mem_append_right _ (List.mem_singleton.mpr same)
            · rw [unowned, if_neg (Option.some_ne_none _)]
              exact List.mem_append_left _ listed
          · refine List.mem_append_left _ ?_
            split
            · exact List.mem_filter.mpr ⟨listed, decide_eq_true same⟩
            · exact listed }
  | @detailed facts other detail _ may ih =>
      obtain ⟨later, found, becomes⟩ := ih
      rw [Facts.detailed, Facts.lookup_update_map, found]
      refine ⟨_, rfl, ?_⟩
      split
      · rename_i here
        subst here
        refine becomes.detailed (fun owned light => ?_) fun owned other => ?_
        · rcases may with rfl | rfl | unowned | ⟨untyped, type, rfl⟩
          · have light := light detail rfl
            exact ⟨fun typed => by rw [light.declaredType]; exact typed,
              by rw [light.signatureType]; rfl, by rw [light.parameterTypes]; rfl,
              by rw [light.position]; rfl⟩
          · exact ⟨fun typed => typed, rfl, rfl, rfl⟩
          · rw [Facts.owner?, known, Option.bind_some] at unowned
            rw [unowned] at owned
            cases owned
          · rw [found, Option.bind_some] at untyped
            refine ⟨fun typed => ?_, rfl, rfl, rfl⟩
            rw [typed] at untyped
            cases untyped
        · rcases may with rfl | rfl | unowned | ⟨-, type, rfl⟩
          · exact absurd rfl (other detail)
          · rfl
          · rw [Facts.owner?, known, Option.bind_some] at unowned
            rw [unowned] at owned
            cases owned
          · have empty : (∅ : Modifiers).contains Modifiers.isInterface = false := by decide
            exact empty
      · exact becomes
  | linked link _ _ ih => exact ih

/-- Nothing that has an owner is left without one, and what a request does not move keeps its own. -/
theorem owner? (writes : change.Writes start facts) {owner : Identity}
    (owned : start.owner? identity = some owner) :
    (facts.owner? identity).isSome ∧
      (change.KeepsIn identity owner → facts.owner? identity = some owner) := by
  obtain ⟨entry, known, owned⟩ := Option.bind_eq_some_iff.mp owned
  obtain ⟨later, found, becomes⟩ := writes.becomes known
  rw [Facts.owner?, found, Option.bind_some]
  exact ⟨becomes.owned (by rw [owned]; rfl), becomes.owner owned⟩

theorem anchor? (writes : change.Writes start facts) {anchor : Anchor}
    (placed : start.anchor? identity = some anchor) : facts.anchor? identity = some anchor := by
  obtain ⟨entry, known, placed⟩ := Option.bind_eq_some_iff.mp placed
  obtain ⟨later, found, becomes⟩ := writes.becomes known
  rw [Facts.anchor?, found, Option.bind_some]
  exact becomes.anchor placed

/-- What has a place had it before, or the request declares it there. -/
theorem told (writes : change.Writes start facts) {anchor : Anchor}
    (placed : facts.anchor? identity = some anchor) :
    start.anchor? identity = some anchor ∨ ∃ owner, change = .place identity anchor owner := by
  induction writes with
  | start => exact .inl placed
  | interned other _ ih =>
      rw [Facts.anchor?_interned] at placed
      exact ih placed
  | @anchored facts child owner place _ place? _ ih =>
      rw [Facts.anchor?, Facts.lookup_update_map] at placed
      obtain ⟨entry, found, placed⟩ := Option.bind_eq_some_iff.mp placed
      obtain ⟨former, known, rfl⟩ := Option.map_eq_some_iff.mp found
      split at placed
      · rename_i here
        obtain rfl : place = anchor := Option.some.inj placed
        exact .inr ⟨owner, here ▸ place?⟩
      · exact ih (by rw [Facts.anchor?, known]; exact placed)
  | @owned facts child owner _ _ _ ih =>
      by_cases still : facts.owner? child = some owner
      · rw [Facts.owned_self still] at placed
        exact ih placed
      · rw [Facts.anchor?, Facts.lookup_owned still] at placed
        obtain ⟨entry, found, placed⟩ := Option.bind_eq_some_iff.mp placed
        obtain ⟨former, known, rfl⟩ := Option.map_eq_some_iff.mp found
        exact ih (by rw [Facts.anchor?, known]; exact placed)
  | @detailed facts other detail _ _ ih =>
      rw [Facts.anchor?, Facts.detailed, Facts.lookup_update_map] at placed
      obtain ⟨entry, found, placed⟩ := Option.bind_eq_some_iff.mp placed
      obtain ⟨former, known, rfl⟩ := Option.map_eq_some_iff.mp found
      refine ih ?_
      rw [Facts.anchor?, known]
      split at placed <;> exact placed
  | linked _ _ _ ih => exact ih placed

theorem links (writes : change.Writes start facts) :
    ∃ added, facts.links = start.links ++ added ∧
      ∀ link ∈ added, change = .append link ∨ change = .appendOnce link := by
  induction writes with
  | start => exact ⟨[], (List.append_nil _).symm, fun _ => (nomatch ·)⟩
  | @interned facts other _ ih =>
      have same : (facts.interned other).links = facts.links := by
        unfold Facts.interned
        split <;> rfl
      rwa [same]
  | anchored _ _ _ ih => exact ih
  | @owned facts child owner _ _ _ ih =>
      have same : (facts.owned child owner).links = facts.links := by
        unfold Facts.owned
        split
        · rfl
        · split <;> rfl
      rwa [same]
  | detailed _ _ ih => exact ih
  | @linked facts link _ told ih =>
      obtain ⟨added, same, known⟩ := ih
      refine ⟨added ++ [link], by rw [Facts.linked, same, List.append_assoc], fun other member => ?_⟩
      rcases List.mem_append.mp member with member | member
      · exact known other member
      · rw [List.mem_singleton.mp member]
        exact told

theorem length_known (writes : change.Writes start facts) :
    start.known.length ≤ facts.known.length := by
  induction writes with
  | start => exact Nat.le_refl _
  | @interned facts other _ ih =>
      refine ih.trans ?_
      unfold Facts.interned
      split
      · exact Nat.le_refl _
      · rw [List.length_append]
        exact Nat.le_add_right _ _
  | anchored _ _ _ ih => exact ih
  | owned _ _ _ ih => rwa [Facts.known_owned]
  | detailed _ _ ih => exact ih
  | linked _ _ _ ih => exact ih

theorem listed (writes : change.Writes start facts) (listed : start.Listed) : facts.Listed := by
  induction writes with
  | start => exact listed
  | interned other _ ih => exact ih.interned other
  | anchored _ _ _ ih => exact fun _ known => ih (Facts.knows_update.mp known)
  | @owned facts child owner _ _ _ ih =>
      intro identity known
      rw [Facts.known_owned]
      exact ih (Facts.knows_owned.mp known)
  | detailed _ _ ih => exact fun _ known => ih (Facts.knows_detailed.mp known)
  | linked _ _ _ ih => exact ih

theorem atHome (writes : change.Writes start facts) (home : start.AtHome) (moves : change.MovesHome) :
    facts.AtHome := by
  induction writes with
  | start => exact home
  | interned _ _ ih =>
      intro name owner owned
      rw [Facts.owner?_interned] at owned
      exact ih owned
  | @anchored facts child _ anchor _ _ _ ih =>
      intro name owner owned
      have same : (facts.update child fun entry => { entry with anchor := some anchor }).owner?
          (.parameter, name) = facts.owner? (.parameter, name) := Facts.owner?_update fun _ => rfl
      exact ih (same.symm.trans owned)
  | owned _ knows moved ih =>
      intro name owner owned
      rw [Facts.owner?_owned knows] at owned
      split at owned
      · rename_i same
        obtain rfl := Option.some.inj owned
        rcases moved with moved | ⟨-, other, -⟩
        · subst same
          exact moves _ moved rfl
        · exact absurd (congrArg Prod.fst same).symm other
      · exact ih owned
  | detailed _ _ ih =>
      intro name owner owned
      rw [Facts.owner?_detailed] at owned
      exact ih owned
  | linked _ _ _ ih => exact ih

/-- The members of a method that are not moved, and the parameters unless the request moves some of
its own, stay in order. -/
theorem filter_members (writes : change.Writes start facts) {method : String} {select : Identity → Bool}
    (home : start.AtHome) (moves : change.MovesHome)
    (apart : ∀ move ∈ change.moves, select move.1 →
      move.1.1 = .parameter ∧ move.2 ≠ (.method, method)) :
    (facts.members (.method, method)).filter select = (start.members (.method, method)).filter select := by
  induction writes with
  | start => rfl
  | interned other _ ih => rw [Facts.members_interned, ih]
  | anchored _ _ _ ih => rw [Facts.members_update (by exact fun _ => rfl), ih]
  | @owned facts child owner before knows moved ih =>
      by_cases still : facts.owner? child = some owner
      · rw [Facts.owned_self still, ih]
      rw [← ih, Facts.members, Facts.members, Facts.lookup_owned still]
      cases facts.lookup (.method, method) with
      | none => rfl
      | some entry =>
          rw [Option.map_some, Option.map_some, Option.map_some, Option.getD_some, Option.getD_some,
            List.filter_append]
          -- what is selected is neither released nor taken by the method
          have apart : select child → facts.owner? child ≠ some (.method, method) ∧
              owner ≠ (.method, method) := by
            intro chosen
            rcases moved with moved | ⟨unowned, -, other⟩
            · obtain ⟨parameter, elsewhere⟩ := apart _ moved chosen
              refine ⟨fun owned => still ?_, elsewhere⟩
              obtain ⟨kind, name⟩ := child
              obtain rfl : kind = .parameter := parameter
              have here : owner = (.method, Naming.holderOf name) := moves _ moved rfl
              rw [owned, before.atHome home moves owned, here]
            · exact ⟨by simp [unowned], fun same => other (congrArg Prod.fst same)⟩
          have released : (if some (.method, method) = facts.owner? child then
              entry.members.filter (· ≠ child) else entry.members).filter select =
              entry.members.filter select := by
            split
            · rename_i former
              rw [List.filter_filter]
              refine List.filter_congr fun member _ => ?_
              by_cases same : member = child
              · have unchosen : select child = false :=
                  Bool.eq_false_iff.mpr fun chosen => (apart chosen).1 former.symm
                rw [same, unchosen, Bool.false_and]
              · rw [decide_eq_true same, Bool.and_true]
            · rfl
          have taken : (if (.method, method) = owner then [child] else []).filter select = [] := by
            split
            · rename_i here
              have unchosen : select child = false :=
                Bool.eq_false_iff.mpr fun chosen => (apart chosen).2 here.symm
              rw [List.filter_cons_of_neg (by rw [unchosen]; exact Bool.false_ne_true), List.filter_nil]
            · rfl
          rw [released, taken, List.append_nil]
  | detailed _ _ ih => rw [Facts.detailed, Facts.members_update (by exact fun _ => rfl), ih]
  | linked _ _ _ ih => exact ih

end Writes

theorem writes_left (change : Change) (facts : Facts) :
    change.Writes facts (left (change.apply facts)) := by
  cases change with
  | place child anchor owner =>
      have known : (place child anchor owner).Writes facts (facts.interned child) :=
        .interned child .start
      rw [apply, Facts.placed]
      dsimp only
      split
      · exact known
      · rename_i here
        have declared : (place child anchor owner).Writes facts
            ((facts.interned child).update child fun entry => { entry with anchor := some anchor }) :=
          known.anchored rfl fun other placed => by
            rw [placed, Option.any_some, bne_iff_ne, ne_eq, not_not] at here
            exact here
        split
        · exact declared
        · exact declared.owned (Facts.knows_update.mpr (Facts.knows_interned.mpr (.inr rfl)))
            (.inl List.mem_cons_self)
  | adopt child owner =>
      exact (Writes.start.interned child).owned (Facts.knows_interned.mpr (.inr rfl))
        (.inl List.mem_cons_self)
  | describe identity detail => exact .detailed .start (.inl rfl)
  | ensureType name => exact Writes.start.withType name
  | ensureMethod type name parameterTypes =>
      have interned : (ensureMethod type name parameterTypes).Writes facts
          (facts.interned (.method, name)) := .interned _ .start
      rw [apply, left, Facts.withMethod]
      split
      · exact interned
      · rename_i unowned
        have unowned := Option.not_isSome_iff_eq_none.mp unowned
        have typed : ((facts.interned (.method, name)).withType type).lookup (.method, name) =
            (facts.interned (.method, name)).lookup (.method, name) :=
          Facts.lookup_withType _ (by simp) (by simp)
        refine .detailed ((interned.withType type).owned ?_ (.inr ⟨?_, by simp, by simp⟩))
          (.inr (.inr (.inl ?_)))
        · rw [Facts.Knows, typed]
          exact Facts.knows_interned.mpr (.inr rfl)
        · rw [Facts.owner?, typed]
          exact unowned
        · rwa [Facts.owner?_interned] at unowned
  | ensureField type field =>
      have interned : (ensureField type field).Writes facts
          (facts.interned (.field, Naming.fieldName type field)) := .interned _ .start
      rw [apply, left, Facts.withField]
      split
      · exact interned
      · rename_i unowned
        have unowned := Option.not_isSome_iff_eq_none.mp unowned
        have typed : ((facts.interned (.field, Naming.fieldName type field)).withType type).lookup
            (.field, Naming.fieldName type field) =
            (facts.interned (.field, Naming.fieldName type field)).lookup
              (.field, Naming.fieldName type field) := Facts.lookup_withType _ (by simp) (by simp)
        refine (interned.withType type).owned ?_ (.inr ⟨?_, by simp, by simp⟩)
        · rw [Facts.Knows, typed]
          exact Facts.knows_interned.mpr (.inr rfl)
        · rw [Facts.owner?, typed]
          exact unowned
  | ensureReturnType method type =>
      rw [apply, left, Facts.withReturnType]
      split
      · exact .start
      · rename_i untyped
        have same : (facts.withType type).lookup (.method, method) = facts.lookup (.method, method) :=
          Facts.lookup_withType type (by simp) (by simp)
        refine .detailed (Writes.start.withType type) (.inr (.inr (.inr ⟨?_, type, rfl⟩)))
        rw [same]
        exact Bool.eq_false_iff.mpr untyped
  | ensureConstructor type =>
      rw [apply, left, Facts.withConstructor]
      split
      · exact .start
      · exact .detailed ((Writes.start.interned _).owned (Facts.knows_interned.mpr (.inr rfl))
          (.inl List.mem_cons_self)) (.inr (.inl rfl))
  | append link => exact .linked link .start (.inl rfl)
  | appendOnce link =>
      rw [apply, left, Facts.linkedOnce]
      split
      · exact .start
      · exact .linked link .start (.inr rfl)

end Change

end JavaFacts
