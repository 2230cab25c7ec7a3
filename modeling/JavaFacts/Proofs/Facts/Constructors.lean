import JavaFacts.Proofs.Facts.Settled

/-!
Constructors among the facts: which requests make a method known under an owner, which of them mark
it as synthetic, and when a type has a constructor.
-/

namespace JavaFacts

namespace Facts

/-- Whether an entity is marked as one that no declaration in source stands for. -/
def isSynthetic (facts : Facts) (identity : Identity) : Bool :=
  (facts.lookup identity).any (·.modifiers.contains Modifiers.isSynthetic)

variable {facts : Facts} {identity other child owner : Identity}

theorem isSynthetic_congr {after : Facts} (same : after.lookup identity = facts.lookup identity) :
    after.isSynthetic identity = facts.isSynthetic identity := by
  rw [isSynthetic, same, isSynthetic]

theorem isSynthetic_interned :
    (facts.interned identity).isSynthetic other = facts.isSynthetic other := by
  have bare : Entry.bare.modifiers.contains Modifiers.isSynthetic = false := by decide
  rw [isSynthetic, isSynthetic, lookup_interned]
  split
  · cases facts.lookup other with
    | none => exact bare
    | some entry => rfl
  · rfl

theorem isSynthetic_update {change : Entry → Entry}
    (kept : ∀ entry, (change entry).modifiers = entry.modifiers) :
    (facts.update identity change).isSynthetic other = facts.isSynthetic other := by
  rw [isSynthetic, isSynthetic, lookup_update_map, Option.any_map]
  congr 1
  funext entry
  by_cases same : other = identity
  · rw [if_pos same, kept]
  · rw [if_neg same]

theorem isSynthetic_owned :
    (facts.owned child owner).isSynthetic other = facts.isSynthetic other := by
  by_cases still : facts.owner? child = some owner
  · rw [owned_self still]
  · rw [isSynthetic, isSynthetic, lookup_owned still, Option.any_map]

theorem isSynthetic_detailed {detail : Detail}
    (marked : (facts.detailed identity detail).isSynthetic other) :
    facts.isSynthetic other ∨
      other = identity ∧ detail.modifiers.contains Modifiers.isSynthetic := by
  rw [isSynthetic, detailed, lookup_update] at marked
  rw [isSynthetic]
  split at marked
  · rename_i same
    cases found : facts.lookup other with
    | none =>
        rw [found] at marked
        cases marked
    | some entry =>
        rw [found] at marked
        have union : (entry.modifiers ∪ detail.modifiers).contains Modifiers.isSynthetic := marked
        rw [Modifiers.isSynthetic, Modifiers.contains_union_flag _ _ (by decide),
          Bool.or_eq_true] at union
        exact union.imp_right fun marked => ⟨same, marked⟩
  · exact .inl marked

theorem isSynthetic_of_bare {detail : Detail} (bare : detail.modifiers = ∅)
    (marked : (facts.detailed identity detail).isSynthetic other) : facts.isSynthetic other := by
  refine (isSynthetic_detailed marked).resolve_right fun told => ?_
  have nothing : (∅ : Modifiers).contains Modifiers.isSynthetic = false := by decide
  exact Bool.false_ne_true (nothing ▸ bare ▸ told.2)

theorem mem_members_owned {member : Identity}
    (listed : member ∈ (facts.owned child owner).members identity) :
    member ∈ facts.members identity ∨ member = child := by
  by_cases still : facts.owner? child = some owner
  · rw [owned_self still] at listed
    exact .inl listed
  · rw [members, lookup_owned still, Option.map_map] at listed
    cases known : facts.lookup identity with
    | none =>
        rw [known] at listed
        cases listed
    | some entry =>
        rw [known] at listed
        rw [members, known]
        rcases List.mem_append.mp listed with former | new
        · refine .inl ?_
          split at former
          · exact (List.mem_filter.mp former).1
          · exact former
        · split at new
          · exact .inr (List.mem_singleton.mp new)
          · cases new

theorem owner?_withType {name : String} (method : identity.1 = .method) :
    (facts.withType name).owner? identity = facts.owner? identity := by
  rw [owner?, lookup_withType name (by rw [method]; decide) (by rw [method]; decide), owner?]

theorem isSynthetic_withType {name : String} (method : identity.1 = .method) :
    (facts.withType name).isSynthetic identity = facts.isSynthetic identity :=
  isSynthetic_congr (lookup_withType name (by rw [method]; decide) (by rw [method]; decide))

end Facts

namespace Change

variable {change : Change} {facts after : Facts} {method : String}

/-- The one constructor that is made up if a type has none. -/
def MakesUp (facts : Facts) (change : Change) (method : String) : Prop :=
  ∃ type, change = .ensureConstructor type ∧ method = Naming.methodName type "" true [] ∧
    facts.hasConstructor type = false

/-- A method is marked as synthetic because a declaration says so, or because it is made up. -/
theorem isSynthetic_of_apply (applied : change.apply facts = .ok after)
    (marked : after.isSynthetic (.method, method)) :
    facts.isSynthetic (.method, method) ∨
      (∃ detail, change = .describe (.method, method) detail ∧
        detail.modifiers.contains Modifiers.isSynthetic) ∨ change.MakesUp facts method := by
  cases change with
  | place child anchor owner =>
      rw [apply, Facts.placed] at applied
      dsimp only at applied
      split at applied
      · cases applied
      · split at applied
        · cases applied
        · cases applied
          rw [Facts.isSynthetic_owned, Facts.isSynthetic_update (by exact fun _ => rfl),
            Facts.isSynthetic_interned] at marked
          exact .inl marked
  | adopt child owner =>
      cases applied
      rw [Facts.adopted, Facts.isSynthetic_owned, Facts.isSynthetic_interned] at marked
      exact .inl marked
  | describe identity detail =>
      cases applied
      refine (Facts.isSynthetic_detailed marked).imp_right fun told => .inl ⟨detail, ?_, told.2⟩
      rw [told.1]
  | ensureType name =>
      cases applied
      rw [Facts.isSynthetic_withType rfl] at marked
      exact .inl marked
  | ensureMethod type name parameterTypes =>
      cases applied
      rw [Facts.withMethod] at marked
      split at marked
      · rw [Facts.isSynthetic_interned] at marked
        exact .inl marked
      · refine .inl ?_
        have marked := Facts.isSynthetic_of_bare rfl marked
        rwa [Facts.isSynthetic_owned, Facts.isSynthetic_withType rfl,
          Facts.isSynthetic_interned] at marked
  | ensureField type field =>
      cases applied
      rw [Facts.withField] at marked
      split at marked
      · rw [Facts.isSynthetic_interned] at marked
        exact .inl marked
      · rw [Facts.isSynthetic_owned, Facts.isSynthetic_withType rfl,
          Facts.isSynthetic_interned] at marked
        exact .inl marked
  | ensureReturnType method type =>
      cases applied
      rw [Facts.withReturnType] at marked
      split at marked
      · exact .inl marked
      · refine .inl ?_
        have marked := Facts.isSynthetic_of_bare rfl marked
        rwa [Facts.isSynthetic_withType rfl] at marked
  | ensureConstructor type =>
      cases applied
      rw [Facts.withConstructor] at marked
      split at marked
      · exact .inl marked
      · rename_i missing
        refine (Facts.isSynthetic_detailed marked).imp (fun marked => ?_) fun told =>
          .inr ⟨type, rfl, (Prod.mk.inj told.1).2, Bool.eq_false_iff.mpr missing⟩
        rwa [Facts.adopted, Facts.isSynthetic_owned, Facts.isSynthetic_interned] at marked
  | append link =>
      cases applied
      exact .inl marked
  | appendOnce link =>
      cases applied
      rw [Facts.linkedOnce] at marked
      split at marked <;> exact .inl marked

/-- A method comes under an owner because a request makes sure of that, or because it is made up. -/
theorem isSome_owner?_of_apply (applied : change.apply facts = .ok after)
    (owned : (after.owner? (.method, method)).isSome) :
    (facts.owner? (.method, method)).isSome ∨ (.method, method) ∈ change.owns ∨
      change.MakesUp facts method := by
  -- an entity that comes under an owner, and all the others
  have moved {facts : Facts} {child owner : Identity} (known : facts.Knows child)
      (owned : ((facts.owned child owner).owner? (.method, method)).isSome) :
      (facts.owner? (.method, method)).isSome ∨ (.method, method) = child := by
    rw [Facts.owner?_owned known] at owned
    split at owned
    · exact .inr ‹_›
    · exact .inl owned
  cases change with
  | place child anchor owner =>
      rw [apply, Facts.placed] at applied
      dsimp only at applied
      split at applied
      · cases applied
      · split at applied
        · cases applied
        · cases applied
          have known : (facts.interned child).Knows child := Facts.knows_interned.mpr (.inr rfl)
          refine (moved (Facts.knows_update.mpr known) owned).imp (fun owned => ?_)
            fun same => .inl (List.mem_singleton.mpr same)
          rwa [Facts.owner?_update (by exact fun _ => rfl), Facts.owner?_interned] at owned
  | adopt child owner =>
      cases applied
      refine (moved (Facts.knows_interned.mpr (.inr rfl)) owned).imp (fun owned => ?_)
        fun same => .inl (List.mem_singleton.mpr same)
      rwa [Facts.owner?_interned] at owned
  | describe identity detail =>
      cases applied
      rw [Facts.owner?_detailed] at owned
      exact .inl owned
  | ensureType name =>
      cases applied
      rw [Facts.owner?_withType rfl] at owned
      exact .inl owned
  | ensureMethod type name parameterTypes =>
      cases applied
      rw [Facts.withMethod] at owned
      split at owned
      · rw [Facts.owner?_interned] at owned
        exact .inl owned
      · rw [Facts.owner?_detailed] at owned
        have known : (facts.interned (.method, name)).Knows (.method, name) :=
          Facts.knows_interned.mpr (.inr rfl)
        refine (moved (Facts.retains_withType type _ known) owned).imp (fun owned => ?_)
          fun same => .inl (List.mem_singleton.mpr same)
        rwa [Facts.owner?_withType rfl, Facts.owner?_interned] at owned
  | ensureField type field =>
      cases applied
      rw [Facts.withField] at owned
      split at owned
      · rw [Facts.owner?_interned] at owned
        exact .inl owned
      · have known : (facts.interned (.field, Naming.fieldName type field)).Knows
            (.field, Naming.fieldName type field) := Facts.knows_interned.mpr (.inr rfl)
        refine (moved (Facts.retains_withType type _ known) owned).imp (fun owned => ?_)
          fun same => by cases same
        rwa [Facts.owner?_withType rfl, Facts.owner?_interned] at owned
  | ensureReturnType method type =>
      cases applied
      rw [Facts.withReturnType] at owned
      split at owned
      · exact .inl owned
      · rw [Facts.owner?_detailed, Facts.owner?_withType rfl] at owned
        exact .inl owned
  | ensureConstructor type =>
      cases applied
      rw [Facts.withConstructor] at owned
      split at owned
      · exact .inl owned
      · rename_i missing
        rw [Facts.owner?_detailed] at owned
        refine (moved (Facts.knows_interned.mpr (.inr rfl)) owned).imp (fun owned => ?_) fun same =>
          .inr ⟨type, rfl, (Prod.mk.inj same).2, Bool.eq_false_iff.mpr missing⟩
        rwa [Facts.owner?_interned] at owned
  | append link =>
      cases applied
      exact .inl owned
  | appendOnce link =>
      cases applied
      rw [Facts.linkedOnce] at owned
      split at owned <;> exact .inl owned

variable {start : Facts} {identity member owner : Identity}

/-- What is marked once stays so. -/
theorem Writes.isSynthetic (writes : change.Writes start facts)
    (marked : start.isSynthetic identity) : facts.isSynthetic identity := by
  cases known : start.lookup identity with
  | none =>
      rw [Facts.isSynthetic, known] at marked
      cases marked
  | some entry =>
      rw [Facts.isSynthetic, known] at marked
      obtain ⟨later, found, becomes⟩ := writes.becomes known
      obtain ⟨more, same⟩ := becomes.modifiers
      have marked : entry.modifiers.contains Modifiers.isSynthetic := marked
      rw [Facts.isSynthetic, found, Option.any_some, same, Modifiers.isSynthetic,
        Modifiers.contains_union_flag _ _ (by decide), Bool.or_eq_true]
      exact .inl marked

/-- Nothing becomes a member without an owner. -/
theorem Writes.mem_members (writes : change.Writes start facts)
    (listed : member ∈ facts.members identity) :
    member ∈ start.members identity ∨ (facts.owner? member).isSome := by
  induction writes with
  | start => exact .inl listed
  | interned other _ ih =>
      rw [Facts.members_interned] at listed
      rw [Facts.owner?_interned]
      exact ih listed
  | anchored _ _ _ ih =>
      rw [Facts.members_update (by exact fun _ => rfl)] at listed
      rw [Facts.owner?_update (by exact fun _ => rfl)]
      exact ih listed
  | @owned facts child owner _ knows _ ih =>
      rw [Facts.owner?_owned knows]
      split
      · exact .inr rfl
      · rename_i other
        exact ih ((Facts.mem_members_owned listed).resolve_right other)
  | detailed _ _ ih =>
      rw [Facts.detailed, Facts.members_update (by exact fun _ => rfl)] at listed
      rw [Facts.owner?_detailed]
      exact ih listed
  | linked link _ _ ih => exact ih listed

end Change

namespace Facts

variable {facts after : Facts} {type : String} {method : Identity}

theorem hasConstructor_iff : facts.hasConstructor type ↔
    ∃ method ∈ facts.members (.type, type), Change.IsConstructorOf type method := by
  rw [hasConstructor, List.any_eq_true]
  simp only [Bool.and_eq_true, beq_iff_eq, Change.IsConstructorOf]

/-- A constructor that is declared in a known type. -/
theorem hasConstructor_of_placed {anchor : Anchor} (constructs : Change.IsConstructorOf type method)
    (known : facts.Knows (.type, type)) (unowned : facts.owner? method = none)
    (placed : facts.placed method anchor (.type, type) = .ok after) :
    after.hasConstructor type := by
  rw [Facts.placed] at placed
  dsimp only at placed
  split at placed
  · cases placed
  · split at placed
    · cases placed
    · cases placed
      refine hasConstructor_iff.mpr ⟨method, ?_, constructs⟩
      have elsewhere : ((facts.interned method).update method fun entry =>
          { entry with anchor := some anchor }).owner? method ≠ some (.type, type) := by
        rw [owner?_update (by exact fun _ => rfl), owner?_interned, unowned]
        exact (Option.some_ne_none _).symm
      obtain ⟨entry, found⟩ := Option.ne_none_iff_exists'.mp
        (knows_update.mpr (knows_interned.mpr (.inl known)) :
          ((facts.interned method).update method fun entry =>
            { entry with anchor := some anchor }).Knows (.type, type))
      rw [members, lookup_owned elsewhere, found, Option.map_some, Option.map_some,
        Option.getD_some, if_pos rfl]
      exact List.mem_append_right _ List.mem_cons_self

/-- The constructor that is made up for a type without any. -/
theorem withConstructor_of_missing (missing : facts.hasConstructor type = false) :
    (facts.withConstructor type).owner? (.method, Naming.methodName type "" true []) =
        some (.type, type) ∧
      (facts.withConstructor type).isSynthetic (.method, Naming.methodName type "" true []) := by
  have own : (Modifiers.isSynthetic).contains Modifiers.isSynthetic = true := by decide
  rw [withConstructor, if_neg (Bool.eq_false_iff.mp missing)]
  dsimp only
  generalize (EntityKind.method, Naming.methodName type "" true []) = constructor
  have known : (facts.interned constructor).Knows constructor := knows_interned.mpr (.inr rfl)
  refine ⟨by rw [owner?_detailed, adopted, owner?_owned known, if_pos rfl], ?_⟩
  obtain ⟨entry, found⟩ := Option.ne_none_iff_exists'.mp
    (knows_owned.mpr known : (facts.adopted constructor (.type, type)).Knows constructor)
  rw [isSynthetic, detailed, lookup_update, if_pos rfl, adopted, found, Option.map_some,
    Option.any_some, Entry.detailed, Modifiers.isSynthetic,
    Modifiers.contains_union_flag _ _ (by decide), Bool.or_eq_true]
  exact .inr own

end Facts

end JavaFacts
