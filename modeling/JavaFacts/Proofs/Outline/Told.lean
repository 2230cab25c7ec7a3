import JavaFacts.Proofs.Facts.Growth
import JavaFacts.Proofs.Outline.Undisturbed

/-!
What facts know of a variable stays known, as long as nothing is told of it or the variable is declared
at another place, where it is refused.
-/

namespace JavaFacts

/-- The entity is known with its type, which is a class, and with the form of that type in
signatures. -/
def Store.IsTyped (store : Store) (identity : Identity) (type signature : String) : Prop :=
  ∃ entity, (store.find? identity.1 identity.2).bind store.entity? = some entity ∧
    entity.declaredType.bind store.identity? = some (.type, type) ∧
    entity.signatureType = some signature

/-- The request that tells the types of a variable. -/
def Change.typing (identity : Identity) (type signature : String) : Change :=
  .describe identity { declaredType := type, signatureType := signature }

variable {identity : Identity} {type signature : String}

theorem Store.Whole.isTyped {store : Store} (whole : store.Whole)
    (settled : (Change.typing identity type signature).Settled store.facts) :
    store.IsTyped identity type signature := by
  obtain ⟨owned, told⟩ := settled
  obtain ⟨owner, owned⟩ := Option.isSome_iff_exists.mp owned
  obtain ⟨entry, known, -⟩ := Option.bind_eq_some_iff.mp owned
  obtain ⟨-, typed, signed, -⟩ := Entry.detailed_eq_self.mp (told entry known)
  rw [Store.lookup_facts] at known
  obtain ⟨entity, found, rfl⟩ := Option.map_eq_some_iff.mp known
  obtain ⟨id, -, stored⟩ := Option.bind_eq_some_iff.mp found
  obtain ⟨typeId, declared, named⟩ := Option.bind_eq_some_iff.mp typed.symm
  obtain ⟨name, held⟩ := (whole.toSound.entity stored).declaredType declared
  rw [held] at named
  obtain rfl : name = type := Option.some.inj named
  refine ⟨entity, found, ?_, signed.symm⟩
  rw [declared, Option.bind_some, held]

namespace Facts

variable {facts : Facts}

/-- Whether the entity may be declared at the place: it is declared at no other one. -/
def Admits (facts : Facts) (identity : Identity) (anchor : Anchor) : Prop :=
  ∀ other, facts.anchor? identity = some other → other = anchor

variable {child owner : Identity} {anchor : Anchor}

theorem admits_iff :
    facts.Admits identity anchor ↔
      ((facts.interned identity).anchor? identity).any (· != anchor) = false := by
  rw [anchor?_interned, Admits]
  cases facts.anchor? identity <;> simp

theorem exists_placed_iff (different : child ≠ owner) :
    (∃ after, facts.placed child anchor owner = .ok after) ↔ facts.Admits child anchor := by
  rw [admits_iff]
  unfold placed
  dsimp only
  cases ((facts.interned child).anchor? child).any (· != anchor) with
  | true =>
      constructor
      · rintro ⟨after, refused⟩
        cases refused
      · intro free
        cases free
  | false =>
      rw [if_neg Bool.false_ne_true, if_neg different]
      exact ⟨fun _ => rfl, fun _ => ⟨_, rfl⟩⟩

theorem admits_of_applyAll (different : child ≠ owner) {changes : List Change} {after : Facts}
    (applied : Change.applyAll facts (.place child anchor owner :: changes) = .ok after) :
    facts.Admits child anchor := by
  refine (exists_placed_iff different).mp ?_
  rw [Change.applyAll, Change.apply] at applied
  cases placed : facts.placed child anchor owner with
  | ok middle => exact ⟨middle, rfl⟩
  | error left =>
      rw [placed] at applied
      cases applied

end Facts

/-- The entities of which a request tells more than flags. -/
def Request.described : Request → List Identity
  | .record event => event.described
  | _ => []

theorem Request.describesLightly {request : Request} (answer : request.Answer)
    (untold : identity ∉ request.described) :
    ∀ change ∈ request.changes answer, change.DescribesLightly identity := by
  rintro change member detail rfl
  cases request with
  | declareType naming anchor owner flags =>
      rcases List.mem_pair.mp member with same | same
      · cases same
      · exact (Change.describe.inj same).2 ▸ ⟨rfl, rfl, rfl, rfl⟩
  | record event => exact (event.isLight_or_mem_described member).resolve_right untold
  | _ => cases member

/-- A field or a local variable with the place where it is declared and the names of its types. -/
structure KnownVariable where
  identity : Identity
  isVariable : identity.1 = .field ∨ identity.1 = .localVariable
  anchor : Anchor
  type : String
  signature : String

theorem KnownVariable.identity_ne (known : KnownVariable) {kind : EntityKind} (name : String)
    (notField : kind ≠ .field) (notLocal : kind ≠ .localVariable) : known.identity ≠ (kind, name) := by
  intro same
  rcases known.isVariable with isField | isLocal
  · exact notField ((congrArg Prod.fst same).symm.trans isField)
  · exact notLocal ((congrArg Prod.fst same).symm.trans isLocal)

namespace Facts

variable {facts : Facts} {known : KnownVariable}

/-- The variable is declared at its place and known with its types. -/
structure Has (facts : Facts) (known : KnownVariable) : Prop where
  placed : facts.anchor? known.identity = some known.anchor
  typed : (Change.typing known.identity known.type known.signature).Settled facts

namespace Has

theorem left (has : facts.Has known) {changes : List Change}
    (light : ∀ change ∈ changes, change.DescribesLightly known.identity) :
    (Change.left (Change.applyAll facts changes)).Has known where
  placed := by
    obtain ⟨entry, found, placed⟩ := Option.bind_eq_some_iff.mp has.placed
    obtain ⟨later, found, grown⟩ := Change.growsInto_applyAll changes facts found
    rw [anchor?, found, Option.bind_some]
    exact grown.anchor placed
  typed := has.typed.kept_left fun change member => .inr (light change member)

/-- The variable cannot be declared at another place. -/
theorem refused (has : facts.Has known) {anchor : Anchor} (elsewhere : anchor ≠ known.anchor)
    (owner : Identity) :
    ∃ refusal, facts.placed known.identity anchor owner = .error refusal ∧
      refusal.facts.Has known := by
  have light : ∀ change ∈ [Change.place known.identity anchor owner],
      change.DescribesLightly known.identity := by
    intro change member detail same
    cases same.symm.trans (List.mem_singleton.mp member)
  have kept := has.left light
  rw [Change.applyAll, Change.apply] at kept
  cases placed : facts.placed known.identity anchor owner with
  | ok after =>
      rw [placed] at kept
      have both : some anchor = some known.anchor :=
        (Change.placed_eq_ok placed).1.symm.trans kept.placed
      exact absurd (Option.some.inj both) elsewhere
  | error refusal =>
      rw [placed] at kept
      exact ⟨refusal, rfl, kept⟩

end Has

end Facts

end JavaFacts
