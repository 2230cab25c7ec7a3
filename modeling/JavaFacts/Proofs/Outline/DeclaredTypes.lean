import JavaFacts.Proofs.Extraction.LocalTypes
import JavaFacts.Proofs.Facts.Export
import JavaFacts.Proofs.Outline.Settled

/-!
The types that a plan declares. Nothing else gives types their places, so a run knows exactly the
types of its own steps and of the facts at its start, and a step that is refused as a second
declaration of a type meets one of those. A type with a number is never refused.
-/

namespace JavaFacts

/-- The type that a step declares, and where. -/
def Step.declaredType? : Step → Option (String × Anchor)
  | ⟨.declareType _ anchor _ _, name⟩ => some (name, anchor)
  | _ => none

/-- The types that the steps declare, in order. -/
def typesDeclaredBy (history : List Step) : List (String × Anchor) :=
  history.filterMap Step.declaredType?

/-- Whether a step declares a type that is named in this way, gets that name and stands at that
place. -/
def DeclaredBy (origin : Origin) (history : List Step) (naming : TypeNaming) (name : String)
    (span : Span) : Prop :=
  ∃ owner flags, (⟨.declareType naming (origin.anchor span) owner flags, name⟩ : Step) ∈ history

namespace DeclaredBy

variable {origin : Origin} {history later : List Step} {naming : TypeNaming} {name : String} {span : Span}

theorem last {owner : Identity} {flags : Modifiers} (history : List Step) :
    DeclaredBy origin (history ++ [⟨.declareType naming (origin.anchor span) owner flags, name⟩]) naming
      name span :=
  ⟨owner, flags, List.mem_append_right history List.mem_cons_self⟩

theorem grown (declared : DeclaredBy origin history naming name span) (grown : history <+: later) :
    DeclaredBy origin later naming name span := by
  obtain ⟨owner, flags, member⟩ := declared
  exact ⟨owner, flags, grown.subset member⟩

theorem mem_typesDeclaredBy (declared : DeclaredBy origin history naming name span) :
    (name, origin.anchor span) ∈ typesDeclaredBy history := by
  obtain ⟨owner, flags, member⟩ := declared
  exact List.mem_filterMap.mpr ⟨_, member, rfl⟩

end DeclaredBy

/-- Whether no name comes with two places. -/
def OnePlaceEach (types : List (String × Anchor)) : Prop :=
  ∀ ⦃name place other⦄, (name, place) ∈ types → (name, other) ∈ types → place = other

theorem OnePlaceEach.concat {types : List (String × Anchor)} {name : String} {place : Anchor}
    (apart : OnePlaceEach types) (new : ∀ other, (name, other) ∉ types) :
    OnePlaceEach (types ++ [(name, place)]) := by
  intro known first second inFirst inSecond
  rcases List.mem_append.mp inFirst with inFirst | inFirst <;>
    rcases List.mem_append.mp inSecond with inSecond | inSecond
  · exact apart inFirst inSecond
  · cases List.mem_singleton.mp inSecond
    exact absurd inFirst (new first)
  · cases List.mem_singleton.mp inFirst
    exact absurd inSecond (new second)
  · cases List.mem_singleton.mp inFirst
    cases List.mem_singleton.mp inSecond
    rfl

theorem Request.anchor?_of_declareType {facts after : Facts} {naming : TypeNaming} {anchor : Anchor}
    {owner : Identity} {flags : Modifiers} {name : String}
    (performed : (declareType naming anchor owner flags).perform facts = .ok (name, after)) :
    after.anchor? (.type, name) = some anchor := by
  obtain ⟨-, applied⟩ := perform_eq_ok performed
  obtain ⟨middle, placed, rest⟩ := Change.applyAll_cons applied
  exact (Change.grows_applyAll rest).anchor? (Change.placed_eq_ok placed).1

/-- Events declare methods and variables. -/
theorem Event.ne_type_of_place {event : Event} {child owner : Identity} {anchor : Anchor}
    (member : .place child anchor owner ∈ event.changes) : child.1 ≠ .type := by
  cases event with
  | supertypes links =>
      obtain ⟨link, -, member⟩ := List.mem_flatMap.mp member
      simp at member
  | parameters method listed =>
      obtain ⟨parameter, -, member⟩ := List.mem_flatMap.mp member
      simp at member
      simp [member]
  | method name anchor type returned modifiers parameterTypes =>
      cases returned <;> simp [changes] at member <;> simp [member]
  | call type name parameterTypes returned link => cases returned <;> simp [changes] at member
  | _ => simp [changes] at member <;> simp [member]

/-- A step that gives a type its place declares the type. -/
theorem Step.declaredType?_of_place {step : Step} {name : String} {anchor : Anchor} {owner : Identity}
    (member : .place (.type, name) anchor owner ∈ step.changes) :
    step.declaredType? = some (name, anchor) := by
  obtain ⟨request, answer⟩ := step
  cases request with
  | declareType naming place typeOwner flags =>
      rcases List.mem_pair.mp member with same | same
      · cases same
        rfl
      · cases same
  | record event => exact absurd rfl (event.ne_type_of_place member)
  | _ => cases member

namespace Performs

variable {start facts : Facts} {history : List Step} {name : String} {place : Anchor}

/-- What a step of a run declares stays declared at its place. -/
theorem anchor?_of_typesDeclaredBy (performed : Performs start history facts)
    (declared : (name, place) ∈ typesDeclaredBy history) : facts.anchor? (.type, name) = some place := by
  obtain ⟨step, member, declares⟩ := List.mem_filterMap.mp declared
  clear declared
  induction performed with
  | start => cases member
  | @step history facts after request answer performed asked ih =>
      rcases List.mem_append.mp member with earlier | last
      · obtain ⟨-, applied⟩ := Request.perform_eq_ok asked
        exact (Change.grows_applyAll applied).anchor? (ih earlier)
      · rw [List.mem_singleton.mp last] at declares
        cases request with
        | declareType naming anchor owner flags =>
            cases declares
            exact Request.anchor?_of_declareType asked
        | _ => cases declares

/-- A type has its place from the start, or a step declares it there. -/
theorem mem_typesDeclaredBy (performed : Performs start history facts)
    (placed : facts.anchor? (.type, name) = some place) :
    start.anchor? (.type, name) = some place ∨ (name, place) ∈ typesDeclaredBy history := by
  refine performed.keeps (fun facts => facts.anchor? (.type, name) = some place →
    start.anchor? (.type, name) = some place ∨ (name, place) ∈ typesDeclaredBy history) .inl ?_ placed
  rintro earlier step later rfl change member before after known applied placed
  rcases (Change.writes_of_apply applied).told placed with already | ⟨owner, rfl⟩
  · exact known already
  · exact .inr (List.mem_filterMap.mpr ⟨step, List.mem_append_right _ List.mem_cons_self,
      Step.declaredType?_of_place member⟩)

theorem onePlaceEach (performed : Performs start history facts) :
    OnePlaceEach (typesDeclaredBy history) := fun _ _ _ first second =>
  Option.some.inj ((performed.anchor?_of_typesDeclaredBy first).symm.trans
    (performed.anchor?_of_typesDeclaredBy second))

theorem listed (performed : Performs start history facts) (listed : start.Listed) : facts.Listed := by
  refine performed.keeps Facts.Listed listed ?_
  rintro earlier step later rfl change member before after known applied
  exact (Change.writes_of_apply applied).listed known

end Performs

namespace TypeNaming

theorem numberedName_injective (outer simple : String) : (numberedName outer simple).Injective := by
  intro number other same
  rw [numberedName, numberedName, String.append_left_inj, String.append_right_inj] at same
  exact Text.toString_inj same

end TypeNaming

namespace Facts

variable {facts : Facts} {anchor : Anchor} {name : Nat → String} {ordinal more steps : Nat}

theorem not_isTaken_freeName (free : facts.isTaken anchor (name (ordinal + more)) = false)
    (enough : more ≤ steps) : facts.isTaken anchor (facts.freeName anchor name steps ordinal) = false := by
  induction steps generalizing ordinal more with
  | zero =>
      obtain rfl := Nat.le_zero.mp enough
      exact free
  | succ steps ih =>
      rw [freeName]
      split
      · rename_i taken
        cases more with
        | zero =>
            rw [Nat.add_zero, taken] at free
            cases free
        | succ more =>
            rw [Nat.add_comm more, ← Nat.add_assoc] at free
            exact ih free (Nat.le_of_succ_le_succ enough)
      · rename_i free
        exact Bool.eq_false_iff.mpr free

/-- There are more numbers to look at than entities are known. -/
theorem not_isTaken_chosenName (listed : facts.Listed) (anchor : Anchor) (outer simple : String) :
    facts.isTaken anchor (facts.chosenName anchor (.numbered outer simple)) = false := by
  have injective : Function.Injective fun more =>
      ((.type, TypeNaming.numberedName outer simple (1 + more)) : Identity) := fun _ _ same =>
    Nat.add_left_cancel (TypeNaming.numberedName_injective outer simple (Prod.mk.inj same).2)
  obtain ⟨more, within, unlisted⟩ := exists_notMem_of_injective injective facts.known
  have unknown : facts.lookup (.type, TypeNaming.numberedName outer simple (1 + more)) = none :=
    not_not.mp fun known => unlisted (listed known)
  exact not_isTaken_freeName (by rw [isTaken, anchor?, unknown]; rfl) within

end Facts

/-- A request that is refused because a type is declared at another place declares the type, and not
under a number. -/
theorem Request.redeclares {facts : Facts} {request : Request} {refusal : Refusal}
    {name existing anchor : String} (listed : facts.Listed)
    (refused : request.perform facts = .error refusal)
    (error : refusal.error = .duplicateDeclaration EntityKind.type.name name existing anchor) :
    ∃ place other owner flags, request = .declareType (.given name) place owner flags ∧
      facts.anchor? (.type, name) = some other ∧ other ≠ place ∧
      refusal.error = .redeclared (.type, name) (some other) place := by
  have isType {child : Identity} {former place : Anchor}
      (same : FactError.redeclared child (some former) place =
        .duplicateDeclaration EntityKind.type.name name existing anchor) : child = (.type, name) := by
    obtain ⟨kind, known, -, -⟩ := FactError.duplicateDeclaration.inj same
    exact Prod.ext (EntityKind.name_injective kind) known
  cases request with
  | declareType naming place owner flags =>
      have unplaced : facts.placed (.type, facts.chosenName place naming) place owner = .error refusal := by
        rw [perform] at refused
        cases placed : facts.placed (.type, facts.chosenName place naming) place owner with
        | ok after =>
            rw [placed] at refused
            cases refused
        | error first =>
            rw [placed] at refused
            exact congrArg Except.error (Except.error.inj refused)
      rcases Change.placed_eq_error unplaced with ⟨other, declared, elsewhere, same⟩ | ⟨-, same⟩
      · have named := (Prod.mk.inj (isType (same.symm.trans error))).2
        cases naming with
        | given known =>
            obtain rfl : known = name := named
            exact ⟨place, other, owner, flags, rfl, declared, elsewhere, same⟩
        | numbered outer simple =>
            have free := facts.not_isTaken_chosenName listed place outer simple
            rw [Facts.isTaken, declared, Option.any_some, bne_eq_false_iff_eq] at free
            exact absurd free elsewhere
      · cases same.symm.trans error
  | record event =>
      have refused : Change.applyAll facts event.changes = .error refusal := perform_eq_error refused
      obtain ⟨child, place, owner, middle, member, unplaced⟩ := Change.applyAll_eq_error refused
      rcases Change.placed_eq_error unplaced with ⟨other, -, -, same⟩ | ⟨-, same⟩
      · have child := isType (same.symm.trans error)
        exact absurd (congrArg Prod.fst child) (event.ne_type_of_place member)
      · cases same.symm.trans error
  | _ => cases refused

/-- The type that a step declares under a number. -/
def Step.numberedType? : Step → Option (String × Anchor)
  | ⟨.declareType (.numbered _ _) anchor _ _, name⟩ => some (name, anchor)
  | _ => none

/-- The types that the steps declare under numbers, in order. -/
def typesNumberedBy (history : List Step) : List (String × Anchor) :=
  history.filterMap Step.numberedType?

theorem DeclaredBy.mem_typesNumberedBy {origin : Origin} {history : List Step} {outer simple name : String}
    {span : Span} (declared : DeclaredBy origin history (.numbered outer simple) name span) :
    (name, origin.anchor span) ∈ typesNumberedBy history := by
  obtain ⟨owner, flags, member⟩ := declared
  exact List.mem_filterMap.mpr ⟨_, member, rfl⟩

theorem typesNumberedBy_subset (history : List Step) : typesNumberedBy history ⊆ typesDeclaredBy history := by
  intro type listed
  obtain ⟨step, member, declares⟩ := List.mem_filterMap.mp listed
  refine List.mem_filterMap.mpr ⟨step, member, ?_⟩
  unfold Step.numberedType? at declares
  split at declares
  · exact declares
  · cases declares

theorem Performs.onePlaceEach_typesNumberedBy {start facts : Facts} {history : List Step}
    (performed : Performs start history facts) : OnePlaceEach (typesNumberedBy history) :=
  fun _ _ _ first second => performed.onePlaceEach (typesNumberedBy_subset history first)
    (typesNumberedBy_subset history second)

/-- Whatever has been declared, a request can be answered without a number being given again. -/
theorem Request.exists_answer (request : Request) {history : List Step}
    (apart : OnePlaceEach (typesNumberedBy history)) : ∃ answer : request.Answer,
      request.Gives answer ∧ OnePlaceEach (typesNumberedBy (history ++ [⟨request, answer⟩])) := by
  have idle (answer : request.Answer) (unnumbered : Step.numberedType? ⟨request, answer⟩ = none) :
      OnePlaceEach (typesNumberedBy (history ++ [⟨request, answer⟩])) := by
    rwa [typesNumberedBy, List.filterMap_append, List.filterMap_cons_none unnumbered, List.filterMap_nil,
      List.append_nil]
  cases request with
  | declareType naming anchor owner flags =>
      cases naming with
      | given name => exact ⟨name, rfl, idle _ rfl⟩
      | numbered outer simple =>
          obtain ⟨number, -, free⟩ := exists_notMem_of_injective
            (TypeNaming.numberedName_injective outer simple) ((typesNumberedBy history).map (·.1))
          refine ⟨_, ⟨number, rfl⟩, ?_⟩
          rw [typesNumberedBy, List.filterMap_append]
          exact apart.concat fun other listed => free (List.mem_map_of_mem listed)
  | record event => exact ⟨(), trivial, idle _ rfl⟩
  | isInterface type => exact ⟨false, trivial, idle _ rfl⟩
  | superclass type => exact ⟨none, trivial, idle _ rfl⟩
  | visible method localBlocks limit blocks => exact ⟨[], trivial, idle _ rfl⟩

end JavaFacts
