import JavaFacts.Proofs.Facts.Settled
import JavaFacts.Proofs.Outline.Law

/-!
Steps that facts have met already: a plan that asks for them once more gets the same answers and
changes nothing but the list of links.
-/

namespace JavaFacts

namespace Request

/-- The changes that a request consists of, once it is answered. -/
def changes : (request : Request) → request.Answer → List Change
  | declareType _ anchor owner flags, name =>
      [.place (.type, name) anchor owner, .describe (.type, name) { modifiers := flags }]
  | record event, _ => event.changes
  | isInterface _, _ | superclass _, _ | visible .., _ => []

def answer (facts : Facts) : (request : Request) → request.Answer
  | declareType naming anchor _ _ => facts.chosenName anchor naming
  | record _ => ()
  | isInterface type => facts.isInterface type
  | superclass type => facts.superclass? type
  | visible method localBlocks limit blocks => facts.visible method localBlocks limit blocks

theorem perform_eq (facts : Facts) (request : Request) :
    request.perform facts =
      (Change.applyAll facts (request.changes (request.answer facts))).map (request.answer facts, ·) := by
  cases request with
  | declareType naming anchor owner flags =>
      rw [perform, changes, answer, Change.applyAll, Change.apply]
      cases facts.placed (.type, facts.chosenName anchor naming) anchor owner <;> rfl
  | _ => rfl

variable {facts after : Facts} {request : Request} {answer : request.Answer}

theorem perform_eq_ok (performed : request.perform facts = .ok (answer, after)) :
    request.answer facts = answer ∧ Change.applyAll facts (request.changes answer) = .ok after := by
  rw [perform_eq] at performed
  cases applied : Change.applyAll facts (request.changes (request.answer facts)) with
  | error left =>
      rw [applied] at performed
      cases performed
  | ok left =>
      rw [applied] at performed
      cases performed
      exact ⟨rfl, applied⟩

theorem perform_eq_error {refusal : Refusal} (performed : request.perform facts = .error refusal) :
    Change.applyAll facts (request.changes (request.answer facts)) = .error refusal := by
  rw [perform_eq] at performed
  cases applied : Change.applyAll facts (request.changes (request.answer facts)) with
  | error left =>
      rw [applied] at performed
      cases performed
      rfl
  | ok left =>
      rw [applied] at performed
      cases performed

/-- Whether a later change leaves alone what a request is answered by. -/
def SparedBy (later : Change) : Request → Prop
  | declareType .. | record _ => True
  | isInterface type => ∀ detail, later ≠ .describe (.type, type) detail
  | superclass type => ∀ link, later = .append link ∨ later = .appendOnce link →
      ¬(link.kind = .inheritance ∧ link.source = type)
  | visible method localBlocks _ _ => ∀ move ∈ later.moves,
      (move.1.1 = .parameter → move.2 ≠ (.method, method)) ∧
        (move.1.1 = .localVariable → localBlocks move.1.2 = none)

/-- Whether facts know what a request is about. -/
def Grounded (facts : Facts) : Request → Prop
  | isInterface type => (facts.owner? (.type, type)).isSome
  | visible _ localBlocks _ _ => ∀ name, localBlocks name ≠ none →
      (facts.anchor? (.localVariable, name)).isSome
  | _ => True

end Request

namespace Step

def changes (step : Step) : List Change :=
  step.request.changes step.answer

/-- Whether the facts have met a step: it gets the same answer from them, and its changes tell them
nothing new. -/
structure Settled (facts : Facts) (step : Step) : Prop where
  answer : step.request.answer facts = step.answer
  grounded : step.request.Grounded facts
  changes : ∀ change ∈ step.changes, change.Settled facts

structure SparedBy (later : Change) (step : Step) : Prop where
  answer : step.request.SparedBy later
  changes : ∀ change ∈ step.changes, later.Spares change

end Step

/-- What every change of every step keeps a run keeps. -/
theorem Performs.keeps {start after : Facts} {history : List Step} (holds : Facts → Prop)
    (performed : Performs start history after) (initial : holds start)
    (keeps : ∀ earlier step later, history = earlier ++ step :: later → ∀ change ∈ step.changes,
      ∀ facts after, holds facts → change.apply facts = .ok after → holds after) : holds after := by
  induction performed with
  | start => exact initial
  | @step history facts after request answer _ asked ih =>
      have before : holds facts := ih fun earlier step later same =>
        keeps earlier step (later ++ [⟨request, answer⟩])
          (by rw [same, List.append_assoc, List.cons_append])
      exact Change.keeps_applyAll holds (keeps history ⟨request, answer⟩ [] rfl) before
        (Request.perform_eq_ok asked).2

namespace Facts

/-- Facts that know no less entities, with no other places. -/
structure Grows (before after : Facts) : Prop where
  anchor? : ∀ {identity anchor}, before.anchor? identity = some anchor →
    after.anchor? identity = some anchor
  known : before.known.length ≤ after.known.length

instance : IsPreorder Facts Grows where
  refl _ := ⟨fun same => same, Nat.le_refl _⟩
  trans _ _ _ first second := ⟨fun same => second.anchor? (first.anchor? same), first.known.trans second.known⟩

variable {before after : Facts} {anchor : Anchor}

theorem Grows.isTaken (grows : before.Grows after) {name : String} (taken : before.isTaken anchor name) :
    after.isTaken anchor name := by
  rw [Facts.isTaken] at taken ⊢
  cases placed : before.anchor? (.type, name) with
  | none =>
      rw [placed] at taken
      cases taken
  | some other =>
      rw [placed] at taken
      rw [grows.anchor? placed]
      exact taken

/-- A name that was chosen is chosen again as long as it is not taken and the names that were tried
before stay taken. -/
theorem freeName_again {name : Nat → String}
    (taken : ∀ ordinal, before.isTaken anchor (name ordinal) → after.isTaken anchor (name ordinal))
    {steps more ordinal : Nat} (enough : steps ≤ more)
    (free : ¬after.isTaken anchor (before.freeName anchor name steps ordinal)) :
    after.freeName anchor name more ordinal = before.freeName anchor name steps ordinal := by
  induction steps generalizing more ordinal with
  | zero =>
      rw [freeName] at free ⊢
      cases more with
      | zero => rfl
      | succ more => rw [freeName, if_neg free]
  | succ steps ih =>
      obtain ⟨more, rfl⟩ := Nat.exists_eq_add_one_of_ne_zero (Nat.ne_of_gt (Nat.lt_of_lt_of_le (Nat.succ_pos _) enough))
      rw [freeName] at free ⊢
      rw [freeName]
      split at free
      · rename_i busy
        rw [if_pos (taken _ busy), if_pos busy]
        exact ih (Nat.le_of_succ_le_succ enough) free
      · rename_i idle
        rw [if_neg free, if_neg idle]

theorem Grows.chosenName (grows : before.Grows after) {naming : TypeNaming}
    (placed : after.anchor? (.type, before.chosenName anchor naming) = some anchor) :
    after.chosenName anchor naming = before.chosenName anchor naming := by
  cases naming with
  | given name => rfl
  | numbered outer simple =>
      refine freeName_again (fun _ => grows.isTaken) grows.known fun taken => ?_
      rw [Facts.chosenName] at placed
      rw [Facts.isTaken, placed, Option.any_some, bne_self_eq_false] at taken
      cases taken

end Facts

theorem Change.Writes.grows {change : Change} {start facts : Facts} (writes : change.Writes start facts) :
    start.Grows facts :=
  ⟨writes.anchor?, writes.length_known⟩

theorem Change.grows_applyAll {changes : List Change} {facts after : Facts}
    (applied : applyAll facts changes = .ok after) : facts.Grows after :=
  relates_applyAll (fun change facts => (change.writes_left facts).grows) applied

section Later

variable {later : Change} {start facts : Facts}

/-- The variables that are visible stay the same as long as no parameters come to the method and the
local variables that count are not moved. -/
theorem Change.Writes.visible (writes : later.Writes start facts) (home : start.AtHome)
    (moves : later.MovesHome) {method : String} {localBlocks : String → Option BlockId} {limit : Nat}
    {blocks : List BlockId}
    (spared : (Request.visible method localBlocks limit blocks).SparedBy later)
    (grounded : (Request.visible method localBlocks limit blocks).Grounded start) :
    facts.visible method localBlocks limit blocks = start.visible method localBlocks limit blocks := by
  have parameters : (facts.members (.method, method)).filter (·.1 == .parameter) =
      (start.members (.method, method)).filter (·.1 == .parameter) := by
    refine writes.filter_members home moves fun move member chosen => ?_
    have parameter := eq_of_beq chosen
    exact ⟨parameter, (spared move member).1 parameter⟩
  have locals (block : BlockId) : facts.localsIn method localBlocks limit block =
      start.localsIn method localBlocks limit block := by
    rw [Facts.localsIn, Facts.localsIn, ← writes.filter_members home moves fun move member chosen => ?_]
    · refine List.filter_congr fun member _ => ?_
      obtain ⟨kind, name⟩ := member
      by_cases isLocal : kind = .localVariable
      · subst isLocal
        cases located : localBlocks name with
        | none => rfl
        | some block =>
            obtain ⟨anchor, placed⟩ := Option.isSome_iff_exists.mp
              (grounded name (by rw [located]; nofun))
            rw [placed, writes.anchor? placed]
      · rw [beq_eq_false_iff_ne.mpr isLocal, Bool.false_and, Bool.false_and, Bool.false_and]
    · rw [Bool.and_eq_true, Bool.and_eq_true] at chosen
      have nowhere := (spared move member).2 (eq_of_beq chosen.1.1)
      rw [nowhere] at chosen
      exact absurd chosen.1.2 Bool.false_ne_true
  rw [Facts.visible, Facts.visible, parameters]
  exact congrArg (· ++ _) (List.map_congr_left fun block _ => locals block)

theorem Change.Writes.superclass? (writes : later.Writes start facts) {type : String}
    (spared : (Request.superclass type).SparedBy later) :
    facts.superclass? type = start.superclass? type := by
  obtain ⟨added, same, told⟩ := writes.links
  have none : added.find? (fun link => link.kind == .inheritance && link.source == type) = none := by
    refine List.find?_eq_none.mpr fun link member inherits => ?_
    rw [Bool.and_eq_true, beq_iff_eq, beq_iff_eq] at inherits
    exact spared link (told link member) inherits
  rw [Facts.superclass?, Facts.superclass?, same, List.find?_append, none, Option.or_none]

theorem Change.Writes.isInterface (writes : later.Writes start facts) {type : String}
    (spared : (Request.isInterface type).SparedBy later)
    (grounded : (Request.isInterface type).Grounded start) :
    facts.isInterface type = start.isInterface type := by
  obtain ⟨owner, owned⟩ := Option.isSome_iff_exists.mp grounded
  obtain ⟨entry, known, owned⟩ := Option.bind_eq_some_iff.mp owned
  obtain ⟨after, found, becomes⟩ := writes.becomes known
  rw [Facts.isInterface, Facts.isInterface, known, found, Option.any_some, Option.any_some]
  exact becomes.isInterface (by rw [owned]; rfl) spared

theorem Request.Grounded.kept {request : Request} (grounded : request.Grounded start)
    (writes : later.Writes start facts) : request.Grounded facts := by
  cases request with
  | isInterface type =>
      obtain ⟨owner, owned⟩ := Option.isSome_iff_exists.mp grounded
      exact (writes.owner? owned).1
  | visible method localBlocks limit blocks =>
      intro name somewhere
      obtain ⟨anchor, placed⟩ := Option.isSome_iff_exists.mp (grounded name somewhere)
      rw [writes.anchor? placed]
      rfl
  | _ => trivial

theorem Step.Settled.kept {step : Step} (settled : step.Settled start) (spared : step.SparedBy later)
    (writes : later.Writes start facts) (home : start.AtHome) (moves : later.MovesHome) :
    step.Settled facts := by
  have changes : ∀ change ∈ step.changes, change.Settled facts :=
    fun change member => (settled.changes change member).kept (spared.changes change member) writes
  refine ⟨Eq.trans ?_ settled.answer, settled.grounded.kept writes, changes⟩
  obtain ⟨request, answer⟩ := step
  have same := settled.answer
  cases request with
  | declareType naming anchor owner flags =>
      refine writes.grows.chosenName ?_
      have chosen : start.chosenName anchor naming = answer := same
      rw [chosen]
      exact (changes _ List.mem_cons_self).1
  | record event => rfl
  | isInterface type => exact writes.isInterface spared.answer settled.grounded
  | superclass type => exact writes.superclass? spared.answer
  | visible method localBlocks limit blocks =>
      exact writes.visible home moves spared.answer settled.grounded

theorem Step.Settled.kept_applyAll {changes : List Change} {after : Facts} {step : Step}
    (settled : step.Settled facts) (spared : ∀ later ∈ changes, step.SparedBy later)
    (moves : ∀ later ∈ changes, later.MovesHome) (home : facts.AtHome)
    (applied : Change.applyAll facts changes = .ok after) : step.Settled after := by
  induction changes generalizing facts with
  | nil =>
      cases applied
      exact settled
  | cons later changes ih =>
      rw [List.forall_mem_cons] at spared moves
      rw [Change.applyAll] at applied
      cases first : later.apply facts with
      | error middle =>
          rw [first] at applied
          cases applied
      | ok middle =>
          rw [first] at applied
          have writes := Change.writes_of_apply first
          exact ih (settled.kept spared.1 writes home moves.1) spared.2 moves.2
            (writes.atHome home moves.1) applied

end Later

/-- A step is met as soon as it is taken. -/
theorem Step.settled_of_perform {facts after : Facts} {request : Request} {answer : request.Answer}
    (grounded : request.Grounded facts)
    (ready : Change.AllReady (fun identity => (facts.owner? identity).isSome) (request.changes answer))
    (spares : (request.changes answer).Pairwise fun earlier later => later.Spares earlier)
    (performed : request.perform facts = .ok (answer, after)) : Step.Settled after ⟨request, answer⟩ := by
  obtain ⟨answered, applied⟩ := Request.perform_eq_ok performed
  have changes := Change.settled_applyAll ready spares applied
  cases request with
  | declareType naming anchor owner flags =>
      have chosen : facts.chosenName anchor naming = answer := answered
      refine ⟨?_, trivial, changes⟩
      refine ((Change.grows_applyAll applied).chosenName ?_).trans chosen
      rw [chosen]
      exact (changes _ List.mem_cons_self).1
  | record event => exact ⟨rfl, trivial, changes⟩
  | _ =>
      cases applied
      exact ⟨answered, grounded, changes⟩

namespace Step.Settled

variable {facts : Facts} {step : Step}

theorem appending (settled : step.Settled facts) {links : List Link}
    (flat : ∀ link ∈ links, link.kind.isHierarchy = false) : step.Settled (facts.appending links) := by
  refine ⟨Eq.trans ?_ settled.answer, ?_, fun change member => (settled.changes change member).appending links⟩
  · obtain ⟨request, answer⟩ := step
    have same := settled.answer
    cases request with
    | declareType naming anchor owner flags =>
        have grows : facts.Grows (facts.appending links) := ⟨fun placed => placed, Nat.le_refl _⟩
        refine grows.chosenName ?_
        have chosen : facts.chosenName anchor naming = answer := same
        rw [chosen]
        exact (settled.changes _ List.mem_cons_self).1
    | superclass type =>
        have none : links.find? (fun link => link.kind == .inheritance && link.source == type) = none := by
          refine List.find?_eq_none.mpr fun link member inherits => ?_
          rw [Bool.and_eq_true, beq_iff_eq] at inherits
          have upward := flat link member
          rw [inherits.1] at upward
          cases upward
        show ((facts.links ++ links).find? _).map _ = (facts.links.find? _).map _
        rw [List.find?_append, none, Option.or_none]
    | _ => rfl
  · have grounded := settled.grounded
    cases request : step.request <;> rw [request] at grounded <;> exact grounded

theorem perform_again (settled : step.Settled facts) :
    ∃ links : List Link, step.request.perform facts = .ok (step.answer, facts.appending links) ∧
      ∀ link ∈ links, link.kind.isHierarchy = false := by
  obtain ⟨links, applied, flat⟩ := Change.Settled.applyAll_again settled.changes
  refine ⟨links, ?_, flat⟩
  rw [Request.perform_eq, settled.answer]
  exact congrArg _ applied

end Step.Settled

/-- A plan whose steps were met takes the same steps again. -/
theorem Plan.run_again {α : Type} {plan : Plan α} {steps : List Step} {result : α} {facts : Facts}
    (reaches : plan.Reaches steps (.done result)) (settled : ∀ step ∈ steps, step.Settled facts) :
    ∃ links : List Link, plan.run facts = .ok (result, facts.appending links) ∧
      ∀ link ∈ links, link.kind.isHierarchy = false := by
  generalize ended : Plan.done result = last at reaches
  induction reaches generalizing facts with
  | here =>
      subst ended
      exact ⟨[], by rw [Facts.appending_nil]; rfl, fun _ => (nomatch ·)⟩
  | @step request next answer steps rest reaches ih =>
      rw [List.forall_mem_cons] at settled
      obtain ⟨links, performed, flat⟩ := settled.1.perform_again
      obtain ⟨more, ran, flat'⟩ := ih (fun step member => (settled.2 step member).appending flat) ended
      refine ⟨links ++ more, ?_, fun link member => (List.mem_append.mp member).elim (flat link) (flat' link)⟩
      rw [run, performed, ← Facts.appending_appending]
      exact ran

end JavaFacts
