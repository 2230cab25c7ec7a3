import JavaFacts.Proofs.Outline.Plan

/-!
The steps that a plan takes. Whatever the facts are, a plan obeys the same law: what it asks next
depends on the answers that it got so far and on nothing else.
-/

namespace JavaFacts

/-- A request and its answer. -/
structure Step where
  request : Request
  answer : request.Answer

namespace TypeNaming

/-- Whether a type that is named in this way may get the name. -/
def Gives (name : String) : TypeNaming → Prop
  | given known => name = known
  | numbered outer simple => ∃ ordinal, name = numberedName outer simple ordinal

end TypeNaming

namespace Request

/-- Whether there are facts that lead to the answer. -/
def Gives : (request : Request) → request.Answer → Prop
  | declareType naming _ _ _, name => naming.Gives name
  | record _, _ | isInterface _, _ | superclass _, _ | visible .., _ => True

end Request

theorem Facts.exists_freeName (facts : Facts) (anchor : Anchor) (name : Nat → String)
    (steps ordinal : Nat) : ∃ chosen, facts.freeName anchor name steps ordinal = name chosen := by
  induction steps generalizing ordinal with
  | zero => exact ⟨ordinal, rfl⟩
  | succ steps ih =>
      rw [freeName]
      split
      · exact ih (ordinal + 1)
      · exact ⟨ordinal, rfl⟩

theorem Facts.gives_chosenName (facts : Facts) (anchor : Anchor) (naming : TypeNaming) :
    naming.Gives (facts.chosenName anchor naming) := by
  cases naming with
  | given name => rfl
  | numbered outer simple => exact facts.exists_freeName anchor _ _ _

theorem Request.gives_of_perform {facts after : Facts} {request : Request}
    {answer : request.Answer} (performed : request.perform facts = .ok (answer, after)) :
    request.Gives answer := by
  cases request with
  | declareType naming anchor owner flags =>
      have chosen : facts.chosenName anchor naming = answer := by
        simp only [perform] at performed
        rcases outcome : facts.placed (.type, facts.chosenName anchor naming) anchor owner with
          _ | placed <;> rw [outcome] at performed <;> cases performed
        rfl
      exact chosen ▸ facts.gives_chosenName anchor naming
  | _ => trivial

/-- The steps lead from the facts at the start to other facts. -/
inductive Performs (start : Facts) : List Step → Facts → Prop where
  | start : Performs start [] start
  | step {history : List Step} {facts after : Facts} {request : Request} {answer : request.Answer} :
      Performs start history facts → request.perform facts = .ok (answer, after) →
      Performs start (history ++ [⟨request, answer⟩]) after

/-- The facts behind a plan, also if one of its requests was refused. -/
def Facts.ofOutcome : Except Refusal (α × Facts) → Facts
  | .ok (_, facts) => facts
  | .error refusal => refusal.facts

namespace Plan

variable {α β : Type}

/-- Behind the steps the plan goes on with the rest. -/
inductive Reaches : Plan α → List Step → Plan α → Prop where
  | here {plan : Plan α} : Reaches plan [] plan
  | step {request : Request} {next : request.Answer → Plan α} {answer : request.Answer}
      {steps : List Step} {rest : Plan α} :
      Reaches (next answer) steps rest → Reaches (.ask request next) (⟨request, answer⟩ :: steps) rest

theorem Reaches.trans {plan middle rest : Plan α} {steps more : List Step}
    (first : plan.Reaches steps middle) (second : middle.Reaches more rest) :
    plan.Reaches (steps ++ more) rest := by
  induction first with
  | here => exact second
  | step _ ih => exact .step (ih second)

/-- A plan can be followed to its end, whatever the facts are, along steps that keep what holds of the
history. -/
theorem exists_reaches_done (holds : List Step → Prop) (plan : Plan α) {history : List Step}
    (initial : holds history)
    (onward : ∀ history (request : Request), holds history → ∃ answer : request.Answer,
      request.Gives answer ∧ holds (history ++ [⟨request, answer⟩])) :
    ∃ steps result, plan.Reaches steps (.done result) ∧
      (∀ step ∈ steps, step.request.Gives step.answer) ∧ holds (history ++ steps) := by
  induction plan generalizing history with
  | done result => exact ⟨[], result, .here, nofun, by rwa [List.append_nil]⟩
  | ask request next ih =>
      obtain ⟨answer, gives, still⟩ := onward history request initial
      obtain ⟨steps, result, reaches, given, held⟩ := ih answer still
      refine ⟨_ :: steps, result, .step reaches, List.forall_mem_cons.mpr ⟨gives, given⟩, ?_⟩
      rwa [List.append_assoc] at held

/-- A run ends behind all steps of the plan, or with the request that is refused. -/
theorem run_cases (plan : Plan α) {start facts : Facts} {history : List Step}
    (performed : Performs start history facts) :
    (∃ steps result after, plan.Reaches steps (.done result) ∧
      Performs start (history ++ steps) after ∧ plan.run facts = .ok (result, after)) ∨
    ∃ steps request next middle refusal, plan.Reaches steps (.ask request next) ∧
      Performs start (history ++ steps) middle ∧ request.perform middle = .error refusal ∧
      plan.run facts = .error refusal := by
  induction plan generalizing facts history with
  | done result => exact .inl ⟨[], result, facts, .here, by rwa [List.append_nil], rfl⟩
  | ask request next ih =>
      rw [run]
      rcases asked : request.perform facts with refusal | ⟨answer, middle⟩
      · exact .inr ⟨[], request, next, facts, refusal, .here, by rwa [List.append_nil], asked, rfl⟩
      · rcases ih answer (performed.step asked) with
          ⟨steps, result, after, reaches, later, ran⟩ |
          ⟨steps, refused, onward, last, refusal, reaches, later, failed, ran⟩
        · refine .inl ⟨_ :: steps, result, after, .step reaches, ?_, ran⟩
          rwa [List.append_assoc] at later
        · refine .inr ⟨_ :: steps, refused, onward, last, refusal, .step reaches, ?_, failed, ran⟩
          rwa [List.append_assoc] at later

/-- Everything the plan asks behind the history is lawful, and its result is good. -/
def Lawful (law : List Step → Request → Prop) (good : List Step → α → Prop) (history : List Step) :
    Plan α → Prop
  | done result => good history result
  | ask request next =>
      law history request ∧ ∀ answer, request.Gives answer →
        Lawful law good (history ++ [⟨request, answer⟩]) (next answer)

namespace Lawful

variable {law : List Step → Request → Prop} {history : List Step}

theorem bind {between : List Step → α → Prop} {good : List Step → β → Prop} {plan : Plan α}
    {next : α → Plan β} (first : plan.Lawful law between history)
    (rest : ∀ later result, between later result → (next result).Lawful law good later) :
    (plan.bind next).Lawful law good history := by
  induction plan generalizing history with
  | done result => exact rest history result first
  | ask request onward ih => exact ⟨first.1, fun answer gives => ih answer (first.2 answer gives)⟩

theorem weaken {good better : List Step → α → Prop} {plan : Plan α}
    (lawful : plan.Lawful law good history)
    (enough : ∀ later result, good later result → better later result) :
    plan.Lawful law better history := by
  induction plan generalizing history with
  | done result => exact enough history result lawful
  | ask request onward ih => exact ⟨lawful.1, fun answer gives => ih answer (lawful.2 answer gives)⟩

theorem reached {good : List Step → α → Prop} {plan rest : Plan α} {steps : List Step}
    (lawful : plan.Lawful law good history) (reaches : plan.Reaches steps rest)
    (given : ∀ step ∈ steps, step.request.Gives step.answer) :
    rest.Lawful law good (history ++ steps) := by
  induction reaches generalizing history with
  | here => rwa [List.append_nil]
  | step reaches ih =>
      rw [List.forall_mem_cons] at given
      have onward := ih (lawful.2 _ given.1) given.2
      rwa [List.append_assoc] at onward

/-- The law holds at every step that the plan takes. -/
theorem obeyed {good : List Step → α → Prop} {plan rest : Plan α} {steps : List Step}
    (lawful : plan.Lawful law good history) (reaches : plan.Reaches steps rest)
    (given : ∀ step ∈ steps, step.request.Gives step.answer) {before after : List Step}
    {step : Step} (split : steps = before ++ step :: after) :
    law (history ++ before) step.request := by
  induction reaches generalizing history before with
  | here => cases before <;> cases split
  | step reaches ih =>
      rw [List.forall_mem_cons] at given
      cases before with
      | nil =>
          obtain ⟨rfl, -⟩ := List.cons.inj split
          rw [List.append_nil]
          exact lawful.1
      | cons first before =>
          obtain ⟨rfl, others⟩ := List.cons.inj split
          have onward := ih (lawful.2 _ given.1) given.2 others
          rwa [List.append_assoc] at onward

end Lawful

end Plan

theorem Performs.gives {start facts : Facts} {history : List Step}
    (performed : Performs start history facts) :
    ∀ step ∈ history, step.request.Gives step.answer := by
  induction performed with
  | start => exact fun _ => (nomatch ·)
  | step _ asked ih =>
      intro step member
      rcases List.mem_append.mp member with known | new
      · exact ih step known
      · rw [List.mem_singleton.mp new]
        exact Request.gives_of_perform asked

namespace Performs

variable {start after : Facts} {history before later : List Step} {step : Step}

theorem last (performed : Performs start (history ++ [step]) after) :
    ∃ facts, Performs start history facts ∧
      step.request.perform facts = .ok (step.answer, after) := by
  generalize same : history ++ [step] = steps at performed
  cases performed with
  | start => exact absurd same (List.append_ne_nil_of_right_ne_nil _ (List.cons_ne_nil _ _))
  | step performed asked =>
      obtain ⟨rfl, rest⟩ := List.append_inj' same rfl
      obtain rfl := (List.cons.inj rest).1
      exact ⟨_, performed, asked⟩

theorem split (performed : Performs start (before ++ later) after) :
    ∃ middle, Performs start before middle ∧ Performs middle later after := by
  induction later using List.reverseRecOn generalizing after with
  | nil => exact ⟨after, by rwa [List.append_nil] at performed, .start⟩
  | append_singleton later step ih =>
      rw [← List.append_assoc] at performed
      obtain ⟨facts, earlier, asked⟩ := performed.last
      obtain ⟨middle, first, second⟩ := ih earlier
      exact ⟨middle, first, second.step asked⟩

end Performs

namespace Plan

/-- What holds at the start and is kept by every lawful step holds when the run ends; a run that is
refused ends with a lawful request. -/
theorem Lawful.run {law : List Step → Request → Prop} {good : List Step → α → Prop} {plan : Plan α}
    {start : Facts} (holds : List Step → Facts → Prop) (lawful : plan.Lawful law good [])
    (initial : holds [] start)
    (keeps : ∀ history facts request answer after, holds history facts → law history request →
      request.perform facts = .ok (answer, after) → holds (history ++ [⟨request, answer⟩]) after) :
    match plan.run start with
    | .ok (result, facts) => ∃ history, holds history facts ∧ good history result
    | .error refusal => ∃ history middle request, holds history middle ∧ law history request ∧
        request.perform middle = .error refusal := by
  have along : ∀ steps facts, Performs start steps facts →
      (∀ before step after, steps = before ++ step :: after → law before step.request) →
      holds steps facts := by
    intro steps facts performed
    induction performed with
    | start => exact fun _ => initial
    | step performed asked ih =>
        intro obeyed
        refine keeps _ _ _ _ _ (ih fun before step after split => ?_) (obeyed _ _ [] rfl) asked
        exact obeyed before step (after ++ [_]) (by rw [split, List.append_assoc, List.cons_append])
  rcases plan.run_cases .start with ⟨steps, result, after, reaches, performed, ran⟩ |
      ⟨steps, request, next, middle, refusal, reaches, performed, refused, ran⟩ <;>
    rw [ran] <;> rw [List.nil_append] at performed <;>
    have held := along steps _ performed fun before step after split => by
      simpa using lawful.obeyed reaches performed.gives split
  · exact ⟨steps, held, lawful.reached reaches performed.gives⟩
  · exact ⟨steps, middle, request, held, (lawful.reached reaches performed.gives).1, refused⟩

end Plan

end JavaFacts
