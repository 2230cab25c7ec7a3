import JavaFacts.Proofs.Call.Sessions
import JavaFacts.Proofs.Facts.Growth
import JavaFacts.Proofs.Outline.Settled

/-!
Extractions and passes over calls only add to a store, also when they fail. For extractions this is
so by names, step by step of their plans; passes add associations and touch no entity, whatever calls
they are given.
-/

namespace JavaFacts

theorem Request.growsInto_perform (request : Request) (facts : Facts) :
    facts.GrowsInto (.ofOutcome (request.perform facts)) := by
  have grown := Change.growsInto_applyAll (request.changes (request.answer facts)) facts
  rw [perform_eq]
  cases applied : Change.applyAll facts (request.changes (request.answer facts)) <;>
    rw [applied] at grown <;> exact grown

theorem Plan.growsInto_run {α : Type} (plan : Plan α) (facts : Facts) :
    facts.GrowsInto (.ofOutcome (plan.run facts)) := by
  induction plan generalizing facts with
  | done result => exact refl_of Facts.GrowsInto facts
  | ask request next ih =>
      have first := request.growsInto_perform facts
      rw [run]
      cases performed : request.perform facts with
      | error after =>
          rw [performed] at first
          exact first
      | ok answered =>
          rw [performed] at first
          exact trans_of Facts.GrowsInto first (ih answered.1 answered.2)

theorem CompilationUnit.growsInto_extract (unit : CompilationUnit) (config : Config) {store : Store}
    (whole : store.Whole) : store.GrowsInto (unit.extract config store).store := by
  obtain ⟨after, extending, same⟩ := unit.extract_facts config whole
  refine whole.growsInto after.toSound extending ?_
  rw [same]
  exact trans_of Facts.GrowsInto (store.facts.growsInto_interned unit.home)
    ((unit.plan config).growsInto_run _)

namespace Call

theorem growsInto_link (config : Config) (summary : ResolutionSummary) (call : Call) (store : Store) :
    store.GrowsInto ((link config summary call).perform store).2 := by
  unfold link
  cases call.linkTarget? config with
  | none => exact refl_of Store.GrowsInto store
  | some method =>
      dsimp only
      rw [Edit.perform_bind]
      rcases Edit.addAssociation_cases store .invocation call.caller method (some call.anchor)
        call.statement with ⟨error, refused⟩ | ⟨caller, known⟩
      · rw [refused]
        exact refl_of Store.GrowsInto store
      · rw [Edit.perform_addAssociation caller known]
        exact store.growsInto_appended ..

/-- A pass ends with the first call that cannot be linked; those before it stay linked. -/
theorem growsInto_linkAll (config : Config) (calls : List Call) (store : Store) :
    store.GrowsInto ((linkAll config calls).perform store).2 := by
  unfold linkAll
  generalize ResolutionSummary.none = summary
  induction calls generalizing store summary with
  | nil => exact refl_of Store.GrowsInto store
  | cons call calls ih =>
      have first := growsInto_link config summary call store
      rw [List.foldlM_cons, Edit.perform_bind]
      rcases performed : (link config summary call).perform store with ⟨error | counted, middle⟩ <;>
        rw [performed] at first
      · exact first
      · exact trans_of Store.GrowsInto first (ih middle counted)

theorem growsInto_resolveAndLink (config : Config) (calls : List Call) (store : Store) :
    store.GrowsInto (resolveAndLink config calls store).2.2 :=
  growsInto_linkAll config _ store

end Call

namespace Session

/-- The store holds together, and the callers are methods in it. -/
structure Sound (session : Session) : Prop where
  store : session.store.Whole
  callers : ∀ call ∈ session.calls, session.store.Holds .method call.caller

variable {session : Session}

theorem Sound.perform (sound : session.Sound) (step : Step) : (session.perform step).Sound := by
  cases step with
  | extract unit config =>
      obtain ⟨whole, grown, -⟩ := unit.extract_facts config sound.store
      obtain ⟨-, -, deferred⟩ := unit.walk_sound config sound.store.toSound
      refine ⟨whole, fun call member => ?_⟩
      rcases List.mem_append.mp member with known | new
      · exact (sound.callers call known).extended grown
      · exact deferred call (unit.deferred_extract config _ new)
  | link config =>
      obtain ⟨whole, grown, -⟩ := Call.resolveAndLink_facts sound.store config sound.callers
      obtain ⟨-, -, callers⟩ := Call.resolveAndLink_sound sound.store.toSound config sound.callers
      exact ⟨whole, fun call member => (callers call member).extended grown⟩

theorem Sound.growsInto_perform (sound : session.Sound) (step : Step) :
    session.store.GrowsInto (session.perform step).store := by
  cases step with
  | extract unit config => exact unit.growsInto_extract config sound.store
  | link config => exact Call.growsInto_resolveAndLink config session.calls session.store

theorem Sound.growsInto_run (sound : session.Sound) (steps : List Step) :
    session.store.GrowsInto (session.run steps).store := by
  induction steps generalizing session with
  | nil => exact refl_of Store.GrowsInto session.store
  | cons step steps ih =>
      exact trans_of Store.GrowsInto (sound.growsInto_perform step) (ih (sound.perform step))

end Session

namespace Store

/-- In a store that was reached, extracting a unit and passing over calls, whatever comes of it, leave
every entity with its number, kind and name, with the place it has, with all of its flags, and with an
owner and a type if it had them; all associations stay where they are, and others come behind them.
So does every session of extractions and passes. -/
theorem Reached.only_grows {store : Store} {calls : List Call} (reached : store.Reached calls) :
    (∀ (unit : CompilationUnit) config, store.GrowsInto (unit.extract config store).store) ∧
      (∀ config chosen, store.GrowsInto (Call.resolveAndLink config chosen store).2.2) ∧
      ∀ steps, store.GrowsInto ((⟨store, calls⟩ : Session).run steps).store := by
  have sound : (⟨store, calls⟩ : Session).Sound := ⟨reached.facts.1, reached.sound.2⟩
  exact ⟨fun unit config => unit.growsInto_extract config sound.store,
    fun config chosen => Call.growsInto_resolveAndLink config chosen store, sound.growsInto_run⟩

/-- A superclass that is declared by a later unit. -/
theorem Reached.only_grows_of_superclass :
    let superclass : TypeUse := ⟨⟨16, 1⟩, .simple "A", some (.named .ofClass "A")⟩
    let first : CompilationUnit := { (default : CompilationUnit) with
      path := "B.java"
      types := [.type ⟨0, 20⟩ { (default : TypeHeader) with name := "B", superclass } []] }
    let second : CompilationUnit := { (default : CompilationUnit) with
      path := "A.java"
      types := [.type ⟨0, 10⟩ { (default : TypeHeader) with name := "A" } []] }
    let before := (first.extract .standard ∅).store
    let after := (second.extract .standard before).store
    before.GrowsInto after ∧ before.facts.anchor? (.type, "A") = none ∧
      after.facts.anchor? (.type, "A") = some ⟨"A.java", 0, 10⟩ := by
  intro superclass first second before after
  obtain ⟨whole, -, facts⟩ := first.extract_facts .standard .empty
  obtain ⟨-, -, facts'⟩ := second.extract_facts .standard whole
  rw [facts_empty] at facts
  rw [facts] at facts'
  refine ⟨(Reached.only_grows (.extract first .standard .empty)).1 second .standard, ?_, ?_⟩
  · rw [facts]
    decide +kernel
  · rw [facts']
    decide +kernel

end Store

end JavaFacts
