import JavaFacts.Proofs.Call.Reached
import JavaFacts.Proofs.Outline.Lawful

/-!
What the stores that extracting units and linking calls lead to are by names: the facts that the
plans of the units lead to, with links for calls.
-/

namespace JavaFacts

/-- The facts that plans of units and links for calls lead to. -/
inductive Facts.Reached : Facts → Prop where
  | empty : Reached ⟨[], fun _ => none, []⟩
  | plan {facts : Facts} (unit : CompilationUnit) (config : Config) : Reached facts →
      Reached (.ofOutcome ((unit.plan config).run (facts.interned unit.home)))
  | link {facts : Facts} {links : List Link} : Reached facts →
      (∀ link ∈ links, link.kind = .invocation) →
      Reached { facts with links := facts.links ++ links }

namespace Call

variable {store : Store} {config : Config}

theorem link_does {call : Call} (caller : store.Holds .method call.caller)
    (target : ∀ method, call.linkTarget? config = some method → store.Holds .method method)
    (summary : ResolutionSummary) :
    ∃ links : List Link, (∀ link ∈ links, link.kind = .invocation) ∧
      Edit.Does store (.ok { store.facts with links := store.facts.links ++ links })
        (link config summary call) fun _ _ => True := by
  obtain ⟨callerName, caller⟩ := caller
  unfold link
  cases found : call.linkTarget? config with
  | none =>
      refine ⟨[], fun _ => (nomatch ·), ?_⟩
      rw [List.append_nil]
      exact .pure trivial
  | some method =>
      obtain ⟨name, target⟩ := target method found
      refine ⟨[⟨.invocation, callerName, name, some call.anchor, call.statement⟩],
        fun link member => by rw [List.mem_singleton.mp member], ?_⟩
      refine .andThen (Edit.addAssociation_does caller target) fun _ middle _ same _ => ?_
      have reached : { store.facts with links := store.facts.links ++
          [⟨.invocation, callerName, name, some call.anchor, call.statement⟩] } = middle.facts :=
        same.symm
      exact reached ▸ .pure trivial

/-- The links of calls are the only trace that linking leaves. -/
theorem linkAll_facts {calls : List Call} (whole : store.Whole)
    (fits : ∀ call ∈ calls, store.Holds .method call.caller ∧
      ∀ method, call.linkTarget? config = some method → store.Holds .method method) :
    let after := ((linkAll config calls).perform store).2
    after.Whole ∧ store.Extends after ∧ ∃ links : List Link,
      (∀ link ∈ links, link.kind = .invocation) ∧
      after.facts = { store.facts with links := store.facts.links ++ links } := by
  unfold linkAll
  generalize ResolutionSummary.none = summary
  induction calls generalizing store summary with
  | nil =>
      refine ⟨whole, refl_of Store.Extends store, [], fun _ => (nomatch ·), ?_⟩
      rw [List.append_nil]
      rfl
  | cons call calls ih =>
      obtain ⟨caller, target⟩ := fits call List.mem_cons_self
      obtain ⟨links, kinds, does⟩ := link_does caller target summary
      obtain ⟨middleWhole, grown, outcome⟩ := does whole
      rw [List.foldlM_cons, Edit.perform_bind]
      rcases performed : (link config summary call).perform store with ⟨error | counted, middle⟩ <;>
        rw [performed] at middleWhole grown outcome
      · exact outcome.elim
      · have still : ∀ call ∈ calls, middle.Holds .method call.caller ∧
            ∀ method, call.linkTarget? config = some method → middle.Holds .method method :=
          fun other member =>
            have known := fits other (List.mem_cons_of_mem _ member)
            ⟨known.1.extended grown, fun method found => (known.2 method found).extended grown⟩
        obtain ⟨afterWhole, later, others, otherKinds, same⟩ := ih middleWhole still counted
        refine ⟨afterWhole, trans_of Store.Extends grown later, links ++ others, ?_, ?_⟩
        · intro link member
          exact (List.mem_append.mp member).elim (kinds link) (otherKinds link)
        · rw [same, outcome.1, List.append_assoc]

theorem resolveAndLink_facts (whole : store.Whole) (config : Config) {calls : List Call}
    (callers : ∀ call ∈ calls, store.Holds .method call.caller) :
    let after := (resolveAndLink config calls store).2.2
    after.Whole ∧ store.Extends after ∧ ∃ links : List Link,
      (∀ link ∈ links, link.kind = .invocation) ∧
      after.facts = { store.facts with links := store.facts.links ++ links } := by
  refine linkAll_facts whole fun call member => ?_
  obtain ⟨original, known, rfl⟩ := resolved_of_mem_pending member
  exact ⟨callers original known,
    fun method found => holds_of_linkTarget? whole.toSound (searched_resolve whole.toSound original) found⟩

end Call

theorem Store.Whole.empty : Store.Whole ∅ where
  toSound := .empty
  members found := by
    rw [Store.entity?_empty] at found
    cases found

theorem Store.facts_empty : (∅ : Store).facts = ⟨[], fun _ => none, []⟩ := by
  refine Facts.ext rfl (funext fun identity => ?_) rfl
  rw [Store.lookup_facts, Store.find?_empty]
  rfl

theorem CompilationUnit.extract_facts (unit : CompilationUnit) (config : Config) {store : Store}
    (whole : store.Whole) :
    let after := (unit.extract config store).store
    after.Whole ∧ store.Extends after ∧
      after.facts = .ofOutcome ((unit.plan config).run (store.facts.interned unit.home)) := by
  obtain ⟨grown, outcome⟩ := unit.walk_follows config whole
  have same : (unit.extract config store).store = (unit.walk config store).2.store := rfl
  rw [same]
  rcases walked : unit.walk config store with ⟨fault | ⟨⟩, after⟩ <;> rw [walked] at grown outcome <;>
    rcases ran : (unit.plan config).run (store.facts.interned unit.home) with
      refusal | ⟨⟨result, standing⟩, facts⟩ <;>
    rw [ran] at outcome
  · exact ⟨outcome.2.1, grown, outcome.1⟩
  · exact outcome.elim
  · exact outcome.elim
  · obtain ⟨same, site, -, stands⟩ := outcome
    exact ⟨stands.store, grown, same⟩

/-- What a store that was reached says is what plans and links lead to. -/
theorem Store.Reached.facts {store : Store} {calls : List Call} (reached : store.Reached calls) :
    store.Whole ∧ store.facts.Reached := by
  induction reached with
  | empty => exact ⟨.empty, Store.facts_empty ▸ .empty⟩
  | extract unit config _ ih =>
      obtain ⟨whole, -, same⟩ := unit.extract_facts config ih.1
      exact ⟨whole, same ▸ .plan unit config ih.2⟩
  | link config chosen before known ih =>
      obtain ⟨whole, -, links, kinds, same⟩ := Call.resolveAndLink_facts ih.1 config
        fun call member => before.sound.2 call (known call member)
      exact ⟨whole, same ▸ .link ih.2 kinds⟩

end JavaFacts
