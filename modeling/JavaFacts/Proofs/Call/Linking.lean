import JavaFacts.Proofs.Call.Reached
import Mathlib.Data.List.Forall2

/-!
Linking calls to what was found for them. A pass over a list of calls searches the targets of those
that wait for it, counts the outcomes and appends one association for each call that the
configuration lets it link; nothing else changes.
-/

namespace JavaFacts

namespace Target

def isUnique : Target → Bool
  | unique _ => true
  | _ => false

def isAmbiguous : Target → Bool
  | ambiguous _ => true
  | _ => false

def isUnresolved : Target → Bool
  | unresolved => true
  | _ => false

end Target

namespace Call

variable {store : Store} {config : Config} {call : Call}

/-- Whether a call is to be linked to the method: its only match, or the first of several. -/
def Chooses (config : Config) (call : Call) (method : EntityId) : Prop :=
  (config.linkUnique ∧ call.target = .unique method) ∨
    (config.linkAmbiguous ∧ ∃ others, call.target = .ambiguous (method :: others))

theorem linkTarget?_eq_some_iff {method : EntityId} :
    call.linkTarget? config = some method ↔ call.Chooses config method := by
  unfold linkTarget? Chooses
  cases call.target with
  | unique only => cases config.linkUnique <;> simp
  | ambiguous several => cases several <;> cases config.linkAmbiguous <;> simp
  | unresolved => simp

/-- The association links the call. -/
structure LinkedBy (config : Config) (call : Call) (association : Association) : Prop where
  kind : association.kind = .invocation
  source : association.source = call.caller
  target : call.Chooses config association.target
  anchor : association.anchor = some call.anchor
  statement : association.statement = call.statement

def isLinkable (config : Config) (call : Call) : Bool :=
  (call.linkTarget? config).isSome

/-- What a summary says about the calls that were tried. -/
structure Counts (config : Config) (summary : ResolutionSummary) (tried : List Call) : Prop where
  attempted : summary.attempted = tried.length
  outcomes : summary.attempted = summary.unique + summary.ambiguous + summary.unresolved
  unique : summary.unique = tried.countP (·.target.isUnique)
  ambiguous : summary.ambiguous = tried.countP (·.target.isAmbiguous)
  unresolved : summary.unresolved = tried.countP (·.target.isUnresolved)
  linked : summary.linked = (if config.linkUnique then summary.unique else 0) +
    (if config.linkAmbiguous then summary.ambiguous else 0)
  linkable : summary.linked = tried.countP (·.isLinkable config)

/-- Several candidates are at least one. -/
theorem isLinkable_eq (call : Call) :
    call.isLinkable config = (config.linkUnique && call.target.isUnique ||
      config.linkAmbiguous && call.target.isAmbiguous) := by
  unfold isLinkable linkTarget?
  cases best : call.target with
  | unique only => cases config.linkUnique <;> simp [Target.isUnique, Target.isAmbiguous]
  | ambiguous several =>
      have two := (Candidates.best_eq_ambiguous_iff.mp best).1
      cases several with
      | nil => cases two
      | cons first others => cases config.linkAmbiguous <;> simp [Target.isUnique, Target.isAmbiguous]
  | unresolved => simp [Target.isUnique, Target.isAmbiguous]

/-- The summary with one more call. -/
def counted (config : Config) (summary : ResolutionSummary) (call : Call) : ResolutionSummary :=
  { count summary call with
    linked := (count summary call).linked + if call.isLinkable config then 1 else 0 }

/-- The store behind a call. -/
def linkedStore (config : Config) (store : Store) (call : Call) : Store :=
  match call.linkTarget? config with
  | some method =>
      store.appended .invocation call.caller method (some call.anchor) call.statement
  | none => store

/-- The ends of the association that links a call, if one does, are known. -/
structure Linkable (config : Config) (store : Store) (call : Call) : Prop where
  caller : ∃ entity, store.entity? call.caller = some entity
  target : ∀ method, call.linkTarget? config = some method →
    ∃ entity, store.entity? method = some entity

theorem perform_link (known : call.Linkable config store) (summary : ResolutionSummary) :
    (link config summary call).perform store =
      (.ok (call.counted config summary), call.linkedStore config store) := by
  have source := Option.isSome_iff_exists.mpr known.caller
  unfold link linkedStore counted isLinkable
  cases found : call.linkTarget? config with
  | none => rfl
  | some method =>
      have target := Option.isSome_iff_exists.mpr (known.target method found)
      simp only [Edit.perform_bind, Edit.perform_addAssociation source target, Edit.perform_pure,
        Option.isSome_some, ↓reduceIte]

theorem counted_eq (summary : ResolutionSummary) (call : Call) :
    call.counted config summary =
      { attempted := summary.attempted + 1
        unique := summary.unique + if call.target.isUnique then 1 else 0
        ambiguous := summary.ambiguous + if call.target.isAmbiguous then 1 else 0
        unresolved := summary.unresolved + if call.target.isUnresolved then 1 else 0
        linked := summary.linked + if call.isLinkable config then 1 else 0 } := by
  unfold counted count
  cases call.target <;> rfl

theorem counts_counted {summary : ResolutionSummary} {tried : List Call}
    (counts : Counts config summary tried) (call : Call) :
    Counts config (call.counted config summary) (tried ++ [call]) := by
  obtain ⟨attempted, outcomes, unique, ambiguous, unresolved, linked, linkable⟩ := counts
  rw [counted_eq]
  refine ⟨?_, ?_, ?_, ?_, ?_, ?_, ?_⟩
  · rw [List.length_append, attempted, List.length_singleton]
  · -- every target is of one of the three kinds
    cases call.target <;> simp only [Target.isUnique, Target.isAmbiguous, Target.isUnresolved,
      Bool.false_eq_true, ↓reduceIte] <;> omega
  · rw [List.countP_append, List.countP_singleton, unique]
  · rw [List.countP_append, List.countP_singleton, ambiguous]
  · rw [List.countP_append, List.countP_singleton, unresolved]
  · dsimp only
    rw [linked, isLinkable_eq]
    cases call.target <;> cases config.linkUnique <;> cases config.linkAmbiguous <;>
      simp [Target.isUnique, Target.isAmbiguous] <;> omega
  · rw [List.countP_append, List.countP_singleton, linkable]

theorem Linkable.congr {after : Store} (known : call.Linkable config store)
    (same : after.entities = store.entities) : call.Linkable config after := by
  have entity? (id : EntityId) : after.entity? id = store.entity? id := by
    rw [Store.entity?, Store.entity?, same]
  refine ⟨?_, fun method found => ?_⟩
  · rw [entity?]
    exact known.caller
  · rw [entity?]
    exact known.target method found

theorem entities_linkedStore : (call.linkedStore config store).entities = store.entities := by
  unfold linkedStore
  split
  · rfl
  · rfl

theorem ids_linkedStore : (call.linkedStore config store).ids = store.ids := by
  unfold linkedStore
  split
  · rfl
  · rfl

theorem perform_linkAll {calls : List Call} (known : ∀ call ∈ calls, call.Linkable config store) :
    (linkAll config calls).perform store =
      (.ok (calls.foldl (fun summary call => call.counted config summary) .none),
        calls.foldl (fun store call => call.linkedStore config store) store) := by
  unfold linkAll
  generalize ResolutionSummary.none = summary
  induction calls generalizing store summary with
  | nil => rfl
  | cons call calls ih =>
      rw [List.foldlM_cons, Edit.perform_bind, perform_link (known call List.mem_cons_self)]
      exact ih (fun other member => (known other (List.mem_cons_of_mem _ member)).congr
        entities_linkedStore) (call.counted config summary)

theorem counts_foldl (calls : List Call) {summary : ResolutionSummary} {tried : List Call}
    (counts : Counts config summary tried) :
    Counts config (calls.foldl (fun summary call => call.counted config summary) summary)
      (tried ++ calls) := by
  induction calls generalizing summary tried with
  | nil => rwa [List.append_nil]
  | cons call calls ih =>
      rw [List.append_cons]
      exact ih (counts_counted counts call)

theorem counts_none (config : Config) : Counts config ResolutionSummary.none [] := by
  refine ⟨rfl, rfl, rfl, rfl, rfl, ?_, rfl⟩
  cases config.linkUnique <;> cases config.linkAmbiguous <;> rfl

/-- No entity changes, and there is one more association for each of the calls that can be linked,
in their order. -/
theorem links_foldl (config : Config) (calls : List Call) (store : Store) :
    let after := calls.foldl (fun store call => call.linkedStore config store) store
    after.entities = store.entities ∧ after.ids = store.ids ∧
      ∃ added, after.associations.toList = store.associations.toList ++ added ∧
        List.Forall₂ (LinkedBy config) (calls.filter (·.isLinkable config)) added := by
  induction calls generalizing store with
  | nil => exact ⟨rfl, rfl, [], (List.append_nil _).symm, .nil⟩
  | cons call calls ih =>
      obtain ⟨entities, ids, added, associations, linked⟩ := ih (call.linkedStore config store)
      refine ⟨entities.trans entities_linkedStore, ids.trans ids_linkedStore, ?_⟩
      rw [List.foldl_cons, associations]
      cases found : call.linkTarget? config with
      | none =>
          have skipped : call.isLinkable config = false := by rw [isLinkable, found]; rfl
          have same : call.linkedStore config store = store := by rw [linkedStore, found]
          refine ⟨added, by rw [same], ?_⟩
          rwa [List.filter_cons_of_neg (by simp [skipped])]
      | some method =>
          have kept : call.isLinkable config = true := by rw [isLinkable, found]; rfl
          have appended : call.linkedStore config store = store.appended .invocation call.caller
              method (some call.anchor) call.statement := by rw [linkedStore, found]
          rw [List.filter_cons_of_pos kept, appended, Store.appended, Array.toList_push,
            List.append_assoc]
          refine ⟨_, rfl, .cons ⟨rfl, rfl, linkTarget?_eq_some_iff.mp found, rfl, rfl⟩ linked⟩

theorem isCaptured_resolve (call : Call) (index : MethodIndex) :
    (call.resolve store index).isCaptured = false :=
  rfl

/-- The calls of a list that wait, after the search for their targets. -/
def searchedOf (store : Store) (calls : List Call) : List Call :=
  (calls.filter (·.isCaptured)).map fun call => call.resolve store (MethodIndex.ofStore store)

theorem pending_eq (store : Store) (calls : List Call) :
    ((calls.zip (resolveAll store calls)).filter (·.1.isCaptured)).map (·.2) =
      searchedOf store calls := by
  rw [resolveAll, ← List.map_prod_left_eq_zip, List.filter_map, List.map_map, searchedOf]
  refine List.map_congr_left fun call member => ?_
  have captured : call.isCaptured = true := (List.mem_filter.mp member).2
  exact if_pos captured

theorem knows_of_mem_keep {accepts : Entity → Bool} {methods : List EntityId} {method : EntityId}
    (member : method ∈ Stage.keep store accepts methods) : store.Knows method := by
  obtain ⟨entity, stored, -⟩ := (Option.any_eq_true _ _).mp (List.mem_filter.mp member).2
  exact ⟨entity, stored⟩

/-- What a search finds is an entity, even if the facts are not as they should be. -/
theorem knows_of_linkTarget? (call : Call) (index : MethodIndex) {method : EntityId}
    (found : (call.resolve store index).linkTarget? config = some method) : store.Knows method := by
  rcases mem_of_linkTarget? found with exact' | soft | received
  · exact knows_of_mem_keep exact'
  · exact knows_of_mem_keep soft
  · have searched : (call.resolve store index).candidates =
        (call.resolve store index).candidatesIn store index := rfl
    rw [searched, candidatesIn] at received
    dsimp only at received
    split at received
    · exact knows_of_mem_keep received
    · exact knows_of_mem_keep received

theorem linkable_resolve (caller : ∃ entity, store.entity? call.caller = some entity) :
    (call.resolve store (MethodIndex.ofStore store)).Linkable config store :=
  ⟨caller, fun _ => knows_of_linkTarget? call _⟩

theorem resolveAndLink_of_linkable {calls : List Call}
    (linkable : ∀ call ∈ searchedOf store calls, call.Linkable config store) :
    resolveAndLink config calls store =
      (.ok ((searchedOf store calls).foldl (fun summary call => call.counted config summary) .none),
        resolveAll store calls,
        (searchedOf store calls).foldl (fun store call => call.linkedStore config store) store) := by
  have linked := perform_linkAll linkable
  rw [← pending_eq] at linked ⊢
  rw [Edit.perform] at linked
  unfold resolveAndLink
  dsimp only
  rw [linked]

theorem resolveAndLink_eq (config : Config) {calls : List Call}
    (callers : ∀ call ∈ calls, ∃ entity, store.entity? call.caller = some entity) :
    resolveAndLink config calls store =
      (.ok ((searchedOf store calls).foldl (fun summary call => call.counted config summary) .none),
        resolveAll store calls,
        (searchedOf store calls).foldl (fun store call => call.linkedStore config store) store) := by
  refine resolveAndLink_of_linkable fun call member => ?_
  obtain ⟨original, waits, rfl⟩ := List.mem_map.mp member
  exact linkable_resolve (callers original (List.mem_of_mem_filter waits))

end Call

end JavaFacts
