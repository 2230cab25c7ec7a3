import JavaFacts.Proofs.Call.Linking
import JavaFacts.Proofs.Outline.Reached

/-!
Sessions, in which units are extracted and passes over the calls found so far come in any order. Each
pass resolves what waits for it at that point, so every call is resolved by one pass, and no other
pass links it.
-/

namespace JavaFacts

/-- An extraction hands on as many calls as its plan keeps. -/
theorem CompilationUnit.length_deferred (unit : CompilationUnit) (config : Config) {store : Store}
    (whole : store.Whole) {count : Nat}
    (planned : (((unit.plan config).run (store.facts.interned unit.home)).map
      fun (outcome : _ × Facts) => outcome.1.2.calls.length).toOption = some count) :
    (unit.extract config store).deferred.length = count := by
  obtain ⟨-, outcome⟩ := unit.walk_follows config whole
  rcases ran : (unit.plan config).run (store.facts.interned unit.home) with
    facts | ⟨⟨result, standing⟩, facts⟩ <;> rw [ran] at planned outcome
  · cases planned
  · rcases walked : unit.walk config store with ⟨fault | ⟨⟩, after⟩ <;> rw [walked] at outcome
    · exact outcome.elim
    · obtain ⟨-, site, -, stands⟩ := outcome
      have kept : (unit.extract config store).deferred = after.calls.toList := by
        rw [Extraction.deferred, extract_of_walk (by rw [walked]), walked]
        rfl
      rw [kept, stands.calls.length_eq]
      exact Option.some.inj planned

/-- What numbers stand for is said by the entities and the index of identities alone. -/
theorem Store.Identified.congr {store after : Store} (identified : store.Identified)
    (entities : after.entities = store.entities) (ids : after.ids = store.ids) : after.Identified := by
  obtain ⟨_, _, associations, outgoing, incoming⟩ := after
  obtain rfl : _ = store.entities := entities
  obtain rfl : _ = store.ids := ids
  exact ⟨identified.entityId, identified.find⟩

/-- A store and the calls handed on so far, to which extractions add their own. -/
structure Session where
  store : Store
  calls : List Call

namespace Session

inductive Step where
  | extract (unit : CompilationUnit) (config : Config)
  | link (config : Config)

def perform (session : Session) : Step → Session
  | .extract unit config =>
      { store := (unit.extract config session.store).store
        calls := session.calls ++ (unit.extract config session.store).deferred }
  | .link config =>
      { store := (Call.resolveAndLink config session.calls session.store).2.2
        calls := (Call.resolveAndLink config session.calls session.store).2.1 }

def run (session : Session) (steps : List Step) : Session :=
  steps.foldl perform session

/-- The positions of the calls whose targets nobody searched for. -/
def waiting (session : Session) : List Nat :=
  (List.range session.calls.length).filter fun position =>
    session.calls[position]?.any (·.isCaptured)

/-- The positions of the calls that a step resolves. -/
def resolvedBy (session : Session) : Step → List Nat
  | .extract _ _ => []
  | .link _ => session.waiting

/-- The positions of the calls that a step links. -/
def linkedBy (session : Session) : Step → List Nat
  | .extract _ _ => []
  | .link config => session.waiting.filter fun position =>
      (session.perform (.link config)).calls[position]?.any (·.isLinkable config)

def resolved (session : Session) : List Step → List Nat
  | [] => []
  | step :: steps => session.resolvedBy step ++ (session.perform step).resolved steps

def linked (session : Session) : List Step → List Nat
  | [] => []
  | step :: steps => session.linkedBy step ++ (session.perform step).linked steps

/-- What a pass with the configuration does next in the session: it succeeds, and the summary, the
calls and the associations added agree. -/
structure LinksExactly (session : Session) (config : Config) (summary : ResolutionSummary) : Prop where
  succeeds : (Call.resolveAndLink config session.calls session.store).1 = .ok summary
  attempted : summary.attempted = session.calls.countP (·.isCaptured)
  counts : Call.Counts config summary (Call.searchedOf session.store session.calls)
  calls : ∀ position : Nat, (session.perform (.link config)).calls[position]? =
    session.calls[position]?.map fun call : Call =>
      if call.isCaptured then call.resolve session.store (MethodIndex.ofStore session.store)
      else call
  entities : (session.perform (.link config)).store.entities = session.store.entities
  ids : (session.perform (.link config)).store.ids = session.store.ids
  associations : ∃ added, (session.perform (.link config)).store.associations.toList =
      session.store.associations.toList ++ added ∧ added.length = summary.linked ∧
    List.Forall₂ (fun (position : Nat) association => ∃ call,
        (session.perform (.link config)).calls[position]? = some call ∧
          call.LinkedBy config association)
      (session.linkedBy (.link config)) added

variable {session : Session} {config : Config}

theorem calls_link (session : Session) (config : Config) (position : Nat) :
    (session.perform (.link config)).calls[position]? = session.calls[position]?.map
      fun call : Call =>
        if call.isCaptured then call.resolve session.store (MethodIndex.ofStore session.store)
        else call :=
  List.getElem?_map

/-- The elements that satisfy a test, and the positions of those elements. -/
theorem map_getElem?_positions {α : Type} (elements : List α) (test : α → Bool) :
    ((List.range elements.length).filter fun position : Nat => elements[position]?.any test).map
      (fun position : Nat => elements[position]?) = (elements.filter test).map some := by
  have all : (List.range elements.length).map (fun position : Nat => elements[position]?) =
      elements.map some := by
    refine List.ext_getElem? fun position => ?_
    by_cases within : position < elements.length
    · simp [within]
    · simp [within]
  have kept : (fun position : Nat => elements[position]?.any test) =
      (fun element => element.any test) ∘ (fun position : Nat => elements[position]?) := rfl
  rw [kept, ← List.filter_map, all, List.filter_map]
  rfl

/-- The calls at the positions that a pass links are the resolved ones that can be linked. -/
theorem calls_at_linkedBy (session : Session) (config : Config) :
    (session.linkedBy (.link config)).map
        (fun position => (session.perform (.link config)).calls[position]?) =
      ((Call.searchedOf session.store session.calls).filter (·.isLinkable config)).map some := by
  let index := MethodIndex.ofStore session.store
  let resolve (call : Call) : Call := if call.isCaptured then call.resolve session.store index else call
  have positions : session.linkedBy (.link config) =
      (List.range session.calls.length).filter fun position => session.calls[position]?.any
        fun call => (resolve call).isLinkable config && call.isCaptured := by
    rw [linkedBy, waiting, List.filter_filter]
    refine List.filter_congr fun position _ => ?_
    rw [calls_link]
    cases session.calls[position]? <;> rfl
  have found : (fun position => (session.perform (.link config)).calls[position]?) =
      Option.map resolve ∘ fun position => session.calls[position]? :=
    funext (calls_link session config)
  rw [positions, found, ← List.map_map, map_getElem?_positions, Call.searchedOf, List.filter_map,
    List.map_map, List.map_map, List.filter_filter]
  have same : ∀ call : Call, call.isCaptured → resolve call = call.resolve session.store index :=
    fun call captured => if_pos captured
  have kept : session.calls.filter (fun call => (resolve call).isLinkable config && call.isCaptured) =
      session.calls.filter fun call =>
        ((·.isLinkable config) ∘ fun call : Call => call.resolve session.store index) call &&
          call.isCaptured := by
    refine List.filter_congr fun call _ => ?_
    cases captured : call.isCaptured
    · rw [Bool.and_false, Bool.and_false]
    · rw [Function.comp_apply, same call captured]
  rw [kept]
  refine List.map_congr_left fun call member => ?_
  have captured : call.isCaptured = true := (Bool.and_eq_true_iff.mp (List.mem_filter.mp member).2).2
  rw [Function.comp_apply, Function.comp_apply, Option.map_some, same call captured]

theorem exists_linksExactly (callers : ∀ call ∈ session.calls, session.store.Knows call.caller)
    (config : Config) : ∃ summary, session.LinksExactly config summary := by
  have pass := Call.resolveAndLink_eq config callers
  have store : (session.perform (.link config)).store =
      (Call.searchedOf session.store session.calls).foldl
        (fun store call => call.linkedStore config store) session.store :=
    congrArg (·.2.2) pass
  have counts := Call.counts_foldl (Call.searchedOf session.store session.calls)
    (Call.counts_none config)
  obtain ⟨entities, ids, added, associations, linked⟩ :=
    Call.links_foldl config (Call.searchedOf session.store session.calls) session.store
  rw [List.nil_append] at counts
  refine ⟨_, congrArg (·.1) pass, ?_, counts, calls_link session config, ?_, ?_, ?_⟩
  · rw [counts.attempted, Call.searchedOf, List.length_map, List.countP_eq_length_filter]
  · rw [store, entities]
  · rw [store, ids]
  · refine ⟨added, by rw [store, associations], ?_, ?_⟩
    · rw [counts.linkable, ← linked.length_eq, List.countP_eq_length_filter]
    · have atPositions := calls_at_linkedBy session config
      have linkedAt : List.Forall₂ (fun found association => ∃ call, found = some call ∧
          Call.LinkedBy config call association)
          ((session.linkedBy (.link config)).map
            fun position => (session.perform (.link config)).calls[position]?) added := by
        rw [atPositions, List.forall₂_map_left_iff]
        exact linked.imp fun call _ linked => ⟨call, rfl, linked⟩
      exact List.forall₂_map_left_iff.mp linkedAt

/-- Numbers are in order, and the callers are entities. -/
structure Valid (session : Session) : Prop where
  identified : session.store.Identified
  callers : ∀ call ∈ session.calls, session.store.Knows call.caller

theorem Valid.perform (valid : session.Valid) (step : Step) : (session.perform step).Valid := by
  cases step with
  | extract unit config =>
      obtain ⟨identified, known, deferred⟩ := unit.extract_knows_callers config valid.identified
      refine ⟨identified, fun call member => ?_⟩
      rcases List.mem_append.mp member with former | new
      · exact known call.caller (valid.callers call former)
      · exact (deferred call new).2
  | link config =>
      obtain ⟨_, links⟩ := session.exists_linksExactly valid.callers config
      refine ⟨valid.identified.congr links.entities links.ids, fun call member => ?_⟩
      have listed : call ∈ Call.resolveAll session.store session.calls := member
      obtain ⟨original, former, rfl⟩ := List.mem_map.mp listed
      rw [Store.Knows, Store.entity?, links.entities]
      split
      · exact valid.callers original former
      · exact valid.callers original former

theorem Valid.run (valid : session.Valid) (steps : List Step) : (session.run steps).Valid := by
  induction steps generalizing session with
  | nil => exact valid
  | cons step steps ih => exact ih (valid.perform step)

/-- What waits is resolved or goes on waiting, after what a step adds joined it. -/
theorem Valid.resolvedBy_append_waiting (valid : session.Valid) (step : Step) :
    ∃ added, (session.perform step).calls.length = session.calls.length + added ∧
      session.resolvedBy step ++ (session.perform step).waiting =
        session.waiting ++ List.range' session.calls.length added := by
  cases step with
  | extract unit config =>
      have longer : (session.perform (.extract unit config)).calls.length =
          session.calls.length + (unit.extract config session.store).deferred.length :=
        List.length_append
      refine ⟨_, longer, ?_⟩
      rw [resolvedBy, List.nil_append, waiting, longer, List.range_add, ← List.range'_eq_map_range,
        List.filter_append, waiting]
      refine congrArg₂ (· ++ ·) (List.filter_congr fun position within => ?_) ?_
      · rw [Session.perform, List.getElem?_append_left (List.mem_range.mp within)]
      · refine List.filter_eq_self.mpr fun position member => ?_
        obtain ⟨first, last⟩ := List.mem_range'_1.mp member
        rw [Session.perform, List.getElem?_append_right first, List.getElem?_eq_getElem (by omega)]
        have new := (unit.extract_knows_callers config valid.identified).2.2
        exact (new _ (List.getElem_mem _)).1
  | link config =>
      refine ⟨0, List.length_map _, ?_⟩
      have resolved : (session.perform (.link config)).waiting = [] := by
        refine List.filter_eq_nil_iff.mpr fun position _ => ?_
        rw [calls_link]
        cases session.calls[position]? with
        | none => exact Bool.false_ne_true
        | some call =>
            rw [Option.map_some, Option.any_some]
            split
            · rw [Call.isCaptured_resolve]
              exact Bool.false_ne_true
            · assumption
      rw [resolved]
      rfl

/-- A call that does not wait is left alone. -/
theorem calls_perform (session : Session) (step : Step) {position : Nat}
    (within : position < session.calls.length) (rests : position ∉ session.waiting) :
    (session.perform step).calls[position]? = session.calls[position]? := by
  cases step with
  | extract unit config => rw [perform, List.getElem?_append_left within]
  | link config =>
      have resolved : session.calls[position].isCaptured = false := by
        refine Bool.eq_false_iff.mpr fun captured => rests (List.mem_filter.mpr ?_)
        exact ⟨List.mem_range.mpr within, by rw [List.getElem?_eq_getElem within]; exact captured⟩
      rw [calls_link, List.getElem?_eq_getElem within, Option.map_some, resolved]
      rfl

theorem linkedBy_sublist (session : Session) (step : Step) :
    (session.linkedBy step).Sublist (session.resolvedBy step) := by
  cases step with
  | extract => exact List.Sublist.refl []
  | link => exact List.filter_sublist

theorem Valid.resolved_append_waiting (valid : session.Valid) (steps : List Step) :
    ∃ added, (session.run steps).calls.length = session.calls.length + added ∧
      session.resolved steps ++ (session.run steps).waiting =
        session.waiting ++ List.range' session.calls.length added := by
  induction steps generalizing session with
  | nil => exact ⟨0, rfl, (List.append_nil _).symm⟩
  | cons step steps ih =>
      obtain ⟨added, longer, once⟩ := valid.resolvedBy_append_waiting step
      obtain ⟨more, longest, rest⟩ := ih (valid.perform step)
      refine ⟨added + more, ?_, ?_⟩
      · rw [← Nat.add_assoc, ← longer]
        exact longest
      · calc session.resolved (step :: steps) ++ (session.run (step :: steps)).waiting
            = session.resolvedBy step ++ ((session.perform step).resolved steps ++
                ((session.perform step).run steps).waiting) := List.append_assoc ..
          _ = session.waiting ++ List.range' session.calls.length added ++
                List.range' (session.calls.length + added) more := by
              rw [rest, ← List.append_assoc, once, longer]
          _ = session.waiting ++ List.range' session.calls.length (added + more) := by
              rw [List.append_assoc, List.range'_append_1]

theorem Valid.nodup_resolved (valid : session.Valid) (steps : List Step) :
    (session.resolved steps).Nodup := by
  obtain ⟨added, -, once⟩ := valid.resolved_append_waiting steps
  have distinct : (session.waiting ++ List.range' session.calls.length added).Nodup := by
    refine List.nodup_append.mpr ⟨List.nodup_range.filter _, List.nodup_range', ?_⟩
    rintro position waits _ new rfl
    have within := List.mem_range.mp (List.mem_of_mem_filter waits)
    have beyond := (List.mem_range'_1.mp new).1
    omega
  exact (List.nodup_append.mp (once ▸ distinct)).1

theorem linked_sublist (session : Session) (steps : List Step) :
    (session.linked steps).Sublist (session.resolved steps) := by
  induction steps generalizing session with
  | nil => exact List.Sublist.refl []
  | cons step steps ih => exact (session.linkedBy_sublist step).append (ih _)

theorem calls_run (session : Session) (steps : List Step) {position : Nat}
    (within : position < session.calls.length) (rests : position ∉ session.waiting) :
    (session.run steps).calls[position]? = session.calls[position]? := by
  induction steps generalizing session with
  | nil => rfl
  | cons step steps ih =>
      have same := session.calls_perform step within rests
      have later := ih (session.perform step) ?_ ?_
      · exact later.trans same
      · exact (List.getElem?_eq_some_iff.mp (same.trans (List.getElem?_eq_getElem within))).1
      · intro waits
        obtain ⟨-, captured⟩ := List.mem_filter.mp waits
        rw [same] at captured
        exact rests (List.mem_filter.mpr ⟨List.mem_range.mpr within, captured⟩)

end Session

/-- A pass over calls in a store that was reached succeeds. It resolves those that wait and leaves the
others alone; it adds one association for each call that it may link, in the order of the calls, and
its summary counts them. In a session of extractions and passes this is so at every pass, and what is
resolved is what waited: no call is resolved twice, and the passes link only what they resolve. -/
theorem Store.Reached.links_exactly_and_once {store : Store} {known : List Call}
    (reached : store.Reached known) {calls : List Call}
    (callers : ∀ call ∈ calls, ∃ entity, store.entity? call.caller = some entity)
    (steps : List Session.Step) :
    let session : Session := ⟨store, calls⟩
    (∀ config, ∃ summary, (session.run steps).LinksExactly config summary) ∧
      (∃ added, (session.run steps).calls.length = calls.length + added ∧
        session.resolved steps ++ (session.run steps).waiting =
          session.waiting ++ List.range' calls.length added) ∧
      (session.resolved steps).Nodup ∧
      (session.linked steps).Sublist (session.resolved steps) ∧
      ∀ position < calls.length, position ∉ session.waiting →
        (session.run steps).calls[position]? = calls[position]? := by
  intro session
  have valid : session.Valid := ⟨reached.sound.1.identified, callers⟩
  exact ⟨(session.run steps).exists_linksExactly (valid.run steps).callers,
    valid.resolved_append_waiting steps, valid.nodup_resolved steps, session.linked_sublist steps,
    fun position within rests => session.calls_run steps within rests⟩

/-- Two passes over the one call in `interface I{m(){m();}}`. -/
theorem Store.Reached.links_exactly_and_once_of_interface :
    let call : Node := .call ⟨14, 3⟩ ⟨"m", none, none⟩ none []
    let method : Node := .method ⟨8, 12⟩ ⟨"m", false, ∅, none, [], none⟩ (some call)
    let type : Node := .type ⟨0, 24⟩ ⟨.interface, "I", ∅, none, [], none, []⟩ [method]
    let unit : CompilationUnit := ⟨"I.java", "", none, [], [type]⟩
    let extraction := unit.extract .standard ∅
    let session : Session := ⟨extraction.store, extraction.deferred⟩
    let steps : List Session.Step := [.link .standard, .link .standard]
    session.calls.length = 1 ∧ (session.resolved steps).Nodup ∧
      ∃ summary, (session.run steps).LinksExactly .standard summary := by
  intro call method type unit extraction
  have reached : extraction.store.Reached ([] ++ extraction.deferred) :=
    .extract unit .standard .empty
  have single : extraction.deferred.length = 1 :=
    unit.length_deferred .standard .empty (by rw [Store.facts_empty]; decide +kernel)
  -- what the extraction came to is not looked at again
  clear_value extraction
  intro session steps
  obtain ⟨links, -, distinct, -⟩ := reached.links_exactly_and_once
    (fun call member => (reached.sound.2 call member).exists_entity.imp fun _ => And.left) steps
  exact ⟨single, distinct, links .standard⟩

end JavaFacts
