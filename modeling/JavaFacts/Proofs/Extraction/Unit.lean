import JavaFacts.Proofs.Call.Reached
import JavaFacts.Proofs.Extraction.Accounting

/-!
What an extraction that succeeds has added to the facts, for all calls, casts and type checks of a
unit.
-/

namespace JavaFacts

theorem Flags.nil (store : Store) : Flags store [] store :=
  fun _ => (or_iff_left List.not_mem_nil).symm

/-- What was linked since, and what it came to. -/
theorem Store.exists_linked {before after : Store} (grown : before.Extends after)
    {origins : List (AssociationKind × EntityId × Option Anchor)}
    (added : after.callsAndChecks.map (·.origin) = before.callsAndChecks.map (·.origin) ++ origins) :
    ∃ linked, after.callsAndChecks = before.callsAndChecks ++ linked ∧
      origins = linked.map (·.origin) := by
  obtain ⟨rest, same⟩ := grown.associations
  have appended : after.callsAndChecks =
      before.callsAndChecks ++ rest.filter (·.kind.isCallOrCheck) := by
    rw [Store.callsAndChecks, ← same, List.filter_append]
    rfl
  refine ⟨_, appended, ?_⟩
  rw [appended, List.map_append] at added
  exact (List.append_cancel_left added).symm

namespace CompilationUnit

variable {unit : CompilationUnit} {config : Config} {store : Store}

/-- The walk over a unit accounts for its types, as far as it does not end with a fault. -/
theorem walk_accounts (sound : store.Sound) (placed : ∀ node ∈ unit.types, node.Placed false false)
    (succeeded : (unit.walk config store).1 = .ok ()) :
    ∃ start facts declared, store.Quiet start.store ∧ start.calls = #[] ∧ start.types = #[] ∧
      Attributed unit.path store (unit.walk config store).2.store ⟨none, none⟩ [] unit.types facts
        declared ∧
      Recorded unit.path start (unit.walk config store).2 facts declared := by
  obtain ⟨site, start, path, -, startSound, quiet, blank, walked⟩ := unit.walk_starts config sound
  have outside := blank.scopes
  have covers : start.scopes.Covers false false := ⟨(nomatch ·), (nomatch ·)⟩
  obtain ⟨-, -, -, -, outcome⟩ := Walk.forM_visit_accounting unit.types site store start [] placed
    covers ((Flags.nil store).quiet quiet) startSound
  rw [walked] at succeeded
  rw [succeeded, ← walked, outside] at outcome
  obtain ⟨facts, declared, accounted⟩ := outcome
  rw [← path]
  exact ⟨start, facts, declared, quiet, blank.calls, blank.types, accounted.attributed,
    accounted.recorded⟩

end CompilationUnit

/-- An extraction that succeeds reports each call, cast and type check of a unit once, in the order of
the source: those that are bound as an association, the others as a call that is kept for later.
Each of them bears its place, and leaves from the method around it. -/
theorem extract_accounts_for_calls {store : Store} {calls : List Call}
    (reached : store.Reached calls) {unit : CompilationUnit} {config : Config} {report : UnitReport}
    (placed : ∀ node ∈ unit.types, node.Placed false false)
    (succeeded : (unit.extract config store).result = .ok report) :
    let after := (unit.extract config store).store
    ∃ facts declared linked,
      Attributed unit.path store after ⟨none, none⟩ [] unit.types facts declared ∧
      facts.map (·.node) = unit.types.flatMap Node.callsAndChecks ∧
      after.callsAndChecks = store.callsAndChecks ++ linked ∧
      List.Forall₂ (fun fact association =>
          association.kind = fact.node.associationKind ∧
            after.find? .method fact.host = some association.source ∧
            association.anchor = some (Anchor.ofSpan unit.path fact.node.span))
        (facts.filter (·.node.isBound)) linked ∧
      List.Forall₂ (fun fact call =>
          after.find? .method fact.host = some call.caller ∧
            call.anchor = Anchor.ofSpan unit.path fact.node.span)
        (facts.filter (!·.node.isBound)) report.deferred ∧
      List.Forall₂ (fun declaration type => after.find? .type declaration.name = some type)
        declared report.types := by
  intro after
  have sound := reached.sound.1
  obtain ⟨finished, rfl⟩ := CompilationUnit.eq_report_of_extract succeeded
  obtain ⟨start, facts, declared, quiet, noCalls, noTypes, attributed, recorded⟩ :=
    CompilationUnit.walk_accounts sound placed finished
  obtain ⟨afterSound, grown, -⟩ := unit.walk_sound config sound
  obtain ⟨origins, deferred, types, adds, areLinked, areDeferred, areTypes⟩ := recorded
  have added := adds.linked
  rw [quiet.callsAndChecks] at added
  obtain ⟨linked, appended, rfl⟩ := Store.exists_linked grown added
  -- the walk begins with nothing recorded, so all that it ends with was added by it
  obtain rfl : _ = deferred := by simpa [noCalls] using adds.deferred
  obtain rfl : _ = types := by simpa [noTypes] using adds.types
  refine ⟨facts, declared, linked, attributed, attributed.map_node_eq, appended, ?_, ?_, ?_⟩
  · exact (List.forall₂_map_right_iff.mp areLinked).imp fun fact association known =>
      ⟨known.kind, afterSound.find.mpr known.source, known.anchor⟩
  · exact (List.forall₂_map_right_iff.mp areDeferred).imp fun fact call known =>
      ⟨afterSound.find.mpr known.caller, known.anchor⟩
  · exact areTypes.imp fun declaration type known => afterSound.find.mpr known

open Walk in
/-- An interface with a method that calls itself. What the call means is unknown at this point. -/
theorem extract_accounts_for_calls_of_interface :
    let call : Node := .call ⟨14, 3⟩ ⟨"m", none, none⟩ none []
    let method : Node := .method ⟨8, 12⟩ ⟨"m", false, ∅, none, [], none⟩ (some call)
    let type : Node := .type ⟨0, 24⟩ ⟨.interface, "I", ∅, none, [], none, []⟩ [method]
    let unit : CompilationUnit := ⟨"I.java", "", none, [], [type]⟩
    let after := (unit.extract .standard ∅).store
    (∀ node ∈ unit.types, node.Placed false false) ∧
      ∃ report host kept, (unit.extract .standard ∅).result = .ok report ∧
        report.deferred = [kept] ∧ after.find? .method host = some kept.caller ∧
        kept.anchor = Anchor.ofSpan unit.path call.span := by
  intro call method type unit after
  have placed : ∀ node ∈ unit.types, node.Placed false false := by
    intro node member
    obtain rfl := List.mem_singleton.mp member
    refine .type fun node member => ?_
    obtain rfl := List.mem_singleton.mp member
    refine .member rfl fun node member => ?_
    obtain rfl := List.mem_singleton.mp member
    exact .code rfl rfl fun _ => (nomatch ·)
  have start : unit.walk .standard ∅ = (visit type >>= fun _ => pure ()).perform
      ⟨"I.java", .ofString "", none, 0, true⟩
      ⟨⟨#[.new 0 .package Naming.defaultPackage], .insert ∅ (.package, Naming.defaultPackage) 0, #[],
        ∅, ∅⟩, ⟨[], [], #[], none, ∅, ∅, ∅, none⟩, #[], #[], #[], 0, #[]⟩ := by
    rw [CompilationUnit.walk, Store.intern_empty]
    rfl
  have accepted {α : Type} (result : α) :
      (Except.ok result : Except FactError α).mapError Fault.facts = .ok result := rfl
  have finished : (unit.walk .standard ∅).1 = .ok () := by
    rw [start]
    simp [call, method, type, visit, visiting, handle, visitAll, visitOption, checkScopes,
      perform_bind, perform_pure, perform_get, perform_read, perform_modify, perform_modifyScopes,
      perform_modifyGetScopes, perform_attempt, perform_edit, perform_inside, Edit.perform_bind,
      Edit.perform_pure, Edit.perform_get, Edit.perform_modify, Edit.perform_intern, Edit.entity,
      Edit.update, Edit.declareNamed, Edit.declare, Edit.setOwner, Edit.addModifiers,
      Store.intern, Store.find?, Store.entity?, Entity.new, Array.modify, Array.modifyM, declareType, declaredName,
      declaredOwner, typeBody, insideType, declareMethod, declareParameters, insideMethod, refer,
      linkBound, receiverOf, defer, anchor, statement, currentType, currentMethod, addType,
      addMethod, closeMethod, closeType, closed, Scopes.takeViolation, Scopes.type?,
      Scopes.method?, Scopes.enterType, Scopes.leaveType, Scopes.enterMethod, Scopes.leaveMethod,
      Scopes.seedAnonymous, Except.map, accepted, Naming.typeParameterList, -bind_pure_comp]
  have succeeded := CompilationUnit.extract_of_walk finished
  obtain ⟨facts, _, _, _, nodes, _, _, deferred, _⟩ :=
    extract_accounts_for_calls .empty placed succeeded
  have single : facts.map (·.node) = [call] := nodes
  obtain ⟨⟨_, host⟩, rfl, rfl⟩ := List.map_eq_singleton_iff.mp single
  obtain ⟨kept, _, known, rest, same⟩ := List.forall₂_cons_left_iff.mp deferred
  rw [List.forall₂_nil_left_iff.mp rest] at same
  exact ⟨placed, _, host, kept, succeeded, same, known⟩

end JavaFacts
