import JavaFacts.Call.Linking
import JavaFacts.Proofs.Call.Cascade
import JavaFacts.Proofs.Extraction.Callers
import JavaFacts.Proofs.Extraction.Soundness

/-!
The stores that extracting units and linking calls lead to, in any order, and the calls known by
then. All of them are sound, so the search for the target of a call means in them what its stages
say.
-/

namespace JavaFacts

namespace Call

variable {grounds : Grounds} {store : Store} {config : Config}

/-- The method that a call is linked to is one of those that the search left over. -/
theorem mem_of_linkTarget? {call : Call} {method : EntityId}
    (found : call.linkTarget? config = some method) :
    method ∈ call.candidates.exact ∨ method ∈ call.candidates.soft ∨
      method ∈ call.candidates.byReceiver := by
  unfold linkTarget? at found
  split at found
  · rename_i only best
    split at found
    · cases found
      rcases Candidates.best_eq_unique_iff.mp best with same | ⟨-, same⟩ | ⟨-, -, same⟩
      · exact .inl (same ▸ List.mem_cons_self)
      · exact .inr (.inl (same ▸ List.mem_cons_self))
      · exact .inr (.inr (same ▸ List.mem_cons_self))
    · cases found
  · rename_i several best
    split at found
    · have member : method ∈ several := List.mem_of_mem_head? found
      rcases (Candidates.best_eq_ambiguous_iff.mp best).2 with same | ⟨-, same⟩
      · exact .inl (same ▸ member)
      · exact .inr (.inl (same ▸ member))
    · cases found
  · cases found

/-- The method that a search finds is a method. -/
theorem holds_of_linkTarget? (sound : store.Sound) {call : Call} (searched : call.Searched store)
    {method : EntityId} (found : call.linkTarget? config = some method) :
    store.Holds .method method := by
  refine searched.holds_of_mem sound ?_
  rcases mem_of_linkTarget? found with exact' | soft | received
  · exact searched.soft_sublist.subset (searched.exact_sublist.subset exact')
  · exact searched.soft_sublist.subset soft
  · exact received

theorem link_meets {call : Call} (caller : store.Holds .method call.caller)
    (target : ∀ method, call.linkTarget? config = some method → store.Holds .method method)
    (summary : ResolutionSummary) :
    Edit.Meets Store.Extends grounds store (link config summary call) fun _ _ => True := by
  unfold link
  dsimp only
  split
  · exact .pure trivial
  · rename_i method found
    exact .bind (Edit.addAssociation_meets caller (target method found) Store.extends_appended)
      fun _ _ _ _ => .pure trivial

theorem linkAll_meets {calls : List Call}
    (fits : ∀ call ∈ calls, store.Holds .method call.caller ∧
      ∀ method, call.linkTarget? config = some method → store.Holds .method method) :
    Edit.Meets Store.Extends grounds store (linkAll config calls) fun _ _ => True := by
  unfold linkAll
  generalize ResolutionSummary.none = summary
  induction calls generalizing store summary with
  | nil => exact .pure trivial
  | cons call calls ih =>
      obtain ⟨caller, target⟩ := fits call List.mem_cons_self
      rw [List.foldlM_cons]
      refine .bind (link_meets caller target summary) fun counted middle grown _ => ?_
      refine ih (fun other member => ?_) counted
      obtain ⟨caller, target⟩ := fits other (List.mem_cons_of_mem _ member)
      exact ⟨caller.extended grown, fun method found => (target method found).extended grown⟩

/-- The calls that are linked are those just resolved. -/
theorem resolved_of_mem_pending {calls : List Call} {call : Call}
    (member : call ∈ ((calls.zip (resolveAll store calls)).filter (·.1.isCaptured)).map (·.2)) :
    ∃ original ∈ calls, call = original.resolve store (MethodIndex.ofStore store) := by
  rw [resolveAll, ← List.map_prod_left_eq_zip] at member
  obtain ⟨⟨former, resolved⟩, kept, rfl⟩ := List.mem_map.mp member
  obtain ⟨member, captured⟩ := List.mem_filter.mp kept
  obtain ⟨original, known, same⟩ := List.mem_map.mp member
  obtain ⟨first, second⟩ := Prod.mk.inj same
  exact ⟨original, known, second.symm.trans (if_pos (first ▸ captured))⟩

theorem resolveAndLink_sound (sound : store.Sound) (config : Config) {calls : List Call}
    (callers : ∀ call ∈ calls, store.Holds .method call.caller) :
    (resolveAndLink config calls store).2.2.Sound ∧
      store.Extends (resolveAndLink config calls store).2.2 ∧
      ∀ call ∈ (resolveAndLink config calls store).2.1, store.Holds .method call.caller := by
  have fits : ∀ call ∈ ((calls.zip (resolveAll store calls)).filter (·.1.isCaptured)).map (·.2),
      store.Holds .method call.caller ∧
        ∀ method, call.linkTarget? config = some method → store.Holds .method method := by
    intro call member
    obtain ⟨original, known, rfl⟩ := resolved_of_mem_pending member
    exact ⟨callers original known,
      fun method found => holds_of_linkTarget? sound (searched_resolve sound original) found⟩
  have met : Edit.Meets Store.Extends ⟨"", False⟩ store _ _ := linkAll_meets fits
  obtain ⟨afterSound, grown, -⟩ := met sound
  refine ⟨afterSound, grown, fun call member => ?_⟩
  have listed : call ∈ resolveAll store calls := member
  obtain ⟨original, known, rfl⟩ := List.mem_map.mp listed
  split
  · exact callers original known
  · exact callers original known

end Call

/-- The calls that an extraction hands on; a failed one hands on none. -/
def Extraction.deferred (extraction : Extraction) : List Call :=
  match extraction.result with
  | .ok report => report.deferred
  | .error _ => []

/-- The stores that extracting units and linking calls lead to, whatever the outcomes, with all calls
that were handed on by then. -/
inductive Store.Reached : Store → List Call → Prop where
  | empty : Reached ∅ []
  | extract {store : Store} {calls : List Call} (unit : CompilationUnit) (config : Config) :
      Reached store calls →
      Reached (unit.extract config store).store (calls ++ (unit.extract config store).deferred)
  | link {store : Store} {calls : List Call} (config : Config) (chosen : List Call) :
      Reached store calls → (∀ call ∈ chosen, call ∈ calls) →
      Reached (Call.resolveAndLink config chosen store).2.2
        (calls ++ (Call.resolveAndLink config chosen store).2.1)

namespace Store

theorem entity?_empty (id : EntityId) : (∅ : Store).entity? id = none :=
  Array.getElem?_empty

theorem association?_empty (id : AssociationId) : (∅ : Store).association? id = none :=
  Array.getElem?_empty

theorem find?_empty (kind : EntityKind) (name : String) : (∅ : Store).find? kind name = none :=
  Std.HashMap.getElem?_empty

theorem intern_empty (kind : EntityKind) (name : String) :
    (∅ : Store).intern kind name =
      (0, { (∅ : Store) with entities := #[.new 0 kind name], ids := .insert ∅ (kind, name) 0 }) := by
  rw [intern, find?_empty]
  rfl

theorem Sound.empty : Store.Sound ∅ where
  entityId {id entity} found := by
    rw [entity?_empty] at found
    cases found
  entity {id entity} found := by
    rw [entity?_empty] at found
    cases found
  find {kind name id} := by
    simp [find?_empty, identity?, entity?_empty]
  associationId {id association} found := by
    rw [association?_empty] at found
    cases found
  association {id association} found := by
    rw [association?_empty] at found
    cases found
  outgoing id := by
    have nothing : (∅ : Store).outgoing.getD id #[] = #[] := Std.HashMap.getD_empty
    rw [nothing]
    rfl

end Store

namespace CompilationUnit

theorem deferred_extract (unit : CompilationUnit) (config : Config) (store : Store) {call : Call}
    (member : call ∈ (unit.extract config store).deferred) :
    call ∈ (unit.walk config store).2.calls := by
  unfold Extraction.deferred at member
  split at member
  · rename_i report succeeded
    obtain ⟨-, rfl⟩ := eq_report_of_extract succeeded
    exact Array.mem_toList_iff.mp member
  · cases member

/-- An extraction keeps numbers in order and every entity, and the calls that it hands on wait and have
callers, even if the facts before it were not as they should be. -/
theorem extract_knows_callers (unit : CompilationUnit) (config : Config) {store : Store}
    (identified : store.Identified) :
    let after := (unit.extract config store).store
    after.Identified ∧ (∀ id, store.Knows id → after.Knows id) ∧
      ∀ call ∈ (unit.extract config store).deferred, call.isCaptured ∧ after.Knows call.caller := by
  obtain ⟨callers, known⟩ := unit.walk_tracks config identified
  refine ⟨callers.identified, known, fun call member => ?_⟩
  exact callers.calls call (unit.deferred_extract config store member)

end CompilationUnit

theorem Store.Reached.sound {store : Store} {calls : List Call} (reached : store.Reached calls) :
    store.Sound ∧ ∀ call ∈ calls, store.Holds .method call.caller := by
  induction reached with
  | empty => exact ⟨.empty, fun _ => (nomatch ·)⟩
  | extract unit config _ ih =>
      obtain ⟨sound, callers⟩ := ih
      obtain ⟨afterSound, grown, deferred⟩ := unit.walk_sound config sound
      refine ⟨afterSound, fun call member => ?_⟩
      rcases List.mem_append.mp member with known | new
      · exact (callers call known).extended grown
      · exact deferred call (unit.deferred_extract config _ new)
  | link config chosen _ known ih =>
      obtain ⟨sound, callers⟩ := ih
      obtain ⟨afterSound, grown, resolved⟩ :=
        Call.resolveAndLink_sound sound config fun call member => callers call (known call member)
      refine ⟨afterSound, fun call member => ?_⟩
      rcases List.mem_append.mp member with known | new
      · exact (callers call known).extended grown
      · exact (resolved call new).extended grown

end JavaFacts
