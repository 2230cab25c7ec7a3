import JavaFacts.Call.Resolution
import JavaFacts.Extraction.Unit
import JavaFacts.Proofs.Extraction.Composition

/-!
The callers of the calls that a walk keeps. A walk stands only in methods that its own requests gave, so
whatever is wrong with the facts it starts from, as long as their numbers are in order, the methods
around it and the callers of its calls are entities.
-/

namespace JavaFacts

/-- Numbers are in order, the methods around are entities, and the calls kept wait for their targets
and have callers. -/
structure Progress.KnowsCallers (progress : Progress) : Prop where
  identified : progress.store.Identified
  hosts : ∀ host ∈ progress.scopes.methods, progress.store.Knows host.entity
  calls : ∀ call ∈ progress.calls, call.isCaptured ∧ progress.store.Knows call.caller

/-- Nothing was taken back. -/
structure Progress.Tracks (before after : Progress) : Prop where
  callers : after.KnowsCallers
  known : ∀ id, before.store.Knows id → after.store.Knows id

namespace Progress

variable {before middle after : Progress}

theorem Tracks.trans (first : before.Tracks middle) (second : middle.Tracks after) :
    before.Tracks after :=
  ⟨second.callers, fun id known => second.known id (first.known id known)⟩

theorem KnowsCallers.tracks (callers : before.KnowsCallers) : before.Tracks before :=
  ⟨callers, fun _ known => known⟩

/-- Only the store changes, and every entity stays one. -/
theorem KnowsCallers.stored (callers : before.KnowsCallers) {store : Store}
    (identified : store.Identified) (known : ∀ id, before.store.Knows id → store.Knows id) :
    before.Tracks { before with store } where
  callers := ⟨identified, fun host member => known _ (callers.hosts host member),
    fun call member => (callers.calls call member).imp_right (known _)⟩
  known := known

/-- Only the scopes change, without a method around that is not known. -/
theorem KnowsCallers.scoped (callers : before.KnowsCallers) {scopes : Scopes}
    (hosts : ∀ host ∈ scopes.methods, before.store.Knows host.entity) :
    before.Tracks { before with scopes } :=
  ⟨⟨callers.identified, hosts, callers.calls⟩, fun _ known => known⟩

end Progress

namespace Scopes

theorem CountsFrom.methods {before after : Scopes} (counts : before.CountsFrom after) :
    after.methods = before.methods := by
  obtain ⟨_, _, _, rfl⟩ := counts
  rfl

variable {scopes : Scopes}

theorem methods_closeType (depth : Nat) : (Walk.closeType depth scopes).methods = scopes.methods := by
  unfold Walk.closeType leaveType
  split
  · split <;> rfl
  · rfl

theorem methods_closeBlock (block : BlockId) :
    (Walk.closeBlock block scopes).methods = scopes.methods := by
  unfold Walk.closeBlock leaveBlock
  split <;> rfl

/-- Leaving a method, in order or not, brings no other method in. -/
theorem mem_methods_of_closeMethod {depth : Nat} {host : MethodFrame}
    (member : host ∈ (Walk.closeMethod depth scopes).methods) : host ∈ scopes.methods := by
  unfold Walk.closeMethod leaveMethod at member
  split at member
  · rename_i frame methods entered
    split at member
    · rw [entered]
      exact List.mem_cons_of_mem frame member
    · exact member
  · exact member

end Scopes

namespace Walk

/-- Whatever its outcome, the action stands in methods that are known and keeps calls of such methods,
given entities that are known. -/
def Tracking (known : List EntityId) {α : Type} (action : Walk α) : Prop :=
  ∀ site (before : Progress), before.KnowsCallers → (∀ id ∈ known, before.store.Knows id) →
    before.Tracks (action.perform site before).2

namespace Tracking

variable {known : List EntityId}

theorem bind {action : Walk α} {next : α → Walk β} (first : Tracking known action)
    (rest : ∀ result, Tracking known (next result)) : Tracking known (action >>= next) := by
  intro site before callers knows
  have tracks := first site before callers knows
  rw [perform_bind]
  rcases performed : action.perform site before with ⟨fault | result, middle⟩ <;>
    rw [performed] at tracks
  · exact tracks
  · exact tracks.trans (rest result site middle tracks.callers fun id member =>
      tracks.known id (knows id member))

/-- An action that changes nothing that is asked for. -/
theorem aside {action : Walk α}
    (same : ∀ site before, (action.perform site before).2.store = before.store ∧
      (action.perform site before).2.scopes.methods = before.scopes.methods ∧
      (action.perform site before).2.calls = before.calls) : Tracking known action := by
  intro site before callers _
  obtain ⟨store, methods, calls⟩ := same site before
  refine ⟨⟨?_, ?_, ?_⟩, ?_⟩
  · rw [store]
    exact callers.identified
  · rw [store, methods]
    exact callers.hosts
  · rw [store, calls]
    exact callers.calls
  · rw [store]
    exact fun _ known => known

theorem edit {request : Edit α} (retaining : request.Retaining) :
    Tracking known (Walk.edit request) := by
  intro site before callers _
  have retains := retaining before.store
  rw [perform_edit]
  exact callers.stored (retains.identified callers.identified) retains.known

theorem given {request : Edit EntityId} {next : EntityId → Walk β} (retaining : request.Retaining)
    (gives : request.Gives []) (rest : ∀ id, Tracking (id :: known) (next id)) :
    Tracking known (Walk.edit request >>= next) := by
  intro site before callers knows
  have edited : Tracking known (Walk.edit request) := edit retaining
  have tracks := edited site before callers knows
  rw [perform_bind]
  rw [perform_edit] at tracks ⊢
  rcases performed : request.perform before.store with ⟨error | id, after⟩ <;>
    rw [performed] at tracks
  · exact tracks
  · refine tracks.trans (rest id site _ tracks.callers (List.forall_mem_cons.mpr ⟨?_, ?_⟩))
    · exact gives before.store callers.identified nofun id after performed
    · exact fun other member => tracks.known other (knows other member)

theorem hosted {next : MethodFrame → Walk β}
    (rest : ∀ host, Tracking (host.entity :: known) (next host)) :
    Tracking known (currentMethod >>= next) := by
  intro site before callers knows
  rw [perform_bind, currentMethod, perform_bind, perform_get]
  dsimp only
  cases current : before.scopes.method? with
  | none => exact callers.tracks
  | some host =>
      have here := callers.hosts host (List.mem_of_mem_head? current)
      exact rest host site before callers (List.forall_mem_cons.mpr ⟨here, knows⟩)

theorem link (kind : AssociationKind) (source target : EntityId) (span : Span) :
    Tracking known (Walk.link kind source target span) := by
  intro site before callers _
  rw [progress_link]
  rcases Edit.addAssociation_cases before.store kind source target (some (Anchor.ofSpan site.path span))
    (if site.recordStatements then (site.source.slice? span).getD "" else "") with
    ⟨error, refused⟩ | ⟨left, right⟩
  · rw [refused]
    exact callers.tracks
  · rw [Edit.perform_addAssociation left right]
    exact callers.stored ⟨callers.identified.entityId, callers.identified.find⟩ fun _ knows => knows

theorem keep (span : Span) {caller : EntityId} {call : Anchor → String → Call} (member : caller ∈ known)
    (waits : ∀ anchor statement, (call anchor statement).Waits caller anchor statement) :
    Tracking known (do
      let anchor ← Walk.anchor span
      let statement ← Walk.statement span
      modify fun progress => { progress with calls := progress.calls.push (call anchor statement) }) := by
  intro site before callers knows
  refine ⟨⟨callers.identified, callers.hosts, fun kept listed => ?_⟩, fun _ known => known⟩
  rcases Array.mem_push.mp listed with former | rfl
  · exact callers.calls kept former
  · have given := waits (Anchor.ofSpan site.path span)
      (if site.recordStatements then (site.source.slice? span).getD "" else "")
    exact ⟨beq_iff_eq.mpr given.state, given.caller.symm ▸ knows caller member⟩

theorem modifiedScopes {change : Scopes → Scopes}
    (counts : ∀ before : Scopes, before.CountsFrom (change before)) :
    Tracking known (modifyScopes change) := by
  refine aside fun site before => ?_
  rw [perform_modifyScopes]
  exact ⟨rfl, (counts before.scopes).methods, rfl⟩

theorem changedScopes {change : Scopes → α × Scopes}
    (counts : ∀ before : Scopes, before.CountsFrom (change before).2) :
    Tracking known (modifyGetScopes change) := by
  refine aside fun site before => ?_
  rw [perform_modifyGetScopes]
  exact ⟨rfl, (counts before.scopes).methods, rfl⟩

/-- An action between entering a scope and leaving it. -/
theorem inside {enter : Scopes → κ × Scopes} {leave : κ → Scopes → Scopes} {action : Walk α}
    (within : Tracking known action)
    (entered : ∀ scopes : Scopes, ∀ host ∈ (enter scopes).2.methods,
      host ∈ scopes.methods ∨ host.entity ∈ known)
    (left : ∀ key (scopes : Scopes), ∀ host ∈ (leave key scopes).methods, host ∈ scopes.methods) :
    Tracking known (Walk.inside enter leave action) := by
  intro site before callers knows
  rw [perform_inside]
  have start : before.Tracks { before with scopes := (enter before.scopes).2 } :=
    callers.scoped fun host member => (entered before.scopes host member).elim
      (callers.hosts host) (knows host.entity)
  have tracks := start.trans (within site _ start.callers knows)
  exact tracks.trans (tracks.callers.scoped fun host member =>
    tracks.callers.hosts host (left _ _ host member))

theorem insideType (entity : EntityId) (name : String) {action : Walk Unit}
    (within : Tracking known action) : Tracking known (Walk.insideType entity name action) :=
  within.inside (fun _ _ => .inl) fun depth scopes _ member =>
    scopes.methods_closeType depth ▸ member

theorem insideMethod {entity : EntityId} (name : String) (declaringType : EntityId)
    {action : Walk Unit} (member : entity ∈ known) (within : Tracking known action) :
    Tracking known (Walk.insideMethod entity name declaringType action) := by
  refine within.inside (fun scopes host entered => ?_) fun _ _ _ => Scopes.mem_methods_of_closeMethod
  rcases List.mem_cons.mp entered with rfl | around
  · exact .inr member
  · exact .inl around

theorem insideBlock (span : Span) {action : Walk Unit} (within : Tracking known action) :
    Tracking known (Walk.insideBlock span action) :=
  within.inside (fun _ _ => .inl) fun block scopes _ member =>
    scopes.methods_closeBlock block ▸ member

theorem checkScopes : Tracking known Walk.checkScopes := by
  refine .bind (aside fun _ _ => ⟨rfl, rfl, rfl⟩) fun violation => ?_
  cases violation <;> exact aside fun _ _ => ⟨rfl, rfl, rfl⟩

theorem visiting {node : Node} {handle : Walk Unit} (handled : Tracking known handle) :
    Tracking known (Walk.visiting node handle) := by
  have attempted : Tracking known (attempt handle) := fun site before callers knows => by
    rw [perform_attempt]
    exact handled site before callers knows
  refine .bind checkScopes fun _ => .bind attempted fun outcome => .bind checkScopes fun _ => ?_
  cases outcome with
  | ok => exact aside fun _ _ => ⟨rfl, rfl, rfl⟩
  | error fault =>
      dsimp only
      split <;> exact aside fun _ _ => ⟨rfl, rfl, rfl⟩

theorem compositional : Compositional @Tracking where
  bind := bind
  pure _ := aside fun _ _ => ⟨rfl, rfl, rfl⟩
  get := aside fun _ _ => ⟨rfl, rfl, rfl⟩
  read := aside fun _ _ => ⟨rfl, rfl, rfl⟩
  fault _ := aside fun _ _ => ⟨rfl, rfl, rfl⟩
  edit := edit
  given := given
  hosted := hosted
  link := link
  keep := keep
  addType _ := aside fun _ _ => ⟨rfl, rfl, rfl⟩
  addMethod _ := aside fun _ _ => ⟨rfl, rfl, rfl⟩
  modifiedScopes := modifiedScopes
  changedScopes := changedScopes
  insideType := insideType
  insideMethod := insideMethod
  insideBlock := insideBlock
  visiting := visiting

end Tracking

end Walk

namespace CompilationUnit

/-- Behind the walk over a unit numbers are in order if they were before, no entity is gone, and the
calls that it keeps wait and have callers. -/
theorem walk_tracks (unit : CompilationUnit) (config : Config) {store : Store}
    (identified : store.Identified) :
    (unit.walk config store).2.KnowsCallers ∧
      ∀ id, store.Knows id → (unit.walk config store).2.store.Knows id := by
  have retains := Edit.Retaining.intern .package (unit.package.getD Naming.defaultPackage) store
  obtain ⟨site, start, stored, scopes, calls, walked⟩ :
      ∃ (site : Site) (start : Progress), store.Retains start.store ∧ start.scopes = ∅ ∧
        start.calls = #[] ∧
        unit.walk config store = (unit.types.forM Walk.visit).perform site start :=
    ⟨_, _, retains, rfl, rfl, rfl⟩
  have callers : start.KnowsCallers := {
    identified := stored.identified identified
    hosts := scopes ▸ fun _ => (nomatch ·)
    calls := calls ▸ fun _ member => absurd member (Array.not_mem_empty _) }
  have tracks := @Walk.Compositional.visitEach _ Walk.Tracking.compositional [] unit.types site start
    callers nofun
  rw [walked]
  exact ⟨tracks.callers, fun id known => tracks.known id (stored.known id known)⟩

end CompilationUnit

end JavaFacts
