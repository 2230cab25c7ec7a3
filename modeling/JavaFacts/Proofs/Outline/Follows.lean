import JavaFacts.Proofs.Extraction.Balance
import JavaFacts.Proofs.Outline.Visit
import Mathlib.Data.List.Forall2

/-!
What it means that a walk follows its outline: as long as the two stand at the same place, the walk
leaves behind the facts that the plan leads to, and stands where the outline says.
-/

namespace JavaFacts

/-- A frame and the name of the type that it stands for. -/
structure TypeFrame.Means (frame : TypeFrame) (store : Store) (name : String) : Prop where
  named : frame.name = name
  entity : store.identity? frame.entity = some (.type, name)

/-- A frame and what it says about a method. -/
structure MethodFrame.Means (frame : MethodFrame) (store : Store) (method : MethodStanding) :
    Prop where
  named : frame.name = method.name
  entity : store.identity? frame.entity = some (.method, method.name)
  declaringType : store.identity? frame.declaringType = some (.type, method.declaringType)
  hidden : frame.hidden = method.hidden

/-- Variables by number and by name. -/
abbrev Store.Lists (store : Store) : List EntityId → List Identity → Prop :=
  List.Forall₂ fun id identity => store.identity? id = some identity

/-- The levels of a snapshot with the simple names of the variables. -/
def levelsOf (numbers : List (List EntityId)) (levels : List (List Identity)) : List Level :=
  List.zipWith (fun ids identities =>
    List.zipWith (fun id identity => (simpleName identity.1 identity.2, id)) ids identities)
    numbers levels

/-- A call by numbers and the same call by names. -/
structure Call.Means (call : Call) (store : Store) (deferred : DeferredCall) : Prop where
  caller : store.identity? call.caller = some (.method, deferred.caller)
  callerType : store.identity? call.callerType = some (.type, deferred.callerType)
  visible : ∃ numbers, List.Forall₂ store.Lists numbers deferred.levels ∧
    call.visible = (levelsOf numbers deferred.levels).foldl Snapshot.addLevel ∅
  rest : call = Call.captured deferred.kind call.caller call.callerType deferred.name
    deferred.receiver deferred.arguments call.visible deferred.anchor deferred.statement

/-- The block of each local variable, by name. A number that stands for no local variable has
none. -/
def Store.blockByName (store : Store) (localBlocks : String → Option BlockId) (id : EntityId) :
    Option BlockId :=
  match store.identity? id with
  | some (.localVariable, name) => localBlocks name
  | _ => none

/-- How many local variables of a name a method has, by name. -/
def Store.countByName (store : Store) (localCounts : String → String → Nat) (id : EntityId)
    (name : String) : Nat :=
  match store.identity? id with
  | some (.method, method) => localCounts method name
  | _ => 0

/-- A walk stands where a standing says. -/
structure Progress.Stands (site : Site) (progress : Progress) (standing : Standing) : Prop where
  store : progress.store.Whole
  package : progress.store.identity? site.packageEntity = some (.package, site.origin.packageName)
  types : List.Forall₂ (fun frame name => frame.Means progress.store name)
    progress.scopes.types standing.types
  methods : List.Forall₂ (fun frame method => frame.Means progress.store method)
    progress.scopes.methods standing.methods
  blocks : progress.scopes.blocks = standing.blocks
  block : progress.scopes.block = standing.block
  anonymousCounts : ∀ type,
    progress.scopes.anonymousCounts.getD type 0 = standing.anonymousCounts type
  localBlocks : ∀ id,
    progress.scopes.blockOfLocal? id = progress.store.blockByName standing.localBlocks id
  placed : ∀ name, standing.localBlocks name ≠ none →
    ∃ id, progress.store.identity? id = some (.localVariable, name)
  localCounts : ∀ id name, progress.scopes.localCounts.getD (id, name) 0 =
    progress.store.countByName standing.localCounts id name
  counted : ∀ method name, standing.localCounts method name ≠ 0 →
    ∃ id, progress.store.identity? id = some (.method, method)
  calls : List.Forall₂ (fun call deferred => call.Means progress.store deferred)
    progress.calls.toList standing.calls
  declaredTypes : List.Forall₂ (fun id name => progress.store.identity? id = some (.type, name))
    progress.types.toList standing.declaredTypes
  violation : progress.scopes.violation = none

section Extended

variable {before after : Store}

theorem TypeFrame.Means.extended {frame : TypeFrame} {name : String}
    (means : frame.Means before name) (grown : before.Extends after) : frame.Means after name :=
  ⟨means.named, grown.identity means.entity⟩

theorem MethodFrame.Means.extended {frame : MethodFrame} {method : MethodStanding}
    (means : frame.Means before method) (grown : before.Extends after) :
    frame.Means after method :=
  ⟨means.named, grown.identity means.entity, grown.identity means.declaringType, means.hidden⟩

theorem Store.Lists.extended {ids : List EntityId} {identities : List Identity}
    (lists : before.Lists ids identities) (grown : before.Extends after) :
    after.Lists ids identities :=
  lists.imp fun _ _ => grown.identity

theorem Call.Means.extended {call : Call} {deferred : DeferredCall}
    (means : call.Means before deferred) (grown : before.Extends after) :
    call.Means after deferred where
  caller := grown.identity means.caller
  callerType := grown.identity means.callerType
  visible := by
    obtain ⟨numbers, lists, visible⟩ := means.visible
    exact ⟨numbers, lists.imp fun _ _ level => level.extended grown, visible⟩
  rest := means.rest

/-- What exists keeps its block; what is new has none. -/
theorem Store.blockByName_extended (sound : after.Sound) (grown : before.Extends after)
    {localBlocks : String → Option BlockId}
    (placed : ∀ name, localBlocks name ≠ none → ∃ id, before.identity? id = some (.localVariable, name))
    (id : EntityId) : after.blockByName localBlocks id = before.blockByName localBlocks id := by
  unfold blockByName
  cases known : before.identity? id with
  | some identity => rw [grown.identity known]
  | none =>
      cases new : after.identity? id with
      | none => rfl
      | some identity =>
          obtain ⟨kind, name⟩ := identity
          cases kind <;> try rfl
          by_contra located
          obtain ⟨other, named⟩ := placed name located
          obtain rfl := sound.unique (grown.identity named) new
          rw [known] at named
          cases named

theorem Store.countByName_extended (sound : after.Sound) (grown : before.Extends after)
    {localCounts : String → String → Nat}
    (counted : ∀ method name, localCounts method name ≠ 0 →
      ∃ id, before.identity? id = some (.method, method))
    (id : EntityId) (name : String) :
    after.countByName localCounts id name = before.countByName localCounts id name := by
  unfold countByName
  cases known : before.identity? id with
  | some identity => rw [grown.identity known]
  | none =>
      cases new : after.identity? id with
      | none => rfl
      | some identity =>
          obtain ⟨kind, method⟩ := identity
          cases kind <;> try rfl
          by_contra located
          obtain ⟨other, named⟩ := counted method name located
          obtain rfl := sound.unique (grown.identity named) new
          rw [known] at named
          cases named

end Extended

namespace Progress.Stands

variable {site : Site} {before after : Progress} {standing : Standing}

/-- The store may grow as long as nothing else changes. -/
theorem extended (stands : before.Stands site standing) (whole : after.store.Whole)
    (grown : before.store.Extends after.store) (scopes : after.scopes = before.scopes)
    (calls : after.calls = before.calls) (types : after.types = before.types) :
    after.Stands site standing where
  store := whole
  package := grown.identity stands.package
  types := scopes ▸ stands.types.imp fun _ _ means => means.extended grown
  methods := scopes ▸ stands.methods.imp fun _ _ means => means.extended grown
  blocks := scopes ▸ stands.blocks
  block := scopes ▸ stands.block
  anonymousCounts := scopes ▸ stands.anonymousCounts
  localBlocks id := by
    rw [scopes, stands.localBlocks, Store.blockByName_extended whole.toSound grown stands.placed]
  placed name located := (stands.placed name located).imp fun _ => grown.identity
  localCounts id name := by
    rw [scopes, stands.localCounts,
      Store.countByName_extended whole.toSound grown stands.counted]
  counted method name located := (stands.counted method name located).imp fun _ => grown.identity
  calls := calls ▸ stands.calls.imp fun _ _ means => means.extended grown
  declaredTypes := types ▸ stands.declaredTypes.imp fun _ _ => grown.identity
  violation := scopes ▸ stands.violation

end Progress.Stands

namespace Walk

/-- From a whole store the action leads to the facts expected and leaves the scopes alone. It fails
if and only if that is expected, with the error expected, and then ends the walk. -/
def Does (site : Site) (before : Progress) (expected : Except Refusal Facts) (action : Walk α)
    (good : α → Progress → Prop) : Prop :=
  before.store.Whole →
    let after := (action.perform site before).2
    (after.store.Whole ∧ before.store.Extends after.store ∧ after.scopes = before.scopes ∧
      after.calls = before.calls ∧ after.types = before.types) ∧
      match (action.perform site before).1, expected with
      | .ok result, .ok facts => after.store.facts = facts ∧ good result after
      | .error fault, .error refusal =>
          after.store.facts = refusal.facts ∧ fault = .facts refusal.error ∧ fault.isFatal
      | _, _ => False

namespace Does

variable {site : Site} {before : Progress} {expected : Except Refusal Facts} {facts : Facts}

theorem bind {action : Walk α} {next : α → Walk β} {onward : Facts → Except Refusal Facts}
    {between : α → Progress → Prop} {good : β → Progress → Prop}
    (first : Does site before expected action between)
    (rest : ∀ result middle, before.store.Extends middle.store →
      expected = .ok middle.store.facts → between result middle →
      Does site middle (onward middle.store.facts) (next result) good) :
    Does site before (expected >>= onward) (action >>= next) good := by
  intro whole
  obtain ⟨⟨middleWhole, grown, scopes, calls, types⟩, outcome⟩ := first whole
  rw [perform_bind]
  rcases performed : action.perform site before with ⟨fault | result, middle⟩ <;>
    rw [performed] at middleWhole grown scopes calls types outcome <;>
    rcases expected with refusal | facts
  · exact ⟨⟨middleWhole, grown, scopes, calls, types⟩, outcome⟩
  · exact outcome.elim
  · exact outcome.elim
  · obtain ⟨rfl, reached⟩ := outcome
    obtain ⟨⟨afterWhole, later, scopes', calls', types'⟩, outcome⟩ :=
      rest result middle grown rfl reached middleWhole
    exact ⟨⟨afterWhole, trans_of Store.Extends grown later, scopes'.trans scopes,
      calls'.trans calls, types'.trans types⟩, outcome⟩

theorem andThen {action : Walk α} {next : α → Walk β} {between : α → Progress → Prop}
    {good : β → Progress → Prop} (first : Does site before (.ok facts) action between)
    (rest : ∀ result middle, before.store.Extends middle.store → middle.store.facts = facts →
      between result middle → Does site middle expected (next result) good) :
    Does site before expected (action >>= next) good := by
  have apart : Does site before ((.ok facts : Except Refusal Facts) >>= fun _ => expected)
      (action >>= next) good :=
    first.bind fun result middle grown same reached =>
      rest result middle grown (Except.ok.inj same).symm reached
  exact apart

/-- An action that changes nothing. -/
theorem unchanged {action : Walk α} {good : α → Progress → Prop} {result : α}
    (performed : action.perform site before = (.ok result, before)) (reached : good result before) :
    Does site before (.ok before.store.facts) action good := by
  intro whole
  rw [performed]
  exact ⟨⟨whole, refl_of Store.Extends before.store, rfl, rfl, rfl⟩, rfl, reached⟩

theorem pure {good : α → Progress → Prop} {result : α} (reached : good result before) :
    Does site before (.ok before.store.facts) (Pure.pure result) good :=
  unchanged (perform_pure result) reached

/-- An action that changes nothing comes first. -/
theorem ahead {action : Walk α} {next : α → Walk β} {good : β → Progress → Prop} (result : α)
    (performed : action.perform site before = (.ok result, before))
    (rest : Does site before expected (next result) good) :
    Does site before expected (action >>= next) good := by
  have same : (action >>= next).perform site before = (next result).perform site before := by
    rw [perform_bind, performed]
  unfold Does
  rw [same]
  exact rest

theorem edit {request : Edit α} (good : α → Store → Prop)
    (does : Edit.Does before.store expected request good) :
    Does site before expected (Walk.edit request) fun result after =>
      good result after.store := by
  intro whole
  obtain ⟨afterWhole, grown, outcome⟩ := does whole
  rw [perform_edit]
  refine ⟨⟨afterWhole, grown, rfl, rfl, rfl⟩, ?_⟩
  rcases performed : request.perform before.store with ⟨error | result, after⟩ <;>
    rw [performed] at outcome <;> rcases expected with refusal | facts
  · exact ⟨outcome.1, congrArg Fault.facts outcome.2.1, outcome.2.2⟩
  · exact outcome
  · exact outcome
  · exact outcome

theorem addMethod (method : EntityId) :
    Does site before (.ok before.store.facts) (Walk.addMethod method) fun _ after =>
      after.store = before.store :=
  fun whole => ⟨⟨whole, refl_of Store.Extends before.store, rfl, rfl, rfl⟩, rfl, rfl⟩

theorem of_whole {action : Walk α} {good : α → Progress → Prop}
    (does : before.store.Whole → Does site before expected action good) :
    Does site before expected action good :=
  fun whole => does whole whole

theorem result {action : Walk α} {reached good : α → Progress → Prop}
    (does : Does site before expected action reached)
    (enough : ∀ result after, reached result after → good result after) :
    Does site before expected action good := by
  intro whole
  obtain ⟨kept, outcome⟩ := does whole
  refine ⟨kept, ?_⟩
  rcases performed : action.perform site before with ⟨fault | result, after⟩ <;>
    rw [performed] at outcome <;> rcases expected with refusal | facts
  · exact outcome
  · exact outcome
  · exact outcome
  · exact ⟨outcome.1, enough result after outcome.2⟩

end Does

/-- The action follows the outline: it leaves behind the facts that the plan leads to and stands
where the outline says. It leaves a node out where the outline does, and ends the walk where a
request of the plan is refused, with the error of that request. -/
def Follows (site : Site) (before : Progress) (standing : Standing) (action : Walk α)
    (outline : Outline β) (agree : α → β → Progress → Prop) : Prop :=
  before.Stands site standing →
    let after := (action.perform site before).2
    before.store.Extends after.store ∧
      match (action.perform site before).1,
        (outline site.origin standing).run before.store.facts with
      | .ok result, .ok ((some named, later), facts) =>
          after.store.facts = facts ∧ after.Stands site later ∧ agree result named after
      | .error fault, .ok ((none, later), facts) =>
          after.store.facts = facts ∧ after.Stands site later ∧ fault.isFatal = false
      | .error fault, .error refusal =>
          after.store.facts = refusal.facts ∧ after.store.Whole ∧
            fault = .facts refusal.error ∧ fault.isFatal
      | _, _ => False

namespace Follows

variable {site : Site} {before : Progress} {standing : Standing}

theorem bind {action : Walk α} {outline : Outline β} {next : α → Walk γ} {onward : β → Outline δ}
    {between : α → β → Progress → Prop} {agree : γ → δ → Progress → Prop}
    (first : Follows site before standing action outline between)
    (rest : ∀ result named middle later, before.store.Extends middle.store →
      between result named middle →
      Follows site middle later (next result) (onward named) agree) :
    Follows site before standing (action >>= next) (outline >>= onward) agree := by
  intro stands
  obtain ⟨grown, outcome⟩ := first stands
  have planned : ((outline >>= onward) site.origin standing).run before.store.facts = _ :=
    Plan.run_bind (outline site.origin standing) _ _
  rw [perform_bind, planned]
  rcases performed : action.perform site before with ⟨fault | result, middle⟩ <;>
    rw [performed] at grown outcome <;>
    rcases ran : (outline site.origin standing).run before.store.facts with
      refusal | ⟨⟨none | named, later⟩, facts⟩ <;>
    rw [ran] at outcome
  · exact ⟨grown, outcome⟩
  · exact ⟨grown, outcome⟩
  · exact outcome.elim
  · exact outcome.elim
  · exact outcome.elim
  · obtain ⟨rfl, middleStands, reached⟩ := outcome
    obtain ⟨onwardGrown, outcome⟩ := rest result named middle later grown reached middleStands
    exact ⟨trans_of Store.Extends grown onwardGrown, outcome⟩

/-- What the first action gives does not matter. -/
theorem andThen {action : Walk α} {outline : Outline β} {next : α → Walk γ} {onward : β → Outline δ}
    {between : α → β → Progress → Prop} {agree : γ → δ → Progress → Prop}
    (first : Follows site before standing action outline between)
    (rest : ∀ {result named middle later},
      Follows site middle later (next result) (onward named) agree) :
    Follows site before standing (action >>= next) (outline >>= onward) agree := by
  refine .bind first ?_
  intros
  exact rest

theorem of_stands {action : Walk α} {outline : Outline β} {agree : α → β → Progress → Prop}
    (follows : before.Stands site standing → Follows site before standing action outline agree) :
    Follows site before standing action outline agree :=
  fun stands => follows stands stands

theorem pure {agree : α → β → Progress → Prop} {result : α} {named : β}
    (reached : agree result named before) :
    Follows site before standing (Pure.pure result) (Pure.pure named) agree :=
  fun stands => ⟨refl_of Store.Extends before.store, rfl, stands, reached⟩

theorem lacking {agree : α → β → Progress → Prop} {reason : String} :
    Follows site before standing (fault reason) Outline.lacking agree :=
  fun stands => ⟨refl_of Store.Extends before.store, rfl, stands, rfl⟩

/-- An action that changes nothing comes first. -/
theorem ahead {action : Walk α} {next : α → Walk γ} {outline : Outline β}
    {agree : γ → β → Progress → Prop} (result : α)
    (performed : action.perform site before = (.ok result, before))
    (rest : Follows site before standing (next result) outline agree) :
    Follows site before standing (action >>= next) outline agree := by
  have same : (action >>= next).perform site before = (next result).perform site before := by
    rw [perform_bind, performed]
  unfold Follows
  rw [same]
  exact rest

/-- An outline counts only for the place where the walk stands. -/
theorem congr_outline {action : Walk α} {outline : Outline β} (other : Outline β)
    {agree : α → β → Progress → Prop}
    (same : outline site.origin standing = other site.origin standing)
    (follows : Follows site before standing action other agree) :
    Follows site before standing action outline agree := by
  unfold Follows
  rw [same]
  exact follows

/-- A request that only looks something up. -/
theorem answered {action : Walk α} {request : Request} (answer : request.Answer)
    {onward : request.Answer → Outline β} {agree : α → β → Progress → Prop}
    (found : request.perform before.store.facts = .ok (answer, before.store.facts))
    (rest : Follows site before standing action (onward answer) agree) :
    Follows site before standing action (Outline.ask request >>= onward) agree := by
  have planned : ((Outline.ask request >>= onward) site.origin standing).run before.store.facts =
      (onward answer site.origin standing).run before.store.facts := by
    show request.perform before.store.facts >>= (fun answered =>
      (onward answered.1 site.origin standing).run answered.2) = _
    rw [found]
    rfl
  unfold Follows
  rw [planned]
  exact rest

theorem congr_action {action other : Walk α} {outline : Outline β} {agree : α → β → Progress → Prop}
    (same : action = other) (follows : Follows site before standing other outline agree) :
    Follows site before standing action outline agree :=
  same ▸ follows

theorem fromOrigin {action : Walk α} {onward : Origin → Outline β} {agree : α → β → Progress → Prop}
    (rest : Follows site before standing action (onward site.origin) agree) :
    Follows site before standing action (Outline.origin >>= onward) agree :=
  rest

theorem fromStanding {action : Walk α} {onward : Standing → Outline β}
    {agree : α → β → Progress → Prop}
    (rest : Follows site before standing action (onward standing) agree) :
    Follows site before standing action (Outline.standing >>= onward) agree :=
  rest

theorem result {action : Walk α} {outline : Outline β} {reached agree : α → β → Progress → Prop}
    (follows : Follows site before standing action outline reached)
    (enough : ∀ result named after, before.store.Extends after.store → reached result named after →
      agree result named after) :
    Follows site before standing action outline agree := by
  intro stands
  obtain ⟨grown, outcome⟩ := follows stands
  refine ⟨grown, ?_⟩
  rcases performed : action.perform site before with ⟨fault | result, after⟩ <;>
    rw [performed] at grown outcome <;>
    rcases ran : (outline site.origin standing).run before.store.facts with
      refusal | ⟨⟨none | named, later⟩, facts⟩ <;>
    rw [ran] at outcome
  · exact outcome
  · exact outcome
  · exact outcome.elim
  · exact outcome.elim
  · exact outcome.elim
  · exact ⟨outcome.1, outcome.2.1, enough result named after grown outcome.2.2⟩

/-- A request whose answer agrees with what the walk finds. -/
theorem of_does {request : Request} {action : Walk α} {good : α → Progress → Prop}
    (does : Does site before ((request.perform before.store.facts).map (·.2)) action good) :
    Follows site before standing action (Outline.ask request) fun result answer after =>
      good result after ∧ request.perform before.store.facts = .ok (answer, after.store.facts) := by
  intro stands
  obtain ⟨⟨whole, grown, scopes, calls, types⟩, outcome⟩ := does stands.store
  have still := stands.extended whole grown scopes calls types
  refine ⟨grown, ?_⟩
  have planned : (Outline.ask request site.origin standing).run before.store.facts =
      (request.perform before.store.facts >>= fun answered =>
        .ok ((some answered.1, standing), answered.2)) := rfl
  rw [planned]
  rcases performed : action.perform site before with ⟨fault | result, after⟩ <;>
    rw [performed] at outcome whole still <;>
    rcases answered : request.perform before.store.facts with refusal | ⟨answer, facts⟩ <;>
    rw [answered] at outcome
  · exact ⟨outcome.1, whole, outcome.2⟩
  · exact outcome.elim
  · exact outcome.elim
  · obtain ⟨rfl, reached⟩ := outcome
    exact ⟨rfl, still, reached, rfl⟩

/-- An event that is recorded as a whole. -/
theorem record {event : Event} {action : Walk α} (good : α → Progress → Prop)
    (does : Does site before (Change.applyAll before.store.facts event.changes) action good) :
    Follows site before standing action (Outline.record event) fun result _ after =>
      good result after := by
  have same : ((Request.record event).perform before.store.facts).map (·.2) =
      Change.applyAll before.store.facts event.changes := by
    rw [Request.perform]
    cases Change.applyAll before.store.facts event.changes <;> rfl
  exact .result (of_does (same ▸ does)) fun _ _ _ _ reached => reached.1

/-- A change of the scopes or of what is kept, and the same by names. -/
theorem changed {action : Walk α} {change : Standing → Standing} {result : α} {after : Progress}
    (agree : α → Unit → Progress → Prop)
    (performed : action.perform site before = (.ok result, after)) (store : after.store = before.store)
    (still : before.Stands site standing → after.Stands site (change standing))
    (reached : agree result () after) :
    Follows site before standing action (Outline.change change) agree := by
  intro stands
  rw [performed]
  exact ⟨store ▸ refl_of Store.Extends before.store, congrArg Store.facts store, still stands, reached⟩

/-- A change of the scopes that cannot be told by names. -/
theorem unseen {action : Walk α} {next : α → Walk γ} {outline : Outline β} {result : α}
    (after : Progress) {agree : γ → β → Progress → Prop}
    (performed : action.perform site before = (.ok result, after)) (store : after.store = before.store)
    (still : before.Stands site standing → after.Stands site standing)
    (rest : Follows site after standing (next result) outline agree) :
    Follows site before standing (action >>= next) outline agree := by
  intro stands
  obtain ⟨grown, outcome⟩ := rest (still stands)
  rw [perform_bind, performed]
  exact ⟨store ▸ grown, store ▸ outcome⟩

/-- An action between entering and leaving a scope. -/
theorem inside {enter : Scopes → κ × Scopes} {leave : κ → Scopes → Scopes}
    {enterNamed leaveNamed : Standing → Standing} {action : Walk Unit} {outline : Outline Unit}
    {inner : Progress} (entered : inner = { before with scopes := (enter before.scopes).2 })
    (standsInside : before.Stands site standing → inner.Stands site (enterNamed standing))
    (left : ∀ (after : Progress) later, before.Stands site standing →
      inner.scopes.Restored after.scopes → after.Stands site later →
      before.store.Extends after.store →
      Progress.Stands site { after with scopes := leave (enter before.scopes).1 after.scopes }
        (leaveNamed later))
    (restoring : Restoring action)
    (within : Follows site inner (enterNamed standing) action outline fun _ _ _ => True) :
    Follows site before standing (Walk.inside enter leave action)
      (Outline.inside enterNamed leaveNamed outline) fun _ _ _ => True := by
  subst entered
  intro stands
  have innerStands := standsInside stands
  obtain ⟨grown, outcome⟩ := within innerStands
  have restored := (restoring site _ innerStands.violation).1
  have planned : (Outline.inside enterNamed leaveNamed outline site.origin standing).run
        before.store.facts =
      ((outline site.origin (enterNamed standing)).run before.store.facts >>= fun reached =>
        .ok ((reached.1.1, leaveNamed reached.1.2), reached.2)) :=
    Plan.run_bind _ _ _
  rw [perform_inside, planned]
  rcases performed : action.perform site { before with scopes := (enter before.scopes).2 } with
    ⟨fault | ⟨⟩, after⟩ <;>
    rw [performed] at grown outcome restored <;>
    rcases ran : (outline site.origin (enterNamed standing)).run before.store.facts with
      refusal | ⟨⟨none | ⟨⟨⟩⟩, later⟩, facts⟩ <;>
    rw [ran] at outcome
  · exact ⟨grown, outcome⟩
  · exact ⟨grown, outcome.1, left after later stands restored outcome.2.1 grown, outcome.2.2⟩
  · exact outcome.elim
  · exact outcome.elim
  · exact outcome.elim
  · exact ⟨grown, outcome.1, left after later stands restored outcome.2.1 grown, trivial⟩

/-- A visit. -/
theorem visiting {node : Node} {handle : Walk Unit} {outline : Outline Unit}
    (restoring : Restoring handle)
    (handled : Follows site before standing handle outline fun _ _ _ => True) :
    Follows site before standing (Walk.visiting node handle) (Outline.visiting outline)
      fun _ _ _ => True := by
  intro stands
  obtain ⟨grown, outcome⟩ := handled stands
  have restored := (restoring site before stands.violation).1
  have planned : (Outline.visiting outline site.origin standing).run before.store.facts =
      ((outline site.origin standing).run before.store.facts >>= fun reached =>
        .ok ((some (), reached.1.2), reached.2)) :=
    Plan.run_bind _ _ _
  rw [perform_visiting stands.violation restored.violation, planned]
  rcases performed : handle.perform site before with ⟨fault | ⟨⟩, after⟩ <;>
    rw [performed] at grown outcome restored <;>
    rcases ran : (outline site.origin standing).run before.store.facts with
      refusal | ⟨⟨none | ⟨⟨⟩⟩, later⟩, facts⟩ <;>
    rw [ran] at outcome
  · simp only [outcome.2.2.2, ↓reduceIte]
    exact ⟨grown, outcome⟩
  · obtain ⟨same, afterStands, recoverable⟩ := outcome
    simp only [recoverable, Bool.false_eq_true, ↓reduceIte]
    exact ⟨grown, same, afterStands.extended afterStands.store
      (refl_of Store.Extends after.store) rfl rfl rfl, trivial⟩
  · exact outcome.elim
  · exact outcome.elim
  · exact outcome.elim
  · exact ⟨grown, outcome.1, outcome.2.1, trivial⟩

end Follows

end Walk

end JavaFacts
