import JavaFacts.Proofs.Extraction.Balance
import JavaFacts.Proofs.Extraction.Placeholders

/-!
What an action of the walk comes to in a sound state: a sound state again, with the scopes restored,
and a result as said. A fault comes from a contradiction in the facts, or something around the node
was missing.
-/

namespace JavaFacts

/-- The store is sound, and what the walk keeps in hand are entities of it that fit. -/
structure Progress.Sound (site : Site) (progress : Progress) : Prop where
  store : progress.store.Sound
  package : progress.store.Holds .package site.packageEntity
  types : ∀ frame ∈ progress.scopes.types,
    progress.store.identity? frame.entity = some (.type, frame.name)
  methods : ∀ frame ∈ progress.scopes.methods,
    progress.store.identity? frame.entity = some (.method, frame.name) ∧
      progress.store.Holds .type frame.declaringType
  calls : ∀ call ∈ progress.calls, progress.store.Holds .method call.caller
  violation : progress.scopes.violation = none

/-- The store was extended. -/
def Progress.Extends (before after : Progress) : Prop :=
  before.store.Extends after.store

/-- Nothing was recorded but entities, accesses and supertypes. -/
structure Progress.Quiet (before after : Progress) : Prop where
  store : before.store.Quiet after.store
  calls : after.calls = before.calls
  types : after.types = before.types

/-- No node was left out in between. -/
structure Progress.Unbroken (before after : Progress) : Prop where
  faults : after.faults = before.faults
  warnings : after.warnings = before.warnings

/-- What may be amiss where a walk stands: a type or a method that has to be around it is `missing`,
or it declares a type inside of that type itself. -/
structure Lapses where
  missing : Prop
  looped : Prop

/-- The faults that there are grounds for. -/
inductive Fault.Arises (lapses : Lapses) (file : String) (store : Store) : Fault → Prop where
  | facts {error : FactError} :
      error.Arises ⟨file, lapses.looped⟩ store → Arises lapses file store (.facts error)
  | node {reason : String} : lapses.missing → Arises lapses file store (.node reason)

namespace Progress

variable {before middle after : Progress} {site : Site}

theorem Unbroken.refl (before : Progress) : before.Unbroken before :=
  ⟨rfl, rfl⟩

theorem Unbroken.trans (first : before.Unbroken middle) (second : middle.Unbroken after) :
    before.Unbroken after :=
  ⟨second.faults.trans first.faults, second.warnings.trans first.warnings⟩

theorem Quiet.extends (quiet : before.Quiet after) : before.Extends after :=
  quiet.store.toExtends

instance : IsPreorder Progress Extends where
  refl before := refl_of Store.Extends before.store
  trans _ _ _ first second := trans_of Store.Extends first second

instance : IsPreorder Progress Quiet where
  refl before := ⟨refl_of Store.Quiet before.store, rfl, rfl⟩
  trans _ _ _ first second :=
    ⟨trans_of Store.Quiet first.store second.store, second.calls.trans first.calls,
      second.types.trans first.types⟩

/-- A relation of states that a relation of their stores decides, as far as neither calls nor types
are recorded. -/
class Follows (relation : Progress → Progress → Prop) (within : outParam (Store → Store → Prop)) :
    Prop extends IsPreorder Progress relation where
  follows : ∀ {before after : Progress}, within before.store after.store →
    after.calls = before.calls → after.types = before.types → relation before after
  reflexive : ∀ store, within store store
  grows : ∀ {before after}, within before after → before.Extends after

instance : Follows Extends Store.Extends where
  follows grown _ _ := grown
  reflexive := refl_of Store.Extends
  grows grown := grown

instance : Follows Quiet Store.Quiet where
  follows quiet calls types := ⟨quiet, calls, types⟩
  reflexive := refl_of Store.Quiet
  grows quiet := quiet.toExtends

theorem same_store {relation : Progress → Progress → Prop} {within : Store → Store → Prop}
    [Follows relation within] (store : after.store = before.store)
    (calls : after.calls = before.calls) (types : after.types = before.types) :
    relation before after :=
  Follows.follows (store ▸ Follows.reflexive relation before.store) calls types

/-- The store may grow and calls may be added, as long as the frames of the scopes stay. -/
theorem Sound.restored (sound : before.Sound site) (store : after.store.Sound)
    (grown : before.store.Extends after.store) (scopes : before.scopes.Restored after.scopes)
    (calls : ∀ call ∈ after.calls, after.store.Holds .method call.caller) : after.Sound site where
  store := store
  package := sound.package.extended grown
  types := by
    rw [scopes.types]
    exact fun frame member => grown.identity (sound.types frame member)
  methods := by
    rw [scopes.methods]
    exact fun frame member =>
      ⟨grown.identity (sound.methods frame member).1,
        (sound.methods frame member).2.extended grown⟩
  calls := calls
  violation := scopes.violation

theorem Sound.calls_extended (sound : before.Sound site)
    (grown : before.store.Extends after.store) (calls : after.calls = before.calls) :
    ∀ call ∈ after.calls, after.store.Holds .method call.caller := by
  rw [calls]
  exact fun call member => (sound.calls call member).extended grown

end Progress

namespace Walk

open Progress (Follows)

/-- From a sound state the action leads to a sound state in that relation to it, with the scopes
restored. Its result is as said, faults come from what is amiss or from a conflict of declarations,
and nodes are left out only where something is missing. -/
def Meets (relation : Progress → Progress → Prop) (lapses : Lapses) (site : Site) (before : Progress)
    (action : Walk α) (good : α → Progress → Prop) : Prop :=
  before.Sound site →
    let after := (action.perform site before).2
    after.Sound site ∧ before.scopes.Restored after.scopes ∧ relation before after ∧
      (lapses.missing ∨ before.Unbroken after) ∧
      match (action.perform site before).1 with
      | .ok result => good result after
      | .error fault => fault.Arises lapses site.path after.store

namespace Meets

variable {relation : Progress → Progress → Prop} {within : Store → Store → Prop}
  {lapses : Lapses} {site : Site} {before : Progress}

theorem bind [IsPreorder Progress relation] {action : Walk α} {next : α → Walk β}
    {between : α → Progress → Prop} {good : β → Progress → Prop}
    (first : Meets relation lapses site before action between)
    (rest : ∀ result middle, before.scopes.Restored middle.scopes → relation before middle →
      between result middle → Meets relation lapses site middle (next result) good) :
    Meets relation lapses site before (action >>= next) good := by
  intro sound
  obtain ⟨middleSound, restored, related, unbroken, outcome⟩ := first sound
  rw [perform_bind]
  rcases performed : action.perform site before with ⟨fault | result, middle⟩
  · rw [performed] at middleSound restored related unbroken outcome
    exact ⟨middleSound, restored, related, unbroken, outcome⟩
  · rw [performed] at middleSound restored related unbroken outcome
    obtain ⟨afterSound, later, onward, still, reached⟩ :=
      rest result middle restored related outcome middleSound
    have whole := (or_and_left.mpr ⟨unbroken, still⟩).imp_right fun both => both.1.trans both.2
    exact ⟨afterSound, restored.trans later, trans_of relation related onward, whole, reached⟩

/-- An action that changes nothing. -/
theorem unchanged [IsPreorder Progress relation] {action : Walk α} {good : α → Progress → Prop}
    {result : α} (performed : action.perform site before = (.ok result, before))
    (reached : good result before) : Meets relation lapses site before action good := by
  intro sound
  rw [performed]
  exact ⟨sound, .refl sound.violation, refl_of relation before, .inr (.refl before), reached⟩

theorem pure [IsPreorder Progress relation] {good : α → Progress → Prop} {result : α}
    (reached : good result before) :
    Meets relation lapses site before (Pure.pure result) good :=
  unchanged (perform_pure result) reached

theorem get [IsPreorder Progress relation] :
    Meets relation lapses site before MonadState.get fun progress after =>
      before = progress ∧ before = after :=
  unchanged perform_get ⟨rfl, rfl⟩

theorem read [IsPreorder Progress relation] :
    Meets relation lapses site before MonadReader.read fun result after =>
      site = result ∧ before = after :=
  unchanged perform_read ⟨rfl, rfl⟩

theorem fault [IsPreorder Progress relation] {good : α → Progress → Prop} {reason : String}
    (lacks : lapses.missing) : Meets relation lapses site before (Walk.fault reason) good :=
  fun sound => ⟨sound, .refl sound.violation, refl_of relation before, .inl lacks, .node lacks⟩

theorem map [IsPreorder Progress relation] {action : Walk α} {change : α → β}
    {between : α → Progress → Prop}
    (met : Meets relation lapses site before action between) :
    Meets relation lapses site before (change <$> action) fun result after =>
      ∃ former, result = change former ∧ between former after := by
  rw [← bind_pure_comp]
  exact met.bind fun former _ _ _ reached => .pure ⟨former, rfl, reached⟩

theorem of_sound {action : Walk α} {good : α → Progress → Prop}
    (met : before.Sound site → Meets relation lapses site before action good) :
    Meets relation lapses site before action good :=
  fun sound => met sound sound

theorem imp {other : Progress → Progress → Prop} {action : Walk α}
    {reached good : α → Progress → Prop}
    (met : Meets relation lapses site before action reached)
    (related : ∀ after, relation before after → other before after)
    (enough : ∀ result after, before.scopes.Restored after.scopes → relation before after →
      reached result after → good result after) :
    Meets other lapses site before action good := by
  intro sound
  obtain ⟨afterSound, restored, later, unbroken, outcome⟩ := met sound
  refine ⟨afterSound, restored, related _ later, unbroken, ?_⟩
  rcases performed : action.perform site before with ⟨fault | result, after⟩
  · rw [performed] at outcome
    exact outcome
  · rw [performed] at outcome later restored
    exact enough result after restored later outcome

/-- The same with another result. -/
theorem result {action : Walk α} {reached good : α → Progress → Prop}
    (met : Meets relation lapses site before action reached)
    (enough : ∀ result after, reached result after → good result after) :
    Meets relation lapses site before action good :=
  met.imp (fun _ related => related) fun result after _ _ => enough result after

/-- An action that does more than extend the store follows one that is quiet. -/
theorem grown {action : Walk α} {good : α → Progress → Prop}
    (met : Meets Progress.Quiet lapses site before action good) :
    Meets Progress.Extends lapses site before action fun result after =>
      good result after ∧ before.Quiet after :=
  met.imp (fun _ quiet => quiet.extends) fun _ _ _ quiet reached => ⟨reached, quiet⟩

theorem edit [Follows relation within] {request : Edit α} {good : α → Store → Prop}
    (met : Edit.Meets within ⟨site.path, lapses.looped⟩ before.store request good) :
    Meets relation lapses site before (Walk.edit request) fun result after =>
      after = { before with store := after.store } ∧ good result after.store := by
  intro sound
  obtain ⟨storeSound, related, outcome⟩ := met sound.store
  have afterSound : Progress.Sound site
      { before with store := (request.perform before.store).2 } :=
    sound.restored storeSound (Follows.grows relation related) (.refl sound.violation)
      (sound.calls_extended (Follows.grows relation related) rfl)
  rw [perform_edit]
  refine ⟨afterSound, .refl sound.violation, Follows.follows related rfl rfl, .inr ⟨rfl, rfl⟩, ?_⟩
  rcases performed : request.perform before.store with ⟨error | result, after⟩
  · rw [performed] at outcome
    exact .facts outcome
  · rw [performed] at outcome
    exact ⟨rfl, outcome⟩

/-- A change that touches neither the store nor the frames of the scopes and leaves no node out. -/
theorem of_restored [Follows relation within] {action : Walk α} {good : α → Progress → Prop}
    {result : α} {after : Progress} (performed : action.perform site before = (.ok result, after))
    (store : after.store = before.store) (calls : after.calls = before.calls)
    (types : after.types = before.types) (unbroken : before.Unbroken after)
    (scopes : before.scopes.violation = none → before.scopes.Restored after.scopes)
    (reached : good result after) : Meets relation lapses site before action good := by
  intro sound
  have restored := scopes sound.violation
  have grown : before.Extends after := Progress.same_store store calls types
  rw [performed]
  exact ⟨sound.restored (store ▸ sound.store) grown restored (sound.calls_extended grown calls),
    restored, Progress.same_store store calls types, .inr unbroken, reached⟩

theorem addMethod [Follows relation within] (method : EntityId) :
    Meets relation lapses site before (Walk.addMethod method) fun _ after =>
      after.scopes = before.scopes ∧ after.store = before.store :=
  of_restored (perform_modify _) rfl rfl rfl ⟨rfl, rfl⟩ .refl ⟨rfl, rfl⟩

/-- A change to the counters and tables of the scopes. -/
theorem modifiedScopes [Follows relation within] {change : Scopes → Scopes}
    (restored : before.scopes.violation = none → before.scopes.Restored (change before.scopes)) :
    Meets relation lapses site before (modifyScopes change) fun _ after =>
      after.store = before.store :=
  of_restored (perform_modifyScopes change) rfl rfl rfl ⟨rfl, rfl⟩ restored rfl

theorem changedScopes [Follows relation within] {change : Scopes → α × Scopes}
    (restored : before.scopes.violation = none →
      before.scopes.Restored (change before.scopes).2) :
    Meets relation lapses site before (modifyGetScopes change) fun _ after =>
      after.store = before.store :=
  of_restored (perform_modifyGetScopes change) rfl rfl rfl ⟨rfl, rfl⟩ restored rfl

end Meets

/-- A statement about the state behind an action that holds on if more goes on quietly. -/
def Steady (good : α → Progress → Prop) : Prop :=
  ∀ ⦃result after later⦄, after.Quiet later → good result after → good result later

namespace Meets

variable {lapses : Lapses} {site : Site} {before : Progress}

/-- An action between entering and leaving a scope. The state inside is sound, and leaving the scope
restores the scopes before it. -/
theorem inside {enter : Scopes → κ × Scopes} {leave : κ → Scopes → Scopes} {action : Walk α}
    {good : α → Progress → Prop} (steady : Steady good) {inner : Progress}
    (entered : inner = { before with scopes := (enter before.scopes).2 })
    (innerSound : before.Sound site → inner.Sound site)
    (undone : ∀ after : Scopes, inner.scopes.Restored after →
      before.scopes.Restored (leave (enter before.scopes).1 after))
    (within : Meets Progress.Extends lapses site inner action good) :
    Meets Progress.Extends lapses site before (Walk.inside enter leave action) good := by
  subst entered
  intro sound
  obtain ⟨afterSound, restored, grown, unbroken, outcome⟩ := within (innerSound sound)
  have left := undone _ restored
  have grown : before.Extends (action.perform site
    { before with scopes := (enter before.scopes).2 }).2 := grown
  rw [perform_inside]
  rcases performed : action.perform site { before with scopes := (enter before.scopes).2 } with
    ⟨fault | result, after⟩
  -- the scope is left behind a fault too
  all_goals
    rw [performed] at afterSound grown unbroken outcome left
    have leftSound : Progress.Sound site
        { after with scopes := leave (enter before.scopes).1 after.scopes } :=
      sound.restored afterSound.store grown left afterSound.calls
    have unbroken : lapses.missing ∨ before.Unbroken
        { after with scopes := leave (enter before.scopes).1 after.scopes } :=
      unbroken.imp_right fun ⟨faults, warnings⟩ => ⟨faults, warnings⟩
  · exact ⟨leftSound, left, grown, unbroken, outcome⟩
  · have reached : good result after := outcome
    have quiet : after.Quiet { after with scopes := leave (enter before.scopes).1 after.scopes } :=
      Progress.same_store rfl rfl rfl
    exact ⟨leftSound, left, grown, unbroken, steady quiet reached⟩

theorem insideType {action : Walk α} {good : α → Progress → Prop} (steady : Steady good)
    {entity : EntityId} {name : String}
    (named : before.store.identity? entity = some (.type, name))
    (within : ∀ inner, before.Quiet inner → inner.scopes.types = ⟨entity, name⟩ :: before.scopes.types →
      inner.scopes.methods = before.scopes.methods → inner.store = before.store →
      Meets Progress.Extends lapses site inner action good) :
    Meets Progress.Extends lapses site before (Walk.insideType entity name action) good := by
  refine inside steady rfl (fun sound => ?_) (fun _ => restored_closeType)
    (within _ (Progress.same_store rfl rfl rfl) rfl rfl rfl)
  refine { sound with types := fun frame member => ?_ }
  rcases List.mem_cons.mp member with rfl | member
  · exact named
  · exact sound.types frame member

theorem insideMethod {action : Walk α} {good : α → Progress → Prop} (steady : Steady good)
    {entity : EntityId} {name : String} {declaringType : EntityId}
    (named : before.store.identity? entity = some (.method, name))
    (owned : before.store.Holds .type declaringType)
    (within : ∀ inner hidden, before.Quiet inner → inner.scopes.types = before.scopes.types →
      inner.scopes.methods = ⟨entity, name, declaringType, hidden⟩ :: before.scopes.methods →
      inner.store = before.store → Meets Progress.Extends lapses site inner action good) :
    Meets Progress.Extends lapses site before (Walk.insideMethod entity name declaringType action)
      good := by
  refine inside steady rfl (fun sound => ?_) (fun _ => restored_closeMethod)
    (within _ before.scopes.block (Progress.same_store rfl rfl rfl) rfl rfl rfl)
  refine { sound with methods := fun frame member => ?_ }
  rcases List.mem_cons.mp member with rfl | member
  · exact ⟨named, owned⟩
  · exact sound.methods frame member

theorem insideBlock {action : Walk α} {good : α → Progress → Prop} (steady : Steady good)
    {span : Span}
    (within : ∀ inner, before.Quiet inner → inner.scopes.types = before.scopes.types →
      inner.scopes.methods = before.scopes.methods → inner.store = before.store →
      Meets Progress.Extends lapses site inner action good) :
    Meets Progress.Extends lapses site before (Walk.insideBlock span action) good :=
  inside steady rfl (fun sound => { sound with }) (fun _ => restored_closeBlock)
    (within _ (Progress.same_store rfl rfl rfl) rfl rfl rfl)

/-- A visit. Where something is missing the node is left out. -/
theorem visiting {node : Node} {handle : Walk Unit} {good : Unit → Progress → Prop}
    (lost : lapses.missing → ∀ after, good () after)
    (handled : Meets Progress.Extends lapses site before handle good) :
    Meets Progress.Extends lapses site before (Walk.visiting node handle) good := by
  intro sound
  obtain ⟨afterSound, restored, grown, unbroken, outcome⟩ := handled sound
  rw [perform_visiting sound.violation restored.violation]
  rcases performed : handle.perform site before with ⟨fault | ⟨⟩, after⟩
  · rw [performed] at afterSound restored grown unbroken outcome
    cases outcome with
    | facts arises =>
        have fatal := arises.breaksInvariant
        simp only [Fault.isFatal, fatal, ↓reduceIte]
        exact ⟨afterSound, restored, grown, unbroken, .facts arises⟩
    | node lacks =>
        simp only [Fault.isFatal, Bool.false_eq_true, ↓reduceIte]
        -- leaving the node out changes no more than the number of faults and the warnings
        exact ⟨afterSound.restored afterSound.store (refl_of Store.Extends after.store)
          (.refl afterSound.violation) afterSound.calls, restored, grown, .inl lacks, lost lacks _⟩
  · rw [performed] at afterSound restored grown unbroken outcome
    exact ⟨afterSound, restored, grown, unbroken, outcome⟩

end Meets

end Walk

end JavaFacts
