import JavaFacts.Proofs.Call.Sessions
import JavaFacts.Proofs.Scope.Shadowing

/-!
Passes over the parts of a list of calls. The search for a target looks at the entities of a store and
at the type hierarchy, none of which linking a call changes; so the parts may come one after another
in any order, and each call is resolved and linked as in a single pass over all of them.
-/

namespace JavaFacts

namespace Store

/-- Two stores are alike for a search: they have the same entities, and the same hierarchy. -/
structure Alike (store other : Store) : Prop where
  entities : other.entities = store.entities
  ids : other.ids = store.ids
  directSupertypes : ∀ type, other.directSupertypes type = store.directSupertypes type
  superclass? : ∀ type, other.superclass? type = store.superclass? type
  associations : store.associations.size ≤ other.associations.size

variable {store other : Store}

theorem associationsFrom_appended (indexed : store.Indexed) {kind : AssociationKind}
    {source target : EntityId} {anchor : Option Anchor} {statement : String} (id : EntityId) :
    (store.appended kind source target anchor statement).associationsFrom id =
      store.associationsFrom id ++ if source = id then
        [⟨store.associations.size, kind, source, target, anchor, statement⟩] else [] := by
  rw [associationsFrom_eq indexed.appended, associationsFrom_eq indexed, appended,
    Array.toList_push, List.filter_append, List.filter_singleton]
  by_cases same : source = id
  · rw [if_pos same, beq_iff_eq.mpr same]
    rfl
  · rw [if_neg same, beq_eq_false_iff_ne.mpr same]
    rfl

/-- Only inheritance and subtyping count for the hierarchy. -/
theorem directSupertypes_appended (indexed : store.Indexed) {kind : AssociationKind}
    (flat : kind.isHierarchy = false) {source target : EntityId} {anchor : Option Anchor}
    {statement : String} (type : EntityId) :
    (store.appended kind source target anchor statement).directSupertypes type =
      store.directSupertypes type := by
  rw [directSupertypes, associationsFrom_appended indexed, List.filter_append]
  split
  · rw [List.filter_cons_of_neg (by simp [flat]), List.filter_nil, List.append_nil]
    rfl
  · rw [List.filter_nil, List.append_nil]
    rfl

theorem superclass?_appended (indexed : store.Indexed) {kind : AssociationKind}
    (flat : kind.isHierarchy = false) {source target : EntityId} {anchor : Option Anchor}
    {statement : String} (type : EntityId) :
    (store.appended kind source target anchor statement).superclass? type =
      store.superclass? type := by
  have other : kind ≠ .inheritance := fun same => by
    rw [same] at flat
    cases flat
  rw [superclass?, associationsFrom_appended indexed, List.find?_append]
  split
  · rw [List.find?_cons_of_neg (by simpa using other), List.find?_nil, Option.or_none]
    rfl
  · rw [List.find?_nil, Option.or_none]
    rfl

namespace Alike

theorem refl : store.Alike store :=
  ⟨rfl, rfl, fun _ => rfl, fun _ => rfl, Nat.le_refl _⟩

theorem trans {last : Store} (first : store.Alike other) (second : other.Alike last) :
    store.Alike last where
  entities := second.entities.trans first.entities
  ids := second.ids.trans first.ids
  directSupertypes type := (second.directSupertypes type).trans (first.directSupertypes type)
  superclass? type := (second.superclass? type).trans (first.superclass? type)
  associations := first.associations.trans second.associations

theorem linkedStore (indexed : store.Indexed) (config : Config) (call : Call) :
    store.Alike (call.linkedStore config store) ∧ (call.linkedStore config store).Indexed := by
  unfold Call.linkedStore
  split
  · refine ⟨⟨rfl, rfl, directSupertypes_appended indexed rfl, superclass?_appended indexed rfl, ?_⟩,
      indexed.appended⟩
    rw [appended, Array.size_push]
    exact Nat.le_succ _
  · exact ⟨refl, indexed⟩

theorem foldl_linkedStore (indexed : store.Indexed) (config : Config) (calls : List Call) :
    let after := calls.foldl (fun store call => call.linkedStore config store) store
    store.Alike after ∧ after.Indexed := by
  induction calls generalizing store with
  | nil => exact ⟨refl, indexed⟩
  | cons call calls ih =>
      obtain ⟨alike, indexed⟩ := linkedStore indexed config call
      obtain ⟨later, still⟩ := ih indexed
      exact ⟨alike.trans later, still⟩

variable (alike : store.Alike other)

include alike

theorem entity? : other.entity? = store.entity? := by
  funext id
  rw [Store.entity?, Store.entity?, alike.entities]

theorem find? (kind : EntityKind) (name : String) : other.find? kind name = store.find? kind name := by
  rw [Store.find?, Store.find?, alike.ids]

theorem nameOf : other.nameOf = store.nameOf := by
  funext id
  rw [Store.nameOf, Store.nameOf, alike.entity?]

theorem ofKind (kind : EntityKind) : other.ofKind kind = store.ofKind kind := by
  rw [Store.ofKind, Store.ofKind, alike.entities]

theorem methodIndex : MethodIndex.ofStore other = MethodIndex.ofStore store := by
  rw [MethodIndex.ofStore, MethodIndex.ofStore, alike.ofKind]

theorem membersOfKind (owner : EntityId) (kind : EntityKind) :
    other.membersOfKind owner kind = store.membersOfKind owner kind := by
  rw [Store.membersOfKind, Store.membersOfKind, alike.entity?]

theorem enclosingTypesFrom (steps : Nat) (visited : List EntityId) (id : EntityId) :
    Snapshot.enclosingTypesFrom other steps visited id =
      Snapshot.enclosingTypesFrom store steps visited id := by
  induction steps generalizing visited id with
  | zero => rfl
  | succ steps ih =>
      rw [Snapshot.enclosingTypesFrom, Snapshot.enclosingTypesFrom, alike.entity?]
      simp only [ih]

theorem addEnclosingFields (visible : Snapshot) (type : EntityId) :
    visible.addEnclosingFields other type = visible.addEnclosingFields store type := by
  have types : Snapshot.enclosingTypes other type = Snapshot.enclosingTypes store type := by
    rw [Snapshot.enclosingTypes, alike.enclosingTypesFrom, alike.entities]
    rfl
  rw [Snapshot.addEnclosingFields, Snapshot.addEnclosingFields, types]
  simp only [alike.membersOfKind]

theorem variableOf? (visible : Snapshot) (segments : List String) :
    Call.variableOf? visible other segments = Call.variableOf? visible store segments := by
  induction segments with
  | nil => rfl
  | cons field segments ih =>
      cases segments with
      | nil => rfl
      | cons segment segments =>
          rw [Call.variableOf?, Call.variableOf?, ih]
          simp only [alike.entity?, alike.nameOf, alike.find?]

theorem denoted? (visible : Snapshot) :
    Call.denoted? visible other = Call.denoted? visible store := by
  funext name
  rw [Call.denoted?, Call.denoted?, alike.variableOf?, alike.entity?]

theorem receiverTypeIn (call : Call) : call.receiverTypeIn other = call.receiverTypeIn store := by
  have variableType? : Call.variableType? call.visible other =
      Call.variableType? call.visible store := by
    funext name
    rw [Call.variableType?, Call.variableType?, alike.denoted?, alike.nameOf]
  rw [Call.receiverTypeIn, Call.receiverTypeIn, alike.nameOf, alike.superclass?, variableType?]

theorem argumentTypeIn (call : Call) : call.argumentTypeIn other = call.argumentTypeIn store := by
  funext argument
  rw [Call.argumentTypeIn, Call.argumentTypeIn, alike.denoted?]

/-- A store with more associations allows the search for supertypes more steps, which it does not
take: there is nothing left to look at. -/
theorem search (sound : store.Sound) {type : EntityId} {steps more : Nat}
    {waiting found : List EntityId} (searching : Searching store type steps waiting found) :
    other.search (steps + more) waiting found = store.search steps waiting found := by
  induction steps generalizing waiting found with
  | zero =>
      obtain rfl := searching.eq_nil
      cases more <;> simp only [Store.search]
  | succ steps ih =>
      rw [Nat.succ_add]
      cases waiting with
      | nil => rfl
      | cons next waiting =>
          rw [Store.search, Store.search, alike.directSupertypes]
          exact ih (searching.step sound.indexed)

theorem withSupertypes (sound : store.Sound) (typeName : String) :
    other.withSupertypes typeName = store.withSupertypes typeName := by
  rw [Store.withSupertypes, Store.withSupertypes, alike.find?, alike.nameOf]
  cases store.find? .type typeName with
  | none => rfl
  | some type =>
      obtain ⟨more, size⟩ := Nat.exists_eq_add_of_le alike.associations
      have steps : other.associations.size + 1 = store.associations.size + 1 + more := by omega
      dsimp only
      rw [supertypes, supertypes, steps, alike.search sound (Searching.start type)]

theorem candidatesIn (sound : store.Sound) (call : Call) (index : MethodIndex) :
    call.candidatesIn other index = call.candidatesIn store index := by
  have keep : Stage.keep other = Stage.keep store := by
    funext accepts methods
    rw [Stage.keep, Stage.keep, alike.entity?]
  unfold Call.candidatesIn Stage.byCount Stage.byReceiver Stage.byParameterTypes
  simp only [keep, alike.nameOf, alike.withSupertypes sound]

theorem resolve (sound : store.Sound) (call : Call) :
    call.resolve other (MethodIndex.ofStore other) =
      call.resolve store (MethodIndex.ofStore store) := by
  unfold Call.resolve
  simp only [alike.methodIndex, alike.addEnclosingFields, alike.receiverTypeIn,
    alike.argumentTypeIn, alike.candidatesIn sound]

end Alike

end Store

namespace Snapshot

variable {snapshot : Snapshot} {level : Level} {name : String}

/-- A level of hidden names adds nothing. -/
theorem addLevel_of_hidden (hidden : ∀ entry ∈ level, snapshot.contains entry.1) :
    snapshot.addLevel level = snapshot := by
  have nothing : level.filter (fun entry => !snapshot.contains entry.1) = [] :=
    List.filter_eq_nil_iff.mpr fun entry member => by simp [hidden entry member]
  rw [addLevel, nothing]
  exact congrArg Snapshot.mk (List.append_nil _)

theorem contains_addLevel (name : String) :
    (snapshot.addLevel level).contains name =
      (snapshot.contains name || level.any (·.1 == name)) := by
  rw [contains_eq_isSome, lookup_addLevel]
  cases visible : snapshot.contains name
  · cases level.any (·.1 == name) <;> rfl
  · rw [if_pos rfl, ← contains_eq_isSome, visible]
    rfl

theorem contains_addLevels {levels : List Level} :
    (levels.foldl addLevel snapshot).contains name =
      (snapshot.contains name || levels.any (·.any (·.1 == name))) := by
  induction levels generalizing snapshot with
  | nil => rw [List.foldl_nil, List.any_nil, Bool.or_false]
  | cons level levels ih => rw [List.foldl_cons, ih, contains_addLevel, List.any_cons, Bool.or_assoc]

theorem addLevels_of_hidden {levels : List Level}
    (hidden : ∀ level ∈ levels, ∀ entry ∈ level, snapshot.contains entry.1) :
    levels.foldl addLevel snapshot = snapshot := by
  induction levels with
  | nil => rfl
  | cons level levels ih =>
      obtain ⟨first, rest⟩ := List.forall_mem_cons.mp hidden
      rw [List.foldl_cons, addLevel_of_hidden first, ih rest]

/-- The fields around a type are visible after they were added once. -/
theorem addEnclosingFields_twice (snapshot : Snapshot) (store : Store) (type : EntityId) :
    (snapshot.addEnclosingFields store type).addEnclosingFields store type =
      snapshot.addEnclosingFields store type := by
  refine addLevels_of_hidden fun level member entry listed => ?_
  rw [addEnclosingFields, contains_addLevels, Bool.or_eq_true, List.any_eq_true]
  exact .inr ⟨level, member, List.any_eq_true.mpr ⟨entry, listed, beq_self_eq_true _⟩⟩

end Snapshot

namespace Call

/-- Searching for the target of a call again finds the same. -/
theorem resolve_twice (call : Call) (store : Store) (index : MethodIndex) :
    (call.resolve store index).resolve store index = call.resolve store index := by
  unfold resolve
  simp only [Snapshot.addEnclosingFields_twice]
  rfl

/-- Passes over lists of calls, one after another: what each of them gave, and the last store. -/
def resolveBatches (config : Config) :
    List (List Call) → Store → List (Except FactError ResolutionSummary × List Call) × Store
  | [], store => ([], store)
  | batch :: batches, store =>
      let pass := resolveAndLink config batch store
      let rest := resolveBatches config batches pass.2.2
      ((pass.1, pass.2.1) :: rest.1, rest.2)

/-- The association that links a call, if one does, whatever its number. -/
def linkOf? (config : Config) (call : Call) : Option Association :=
  (call.linkTarget? config).map fun method =>
    { id := 0, kind := .invocation, source := call.caller, target := method
      anchor := some call.anchor, statement := call.statement }

end Call

/-- The associations of a store, whatever their numbers. -/
def Store.connections (store : Store) : List Association :=
  store.associations.toList.map fun association => { association with id := 0 }

namespace Call

variable {base store : Store} {config : Config}

theorem connections_linkedStore (call : Call) :
    (call.linkedStore config store).connections =
      store.connections ++ (call.linkOf? config).toList := by
  unfold linkedStore linkOf?
  cases call.linkTarget? config with
  | none => exact (List.append_nil _).symm
  | some method =>
      simp only [Store.connections, Store.appended, Array.toList_push, List.map_append]
      rfl

theorem connections_foldl (calls : List Call) :
    (calls.foldl (fun store call => call.linkedStore config store) store).connections =
      store.connections ++ calls.filterMap (·.linkOf? config) := by
  induction calls generalizing store with
  | nil => exact (List.append_nil _).symm
  | cons call calls ih =>
      rw [List.foldl_cons, ih, connections_linkedStore, List.append_assoc, List.filterMap_cons]
      cases call.linkOf? config <;> rfl

/-- A pass in a store that is like the first one. -/
theorem pass_in_alike (config : Config) (sound : base.Sound) (alike : base.Alike store) (indexed : store.Indexed)
    {calls : List Call} (waits : ∀ call ∈ calls, call.isCaptured)
    (callers : ∀ call ∈ calls, ∃ entity, base.entity? call.caller = some entity) :
    let pass := resolveAndLink config calls store
    let found := calls.map fun call => call.resolve base (MethodIndex.ofStore base)
    (∃ summary, pass.1 = .ok summary) ∧ pass.2.1 = found ∧
      base.Alike pass.2.2 ∧ pass.2.2.Indexed ∧
      pass.2.2.connections = store.connections ++ found.filterMap (·.linkOf? config) := by
  intro pass found
  have searched : searchedOf store calls = found := by
    rw [searchedOf, List.filter_eq_self.mpr waits]
    exact List.map_congr_left fun call _ => alike.resolve sound call
  have resolved : resolveAll store calls = found := by
    refine List.map_congr_left fun call member => ?_
    rw [if_pos (waits call member)]
    exact alike.resolve sound call
  have linkable : ∀ call ∈ searchedOf store calls, call.Linkable config store := by
    rw [searched]
    intro call member
    obtain ⟨original, listed, rfl⟩ := List.mem_map.mp member
    exact (linkable_resolve (callers original listed)).congr alike.entities
  have ran : pass = _ := resolveAndLink_of_linkable linkable
  rw [searched, resolved] at ran
  obtain ⟨later, still⟩ := Store.Alike.foldl_linkedStore indexed config found
  rw [ran]
  exact ⟨⟨_, rfl⟩, rfl, alike.trans later, still, connections_foldl found⟩

theorem resolveBatches_in_alike (config : Config) (sound : base.Sound) {batches : List (List Call)}
    (alike : base.Alike store) (indexed : store.Indexed)
    (waits : ∀ batch ∈ batches, ∀ call ∈ batch, call.isCaptured)
    (callers : ∀ batch ∈ batches, ∀ call ∈ batch, ∃ entity, base.entity? call.caller = some entity) :
    let passes := resolveBatches config batches store
    let find (call : Call) := call.resolve base (MethodIndex.ofStore base)
    (∀ pass ∈ passes.1, ∃ summary, pass.1 = .ok summary) ∧
      passes.1.map (·.2) = batches.map (·.map find) ∧ base.Alike passes.2 ∧
      passes.2.connections =
        store.connections ++ (batches.flatten.map find).filterMap (·.linkOf? config) := by
  induction batches generalizing store with
  | nil => exact ⟨fun _ => (nomatch ·), rfl, alike, (List.append_nil _).symm⟩
  | cons batch batches ih =>
      intro passes find
      obtain ⟨firstWaits, restWaits⟩ := List.forall_mem_cons.mp waits
      obtain ⟨firstCallers, restCallers⟩ := List.forall_mem_cons.mp callers
      obtain ⟨succeeds, resolved, middleAlike, middleIndexed, linked⟩ :=
        pass_in_alike config sound alike indexed firstWaits firstCallers
      obtain ⟨others, rest, last, connections⟩ :=
        ih middleAlike middleIndexed restWaits restCallers
      refine ⟨List.forall_mem_cons.mpr ⟨succeeds, others⟩, congrArg₂ List.cons resolved rest, last, ?_⟩
      rw [List.flatten_cons, List.map_append, List.filterMap_append, ← List.append_assoc, ← linked]
      exact connections

end Call

/-- Passes over the parts of a list of calls, in any order, find the same for each call as one pass
over the list, and leave behind the same entities and, but for their numbers and order, the same
associations. No search is influenced by a link: each finds what it finds in the first store, and
finds the same when it is made again behind all passes. -/
theorem Store.Reached.batches_agree {store : Store} {known : List Call}
    (reached : store.Reached known) (config : Config) {calls : List Call}
    {batches : List (List Call)} (parts : batches.flatten.Perm calls)
    (waits : ∀ call ∈ calls, call.isCaptured)
    (callers : ∀ call ∈ calls, ∃ entity, store.entity? call.caller = some entity) :
    let whole := Call.resolveAndLink config calls store
    let passes := Call.resolveBatches config batches store
    let find (call : Call) := call.resolve store (MethodIndex.ofStore store)
    ((∃ summary, whole.1 = .ok summary) ∧ ∀ pass ∈ passes.1, ∃ summary, pass.1 = .ok summary) ∧
      (whole.2.1 = calls.map find ∧ passes.1.map (·.2) = batches.map (·.map find)) ∧
      (passes.2.entities = whole.2.2.entities ∧ passes.2.ids = whole.2.2.ids) ∧
      passes.2.connections.Perm whole.2.2.connections ∧
      ∀ call : Call, call.resolve passes.2 (MethodIndex.ofStore passes.2) = find call ∧
        (find call).resolve passes.2 (MethodIndex.ofStore passes.2) = find call := by
  intro whole passes find
  obtain ⟨sound, -⟩ := reached.sound
  obtain ⟨succeeds, resolved, wholeAlike, -, linked⟩ :=
    Call.pass_in_alike config sound .refl sound.indexed waits callers
  obtain ⟨others, parted, alike, connections⟩ :=
    Call.resolveBatches_in_alike config sound .refl sound.indexed
      (fun batch member call listed =>
        waits call (parts.mem_iff.mp (List.mem_flatten.mpr ⟨batch, member, listed⟩)))
      (fun batch member call listed =>
        callers call (parts.mem_iff.mp (List.mem_flatten.mpr ⟨batch, member, listed⟩)))
  refine ⟨⟨succeeds, others⟩, ⟨resolved, parted⟩,
    ⟨alike.entities.trans wholeAlike.entities.symm, alike.ids.trans wholeAlike.ids.symm⟩, ?_,
    fun call => ⟨alike.resolve sound call, ?_⟩⟩
  · rw [connections, linked]
    exact ((parts.map find).filterMap _).append_left _
  · rw [alike.resolve sound]
    exact call.resolve_twice store _

/-- The two calls in `interface I{m(){m();m();}}`, the last one first. -/
theorem Store.Reached.batches_agree_of_interface :
    let call (start : Nat) : Node := .call ⟨start, 3⟩ ⟨"m", none, none⟩ none []
    let method : Node := .method ⟨12, 14⟩ ⟨"m", false, ∅, none, [], none⟩
      (some (.block ⟨15, 10⟩ [call 16, call 20]))
    let type : Node := .type ⟨0, 27⟩ ⟨.interface, "I", ∅, none, [], none, []⟩ [method]
    let unit : CompilationUnit := ⟨"I.java", "", none, [], [type]⟩
    let extraction := unit.extract .standard ∅
    let calls := extraction.deferred
    let passes := Call.resolveBatches .standard (calls.reverse.map ([·])) extraction.store
    calls.length = 2 ∧ passes.2.connections.Perm
      (Call.resolveAndLink .standard calls extraction.store).2.2.connections := by
  intro call method type unit extraction
  have reached : extraction.store.Reached ([] ++ extraction.deferred) :=
    .extract unit .standard .empty
  have two : extraction.deferred.length = 2 :=
    unit.length_deferred .standard .empty (by rw [Store.facts_empty]; decide +kernel)
  have waits : ∀ call ∈ extraction.deferred, call.isCaptured :=
    fun call member => ((unit.extract_knows_callers .standard Store.Sound.empty.identified).2.2 call member).1
  -- what the extraction came to is not looked at again
  clear_value extraction
  intro calls passes
  have callers : ∀ call ∈ calls, ∃ entity, extraction.store.entity? call.caller = some entity :=
    fun call member => (reached.sound.2 call member).exists_entity.imp fun _ => And.left
  have parts : (calls.reverse.map ([·])).flatten.Perm calls := by
    rw [← List.flatMap_def, List.flatMap_singleton']
    exact calls.reverse_perm
  obtain ⟨-, -, -, connections, -⟩ := reached.batches_agree .standard parts waits callers
  exact ⟨two, connections⟩

end JavaFacts
