import JavaFacts.Project.Run
import JavaFacts.Proofs.Outline.Reached
import JavaFacts.Proofs.Call.Linking

/-!
What a run over several units comes to. It tells of every unit that it visited, of each one once and in
order, whether the unit could be extracted or not, and it never fails itself.
-/

namespace JavaFacts

/-- The extractions of several units, each on the store that those before it have left. -/
def extractions (config : Config) (store : Store) :
    List CompilationUnit → List (CompilationUnit × Extraction)
  | [] => []
  | unit :: units =>
      let extraction := unit.extract config store
      (unit, extraction) :: extractions config extraction.store units

/-- The store that the extractions of several units leave. -/
def storeAfter (config : Config) (store : Store) (units : List CompilationUnit) : Store :=
  units.foldl (fun store unit => (unit.extract config store).store) store

/-- The report of a unit that could be extracted, without the calls that the run takes charge of. -/
def reported? (part : CompilationUnit × Extraction) : Option UnitReport :=
  part.2.result.toOption.map fun report => { report with deferred := [] }

/-- Path and reason of a unit that could not be extracted. -/
def failure? (part : CompilationUnit × Extraction) : Option (String × String) :=
  match part.2.result with
  | .ok _ => none
  | .error error => some (part.1.path, error.message)

theorem map_extractions (config : Config) (store : Store) (units : List CompilationUnit) :
    (extractions config store units).map (·.1) = units := by
  induction units generalizing store with
  | nil => rfl
  | cons unit units ih => rw [extractions, List.map_cons, ih]

theorem mem_extractions {config : Config} {store : Store} {units : List CompilationUnit}
    {part : CompilationUnit × Extraction} (member : part ∈ extractions config store units) :
    ∃ before, part.2 = part.1.extract config before := by
  induction units generalizing store with
  | nil => cases member
  | cons unit units ih =>
      rcases List.mem_cons.mp member with rfl | member
      · exact ⟨store, rfl⟩
      · exact ih member

/-- A unit is told of either as extracted or as failed. -/
theorem reported_or_failed (part : CompilationUnit × Extraction) (config : Config) (before : Store)
    (extracted : part.2 = part.1.extract config before) :
    ((∃ report, reported? part = some report ∧ report.path = part.1.path) ∧ failure? part = none) ∨
      reported? part = none ∧ ∃ reason, failure? part = some (part.1.path, reason) := by
  rw [reported?, failure?]
  cases result : part.2.result with
  | ok report =>
      rw [extracted] at result
      obtain ⟨-, rfl⟩ := CompilationUnit.eq_report_of_extract result
      exact .inl ⟨⟨_, rfl, rfl⟩, rfl⟩
  | error error => exact .inr ⟨rfl, _, rfl⟩

theorem length_reported_add_failed (parts : List (CompilationUnit × Extraction)) :
    (parts.filterMap reported?).length + (parts.filterMap failure?).length = parts.length := by
  induction parts with
  | nil => rfl
  | cons part parts ih =>
      rw [List.filterMap_cons, List.filterMap_cons, reported?, failure?]
      cases part.2.result with
      | ok report =>
          simp only [Except.toOption, Option.map_some, List.length_cons]
          omega
      | error error =>
          simp only [Except.toOption, Option.map_none, List.length_cons]
          omega

/-- Extractions lead from a store that was reached to one that is, and all calls wait. -/
theorem Store.Reached.extractions {store : Store} {calls : List Call} (reached : store.Reached calls)
    (config : Config) (units : List CompilationUnit) :
    let handed := (extractions config store units).flatMap (·.2.deferred)
    (storeAfter config store units).Reached (calls ++ handed) ∧
      ∀ call ∈ handed, call.isCaptured := by
  induction units generalizing store calls with
  | nil =>
      refine ⟨(List.append_nil calls).symm ▸ reached, fun call member => ?_⟩
      exact absurd member List.not_mem_nil
  | cons unit units ih =>
      obtain ⟨after, captured⟩ := ih (reached.extract unit config)
      rw [List.append_assoc] at after
      refine ⟨after, fun call member => ?_⟩
      rcases List.mem_append.mp member with first | later
      · exact ((unit.extract_knows_callers config reached.sound.1.identified).2.2 call first).1
      · exact captured call later

namespace ProjectReport

/-- The report with one more unit. -/
def add (project : ProjectReport) (part : CompilationUnit × Extraction) : ProjectReport :=
  match part.2.result with
  | .ok report => project.addUnit report
  | .error error => project.addFailure part.1.path error.message

variable (project : ProjectReport) (parts : List (CompilationUnit × Extraction))

theorem units_foldl_add :
    (parts.foldl add project).units = project.units ++ parts.filterMap reported? := by
  induction parts generalizing project with
  | nil => exact (List.append_nil _).symm
  | cons part parts ih =>
      rw [List.foldl_cons, ih, List.filterMap_cons, reported?, add]
      cases part.2.result with
      | ok report => exact List.append_assoc ..
      | error error => rfl

theorem failed_foldl_add :
    (parts.foldl add project).failed = project.failed ++ parts.filterMap failure? := by
  induction parts generalizing project with
  | nil => exact (List.append_nil _).symm
  | cons part parts ih =>
      rw [List.foldl_cons, ih, List.filterMap_cons, failure?, add]
      cases part.2.result with
      | ok report => rfl
      | error error => exact List.append_assoc ..

theorem deferred_foldl_add :
    (parts.foldl add project).deferred = project.deferred ++ parts.flatMap (·.2.deferred) := by
  induction parts generalizing project with
  | nil => exact (List.append_nil _).symm
  | cons part parts ih =>
      rw [List.foldl_cons, ih, List.flatMap_cons, Extraction.deferred, add]
      cases part.2.result with
      | ok report => exact List.append_assoc ..
      | error error => rfl

theorem cancelled_add (part : CompilationUnit × Extraction) :
    (project.add part).cancelled = project.cancelled := by
  rw [add]
  cases part.2.result <;> rfl

end ProjectReport

theorem Metrics.attempted_countUnit (metrics : Metrics) (report : Option UnitReport) :
    (metrics.countUnit report).attempted = metrics.attempted + 1 := by
  cases report <;> rfl

namespace Run

/-- The result of a run and the workspace behind it. -/
def perform (run : Run α) (config : Config) (before : Workspace) :
    Except ExtractionError α × Workspace :=
  (run.run config).run before

variable {config : Config} {before : Workspace}

theorem perform_bind (run : Run α) (next : α → Run β) :
    (run >>= next).perform config before =
      match run.perform config before with
      | (.ok result, middle) => (next result).perform config middle
      | (.error error, middle) => (.error error, middle) := by
  have ran : (run >>= next).perform config before =
      (ExceptT.bindCont (fun result => (next result).run config) (run.perform config before).1).run
        (run.perform config before).2 := rfl
  rw [ran]
  rcases run.perform config before with ⟨error | result, middle⟩ <;> rfl

theorem perform_pure (result : α) :
    (pure result : Run α).perform config before = (.ok result, before) :=
  rfl

theorem perform_get : (get : Run Workspace).perform config before = (.ok before, before) :=
  rfl

theorem perform_read : (read : Run Config).perform config before = (.ok config, before) :=
  rfl

theorem perform_modify (change : Workspace → Workspace) :
    (modify change : Run Unit).perform config before = (.ok (), change before) :=
  rfl

theorem perform_ofExcept (result : Except ExtractionError α) :
    (ofExcept result).perform config before = (result, before) := by
  cases result <;> rfl

theorem perform_map (run : Run α) (change : α → β) :
    (change <$> run).perform config before =
      ((run.perform config before).1.map change, (run.perform config before).2) := by
  simp only [perform, ReaderT.run_map, ExceptT.run_map]
  rfl

theorem perform_tryCatch (run : Run α) (handler : ExtractionError → Run α) :
    (tryCatch run handler).perform config before =
      match run.perform config before with
      | (.ok result, middle) => (.ok result, middle)
      | (.error error, middle) => (handler error).perform config middle := by
  show (ExceptT.tryCatch (run config) fun error => handler error config) before =
    match run config before with
    | (.ok result, middle) => (.ok result, middle)
    | (.error error, middle) => handler error config middle
  simp only [ExceptT.tryCatch, ExceptT.mk, bind, StateT.bind]
  rcases run config before with ⟨error | result, middle⟩ <;> rfl

theorem perform_attempt (run : Run α) :
    (attempt run).perform config before =
      (.ok (run.perform config before).1, (run.perform config before).2) := by
  simp only [attempt, perform_tryCatch, perform_map]
  rcases run.perform config before with ⟨error | result, after⟩ <;> rfl

/-- The workspace in which a unit has been extracted and counted. -/
def extracted (config : Config) (before : Workspace) (unit : CompilationUnit) : Workspace :=
  let extraction := unit.extract config before.store
  { before with
    store := extraction.store
    metrics := before.metrics.countUnit extraction.result.toOption
    warnings := before.warnings ++ extraction.warnings }

theorem perform_extractUnit (unit : CompilationUnit) :
    (extractUnit unit).perform config before =
      ((unit.extract config before.store).result, extracted config before unit) := by
  simp only [extractUnit, perform_bind, perform_read, perform_get, perform_modify, perform_ofExcept]
  rfl

/-- A unit that cannot be extracted costs no more than its own report. -/
theorem perform_extractPart (project : ProjectReport) (unit : CompilationUnit) :
    ∃ warnings, (extractPart project unit).perform config before =
      (.ok (project.add (unit, unit.extract config before.store)),
        { extracted config before unit with warnings }) := by
  simp only [extractPart, perform_bind, perform_attempt, perform_extractUnit, ProjectReport.add]
  cases (unit.extract config before.store).result with
  | ok report => exact ⟨_, rfl⟩
  | error error => exact ⟨_, rfl⟩

/-- Units are extracted in order until the monitor puts an end to it. -/
theorem perform_extractParts (isCancelled : Nat → Bool) (total done : Nat) (project : ProjectReport)
    (units : List CompilationUnit) (before : Workspace) :
    ∃ stop after, stop ≤ units.length ∧ (∀ position < stop, isCancelled (done + position) = false) ∧
      (stop < units.length → isCancelled (done + stop)) ∧
      (extractParts isCancelled total done project units).perform config before =
        (.ok { (extractions config before.store (units.take stop)).foldl .add project with
          cancelled := project.cancelled || stop < units.length }, after) ∧
      after.store = storeAfter config before.store (units.take stop) ∧
      after.metrics.attempted = before.metrics.attempted + stop ∧
      after.visited.toList = before.visited.toList ++
        (units.take stop).mapIdx fun position unit => ⟨unit.path, done + position + 1, total⟩ := by
  induction units generalizing before done project with
  | nil =>
      refine ⟨0, before, Nat.le_refl _, nofun, nofun, ?_, rfl, rfl, (List.append_nil _).symm⟩
      have kept : (project.cancelled || decide (0 < ([] : List CompilationUnit).length)) =
          project.cancelled := Bool.or_false _
      rw [kept]
      rfl
  | cons unit units ih =>
      rw [extractParts]
      by_cases stopped : isCancelled done
      · refine ⟨0, before, Nat.zero_le _, nofun, fun _ => stopped, ?_, rfl, rfl,
          (List.append_nil _).symm⟩
        have told : (project.cancelled || decide (0 < (unit :: units).length)) = true := by simp
        rw [if_pos stopped, told]
        rfl
      · obtain ⟨warnings, part⟩ := @perform_extractPart config before project unit
        let visited : Workspace := { extracted config before unit with
          warnings, visited := before.visited.push ⟨unit.path, done + 1, total⟩ }
        obtain ⟨stop, after, bounded, onward, stops, performed, store, attempted, visits⟩ :=
          ih (done + 1) (project.add (unit, unit.extract config before.store)) visited
        refine ⟨stop + 1, after, Nat.succ_le_succ bounded, fun position early => ?_, fun early => ?_,
          ?_, store, ?_, ?_⟩
        · cases position with
          | zero => exact Bool.eq_false_iff.mpr stopped
          | succ position =>
              rw [← onward position (Nat.lt_of_succ_lt_succ early)]
              congr 1
              omega
        · rw [← stops (Nat.lt_of_succ_lt_succ early)]
          congr 1
          omega
        · rw [if_neg stopped, perform_bind, part]
          dsimp only
          rw [perform_bind, perform_modify]
          have later : decide (stop < units.length) = decide (stop + 1 < (unit :: units).length) :=
            decide_eq_decide.mpr Nat.succ_lt_succ_iff.symm
          rw [ProjectReport.cancelled_add, later] at performed
          exact performed
        · have counted : visited.metrics.attempted = before.metrics.attempted + 1 :=
            Metrics.attempted_countUnit ..
          omega
        · have pushed : visited.visited.toList = before.visited.toList ++ [⟨unit.path, done + 1, total⟩] :=
            Array.toList_push
          rw [visits, pushed, List.append_assoc, List.take_succ_cons, List.mapIdx_cons]
          simp only [List.singleton_append, Nat.add_zero, Nat.add_right_comm, Nat.add_assoc]

/-- What a run tells of the units before the one at which it stopped, and what it leaves behind. -/
structure Accounts (config : Config) (isCancelled : Nat → Bool) (units : List CompilationUnit)
    (stop : Nat) (before : Workspace) (project : ProjectReport) (after : Workspace) : Prop where
  /-- The first unit for which the monitor calls the run off, or else the end of the units. -/
  bounded : stop ≤ units.length
  onward : ∀ position < stop, isCancelled position = false
  stopped : stop < units.length → isCancelled stop
  cancelled : project.cancelled = decide (stop < units.length)
  /-- The units before that are extracted, one after the other, and no other one is. -/
  visited : after.visited.toList = before.visited.toList ++
    (units.take stop).mapIdx fun position unit => ⟨unit.path, position + 1, units.length⟩
  attempted : after.metrics.attempted = before.metrics.attempted + stop
  /-- Each of them is told of once. -/
  reports : project.units = (extractions config before.store (units.take stop)).filterMap reported?
  failures : project.failed = (extractions config before.store (units.take stop)).filterMap failure?
  once : ∀ part ∈ extractions config before.store (units.take stop),
    ((∃ report, reported? part = some report ∧ report.path = part.1.path) ∧ failure? part = none) ∨
      reported? part = none ∧ ∃ reason, failure? part = some (part.1.path, reason)
  cleared : ∀ unit ∈ project.units, unit.deferred = []
  /-- The calls handed on wait, unless they are resolved at the end. -/
  deferred :
    let handed := (extractions config before.store (units.take stop)).flatMap (·.2.deferred)
    let store := storeAfter config before.store (units.take stop)
    (∀ call ∈ handed, call.isCaptured) ∧
      if config.resolveDeferred ∧ project.cancelled = false then
        project.deferred = Call.resolveAll store handed ∧
          (∀ call ∈ project.deferred, call.isResolved) ∧
          after.store = (Call.resolveAndLink config handed store).2.2
      else project.deferred = handed ∧ after.store = store

/-- As many units are told of as were visited. -/
theorem Accounts.totalUnits_eq {isCancelled : Nat → Bool} {units : List CompilationUnit} {stop : Nat}
    {project : ProjectReport} {after : Workspace}
    (accounts : Accounts config isCancelled units stop before project after) :
    project.totalUnits = stop := by
  rw [ProjectReport.totalUnits, accounts.reports, accounts.failures, length_reported_add_failed]
  have length := congrArg List.length (map_extractions config before.store (units.take stop))
  rw [List.length_map, List.length_take, Nat.min_eq_left accounts.bounded] at length
  exact length

theorem isResolved_of_mem_resolveAll {store : Store} {calls : List Call}
    (captured : ∀ call ∈ calls, call.isCaptured) :
    ∀ call ∈ Call.resolveAll store calls, call.isResolved := by
  intro call member
  obtain ⟨original, known, rfl⟩ := List.mem_map.mp member
  rw [if_pos (captured original known)]
  rfl

/-- Resolving the calls of a project does not fail if their callers exist. It concerns no more of the
project than its calls, and no more of the workspace than the store and what is counted of calls. -/
theorem perform_resolveProject {calls : List Call} (reached : before.store.Reached calls)
    (project : ProjectReport) (known : project.deferred ⊆ calls) :
    ∃ deferred resolution store metrics, (resolveProject project).perform config before =
        (.ok { project with deferred, resolution }, { before with store, metrics }) ∧
      metrics.attempted = before.metrics.attempted ∧
      if config.resolveDeferred ∧ project.cancelled = false then
        deferred = Call.resolveAll before.store project.deferred ∧
          store = (Call.resolveAndLink config project.deferred before.store).2.2
      else deferred = project.deferred ∧ store = before.store := by
  obtain ⟨-, callers⟩ := reached.sound
  obtain ⟨summary, store, linked⟩ : ∃ summary store,
      Call.resolveAndLink config project.deferred before.store =
        (.ok summary, Call.resolveAll before.store project.deferred, store) := by
    refine ⟨_, _, Call.resolveAndLink_eq config fun call member => ?_⟩
    obtain ⟨entity, found, -⟩ := (callers call (known member)).exists_entity
    exact ⟨entity, found⟩
  simp only [resolveProject, perform_bind, perform_read]
  by_cases resolves : config.resolveDeferred ∧ project.cancelled = false
  · have chosen : (config.resolveDeferred && !project.cancelled) = true := by simpa using resolves
    simp only [if_pos chosen, if_pos resolves, perform_bind, resolve, perform_read, perform_get,
      linked]
    exact ⟨_, summary, store, before.metrics.countResolution (some summary), rfl, rfl, rfl, rfl⟩
  · have left : ¬(config.resolveDeferred && !project.cancelled) = true := by simpa using resolves
    simp only [if_neg left, if_neg resolves]
    exact ⟨_, project.resolution, _, before.metrics, rfl, rfl, rfl, rfl⟩

/-- A run over units tells of all of them and never fails. -/
theorem extractUnits_accounts {calls : List Call} (reached : before.store.Reached calls)
    (isCancelled : Nat → Bool) (units : List CompilationUnit) :
    ∃ stop project after, (extractUnits isCancelled units).perform config before = (.ok project, after) ∧
      Accounts config isCancelled units stop before project after := by
  obtain ⟨stop, middle, bounded, onward, stopped, performed, store, attempted, visited⟩ :=
    @perform_extractParts config isCancelled units.length 0 .empty units before
  obtain ⟨later, captured⟩ := reached.extractions config (units.take stop)
  let extracted := extractions config before.store (units.take stop)
  let project : ProjectReport := { extracted.foldl ProjectReport.add ProjectReport.empty with
    cancelled := decide (stop < units.length) }
  have handed : project.deferred = extracted.flatMap (·.2.deferred) :=
    ProjectReport.deferred_foldl_add _ _
  have reports : project.units = extracted.filterMap reported? :=
    ProjectReport.units_foldl_add _ _
  obtain ⟨deferred, resolution, left, metrics, resolved, counted, outcome⟩ :=
    @perform_resolveProject config middle _ (store ▸ later) project
      (handed ▸ List.subset_append_right _ _)
  have ran : (extractUnits isCancelled units).perform config before =
      (.ok { project with deferred, resolution }, { middle with store := left, metrics }) := by
    rw [extractUnits, perform_bind, performed]
    exact resolved
  refine ⟨stop, _, _, ran, {
    bounded
    onward := by simpa using onward
    stopped := by simpa using stopped
    cancelled := rfl
    visited := by simpa using visited
    attempted := counted.trans attempted
    reports
    failures := ProjectReport.failed_foldl_add _ _
    once := fun part member =>
      have ⟨before, same⟩ := mem_extractions member
      reported_or_failed part config before same
    cleared := fun unit member => ?_
    deferred := ⟨captured, ?_⟩ }⟩
  · rw [reports] at member
    obtain ⟨part, -, told⟩ := List.mem_filterMap.mp member
    obtain ⟨report, -, rfl⟩ := Option.map_eq_some_iff.mp told
    rfl
  · rw [handed, store] at outcome
    by_cases resolves : config.resolveDeferred ∧ project.cancelled = false
    · rw [if_pos resolves] at outcome ⊢
      obtain ⟨rfl, rfl⟩ := outcome
      exact ⟨rfl, isResolved_of_mem_resolveAll captured, rfl⟩
    · rw [if_neg resolves] at outcome ⊢
      exact outcome

/-- The unit of a file, if it can be read and has no syntax error. -/
def lowered (config : Config) (reading : Reading) (path : String) :
    Except ExtractionError CompilationUnit :=
  reading config path >>= fun (text, tree) => CompilationUnit.ofConcrete config path text tree

/-- A file that gives no unit, with the reason. -/
def skipped? (config : Config) (reading : Reading) (path : String) : Option (String × String) :=
  match lowered config reading path with
  | .ok _ => none
  | .error error => some (path, error.message)

theorem perform_lowerFile (reading : Reading) (path : String) :
    (lowerFile reading path).perform config before = (lowered config reading path, before) := by
  simp only [lowerFile, lower, perform_bind, perform_read, perform_ofExcept, lowered]
  cases reading config path <;> rfl

theorem perform_lowerFiles (reading : Reading) (paths : List String) (before : Workspace) :
    ∃ warnings, (lowerFiles reading paths).perform config before =
      (.ok (paths.filterMap fun path => (lowered config reading path).toOption,
        paths.filterMap (skipped? config reading)), { before with warnings }) := by
  induction paths generalizing before with
  | nil => exact ⟨before.warnings, rfl⟩
  | cons path paths ih =>
      simp only [lowerFiles, perform_bind, perform_attempt, perform_lowerFile, List.filterMap_cons,
        skipped?]
      cases lowered config reading path with
      | ok unit =>
          obtain ⟨warnings, rest⟩ := ih before
          refine ⟨warnings, ?_⟩
          dsimp only
          rw [perform_bind, rest]
          rfl
      | error error =>
          obtain ⟨warnings, rest⟩ := ih { before with
            warnings := before.warnings.push ("Skipping " ++ path ++ ": " ++ error.message) }
          refine ⟨warnings, ?_⟩
          dsimp only
          rw [perform_bind, warn, perform_modify]
          dsimp only
          rw [perform_bind, rest]
          rfl

/-- From a store that was reached a run over units never fails. It extracts the units before the first
at which the monitor calls it off, or else all of them, and tells of each of these once and in order, as
extracted or as failed. The calls that it hands on are those of the units that were extracted, resolved
if that is configured and nothing was called off, and waiting otherwise. A run over files does the same
with the units of those that can be read and lowered, and adds the others at the end of the failures. -/
theorem run_accounts_for_units {calls : List Call} (reached : before.store.Reached calls)
    (config : Config) (isCancelled : Nat → Bool) :
    (∀ units, ∃ stop project after,
      (extractUnits isCancelled units).perform config before = (.ok project, after) ∧
        Accounts config isCancelled units stop before project after) ∧
      ∀ reading paths, ∃ stop project after,
        (parsePaths isCancelled reading paths).perform config before =
          (.ok { project with
            failed := project.failed ++ paths.filterMap (skipped? config reading) }, after) ∧
          Accounts config isCancelled
            (paths.filterMap fun path => (lowered config reading path).toOption)
            stop before project after := by
  refine ⟨extractUnits_accounts reached isCancelled, fun reading paths => ?_⟩
  obtain ⟨warnings, read⟩ := @perform_lowerFiles config reading paths before
  have reached : Store.Reached ({ before with warnings } : Workspace).store calls := reached
  obtain ⟨stop, project, after, performed, accounts⟩ := @extractUnits_accounts config _ _ reached
    isCancelled (paths.filterMap fun path => (lowered config reading path).toOption)
  refine ⟨stop, project, after, ?_, { accounts with }⟩
  rw [parsePaths, perform_bind, read]
  dsimp only
  rw [perform_bind, performed]
  rfl

/-- A run that is called off before the second of two units. -/
theorem run_accounts_for_units_until_called_off :
    let unit : CompilationUnit := ⟨"A.java", "class A \x7b\x7d", none, [], []⟩
    let before : Workspace := ⟨∅, .zero, #[], #[]⟩
    ∃ project after,
      (extractUnits (fun position => position == 1) [unit, unit]).perform .standard before =
        (.ok project, after) ∧
      project.cancelled ∧ project.totalUnits = 1 ∧
        after.visited = #[⟨"A.java", 1, 2⟩] ∧ ∀ call ∈ project.deferred, call.isCaptured := by
  intro unit before
  have reached : before.store.Reached [] := .empty
  obtain ⟨stop, project, after, performed, accounts⟩ :=
    (run_accounts_for_units reached .standard fun position => position == 1).1 [unit, unit]
  have one : stop = 1 := by
    have bounded : stop ≤ 2 := accounts.bounded
    rcases Nat.lt_trichotomy stop 1 with less | same | more
    · have called := accounts.stopped (Nat.lt_of_lt_of_le less (by decide))
      exact eq_of_beq called
    · exact same
    · cases accounts.onward 1 more
  subst one
  have cancelled : project.cancelled := accounts.cancelled
  refine ⟨project, after, performed, cancelled, ?_, ?_, ?_⟩
  · exact accounts.totalUnits_eq
  · exact Array.toList_inj.mp accounts.visited
  · obtain ⟨captured, waits⟩ := accounts.deferred
    rw [if_neg (by rw [cancelled]; simp)] at waits
    rw [waits.1]
    exact captured

end Run

end JavaFacts
