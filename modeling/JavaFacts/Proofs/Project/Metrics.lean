import Mathlib.Algebra.BigOperators.Group.List.Basic
import Mathlib.Algebra.GroupWithZero.Nat
import JavaFacts.Proofs.Project.Runs

/-!
What metrics come to when they are merged, and how good the average time is that they give. The time is
divided by the number of units that succeeded as far as it fits 32 bits. Below that width the average is
the mean; from there on it is missing for every multiple of the width, and at least twice the mean
otherwise. Metrics that a run counts stay below the width as long as there are fewer units.
-/

namespace JavaFacts

section Quotients

variable {width count : Nat}

theorem two_mul_mod_le (positive : 0 < width) (wide : width ≤ count) : 2 * (count % width) ≤ count := by
  have below : count % width < width := Nat.mod_lt count positive
  have whole : width ≤ width * (count / width) :=
    Nat.le_mul_of_pos_right width (Nat.div_pos wide positive)
  have parts : count % width + width * (count / width) = count := Nat.mod_add_div count width
  omega

/-- What was cut off is more than what is left, so the quotient at least doubles. -/
theorem two_mul_div_le_div_mod (time : Nat) (positive : 0 < width) (wide : width ≤ count)
    (left : 0 < count % width) : 2 * (time / count) ≤ time / (count % width) :=
  calc 2 * (time / count)
    _ ≤ 2 * (time / (count % width * 2)) := by
        have double := two_mul_mod_le positive wide
        exact Nat.mul_le_mul_left 2 (Nat.div_le_div_left (by omega) (by omega))
    _ = 2 * (time / (count % width) / 2) := by rw [Nat.div_div_eq_div_mul]
    _ ≤ time / (count % width) := Nat.mul_div_le _ 2

/-- A quotient that doubles and stays the same is zero. -/
theorem div_mod_eq_div_iff (time : Nat) (positive : 0 < width) (left : 0 < count % width) :
    time / (count % width) = time / count ↔ count < width ∨ time < count % width := by
  by_cases fits : count < width
  · rw [Nat.mod_eq_of_lt fits]
    exact iff_of_true rfl (.inl fits)
  · have doubled := two_mul_div_le_div_mod time positive (Nat.le_of_not_lt fits) left
    constructor
    · intro same
      have zero : time / (count % width) = 0 := by omega
      exact .inr ((Nat.div_eq_zero_iff_lt left).mp zero)
    · rintro (small | short)
      · exact absurd small fits
      · rw [Nat.div_eq_of_lt short, Nat.div_eq_of_lt (short.trans_le (Nat.mod_le count width))]

end Quotients

namespace Metrics

/-- The numbers that metrics consist of. -/
def counters : List (Metrics → Nat) :=
  [attempted, succeeded, failed, duration, entities, associations, deferred, resolved, ambiguous]

/-- What several metrics come to, merged one after the other. -/
def mergeAll (parts : List Metrics) : Metrics := parts.foldl merge zero

variable {counter : Metrics → Nat} {metrics : Metrics}

theorem counter_zero (member : counter ∈ counters) : counter zero = 0 := by
  simp only [counters, List.mem_cons, List.not_mem_nil, or_false] at member
  rcases member with rfl | rfl | rfl | rfl | rfl | rfl | rfl | rfl | rfl <;> rfl

theorem counter_merge (member : counter ∈ counters) (left right : Metrics) :
    counter (left.merge right) = counter left + counter right := by
  simp only [counters, List.mem_cons, List.not_mem_nil, or_false] at member
  rcases member with rfl | rfl | rfl | rfl | rfl | rfl | rfl | rfl | rfl <;> rfl

theorem ext_counters {left right : Metrics} (same : ∀ counter ∈ counters, counter left = counter right) :
    left = right := by
  simp only [counters, List.forall_mem_cons, List.not_mem_nil, false_imp_iff, forall_const] at same
  cases left
  cases right
  simpa only [mk.injEq, and_true] using same

theorem counter_foldl_merge (member : counter ∈ counters) (parts : List Metrics) (start : Metrics) :
    counter (parts.foldl merge start) = counter start + (parts.map counter).sum := by
  induction parts generalizing start with
  | nil => rfl
  | cons part parts ih =>
      rw [List.foldl_cons, ih, counter_merge member, List.map_cons, List.sum_cons, Nat.add_assoc]

theorem counter_mergeAll (member : counter ∈ counters) (parts : List Metrics) :
    counter (mergeAll parts) = (parts.map counter).sum := by
  rw [mergeAll, counter_foldl_merge member, counter_zero member, Nat.zero_add]

/-- It does not matter in which order metrics are merged. -/
theorem mergeAll_eq_of_perm {parts others : List Metrics} (same : parts.Perm others) :
    mergeAll parts = mergeAll others := by
  refine ext_counters fun counter member => ?_
  rw [counter_mergeAll member, counter_mergeAll member]
  exact (same.map counter).sum_eq

/-- Time for each unit that succeeded, rounded down, and none if no unit did. -/
def meanTime (metrics : Metrics) : Nat :=
  if metrics.succeeded = 0 then 0 else metrics.duration / metrics.succeeded

theorem averageTime?_eq (metrics : Metrics) :
    metrics.averageTime? =
      if metrics.succeeded = 0 then some 0
      else if metrics.succeeded % 2 ^ 32 = 0 then none
      else some (metrics.duration / (metrics.succeeded % 2 ^ 32)) := by
  simp only [averageTime?, beq_iff_eq, Nat.reducePow]

theorem averageTime?_eq_none_iff :
    metrics.averageTime? = none ↔ 0 < metrics.succeeded ∧ 2 ^ 32 ∣ metrics.succeeded := by
  rw [averageTime?_eq, Nat.dvd_iff_mod_eq_zero, Nat.pos_iff_ne_zero]
  split
  · rename_i nothing
    exact iff_of_false (Option.some_ne_none _) fun ⟨positive, _⟩ => positive nothing
  · rename_i positive
    split
    · rename_i multiple
      exact iff_of_true rfl ⟨positive, multiple⟩
    · rename_i left
      exact iff_of_false (Option.some_ne_none _) fun ⟨_, multiple⟩ => left multiple

theorem averageTime?_eq_meanTime_iff :
    metrics.averageTime? = some metrics.meanTime ↔
      metrics.succeeded < 2 ^ 32 ∨ metrics.duration < metrics.succeeded % 2 ^ 32 := by
  rw [averageTime?_eq, meanTime]
  by_cases nothing : metrics.succeeded = 0
  · rw [if_pos nothing, if_pos nothing]
    exact iff_of_true rfl (.inl (by omega))
  · rw [if_neg nothing, if_neg nothing]
    by_cases multiple : metrics.succeeded % 2 ^ 32 = 0
    · rw [if_pos multiple]
      exact iff_of_false nofun (by omega)
    · rw [if_neg multiple, Option.some.injEq]
      exact div_mod_eq_div_iff _ (Nat.two_pow_pos 32) (Nat.pos_of_ne_zero multiple)

/-- From the width on an average is too large, if it is not zero. -/
theorem two_mul_meanTime_le {average : Nat} (wide : 2 ^ 32 ≤ metrics.succeeded)
    (answered : metrics.averageTime? = some average) : 2 * metrics.meanTime ≤ average := by
  have positive : metrics.succeeded ≠ 0 := by omega
  rw [averageTime?_eq, if_neg positive] at answered
  rw [meanTime, if_neg positive]
  split at answered
  · cases answered
  · rename_i left
    cases answered
    exact two_mul_div_le_div_mod _ (Nat.two_pow_pos 32) wide (Nat.pos_of_ne_zero left)

/-- The average of merged metrics comes from the sum of their times and that of their units that
succeeded. It is missing if the units are a multiple of the width, zero apart. It is the quotient of the
sums if the units are below the width, or if the time is so short that both are zero. Any other average
is at least twice the quotient. -/
theorem averageTime?_mergeAll (parts : List Metrics) :
    let units := (parts.map succeeded).sum
    let time := (parts.map duration).sum
    let mean := if units = 0 then 0 else time / units
    ((mergeAll parts).averageTime? = none ↔ 0 < units ∧ 2 ^ 32 ∣ units) ∧
      ((mergeAll parts).averageTime? = some mean ↔ units < 2 ^ 32 ∨ time < units % 2 ^ 32) ∧
      ∀ average, (mergeAll parts).averageTime? = some average → 2 ^ 32 ≤ units → 2 * mean ≤ average := by
  intro units time mean
  have countsUnits : (mergeAll parts).succeeded = units := counter_mergeAll (by simp [counters]) parts
  have countsTime : (mergeAll parts).duration = time := counter_mergeAll (by simp [counters]) parts
  have givesMean : (mergeAll parts).meanTime = mean := by rw [meanTime, countsUnits, countsTime]
  rw [← countsUnits, ← countsTime, ← givesMean]
  exact ⟨averageTime?_eq_none_iff, averageTime?_eq_meanTime_iff,
    fun average answered wide => two_mul_meanTime_le wide answered⟩

/-- Each part has a good average, and what they are merged to has none or a wrong one. -/
theorem averageTime?_mergeAll_beyond_width :
    let half : Metrics := { zero with succeeded := 2 ^ 31, duration := 5000000 }
    let more : Metrics := { half with succeeded := 2 ^ 31 + 1 }
    half.averageTime? = some half.meanTime ∧ more.averageTime? = some more.meanTime ∧
      (mergeAll [half, half]).averageTime? = none ∧
      (mergeAll [half, more]).averageTime? = some 10000000 ∧ (mergeAll [half, more]).meanTime = 0 := by
  decide

/-- Every unit that was attempted has either succeeded or failed. -/
def IsBalanced (metrics : Metrics) : Prop := metrics.attempted = metrics.succeeded + metrics.failed

theorem isBalanced_zero : zero.IsBalanced := rfl

theorem IsBalanced.countUnit (balanced : metrics.IsBalanced) (report : Option UnitReport) :
    (metrics.countUnit report).IsBalanced := by
  cases report with
  | some report =>
      show metrics.attempted + 1 = metrics.succeeded + 1 + metrics.failed
      rw [balanced, Nat.add_right_comm]
  | none => exact congrArg Nat.succ balanced

theorem IsBalanced.countResolution (balanced : metrics.IsBalanced) (summary : Option ResolutionSummary) :
    (metrics.countResolution summary).IsBalanced := by
  cases summary <;> exact balanced

theorem IsBalanced.averageTime?_eq_meanTime (balanced : metrics.IsBalanced)
    (few : metrics.attempted < 2 ^ 32) : metrics.averageTime? = some metrics.meanTime := by
  rw [balanced] at few
  exact averageTime?_eq_meanTime_iff.mpr (.inl (Nat.lt_of_le_of_lt (Nat.le_add_right _ _) few))

end Metrics

namespace Run

/-- The metrics behind the run are balanced if those before it are. -/
def KeepsBalance (run : Run α) : Prop :=
  ∀ config before, before.metrics.IsBalanced → (run.perform config before).2.metrics.IsBalanced

theorem keepsBalance_pure (result : α) : (pure result : Run α).KeepsBalance :=
  fun _ _ balanced => balanced

theorem keepsBalance_read : (read : Run Config).KeepsBalance :=
  fun _ _ balanced => balanced

theorem keepsBalance_ofExcept (result : Except ExtractionError α) : (ofExcept result).KeepsBalance := by
  intro config before balanced
  rw [perform_ofExcept]
  exact balanced

theorem keepsBalance_warn (text : String) : (warn text).KeepsBalance :=
  fun _ _ balanced => balanced

theorem KeepsBalance.bind {run : Run α} {next : α → Run β} (first : run.KeepsBalance)
    (later : ∀ result, (next result).KeepsBalance) : (run >>= next).KeepsBalance := by
  intro config before balanced
  have middle := first config before balanced
  rw [perform_bind]
  rcases performed : run.perform config before with ⟨error | result, after⟩
  · rwa [performed] at middle
  · rw [performed] at middle
    exact later result config after middle

theorem KeepsBalance.attempt {run : Run α} (keeps : run.KeepsBalance) : (attempt run).KeepsBalance := by
  intro config before balanced
  rw [perform_attempt]
  exact keeps config before balanced

theorem keepsBalance_extractUnit (unit : CompilationUnit) : (extractUnit unit).KeepsBalance := by
  intro config before balanced
  rw [perform_extractUnit]
  exact balanced.countUnit _

theorem keepsBalance_resolve (calls : List Call) : (resolve calls).KeepsBalance :=
  fun _ _ balanced => balanced.countResolution _

theorem keepsBalance_extractPart (project : ProjectReport) (unit : CompilationUnit) :
    (extractPart project unit).KeepsBalance := by
  refine (keepsBalance_extractUnit unit).attempt.bind fun result => ?_
  cases result with
  | ok report => exact keepsBalance_pure _
  | error error => exact (keepsBalance_warn _).bind fun _ => keepsBalance_pure _

theorem keepsBalance_extractParts (isCancelled : Nat → Bool) (total done : Nat) (project : ProjectReport)
    (units : List CompilationUnit) : (extractParts isCancelled total done project units).KeepsBalance := by
  induction units generalizing done project with
  | nil => exact keepsBalance_pure project
  | cons unit units ih =>
      rw [extractParts]
      split
      · exact keepsBalance_pure _
      · refine (keepsBalance_extractPart project unit).bind fun next => ?_
        -- A note on the visit leaves the metrics alone.
        have noted : (modify fun workspace => { workspace with
            visited := workspace.visited.push ⟨unit.path, done + 1, total⟩ } : Run Unit).KeepsBalance :=
          fun _ _ balanced => balanced
        exact noted.bind fun _ => ih (done + 1) next

theorem keepsBalance_resolveProject (project : ProjectReport) : (resolveProject project).KeepsBalance := by
  refine keepsBalance_read.bind fun config => ?_
  split
  · refine (keepsBalance_resolve _).bind fun (result, calls) => ?_
    cases result with
    | ok summary => exact keepsBalance_pure _
    | error error => exact fun _ _ balanced => balanced
  · exact keepsBalance_pure _

theorem keepsBalance_extractUnits (isCancelled : Nat → Bool) (units : List CompilationUnit) :
    (extractUnits isCancelled units).KeepsBalance :=
  .bind (keepsBalance_extractParts isCancelled _ 0 _ units) keepsBalance_resolveProject

theorem keepsBalance_lowerFile (reading : Reading) (path : String) :
    (lowerFile reading path).KeepsBalance := by
  intro config before balanced
  rw [perform_lowerFile]
  exact balanced

theorem keepsBalance_parseFile (directory : Directory) (path : String) :
    (parseFile directory path).KeepsBalance :=
  .bind (keepsBalance_lowerFile directory.read path) keepsBalance_extractUnit

theorem keepsBalance_parseSource (path text : String) (tree : Concrete) :
    (parseSource path text tree).KeepsBalance :=
  (keepsBalance_read.bind fun _ => keepsBalance_ofExcept _).bind keepsBalance_extractUnit

/-- A run over files counts each unit that it visits as succeeded or as failed, whatever the files are
and wherever it is called off. -/
theorem keepsBalance_parsePaths (isCancelled : Nat → Bool) (reading : Reading) (paths : List String) :
    (parsePaths isCancelled reading paths).KeepsBalance := by
  have reads : (lowerFiles reading paths).KeepsBalance := by
    intro config before balanced
    obtain ⟨warnings, performed⟩ := @perform_lowerFiles config reading paths before
    rw [performed]
    exact balanced
  exact reads.bind fun (units, failed) =>
    (keepsBalance_extractUnits isCancelled units).bind fun project => keepsBalance_pure _

/-- The average of a first run is the mean unless there are as many units as the width has values. -/
theorem averageTime?_of_first_run {calls : List Call} {config : Config} {before : Workspace}
    (reached : before.store.Reached calls) (fresh : before.metrics = .zero) (isCancelled : Nat → Bool)
    {units : List CompilationUnit} (few : units.length < 2 ^ 32) :
    let after := ((extractUnits isCancelled units).perform config before).2.metrics
    after.averageTime? = some after.meanTime := by
  obtain ⟨stop, project, after, performed, accounts⟩ :=
    @extractUnits_accounts config before calls reached isCancelled units
  have balanced := keepsBalance_extractUnits isCancelled units config before
    (fresh ▸ Metrics.isBalanced_zero)
  have attempted : after.metrics.attempted = stop := by
    rw [accounts.attempted, fresh]
    exact Nat.zero_add stop
  rw [performed] at balanced ⊢
  exact balanced.averageTime?_eq_meanTime (attempted ▸ Nat.lt_of_le_of_lt accounts.bounded few)

end Run

end JavaFacts
