import FlOp.Core.Constants
import FlOp.Core.Numbers
import FlOp.Library.LeastSquares
import FlOp.Library.Ordering
import FlOp.Solver.Clusters

/-! # Memory feedback and pool sizing

Every finished cluster pool adds what its workers measured to a feedback file: the largest memory
seen, and the sums that a line from routing cells to memory is fitted from. The next pool is sized
by it. A file that cannot be read counts as none, and a run whose file cannot be written adds
nothing.
-/

namespace FlOp.Solver

open FlOp.Core Library

/-- Constants of the feedback and of pool sizing. A worker has a footprint of its own. -/
structure PoolSettings where
  feedbackEnabled : Bool := true
  fitMinSamples : ℤ := 5
  workers : ℤ := 0
  workerBaseMemoryMb : ℚ := 300
  workerBaseMemoryMb_pos : 0 < workerBaseMemoryMb := by norm_num
  modelBytesPerCell : ℚ := 64
  modelBytesPerCell_nonneg : 0 ≤ modelBytesPerCell := by norm_num
  memoryHeadroomPct : ℚ := 20

/-- What the record of one cluster solve says about memory; absent or unreadable numbers are
`none`. -/
structure SolveRecord where
  workerMaxRssMb : Option ℚ := none
  nTasks : Option ℚ := none
  nRoutingVehicles : Option ℚ := none

/-- `_model_cells`. -/
def modelCells (record : SolveRecord) : Option ℚ :=
  record.nTasks.map fun nTasks =>
    let nVehicles := record.nRoutingVehicles.getD 0
    let nodes := nTasks + 1
    nodes * nodes * (max 1 (if nVehicles = 0 then 1 else nVehicles) + 1)

/-- The cells and the memory of a record that has both, above zero. -/
def memorySample (record : SolveRecord) : Option (ℚ × ℚ) :=
  record.workerMaxRssMb.bind fun rss => (modelCells record).bind fun cells =>
    if rss ≤ 0 ∨ cells ≤ 0 then none else some (cells, rss)

/-- `_accumulate_memory_fit`. -/
def accumulateMemoryFit (previousFit : FitSums ℚ) (records : List SolveRecord) : FitSums ℚ :=
  records.foldl (fun fit record => (memorySample record).elim fit fit.add) previousFit

/-- The feedback file, but for its version and time of writing. -/
structure MemoryFeedback where
  nRecords : ℕ := 0
  maxWorkerRssMb : ℚ := 0
  lastRunMaxWorkerRssMb : ℚ := 0
  lastRunMeanWorkerRssMb : ℚ := 0
  fit : FitSums ℚ := .zero

/-- The memory that some records report. -/
def rssValues (records : List SolveRecord) : List ℚ :=
  (records.filterMap SolveRecord.workerMaxRssMb).filter fun value => 0 < value

/-- `_record_worker_memory`, given the file's content. -/
def recordWorkerMemory (previous : Option MemoryFeedback) (records : List SolveRecord) :
    Option MemoryFeedback :=
  let values := rssValues records
  if values = [] then previous
  else
    let before := previous.getD {}
    some {
      nRecords := before.nRecords + values.length
      maxWorkerRssMb := roundTo 2 (max before.maxWorkerRssMb (values.max?.getD 0))
      lastRunMaxWorkerRssMb := roundTo 2 (values.max?.getD 0)
      lastRunMeanWorkerRssMb := roundTo 2 (values.sum / values.length)
      fit := accumulateMemoryFit before.fit records }

/-- What happens to the feedback file: a pool finishes, and the file can be written or not; or the
file is lost or spoiled. -/
inductive FeedbackEvent
  | finished (records : List SolveRecord) (written : Bool)
  | lost

namespace PoolSettings

variable (settings : PoolSettings)

/-- `record_solver_feedback`. -/
def recordSolverFeedback (feedback : Option MemoryFeedback) :
    FeedbackEvent → Option MemoryFeedback
  | .finished records written =>
    if settings.feedbackEnabled = false ∨ records = [] ∨ written = false then feedback
    else recordWorkerMemory feedback records
  | .lost => none

/-- The feedback file after some events, from none. -/
def afterEvents (events : List FeedbackEvent) : Option MemoryFeedback :=
  events.foldl settings.recordSolverFeedback none

/-- `calibrated_memory_model`: base and slope of the fit, neither below zero. -/
def calibratedMemoryModel (feedback : Option MemoryFeedback) : Option (ℚ × ℚ) :=
  if settings.feedbackEnabled = false then none
  else
    let fit := (feedback.getD {}).fit
    if fit.n < settings.fitMinSamples ∨ fit.spread ≤ 0 then none
    else some (max 0 fit.intercept, max 0 fit.slope)

/-- `calibrated_worker_memory_mb`. -/
def calibratedWorkerMemoryMb (feedback : Option MemoryFeedback) (estimatedMb : ℚ) : ℚ :=
  if settings.feedbackEnabled = false then estimatedMb
  else feedback.elim estimatedMb fun observed => max estimatedMb observed.maxWorkerRssMb

/-- The cells of a routing model that would hold the largest clusters. -/
def largestCells (clusters : List ClusterSpec) : ℕ :=
  let (maxNodes, maxVehicles) := clusters.foldl (fun most cluster =>
    (max most.1 (cluster.taskIds.length + 1),
      max most.2 (if cluster.allocatedPrimeRelated.entries.length = 0 then 1
        else cluster.allocatedPrimeRelated.entries.length))) (1, 1)
  maxNodes * maxNodes * (maxVehicles + 1)

/-- `_estimate_worker_memory_mb`. -/
def estimateWorkerMemoryMb (feedback : Option MemoryFeedback) (clusters : List ClusterSpec) : ℚ :=
  let cells : ℚ := largestCells clusters
  settings.calibratedWorkerMemoryMb feedback
    (match settings.calibratedMemoryModel feedback with
    | some (baseMb, mbPerCell) => baseMb + mbPerCell * cells
    | none => settings.workerBaseMemoryMb + cells * settings.modelBytesPerCell / (1024 * 1024))

end PoolSettings

/-- How the worker count was derived. -/
structure PoolSizing where
  nWorkers : ℤ
  cpuCap : ℤ
  memoryCap : Option ℤ
  availableMemoryMb : Option ℚ
  estimatedWorkerMemoryMb : ℚ
  explicitOverride : Bool
deriving DecidableEq

/-- The memory that workers may use, of what is available. -/
def PoolSettings.usableMb (settings : PoolSettings) (availableMb : ℚ) : ℚ :=
  availableMb * (1 - settings.memoryHeadroomPct / 100)

/-- `compute_pool_sizing`, given the processor count and the memory that is available, if these can
be found out. -/
def PoolSettings.computePoolSizing (settings : PoolSettings) (feedback : Option MemoryFeedback)
    (cpuCount : Option ℕ) (availableMb : Option ℚ) (clusters : List ClusterSpec) : PoolSizing :=
  let cpuCap : ℤ := if cpuCount.getD 0 = 0 then 1 else cpuCount.getD 0
  let estimatedMb := settings.estimateWorkerMemoryMb feedback clusters
  if 0 < settings.workers then
    { nWorkers := max 1 (min clusters.length settings.workers)
      cpuCap := cpuCap
      memoryCap := none
      availableMemoryMb := none
      estimatedWorkerMemoryMb := estimatedMb
      explicitOverride := true }
  else
    let memoryCap := availableMb.map fun available =>
      max 1 (Instant.truncated (settings.usableMb available / estimatedMb))
    { nWorkers := max 1 (min clusters.length (min cpuCap (memoryCap.getD cpuCap)))
      cpuCap := cpuCap
      memoryCap := memoryCap
      availableMemoryMb := availableMb
      estimatedWorkerMemoryMb := estimatedMb
      explicitOverride := false }

/-! ## What the feedback amounts to -/

/-- The records of the runs that reached the file since it was last lost. -/
def observedRecords : List FeedbackEvent → List SolveRecord :=
  List.foldl (fun observed event =>
    match event with
    | .finished records written => if written then observed ++ records else observed
    | .lost => []) []

section Feedback

variable {records : List SolveRecord} {previous : Option MemoryFeedback}

theorem of_memorySample {record : SolveRecord} {sample : ℚ × ℚ}
    (sampled : memorySample record = some sample) :
    record.workerMaxRssMb = some sample.2 ∧ 0 < sample.1 ∧ 0 < sample.2 := by
  obtain ⟨rss, measured, sampled⟩ := Option.bind_eq_some_iff.mp sampled
  obtain ⟨cells, -, sampled⟩ := Option.bind_eq_some_iff.mp sampled
  obtain ⟨high, made⟩ := Option.ite_none_left_eq_some.mp sampled
  obtain rfl := Option.some_inj.mp made
  obtain ⟨value, place⟩ := not_or.mp high
  exact ⟨measured, not_le.mp place, not_le.mp value⟩

theorem mem_rssValues {rss : ℚ} :
    rss ∈ rssValues records ↔ 0 < rss ∧ ∃ record ∈ records, record.workerMaxRssMb = some rss := by
  rw [rssValues, List.mem_filter, List.mem_filterMap, decide_eq_true_iff, and_comm]

theorem accumulateMemoryFit_eq (fit : FitSums ℚ) :
    accumulateMemoryFit fit records = (records.filterMap memorySample).foldl FitSums.add fit := by
  induction records generalizing fit with
  | nil => rfl
  | cons record rest ih =>
    rw [accumulateMemoryFit, List.foldl_cons, ← accumulateMemoryFit, ih, List.filterMap_cons]
    cases memorySample record <;> rfl

/-- A run that reports no memory has no sample either. -/
theorem filterMap_memorySample_of_rssValues (none : rssValues records = []) :
    records.filterMap memorySample = [] := by
  refine List.filterMap_eq_nil_iff.mpr fun record listed => ?_
  by_contra sampled
  obtain ⟨sample, found⟩ := Option.ne_none_iff_exists'.mp sampled
  obtain ⟨measured, -, value⟩ := of_memorySample found
  have reported := mem_rssValues.mpr ⟨value, record, listed, measured⟩
  exact absurd (none ▸ reported) List.not_mem_nil

/-- The file holds the sums over the samples of some records, and no less than any of them
measured. -/
structure Reflects (feedback : Option MemoryFeedback) (observed : List SolveRecord) : Prop where
  fit : (feedback.getD {}).fit = FitSums.of (observed.filterMap memorySample)
  largest : ∀ rss ∈ rssValues observed, ∃ known ∈ feedback, roundTo 2 rss ≤ known.maxWorkerRssMb

theorem Reflects.recordWorkerMemory {observed : List SolveRecord}
    (reflects : Reflects previous observed) :
    Reflects (recordWorkerMemory previous records) (observed ++ records) := by
  unfold FlOp.Solver.recordWorkerMemory
  have values : rssValues (observed ++ records) = rssValues observed ++ rssValues records := by
    rw [rssValues, List.filterMap_append, List.filter_append, rssValues, rssValues]
  dsimp only
  split
  · next none =>
    refine ⟨?_, ?_⟩
    · rw [reflects.fit, List.filterMap_append, filterMap_memorySample_of_rssValues none,
        List.append_nil]
    · rw [values, none, List.append_nil]
      exact reflects.largest
  · refine ⟨?_, fun rss listed => ⟨_, rfl, ?_⟩⟩
    · rw [Option.getD_some, accumulateMemoryFit_eq, reflects.fit, List.filterMap_append,
        FitSums.of_append]
    · rw [values] at listed
      rcases List.mem_append.mp listed with before | now
      · obtain ⟨known, ⟨⟩, covered⟩ := reflects.largest rss before
        rw [← roundTo_roundTo]
        exact roundTo_mono 2 (covered.trans (le_max_left _ _))
      · exact roundTo_mono 2 (le_max_of_le_right (le_max?_getD 0 now))

end Feedback

namespace PoolSettings

variable {settings : PoolSettings} {events : List FeedbackEvent}

theorem observedRecords_concat (event : FeedbackEvent) :
    observedRecords (events ++ [event]) = match event with
      | .finished records written =>
        if written then observedRecords events ++ records else observedRecords events
      | .lost => [] := by
  rw [observedRecords, List.foldl_append]
  rfl

theorem reflects_afterEvents (enabled : settings.feedbackEnabled = true) :
    Reflects (settings.afterEvents events) (observedRecords events) := by
  induction events using List.reverseRecOn with
  | nil => exact ⟨rfl, by simp [observedRecords, rssValues]⟩
  | append_singleton events event ih =>
    rw [afterEvents, List.foldl_append, List.foldl_cons, List.foldl_nil, ← afterEvents,
      observedRecords_concat]
    cases event with
    | lost => exact ⟨rfl, by simp [rssValues]⟩
    | finished records written =>
      unfold recordSolverFeedback
      cases written with
      | false => simpa using ih
      | true =>
        by_cases none : records = []
        · simpa [none] using ih
        · simpa [none, enabled] using ih.recordWorkerMemory

/-- The samples recorded since the file was last lost. -/
def memorySamples (events : List FeedbackEvent) : List (ℚ × ℚ) :=
  (observedRecords events).filterMap memorySample

theorem memorySamples_pos : ∀ sample ∈ memorySamples events, 0 ≤ sample.1 ∧ 0 < sample.2 := by
  intro sample listed
  obtain ⟨record, -, sampled⟩ := List.mem_filterMap.mp listed
  obtain ⟨-, place, value⟩ := of_memorySample sampled
  exact ⟨place.le, value⟩

theorem calibratedMemoryModel_eq_some_iff {model : ℚ × ℚ} :
    settings.calibratedMemoryModel (settings.afterEvents events) = some model ↔
      settings.feedbackEnabled = true ∧ settings.fitMinSamples ≤ (memorySamples events).length ∧
      0 < (FitSums.of (memorySamples events)).spread ∧
      model = (max 0 (FitSums.of (memorySamples events)).intercept,
        max 0 (FitSums.of (memorySamples events)).slope) := by
  cases enabled : settings.feedbackEnabled with
  | false => simp [calibratedMemoryModel, enabled]
  | true =>
    have reflects : Reflects (settings.afterEvents events) (observedRecords events) :=
      reflects_afterEvents enabled
    have fit : _ = FitSums.of (memorySamples events) := reflects.fit
    rw [calibratedMemoryModel, if_neg (by rw [enabled]; exact Bool.noConfusion)]
    dsimp only
    rw [fit, FitSums.n_of, Option.ite_none_left_eq_some, not_or, not_lt, not_le, Option.some_inj,
      eq_comm (b := model), and_assoc]
    simp only [true_and]
    exact and_congr_left' (by norm_cast)

/-- A line has the least squared error on some samples. -/
def IsLeastSquares (samples : List (ℚ × ℚ)) (line : ℚ × ℚ) : Prop :=
  ∀ p q, squaredError samples line.1 line.2 ≤ squaredError samples p q

/-- There is a memory model exactly if enough samples were recorded since the file was last lost and
two of them differ in size; it is the only line with the least squared error on all of them, with
base and slope not below zero. -/
theorem calibratedMemoryModel_afterEvents (settings : PoolSettings) (events : List FeedbackEvent)
    (model : ℚ × ℚ) :
    settings.calibratedMemoryModel (settings.afterEvents events) = some model ↔
      settings.feedbackEnabled = true ∧ settings.fitMinSamples ≤ (memorySamples events).length ∧
      (∃ a ∈ memorySamples events, ∃ b ∈ memorySamples events, a.1 ≠ b.1) ∧
      ∃ line, (∀ other, IsLeastSquares (memorySamples events) other ↔ other = line) ∧
        model = (max 0 line.1, max 0 line.2) := by
  rw [calibratedMemoryModel_eq_some_iff, FitSums.spread_pos_iff]
  refine and_congr_right fun _ => and_congr_right fun _ => and_congr_right fun differ => ?_
  have only : ∀ other, IsLeastSquares (memorySamples events) other ↔ other =
      ((FitSums.of (memorySamples events)).intercept,
        (FitSums.of (memorySamples events)).slope) := by
    rintro ⟨a, b⟩
    rw [IsLeastSquares, squaredError_le_iff (FitSums.spread_pos_iff.mpr differ), Prod.mk.injEq]
  constructor
  · rintro rfl
    exact ⟨_, only, rfl⟩
  · rintro ⟨line, least, rfl⟩
    rw [(only line).mp ((least line).mpr rfl)]

/-! ## How the pool is sized by it -/

theorem largestCells_pos (clusters : List ClusterSpec) : 0 < largestCells clusters := by
  have nodes : ∀ most : ℕ × ℕ, 0 < most.1 → 0 < (clusters.foldl (fun most cluster =>
      (max most.1 (cluster.taskIds.length + 1),
        max most.2 (if cluster.allocatedPrimeRelated.entries.length = 0 then 1
          else cluster.allocatedPrimeRelated.entries.length))) most).1 := by
    induction clusters with
    | nil => exact fun most positive => positive
    | cons cluster rest ih => exact fun most positive => ih _ (lt_max_of_lt_left positive)
  have positive := nodes (1, 1) one_pos
  exact Nat.mul_pos (Nat.mul_pos positive positive) (Nat.succ_pos _)

theorem le_calibratedWorkerMemoryMb (feedback : Option MemoryFeedback) (estimatedMb : ℚ) :
    estimatedMb ≤ settings.calibratedWorkerMemoryMb feedback estimatedMb := by
  unfold calibratedWorkerMemoryMb
  split
  · exact le_rfl
  · cases feedback with
    | none => exact le_rfl
    | some observed => exact le_max_left _ _

/-- Some memory is estimated for a worker: the fitted line passes above zero. -/
theorem estimateWorkerMemoryMb_pos (clusters : List ClusterSpec) :
    0 < settings.estimateWorkerMemoryMb (settings.afterEvents events) clusters := by
  have cells : (0 : ℚ) < largestCells clusters := by exact_mod_cast largestCells_pos clusters
  refine lt_of_lt_of_le ?_ (le_calibratedWorkerMemoryMb _ _)
  cases modelled : settings.calibratedMemoryModel (settings.afterEvents events) with
  | none =>
    have base := settings.workerBaseMemoryMb_pos
    have more := mul_nonneg cells.le settings.modelBytesPerCell_nonneg
    dsimp only
    positivity
  | some model =>
    obtain ⟨-, -, spreads, rfl⟩ := calibratedMemoryModel_eq_some_iff.mp modelled
    have some := FitSums.ne_nil_of_spread_pos spreads
    rcases FitSums.fit_pos some memorySamples_pos with base | slope
    · exact add_pos_of_pos_of_nonneg (lt_max_of_lt_right base)
        (mul_nonneg (le_max_left _ _) cells.le)
    · exact add_pos_of_nonneg_of_pos (le_max_left _ _)
        (mul_pos (lt_max_of_lt_right slope) cells)

/-- The estimate is no less than what any worker was measured at, to the hundredth. -/
theorem roundTo_le_estimateWorkerMemoryMb (enabled : settings.feedbackEnabled = true)
    (clusters : List ClusterSpec) {rss : ℚ} (measured : rss ∈ rssValues (observedRecords events)) :
    roundTo 2 rss ≤ settings.estimateWorkerMemoryMb (settings.afterEvents events) clusters := by
  obtain ⟨known, stored, covered⟩ := (reflects_afterEvents enabled).largest rss measured
  rw [estimateWorkerMemoryMb, calibratedWorkerMemoryMb,
    if_neg (by rw [enabled]; exact Bool.noConfusion), Option.mem_def.mp stored]
  exact le_max_of_le_right covered

/-- As many workers as the quotient says fit into the memory. -/
theorem mul_le_of_le_truncated {usable estimated : ℚ} (positive : 0 < estimated) {workers : ℤ}
    (some : 0 < workers) (few : workers ≤ Instant.truncated (usable / estimated)) :
    workers * estimated ≤ usable := by
  rw [← le_div_iff₀ positive]
  unfold Instant.truncated at few
  split at few
  · exact Int.le_floor.mp few
  · next negative =>
    have low : (usable / estimated).ceil ≤ 0 := Rat.ceil_le_iff.mpr (not_le.mp negative).le
    omega

end PoolSettings

end FlOp.Solver
