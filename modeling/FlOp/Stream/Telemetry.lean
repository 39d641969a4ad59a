import FlOp.Library.Numerals
import FlOp.Stream.TaskWork
import Mathlib.Algebra.BigOperators.Group.List.Basic
import Mathlib.Data.Fintype.EquivFin

/-! # Readings of a gauge

A progress reading tells the completed share of the whole task, and is applied as a share of what
is left. After several readings the work has been scaled by each of them in turn.
-/

namespace FlOp.Stream

open FlOp.Core Library Mapping BindingTable

/-- An observation that reports a percentage of a task, without covered ground. -/
structure ProgressReading (registry : Registry) (sources : Sources) (taskId : String)
    (event : ExecutionEvent) (percent : ℚ) : Prop where
  recorded : event.eventType = .observationRecorded
  plain : hasCoveragePayload event.payload = false
  reads : ∃ valueField,
    telemetryReading registry sources event.payload = some (taskId, valueField) ∧
      registry.primitives.toFloat (event.payload.value valueField) = some percent

/-- The task keeps its row, and the row its work. -/
def SameWork (registry : Registry) (taskId : String) (before after : Sources) : Prop :=
  ∀ table row, taskRow registry before taskId = some (table, row) →
    ∃ row', taskRow registry after taskId = some (table, row') ∧ ∀ field ∈ workFields table,
      columnWork registry.primitives row' field = columnWork registry.primitives row field

/-- A run in which a task receives these readings, each as a fresh event, and whose other events
leave its work alone. -/
inductive Readings (registry : Registry) (taskId : String) (start : EventApplicator) :
    List ℚ → EventApplicator → Prop
  | start : Readings registry taskId start [] start
  | reading {ps : List ℚ} {s : EventApplicator} {published : List String} {event : ExecutionEvent}
      {p : ℚ} (earlier : Readings registry taskId start ps s)
      (fresh : ¬ Replayed s.seenEventIds published event)
      (reads : ProgressReading registry s.work.sources taskId event p) :
      Readings registry taskId start (ps ++ [p]) (s.apply registry published event).1
  | other {ps : List ℚ} {s : EventApplicator} {published : List String} {event : ExecutionEvent}
      (earlier : Readings registry taskId start ps s)
      (same : SameWork registry taskId s.work.sources
        (s.apply registry published event).1.work.sources) :
      Readings registry taskId start ps (s.apply registry published event).1

/-- Each work column of the task holds the share of its work that a reading leaves, up to the
rounding of as many steps. -/
def LeftByGauge (registry : Registry) (taskId : String) (percent : ℚ) (steps : ℕ)
    (before after : Sources) : Prop :=
  ∀ table row, taskRow registry before taskId = some (table, row) →
    ∃ row', taskRow registry after taskId = some (table, row') ∧ ∀ field ∈ workFields table,
      ∀ w, columnWork registry.primitives row field = some w →
        ∃ v, columnWork registry.primitives row' field = some v ∧
          |v - w * (1 - percent / 100)| ≤ steps / 200

/-- The share of the work that is left when each reading takes its part of the rest. -/
def scaledShare (ps : List ℚ) : ℚ := (ps.map fun p => 1 - max 0 p / 100).prod

section Step

variable {registry : Registry} {work : WorkState} {taskId : String} {event : ExecutionEvent} {p : ℚ}

/-- A reading below completion scales what is left. -/
theorem taskRow_of_reading (apart : registry.ColumnsApart) (below : p < 100)
    (reads : ProgressReading registry work.sources taskId event p) :
    taskRow registry (workAfter registry work event).sources taskId =
      (taskRow registry work.sources taskId).map fun found =>
        (found.1, scaledRow registry (max 0 p / 100) none found.1 found.2) := by
  obtain ⟨field, reading, percent⟩ := reads.reads
  have uncovered (work : WorkState) :
      passEntry registry work taskId event.payload = .ok none := by
    rw [passEntry, reads.plain]
    rfl
  have handled : workAfter registry work event = scaleTaskWork registry
      (recordedWork registry work event) taskId (max 0 p / 100) none := by
    have unfinished : ¬ workProgressCompletePct ≤ p := not_le.mpr below
    simp only [workAfter, handledWork, reads.recorded, telemetryReading_recordedWork, reading,
      uncovered, readingWork, percent, if_neg unfinished, Except.map]
    rfl
  rw [handled, taskRow_scaleTaskWork apart, taskRow_recordedWork]
  simp

end Step

section Runs

variable {registry : Registry} {taskId : String} {start s : EventApplicator} {ps : List ℚ}

@[simp] theorem scaledShare_append (ps : List ℚ) (p : ℚ) :
    scaledShare (ps ++ [p]) = scaledShare ps * (1 - max 0 p / 100) := by
  simp [scaledShare]

/-- One more step of scaling adds the error of its own rounding at most. -/
theorem abs_scaled_sub_le {v u error : ℚ} (share : ℚ) (close : |v - u| ≤ error) (nonneg : 0 ≤ share)
    (le_one : share ≤ 1) : |roundTo 2 (v * share) - u * share| ≤ error + 1 / 200 := by
  have rounding := abs_roundTo_sub_le 2 (v * share)
  have scaling : |v * share - u * share| ≤ error := by
    rw [← sub_mul, abs_mul, abs_of_nonneg nonneg]
    exact (mul_le_of_le_one_right (abs_nonneg _) le_one).trans close
  have both := abs_sub_le (roundTo 2 (v * share)) (v * share) (u * share)
  norm_num at rounding
  linarith

/-- After the readings of a run the work has been scaled by each of them. -/
theorem Readings.scaled (apart : registry.ColumnsApart)
    (run : Readings registry taskId start ps s) (below : ∀ p ∈ ps, p < 100)
    {table : BindingTable} {row : Row}
    (found : taskRow registry start.work.sources taskId = some (table, row)) :
    ∃ row', taskRow registry s.work.sources taskId = some (table, row') ∧
      ∀ field ∈ workFields table, ∀ w, columnWork registry.primitives row field = some w →
        ∃ v, columnWork registry.primitives row' field = some v ∧
          |v - w * scaledShare ps| ≤ ps.length / 200 := by
  induction run with
  | start => exact ⟨row, found, fun field _ w held => ⟨w, held, by simp [scaledShare]⟩⟩
  | @reading ps s published event p earlier fresh reads ih =>
    obtain ⟨before, located, held⟩ := ih fun p member => below p (List.mem_append_left _ member)
    have last : p < 100 := below p (by simp)
    obtain ⟨c, key, loaded, -, -⟩ := taskRow_eq_some located
    refine ⟨scaledRow registry (max 0 p / 100) none table before, ?_, fun field carries w old => ?_⟩
    · rw [work_apply, if_neg fresh, taskRow_of_reading apart last reads, located]
      rfl
    · obtain ⟨v, value, close⟩ := held field carries w old
      refine ⟨roundTo 2 (v * (1 - max 0 p / 100)), ?_, ?_⟩
      · rw [columnWork_scaledRow apart loaded.1 loaded.2.1 carries, value]
        rfl
      · have fits : max 0 p ≤ 100 := max_le (by norm_num) last.le
        have step := abs_scaled_sub_le (1 - max 0 p / 100) close (by linarith)
          (by linarith [le_max_left 0 p])
        rw [scaledShare_append, ← mul_assoc, List.length_append, List.length_singleton]
        push_cast
        linarith
  | @other ps s published event earlier same ih =>
    obtain ⟨before, located, held⟩ := ih below
    obtain ⟨after, still, kept⟩ := same table before located
    refine ⟨after, still, fun field carries w old => ?_⟩
    rw [kept field carries]
    exact held field carries w old

end Runs

section Shares

variable {ps : List ℚ}

theorem scaledShare_eq_one (none : ∀ p ∈ ps, p ≤ 0) : scaledShare ps = 1 := by
  refine List.prod_eq_one fun share member => ?_
  obtain ⟨p, listed, rfl⟩ := List.mem_map.mp member
  rw [max_eq_left (none p listed)]
  norm_num

/-- Readings below completion leave something, and no more than there was. -/
theorem scaledShare_mem (below : ∀ p ∈ ps, p < 100) : 0 < scaledShare ps ∧ scaledShare ps ≤ 1 := by
  induction ps with
  | nil => simp [scaledShare]
  | cons p rest ih =>
    obtain ⟨fits, others⟩ := List.forall_mem_cons.mp below
    obtain ⟨positive, le_one⟩ := ih others
    have share : 0 < 1 - max 0 p / 100 := by
      have := max_lt (by norm_num : (0 : ℚ) < 100) fits
      linarith
    have most : 1 - max 0 p / 100 ≤ 1 := by linarith [le_max_left 0 p]
    have cons : scaledShare (p :: rest) = (1 - max 0 p / 100) * scaledShare rest := by
      simp [scaledShare]
    rw [cons]
    exact ⟨mul_pos share positive, mul_le_one₀ most positive.le le_one⟩

/-- Any progress among the readings leaves less. -/
theorem scaledShare_lt_one (below : ∀ p ∈ ps, p < 100) {p : ℚ} (member : p ∈ ps)
    (progress : 0 < p) : scaledShare ps < 1 := by
  obtain ⟨before, after, rfl⟩ := List.append_of_mem member
  have first := scaledShare_mem fun q listed => below q (List.mem_append_left _ listed)
  have rest := scaledShare_mem fun q listed =>
    below q (List.mem_append_right _ (List.mem_cons_of_mem _ listed))
  have split : scaledShare (before ++ p :: after) =
      scaledShare before * ((1 - p / 100) * scaledShare after) := by
    simp [scaledShare, max_eq_right progress.le]
  have fits : 0 < 1 - p / 100 := by linarith [below p member]
  have share : (1 - p / 100) * scaledShare after < 1 := by
    refine (mul_le_of_le_one_right fits.le rest.2).trans_lt ?_
    linarith
  rw [split]
  exact (mul_le_of_le_one_left (mul_nonneg fits.le rest.1.le) first.2).trans_lt share

end Shares

/-- Orders with an area, and readings of their progress. -/
def gaugeRegistry : Registry where
  tables := (Dict.empty.set "orders" {
      canonicalEntity := "task"
      bindings := [
        { sourceField := "order_id", binding := "task.taskId", planningUse := ["identity"] },
        { sourceField := "area_ha", binding := "task.areaHa" }] }).set "readings" {
    canonicalEntity := "observation"
    bindings := [
      { sourceField := "metric", binding := "observation.metric" },
      { sourceField := "value", binding := "observation.value" },
      { sourceField := "order_id", binding := "observation.entityRef" }] }
  primitives := plainPrimitives

/-- One order of some area. -/
def gaugeSources (area : ℚ) : Sources :=
  (Dict.empty.set "orders" [(Dict.empty.set "order_id" (.text "o1")).set "area_ha"
    (.number area "")]).set "readings" []

/-- A reading of the order's progress. -/
def gaugeEvent (eventId : String) (percent : ℚ) : ExecutionEvent where
  eventId := eventId
  eventType := .observationRecorded
  payload := ((Dict.empty.set "order_id" (.text "o1")).set "metric" (.text "work-progress")).set
    "value" (.number percent "")

theorem progressReading_gaugeEvent {sources : Sources} {area : ℚ}
    (keys : ∀ c, c ∈ sources.keys ↔ c ∈ (gaugeSources area).keys) (eventId : String) (p : ℚ) :
    ProgressReading gaugeRegistry sources "o1" (gaugeEvent eventId p) p := by
  refine ⟨rfl, ?_, "value", ?_, ?_⟩
  · rfl
  · unfold telemetryReading
    rw [contractsFor_congr keys]
    rfl
  · rfl

def gaugeStart (area : ℚ) : EventApplicator where
  work := { sources := gaugeSources area }

/-- The order can receive any readings. -/
theorem exists_readings (area : ℚ) (ps : List ℚ) :
    ∃ s, Readings gaugeRegistry "o1" (gaugeStart area) ps s ∧
      ∀ c, c ∈ s.work.sources.keys ↔ c ∈ (gaugeSources area).keys := by
  induction ps using List.reverseRecOn with
  | nil => exact ⟨_, .start, fun c => Iff.rfl⟩
  | append_singleton ps p ih =>
    obtain ⟨s, run, keys⟩ := ih
    have unbounded : Infinite String := Infinite.of_injective _ (zeroPadded_injective 1)
    obtain ⟨id, unused⟩ := Infinite.exists_notMem_finset s.seenEventIds
    have fresh : ¬ Replayed s.seenEventIds [] (gaugeEvent id p) := fun replayed =>
      replayed.2.elim unused List.not_mem_nil
    refine ⟨_, .reading run fresh (progressReading_gaugeEvent keys id p), fun c => ?_⟩
    rw [work_apply, if_neg fresh, keys_workAfter, keys]

theorem taskRow_gaugeStart (area : ℚ) : ∃ table row, "area_ha" ∈ workFields table ∧
    taskRow gaugeRegistry (gaugeSources area) "o1" = some (table, row) ∧
      columnWork gaugeRegistry.primitives row "area_ha" = some area :=
  ⟨_, _, by decide, rfl, rfl⟩

/-- With no progress before the last reading, the work is what that reading leaves. -/
private theorem leftByGauge_of_nonpos {registry : Registry} {taskId : String}
    (apart : registry.ColumnsApart) {earlier : List ℚ} {last : ℚ} (below : last < 100)
    (none : ∀ p ∈ earlier, p ≤ 0) (nonneg : 0 ≤ last) {start s : EventApplicator}
    (run : Readings registry taskId start (earlier ++ [last]) s) :
    LeftByGauge registry taskId last (earlier.length + 1) start.work.sources s.work.sources := by
  intro table row found
  have fits : ∀ p ∈ earlier ++ [last], p < 100 := by
    intro p member
    rcases List.mem_append.mp member with before | here
    · exact (none p before).trans_lt (by norm_num)
    · rwa [List.mem_singleton.mp here]
  have share : scaledShare (earlier ++ [last]) = 1 - last / 100 := by
    rw [scaledShare_append, scaledShare_eq_one none, one_mul, max_eq_right nonneg]
  obtain ⟨row', located, held⟩ := run.scaled apart fits found
  refine ⟨row', located, fun field carries w old => ?_⟩
  simpa [share] using held field carries w old

/-- Work that the readings scale by another share than the last one leaves is off by more than
the rounding, if there is enough of it. -/
private theorem share_of_leftByGauge {earlier : List ℚ} {last : ℚ}
    (below : ∀ p ∈ earlier ++ [last], p < 100)
    (left : ∀ area s, Readings gaugeRegistry "o1" (gaugeStart area) (earlier ++ [last]) s →
      LeftByGauge gaugeRegistry "o1" last (earlier.length + 1) (gaugeSources area)
        s.work.sources) : scaledShare (earlier ++ [last]) = 1 - last / 100 := by
  by_contra differs
  have gap : 0 < |scaledShare (earlier ++ [last]) - (1 - last / 100)| :=
    abs_pos.mpr (sub_ne_zero.mpr differs)
  obtain ⟨n, count⟩ : ∃ n : ℚ, n = ((earlier.length + 1 : ℕ) : ℚ) := ⟨_, rfl⟩
  obtain ⟨area, enough⟩ : ∃ area : ℚ, area =
    (n / 100 + 1) / |scaledShare (earlier ++ [last]) - (1 - last / 100)| := ⟨_, rfl⟩
  obtain ⟨s, run, -⟩ := exists_readings area (earlier ++ [last])
  obtain ⟨table, row, carries, found, held⟩ := taskRow_gaugeStart area
  obtain ⟨row', located, scaled⟩ := run.scaled (by decide +kernel) below found
  obtain ⟨row'', same, gauged⟩ := left area s run table row found
  obtain ⟨-, rfl⟩ := Prod.mk.inj (Option.some.inj (located.symm.trans same))
  obtain ⟨v, value, near⟩ := scaled _ carries area held
  obtain ⟨v', value', close⟩ := gauged _ carries area held
  obtain rfl := Option.some.inj (value.symm.trans value')
  have positive : 0 ≤ area := by
    rw [enough]
    have : 0 ≤ n := by rw [count]; exact Nat.cast_nonneg _
    positivity
  have apart : |area * scaledShare (earlier ++ [last]) - area * (1 - last / 100)| =
      n / 100 + 1 := by
    rw [← mul_sub, abs_mul, abs_of_nonneg positive, enough, div_mul_cancel₀ _ gap.ne']
  have both := abs_sub_le (area * scaledShare (earlier ++ [last])) v (area * (1 - last / 100))
  rw [abs_sub_comm] at near
  rw [List.length_append, List.length_singleton, ← count] at near
  rw [← count] at close
  linarith

/-- For readings that do not fall and stay below completion: the work that is left is what the
last reading tells, on every task, if and only if the readings before the last one told of no
progress and the last one is no less than zero. -/
theorem leftByGauge_iff (earlier : List ℚ) (last : ℚ)
    (sorted : (earlier ++ [last]).Pairwise (· ≤ ·)) (below : last < 100) :
    (∀ registry taskId start s, registry.ColumnsApart →
      Readings registry taskId start (earlier ++ [last]) s →
        LeftByGauge registry taskId last (earlier.length + 1) start.work.sources
          s.work.sources) ↔
      (∀ p ∈ earlier, p ≤ 0) ∧ 0 ≤ last := by
  have ordered : ∀ p ∈ earlier, p ≤ last := fun p member =>
    (List.pairwise_append.mp sorted).2.2 p member last (List.mem_singleton_self _)
  have fits : ∀ p ∈ earlier ++ [last], p < 100 := by
    intro p member
    rcases List.mem_append.mp member with before | here
    · exact (ordered p before).trans_lt below
    · rwa [List.mem_singleton.mp here]
  constructor
  · intro left
    have share := share_of_leftByGauge fits fun area s =>
      left gaugeRegistry "o1" (gaugeStart area) s (by decide +kernel)
    rw [scaledShare_append] at share
    have nonneg : 0 ≤ last := by
      by_contra negative
      rw [not_le] at negative
      rw [scaledShare_eq_one fun p member => (ordered p member).trans negative.le,
        max_eq_left negative.le] at share
      linarith
    refine ⟨fun p member => ?_, nonneg⟩
    by_contra progress
    rw [not_le] at progress
    have less := scaledShare_lt_one (fun q listed => fits q (List.mem_append_left _ listed)) member
      progress
    have some_left : 0 < 1 - last / 100 := by linarith
    rw [max_eq_right nonneg] at share
    have product := mul_lt_of_lt_one_left some_left less
    linarith
  · rintro ⟨none, nonneg⟩ registry taskId start s apart run
    exact leftByGauge_of_nonpos apart below none nonneg run

/-- The order after two readings. -/
def gaugedTwice (area first second : ℚ) : EventApplicator :=
  (((gaugeStart area).apply gaugeRegistry [] (gaugeEvent "r1" first)).1.apply gaugeRegistry []
    (gaugeEvent "r2" second)).1

theorem readings_gaugedTwice (area first second : ℚ) :
    Readings gaugeRegistry "o1" (gaugeStart area) [first, second]
      (gaugedTwice area first second) := by
  have once : ¬ Replayed (gaugeStart area).seenEventIds [] (gaugeEvent "r1" first) := by
    rintro ⟨-, seen | published⟩
    · exact Finset.notMem_empty _ seen
    · cases published
  have twice : ¬ Replayed ((gaugeStart area).apply gaugeRegistry []
      (gaugeEvent "r1" first)).1.seenEventIds [] (gaugeEvent "r2" second) := by
    rintro ⟨-, seen | published⟩
    · rcases EventApplicator.mem_seen_apply.mp seen with known | ⟨-, same⟩
      · exact Finset.notMem_empty _ known
      · have clash : "r2" = "r1" := same
        exact absurd clash (by decide)
    · cases published
  have keys (c : String) : c ∈ ((gaugeStart area).apply gaugeRegistry []
      (gaugeEvent "r1" first)).1.work.sources.keys ↔ c ∈ (gaugeSources area).keys := by
    rw [work_apply, if_neg once, keys_workAfter]
    rfl
  have one : Readings gaugeRegistry "o1" (gaugeStart area) ([] ++ [first]) _ :=
    .reading .start once (progressReading_gaugeEvent (fun c => Iff.rfl) "r1" first)
  exact .reading one twice (progressReading_gaugeEvent keys "r2" second)

theorem leftByGauge_iff_half :
    LeftByGauge gaugeRegistry "o1" 50 2 (gaugeSources 10) (gaugedTwice 10 0 50).work.sources := by
  have left := (leftByGauge_iff [0] 50 (by decide +kernel) (by norm_num)).mpr
    ⟨by simp, by norm_num⟩
  exact left gaugeRegistry "o1" (gaugeStart 10) _ (by decide +kernel) (readings_gaugedTwice 10 0 50)

/-- Half of the task, told twice, leaves a quarter of it. -/
theorem half_told_twice :
    Readings gaugeRegistry "o1" (gaugeStart 10) [50, 50] (gaugedTwice 10 50 50) ∧
    ¬ LeftByGauge gaugeRegistry "o1" 50 2 (gaugeSources 10)
      (gaugedTwice 10 50 50).work.sources := by
  have run := readings_gaugedTwice 10 50 50
  refine ⟨run, fun left => ?_⟩
  obtain ⟨table, row, carries, found, held⟩ := taskRow_gaugeStart 10
  obtain ⟨row', located, scaled⟩ := run.scaled (by decide +kernel) (by norm_num) found
  obtain ⟨row'', same, gauged⟩ := left table row found
  obtain ⟨-, rfl⟩ := Prod.mk.inj (Option.some.inj (located.symm.trans same))
  obtain ⟨v, value, quarter⟩ := scaled _ carries 10 held
  obtain ⟨v', value', half⟩ := gauged _ carries 10 held
  obtain rfl := Option.some.inj (value.symm.trans value')
  norm_num [scaledShare, abs_le] at quarter half
  linarith

end FlOp.Stream
