import FlOp.Core.Constants
import FlOp.Library.Dict
import FlOp.Library.Ordering
import FlOp.Library.RecordLog
import Mathlib.Data.List.ReduceOption
import Mathlib.Data.String.Basic

/-! # The error-rate trend across builds

Every dataset build appends its per-source error rates to a file of records, and the file is cut
back to its newest records once it grows too long. An append can be cut short: the next record then
lands on the same line, and the line is skipped on reading. A source whose rate rose over the last
runs is reported as degrading.
-/

namespace FlOp.Snapshot

open Core Library

/-- `ERROR_RATE_TREND_MIN_RUNS` and `QUALITY_TREND_MAX_RECORDS`. -/
structure TrendSettings where
  minRuns : ℕ := 3
  maxRecords : ℕ := 500

structure TrendRecord where
  generatedAt : Instant
  snapshotId : String
  rates : Dict String ℚ

/-- The lines of the trend file, `none` for a malformed one, and what stands after the last line
break: all of a record but its line break, or a text that does not parse. -/
structure TrendFile where
  lines : List (Option TrendRecord) := []
  tail : Option (Option TrendRecord) := none

/-- How far a build gets in recording its rates. -/
inductive Recorded
  /-- The file cannot be written. -/
  | unwritable
  /-- The record is written up to somewhere before its end. -/
  | torn
  /-- The record is written without its line break. -/
  | unbroken
  /-- The record is written, and the file is not cut back. -/
  | uncompacted
  | completed

def Recorded.withoutCompaction : Recorded → Recorded
  | .completed => .uncompacted
  | recorded => recorded

namespace TrendFile

/-- `_load_records`. -/
def loadRecords (file : TrendFile) : List TrendRecord :=
  (file.lines ++ file.tail.toList).reduceOption

/-- The line a record ends on: a text left there before spoils it. -/
def completing (file : TrendFile) (record : TrendRecord) : Option TrendRecord :=
  match file.tail with
  | none => some record
  | some _ => none

def append (file : TrendFile) (record : TrendRecord) : TrendFile :=
  { lines := file.lines ++ [file.completing record] }

/-- `_compact`: rewrite the file with its newest records. -/
def compact (limit : ℕ) (file : TrendFile) : TrendFile :=
  if file.loadRecords.length ≤ limit then file
  else { lines := (newest limit file.loadRecords).map some }

/-- `record_error_rates`: a build without rates records nothing. -/
def recordErrorRates (limit : ℕ) (file : TrendFile) (build : TrendRecord × Recorded) : TrendFile :=
  if build.1.rates.entries.isEmpty then file
  else match build.2 with
    | .unwritable => file
    | .torn => { file with tail := some none }
    | .unbroken => { file with tail := some (file.completing build.1) }
    | .uncompacted => file.append build.1
    | .completed => (file.append build.1).compact limit

/-- The file after the builds, from none. -/
def afterBuilds (limit : ℕ) (builds : List (TrendRecord × Recorded)) : TrendFile :=
  builds.foldl (recordErrorRates limit) {}

end TrendFile

/-- The rates of a source over the runs, if every run has one. -/
def ratesOver (window : List TrendRecord) (contract : String) : Option (List ℚ) :=
  window.mapM fun record => record.rates.get? contract

/-- The rates rise from run to run and end above zero. -/
def Increasing (rates : List ℚ) : Prop :=
  (∀ step ∈ rates.zip rates.tail, step.1 < step.2) ∧ 0 < rates.getLastD 0

instance decidableIncreasing (rates : List ℚ) : Decidable (Increasing rates) :=
  inferInstanceAs (Decidable (_ ∧ _))

/-- The sources that degrade over a window of runs, in the order of their names. -/
def degradingOver (window : List TrendRecord) : Dict String (List ℚ) :=
  let contracts := sortBy id (window.flatMap fun record => record.rates.keys).dedup
  contracts.foldl (fun degrading contract =>
    ((ratesOver window contract).filter fun rates => Increasing rates).elim degrading
      (degrading.set contract)) Dict.empty

/-- `degrading_sources`. -/
def TrendFile.degradingSources (file : TrendFile) (minRuns : ℕ) : Dict String (List ℚ) :=
  if file.loadRecords.length < minRuns then Dict.empty
  else degradingOver (newest minRuns file.loadRecords)

theorem mem_keys_of_ratesOver {window : List TrendRecord} {contract : String} {rates : List ℚ}
    (every : ratesOver window contract = some rates) (some : rates ≠ []) :
    ∃ record ∈ window, contract ∈ record.rates.keys := by
  cases window with
  | nil =>
    obtain rfl : [] = rates := by simpa [ratesOver] using every
    exact absurd rfl some
  | cons record rest =>
    refine ⟨record, List.mem_cons_self, (Dict.mem_keys_iff _ _).mpr ?_⟩
    cases rate : record.rates.get? contract with
    | none => simp [ratesOver, rate] at every
    | some _ => rfl

theorem length_of_ratesOver {window : List TrendRecord} {contract : String} {rates : List ℚ}
    (every : ratesOver window contract = some rates) : rates.length = window.length := by
  induction window generalizing rates with
  | nil =>
    obtain rfl : [] = rates := by simpa [ratesOver] using every
    rfl
  | cons record rest ih =>
    rw [ratesOver, List.mapM_cons] at every
    simp only [Option.bind_eq_bind, Option.bind_eq_some_iff] at every
    obtain ⟨rate, -, others, listed, made⟩ := every
    obtain rfl : rate :: others = rates := Option.some_inj.mp made
    rw [List.length_cons, List.length_cons, ih listed]

/-- A source degrades over a window exactly if every run has a rate for it and these rise to a
positive one. -/
theorem get?_degradingOver {window : List TrendRecord} {contract : String} {rates : List ℚ} :
    (degradingOver window).get? contract = some rates ↔
      ratesOver window contract = some rates ∧ Increasing rates := by
  have found := Dict.get?_foldl_choose
    (fun contract => (ratesOver window contract).filter fun rates => Increasing rates)
    (sortBy id (window.flatMap fun record => record.rates.keys).dedup) Dict.empty contract
  rw [degradingOver, found]
  split
  · rw [Dict.get?_empty, Option.or_none, Option.filter_eq_some_iff, decide_eq_true_iff]
  · next absent =>
    rw [Dict.get?_empty]
    refine ⟨fun found => (Option.some_ne_none _ found.symm).elim, ?_⟩
    rintro ⟨every, -, positive⟩
    refine absurd ?_ absent
    have filled : rates ≠ [] := by
      rintro rfl
      exact absurd positive (lt_irrefl 0)
    obtain ⟨record, listed, key⟩ := mem_keys_of_ratesOver every filled
    rw [mem_sortBy, List.mem_dedup, List.mem_flatMap]
    exact ⟨record, listed, key⟩

/-- Cut back or not, the file reads as the newest records of the one never cut back, and the next
record lands on the same text. -/
structure TrendFile.Compacts (limit : ℕ) (file whole : TrendFile) : Prop where
  records : Retains limit file.lines.reduceOption whole.lines.reduceOption
  tail : file.tail = whole.tail

namespace TrendFile.Compacts

variable {limit : ℕ} {file whole : TrendFile}

theorem loadRecords (compacts : Compacts limit file whole) :
    Retains limit file.loadRecords whole.loadRecords := by
  rw [TrendFile.loadRecords, TrendFile.loadRecords, List.reduceOption_append,
    List.reduceOption_append, compacts.tail]
  exact compacts.records.append _

theorem append (compacts : Compacts limit file whole) (record : TrendRecord) :
    Compacts limit (file.append record) (whole.append record) := by
  refine ⟨?_, rfl⟩
  rw [TrendFile.append, TrendFile.append, List.reduceOption_append, List.reduceOption_append,
    completing, completing, compacts.tail]
  exact compacts.records.append _

theorem compact (compacts : Compacts limit file whole) (ended : whole.tail = none) :
    Compacts limit (file.compact limit) whole := by
  have read : file.loadRecords = file.lines.reduceOption := by
    rw [TrendFile.loadRecords, compacts.tail, ended, Option.toList_none, List.append_nil]
  unfold TrendFile.compact
  split
  · exact compacts
  · refine ⟨?_, ended.symm⟩
    have kept : ((newest limit file.loadRecords).map some).reduceOption =
        newest limit file.lines.reduceOption := by
      rw [read, List.reduceOption, List.filterMap_map]
      exact List.filterMap_some
    rw [kept]
    exact compacts.records.cut

theorem recordErrorRates (compacts : Compacts limit file whole)
    (build : TrendRecord × Recorded) :
    Compacts limit (file.recordErrorRates limit build)
      (whole.recordErrorRates limit (build.1, build.2.withoutCompaction)) := by
  obtain ⟨record, recorded⟩ := build
  unfold TrendFile.recordErrorRates
  split
  · exact compacts
  · cases recorded with
    | unwritable => exact compacts
    | torn => exact ⟨compacts.records, rfl⟩
    | unbroken =>
      refine ⟨compacts.records, ?_⟩
      simp only [Recorded.withoutCompaction, completing, compacts.tail]
    | uncompacted => exact compacts.append record
    | completed => exact (compacts.append record).compact rfl

/-- A verdict over no more runs than the file keeps is the one of the file never cut back. -/
theorem degradingSources_eq (compacts : Compacts limit file whole) {minRuns : ℕ}
    (few : limit = 0 ∨ 0 < minRuns ∧ minRuns ≤ limit) :
    file.degradingSources minRuns = whole.degradingSources minRuns := by
  unfold TrendFile.degradingSources
  rw [compacts.loadRecords.newest_eq few]
  exact if_congr (compacts.loadRecords.lt_iff few) rfl rfl

end TrendFile.Compacts

section Runs

variable {limit : ℕ}

/-- The builds as they are, had none of them cut the file back. -/
def withoutCompaction (builds : List (TrendRecord × Recorded)) : List (TrendRecord × Recorded) :=
  builds.map fun build => (build.1, build.2.withoutCompaction)

theorem compacts_afterBuilds (builds : List (TrendRecord × Recorded)) :
    TrendFile.Compacts limit (.afterBuilds limit builds)
      (.afterBuilds limit (withoutCompaction builds)) := by
  induction builds using List.reverseRecOn with
  | nil => exact ⟨Retains.refl, rfl⟩
  | append_singleton builds build ih =>
    simp only [withoutCompaction, TrendFile.afterBuilds, List.map_append, List.map_cons,
      List.map_nil, List.foldl_append, List.foldl_cons, List.foldl_nil]
    exact ih.recordErrorRates build

theorem length_loadRecords_compact (positive : 0 < limit) (file : TrendFile) :
    (file.compact limit).loadRecords.length ≤ limit := by
  unfold TrendFile.compact
  split
  · next fits => exact fits
  · have kept : (TrendFile.mk ((newest limit file.loadRecords).map some) none).loadRecords =
        newest limit file.loadRecords := by
      simp [TrendFile.loadRecords, List.reduceOption]
    rw [kept, length_newest positive]
    exact min_le_left _ _

/-- A build that got through leaves no more records than the bound. -/
theorem length_loadRecords_afterBuilds (positive : 0 < limit)
    (builds : List (TrendRecord × Recorded)) {record : TrendRecord}
    (rated : record.rates.entries ≠ []) :
    (TrendFile.afterBuilds limit (builds ++ [(record, .completed)])).loadRecords.length ≤
      limit := by
  rw [TrendFile.afterBuilds, List.foldl_append, List.foldl_cons, List.foldl_nil,
    TrendFile.recordErrorRates, if_neg (by simpa using rated)]
  exact length_loadRecords_compact positive _

theorem lines_afterBuilds {records : List TrendRecord}
    (rated : ∀ record ∈ records, record.rates.entries ≠ []) :
    TrendFile.afterBuilds limit (records.map fun record => (record, .uncompacted)) =
      { lines := records.map some } := by
  induction records using List.reverseRecOn with
  | nil => rfl
  | append_singleton records record ih =>
    simp only [List.forall_mem_append, List.forall_mem_singleton] at rated
    rw [List.map_append, TrendFile.afterBuilds, List.foldl_append, ← TrendFile.afterBuilds,
      ih rated.1, List.map_cons, List.map_nil, List.foldl_cons, List.foldl_nil,
      TrendFile.recordErrorRates, if_neg (by simpa using rated.2), List.map_append]
    rfl

theorem length_le_of_degradingSources {file : TrendFile} {minRuns : ℕ} {contract : String}
    {rates : List ℚ} (found : (file.degradingSources minRuns).get? contract = some rates) :
    rates.length ≤ file.loadRecords.length := by
  unfold TrendFile.degradingSources at found
  split at found
  · exact (Option.some_ne_none _ found.symm).elim
  · obtain ⟨every, -⟩ := get?_degradingOver.mp found
    rw [length_of_ratesOver every]
    exact newest_suffix.length_le

/-- One record for each rate of a single source. -/
def recordsOf (contract : String) (rates : List ℚ) : List TrendRecord :=
  rates.map fun rate => ⟨0, "", Dict.empty.set contract rate⟩

theorem ratesOver_recordsOf (contract : String) (rates : List ℚ) :
    ratesOver (recordsOf contract rates) contract = some rates := by
  induction rates with
  | nil => rfl
  | cons rate rest ih =>
    rw [ratesOver, recordsOf] at ih ⊢
    simp [ih, Dict.get?_set]

theorem afterBuilds_recordsOf (contract : String) (rates : List ℚ) :
    (TrendFile.afterBuilds limit
      (withoutCompaction ((recordsOf contract rates).map fun record => (record, .completed)))) =
        { lines := (recordsOf contract rates).map some } := by
  have rated : ∀ record ∈ recordsOf contract rates, record.rates.entries ≠ [] := by
    intro record listed
    obtain ⟨rate, -, rfl⟩ := List.mem_map.mp listed
    exact List.cons_ne_nil _ _
  rw [← lines_afterBuilds rated, withoutCompaction, List.map_map]
  rfl

theorem degradingSources_recordsOf {contract : String} {rates : List ℚ} {minRuns : ℕ}
    (rising : Increasing rates) (every : minRuns = 0 ∨ minRuns = rates.length) :
    ((TrendFile.mk ((recordsOf contract rates).map some) none).degradingSources minRuns).get?
      contract = some rates := by
  have records : (TrendFile.mk ((recordsOf contract rates).map some) none).loadRecords =
      recordsOf contract rates := by
    simp [TrendFile.loadRecords, List.reduceOption]
  have length : (recordsOf contract rates).length = rates.length := List.length_map _
  have window : newest minRuns (recordsOf contract rates) = recordsOf contract rates := by
    obtain rfl | rfl := every
    · rfl
    · exact newest_of_length_le length.le
  rw [TrendFile.degradingSources, records, window, if_neg (by omega)]
  exact get?_degradingOver.mpr ⟨ratesOver_recordsOf contract rates, rising⟩

theorem increasing_succ (count : ℕ) :
    Increasing ((List.range (count + 1)).map fun run : ℕ => (run + 1 : ℚ)) := by
  refine ⟨isChain_iff_neighbours.mp (List.Pairwise.isChain ?_), ?_⟩
  · refine List.Pairwise.map _ ?_ List.pairwise_lt_range
    intro earlier later before
    exact_mod_cast Nat.succ_lt_succ before
  · rw [List.range_succ, List.map_append, List.map_cons, List.map_nil, List.getLastD_concat]
    exact_mod_cast Nat.succ_pos count

/-- Cutting the trend file back never changes a verdict, whatever appends were cut short, exactly if
the rule needs at least one run and no more than the file keeps, or nothing is cut back at all. -/
theorem degradingSources_afterBuilds_iff (settings : TrendSettings) :
    (∀ builds,
      (TrendFile.afterBuilds settings.maxRecords builds).degradingSources settings.minRuns =
        (TrendFile.afterBuilds settings.maxRecords (withoutCompaction builds)).degradingSources
          settings.minRuns) ↔
      settings.maxRecords = 0 ∨
        0 < settings.minRuns ∧ settings.minRuns ≤ settings.maxRecords := by
  obtain ⟨minRuns, limit⟩ := settings
  refine ⟨fun unchanged => ?_, fun few builds =>
    (compacts_afterBuilds builds).degradingSources_eq few⟩
  by_contra many
  dsimp only at unchanged many
  -- Rising rates over more runs than the file keeps, and as many as the rule needs.
  set source := "sensor-readings"
  obtain ⟨count, limited, exactly⟩ :
      ∃ count, limit ≤ count ∧ (minRuns = 0 ∨ minRuns = count + 1) :=
    ⟨max (minRuns - 1) limit, by omega, by omega⟩
  set rates := (List.range (count + 1)).map fun run : ℕ => (run + 1 : ℚ) with runs
  have length : rates.length = count + 1 := by rw [runs, List.length_map, List.length_range]
  have positive : 0 < limit := by omega
  set builds := (recordsOf source rates).map fun record => (record, Recorded.completed) with built
  have rising : ((TrendFile.afterBuilds limit builds).degradingSources minRuns).get? source =
      some rates := by
    rw [unchanged builds, built, afterBuilds_recordsOf]
    exact degradingSources_recordsOf (increasing_succ count) (by rw [length]; exact exactly)
  have kept : (TrendFile.afterBuilds limit builds).loadRecords.length ≤ limit := by
    rw [built, runs, List.range_succ, List.map_append, recordsOf, List.map_append, List.map_append]
    exact length_loadRecords_afterBuilds positive _ (List.cons_ne_nil _ _)
  have long := length_le_of_degradingSources rising
  omega

end Runs

end FlOp.Snapshot
