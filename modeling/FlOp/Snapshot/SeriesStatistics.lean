import FlOp.Snapshot.Retention

/-! # Statistics of observation series

Outliers by the median absolute deviation, suspected instrument faults, drift between the halves of
a series, and timestamps that go back in arrival order.
-/

namespace FlOp.Snapshot

open Canonical FlOp.Core Library

/-- Constants of the assessment. -/
structure AssessmentSettings where
  outlierMadZThreshold : ℚ := 7 / 2
  madNormalConsistency : ℚ := 6745 / 10000
  outlierMinSeriesReadings : ℕ := 5
  batteryRiseFaultPct : ℚ := 5
  frozenSeriesMinReadings : ℕ := 6
  suspectSeriesConfidence : ℚ := 0
  driftMadMultiplier : ℚ := 3
  driftMinSeriesReadings : ℕ := 8
  driftExemptMetrics : List String := [metricBatteryLevel]
  clockSkewToleranceS : ℚ := 300
  timestampRegressionToleranceS : ℚ := 3600
  retention : RetentionPolicy := {}

/-- The middle of the sorted values, or the mean of the two middle ones. -/
def median (values : List ℚ) : ℚ :=
  let sorted := sortBy id values
  let half := values.length / 2
  if values.length % 2 = 1 then sorted.getD half 0
  else (sorted.getD (half - 1) 0 + sorted.getD half 0) / 2

/-- The median of the distances from the median. -/
def medianDeviation (values : List ℚ) : ℚ := median (values.map fun value => |value - median values|)

def mean (values : List ℚ) : ℚ := values.sum / values.length

namespace AssessmentSettings

variable (settings : AssessmentSettings)

/-- `_modified_z_scores`. -/
def modifiedZScores (values : List ℚ) : List ℚ :=
  if medianDeviation values = 0 then values.map fun _ => 0
  else values.map fun value =>
    settings.madNormalConsistency * (value - median values) / medianDeviation values

/-- `_outlier_flags`. -/
def outlierFlags (values : List ℚ) : List Bool :=
  if values.length < settings.outlierMinSeriesReadings then values.map fun _ => false
  else (settings.modifiedZScores values).map fun score => settings.outlierMadZThreshold < |score|

@[simp] theorem length_outlierFlags (values : List ℚ) :
    (settings.outlierFlags values).length = values.length := by
  unfold outlierFlags modifiedZScores
  split_ifs <;> simp

/-- `_fault_reason`: a rising battery or a frozen value; empty for neither. -/
def faultReason (metric : String) (values : List ℚ) : String :=
  let rises := values.tail.zipWith (· - ·) values
  if metric = metricBatteryLevel ∧ 2 ≤ values.length ∧
      ∃ rise ∈ rises, settings.batteryRiseFaultPct < rise then
    "battery-rise:" ++ fixed 1 (rises.max?.getD 0) ++ "pct"
  else if settings.frozenSeriesMinReadings ≤ values.length ∧
      (∀ value ∈ values, value = values.headD 0) ∧ values.headD 0 ≠ 0 then
    "frozen-value:" ++ fixed 1 (values.headD 0)
  else ""

/-- `_drift_reason`: the shift of the mean between the halves, in deviations of the first. -/
def driftReason (metric : String) (values : List ℚ) : String :=
  if metric ∈ settings.driftExemptMetrics ∨ values.length < settings.driftMinSeriesReadings then ""
  else
    let baseline := values.take (values.length / 2)
    let mad := if medianDeviation baseline = 0 then medianDeviation values
      else medianDeviation baseline
    let shift := |mean (values.drop (values.length / 2)) - mean baseline|
    if mad = 0 then ""
    else if settings.driftMadMultiplier * mad < shift then "mean-shift:" ++ fixed 1 shift
    else ""

/-- `_arrival_sorted`: by arrival, if every reading says when it arrived. -/
def arrivalSorted (series : List SensorReading) : List SensorReading :=
  if series ≠ [] ∧ ∀ reading ∈ series, reading.ingestedAt ≠ none then
    sortBy (fun reading => reading.ingestedAt.getD 0) series
  else series

/-- `_regression_detail`: the furthest that a timestamp goes back in arrival order. -/
def regressionDetail (arrivalOrder : List SensorReading) : String :=
  let worst := (arrivalOrder.zip arrivalOrder.tail).foldl (fun worst pair =>
    if pair.1.observedAt = none ∨ pair.2.observedAt = none then worst
    else max worst (pair.1.observedTs - pair.2.observedTs)) 0
  if settings.timestampRegressionToleranceS < worst then "regression:" ++ fixed 0 worst ++ "s"
  else ""

end AssessmentSettings

example : ({} : AssessmentSettings).outlierFlags [20, 21, 22, 21, 20, 90] =
    [false, false, false, false, false, true] := by
  decide +kernel

end FlOp.Snapshot
