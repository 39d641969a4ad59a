import FlOp.Library.Groups
import FlOp.Mapping.Accumulator
import FlOp.Snapshot.SeriesStatistics
import Mathlib.Data.Prod.Lex

/-! # Assessment of observation series

Every series is bounded, split and judged: readings from the future, readings that their source
flags and outliers are excluded, each with a finding, and the rest keep a confidence. Errors are
counted for each source contract.
-/

namespace FlOp.Snapshot

open Canonical FlOp.Core Library
open FlOp.Mapping (QualitySeverity)

/-- A finding about a reading or a series. -/
structure SeriesFinding where
  qualityFindingId : String
  ruleId : String
  severity : QualitySeverity
  entityRef : String
  fieldRef : String
  detectedAt : Instant
  actionApplied : String
  originalValue : String
  planningImpact : String
  sourceRef : String
deriving DecidableEq, Repr

def ruleOutlier : String := "dq://observation/outlier"

def ruleSensorFault : String := "dq://observation/sensor-fault"

def ruleDrift : String := "dq://observation/metric-drift"

def ruleSourceFlagged : String := "dq://observation/source-flagged"

def ruleFutureTimestamp : String := "dq://observation/future-timestamp"

def ruleTimestampRegression : String := "dq://observation/timestamp-regression"

/-- `_series_finding`. -/
def seriesFinding (ruleId : String) (severity : QualitySeverity) (reading : SensorReading)
    (action detail : String) (detectedAt : Instant) : SeriesFinding where
  qualityFindingId := "qf-obs-" ++ reading.entityRef ++ "-" ++ reading.metric ++ "-" ++ action
  ruleId := ruleId
  severity := severity
  entityRef := reading.entityRef
  fieldRef := reading.metric
  detectedAt := detectedAt
  actionApplied := action
  originalValue := detail
  planningImpact := action
  sourceRef := reading.sourceRef

/-- `_contract_of`. -/
def contractOf (reading : SensorReading) : String :=
  String.ofList (reading.sourceRef.toList.takeWhile (· ≠ ':'))

/-- `QUALITY_FLAG_CONFIDENCE`, with full trust in other flags. -/
def flagConfidence (flag : String) : ℚ :=
  if flag = "ok" then 1
  else if flag = "suspect" then 1 / 2
  else if flag = "bad" then 0
  else if flag = "error" then 0
  else 1

/-- `_flag_factor`. -/
def flagFactor (reading : SensorReading) : ℚ :=
  if reading.qualityFlag = "" then 1 else flagConfidence reading.qualityFlag.toLower

/-- `_with_confidence`. -/
def withConfidence (confidence : ℚ) (reading : SensorReading) : SensorReading :=
  { reading with confidence := some (match reading.confidence with
      | none => confidence
      | some own => min own confidence) }

/-- A reading is ahead of the planning time by more than clocks may be. -/
def AssessmentSettings.isFuture (settings : AssessmentSettings) (asOf : Option Instant)
    (reading : SensorReading) : Bool :=
  match asOf with
  | none => false
  | some now => reading.observedAt ≠ none ∧ now + settings.clockSkewToleranceS < reading.observedTs

/-- How the texts of findings show a time and a value. -/
structure DetailTexts where
  time : Option Instant → String
  value : Option ℚ → String

/-- What is assessed against. -/
structure AssessmentContext where
  settings : AssessmentSettings := {}
  texts : DetailTexts
  detectedAt : Instant
  asOf : Option Instant := none

/-- The readings of one series, in the order in which they arrived. -/
abbrev Arrivals := List SensorReading

namespace AssessmentContext

variable (ctx : AssessmentContext) (arrivals : Arrivals)

/-- `observation_history` of the series: oldest to newest. -/
def history : List SensorReading := sortBy (·.observedTs) arrivals

/-- `_skew_excluded`: what is trusted. -/
def trusted : List SensorReading :=
  (history arrivals).filter fun reading => !ctx.settings.isFuture ctx.asOf reading

/-- `_skew_excluded`: what is ahead of time. -/
def future : List SensorReading :=
  (history arrivals).filter fun reading => ctx.settings.isFuture ctx.asOf reading

/-- What retention and downsampling leave. -/
def retained : List SensorReading := ctx.settings.retention.retained (ctx.trusted arrivals) ctx.asOf

/-- What its source flags as bad. -/
def flaggedBad : List SensorReading :=
  (ctx.retained arrivals).filter fun reading => flagFactor reading ≤ 0

/-- What its source does not flag. -/
def unflagged : List SensorReading :=
  (ctx.retained arrivals).filter fun reading => 0 < flagFactor reading

def numeric : List SensorReading := (ctx.unflagged arrivals).filter fun reading => reading.value ≠ none

def categorical : List SensorReading :=
  (ctx.unflagged arrivals).filter fun reading => reading.value = none

/-- The numeric readings, each with its outlier flag. -/
def judged : List (SensorReading × Bool) :=
  (ctx.numeric arrivals).zip (ctx.settings.outlierFlags (measured (ctx.numeric arrivals)))

/-- The numeric readings that are no outliers. -/
def kept : List SensorReading := ((ctx.judged arrivals).filter fun pair => !pair.2).map Prod.fst

def outliers : List SensorReading := ((ctx.judged arrivals).filter fun pair => pair.2).map Prod.fst

/-- The suspected fault of the series; empty for none. -/
def fault (metric : String) : String :=
  if ctx.kept arrivals = [] then ""
  else ctx.settings.faultReason metric (measured (ctx.kept arrivals))

/-- The drift of the series; empty for none. -/
def drift (metric : String) : String :=
  if ctx.kept arrivals = [] ∨ ctx.fault arrivals metric ≠ "" then ""
  else ctx.settings.driftReason metric (measured (ctx.kept arrivals))

/-- The confidence in the series. -/
def confidence (metric : String) : ℚ :=
  if ctx.fault arrivals metric ≠ "" then ctx.settings.suspectSeriesConfidence
  else 1 - (ctx.outliers arrivals).length / (ctx.numeric arrivals).length

/-- The findings about excluded readings, before the numeric ones are judged. -/
def exclusionFindings : List SeriesFinding :=
  ((ctx.future arrivals).map fun reading => seriesFinding ruleFutureTimestamp .warning reading
    ("future-timestamp-excluded-" ++ reading.observationId)
    ("observed_at:" ++ ctx.texts.time reading.observedAt) ctx.detectedAt) ++
  ((ctx.flaggedBad arrivals).map fun reading => seriesFinding ruleSourceFlagged .info reading
    ("source-flagged-" ++ reading.observationId)
    ("quality_flag:" ++ reading.qualityFlag) ctx.detectedAt) ++
  ((ctx.outliers arrivals).map fun reading => seriesFinding ruleOutlier .warning reading
    ("outlier-excluded-" ++ reading.observationId)
    ("value:" ++ ctx.texts.value reading.value) ctx.detectedAt)

/-- A finding about a series, at its last reading, if there is something to say. -/
def seriesFindings (ruleId : String) (severity : QualitySeverity) (series : List SensorReading)
    (action detail : String) : List SeriesFinding :=
  if detail = "" then []
  else (series.getLast?.map fun reading =>
    seriesFinding ruleId severity reading action detail ctx.detectedAt).toList

/-- The findings of one series. -/
def findings (metric : String) : List SeriesFinding :=
  ctx.seriesFindings ruleTimestampRegression .warning (history arrivals) "timestamp-regression"
    (ctx.settings.regressionDetail (AssessmentSettings.arrivalSorted arrivals)) ++
  ctx.exclusionFindings arrivals ++
  ctx.seriesFindings ruleSensorFault .warning (ctx.kept arrivals) "sensor-fault-suspected"
    (ctx.fault arrivals metric) ++
  ctx.seriesFindings ruleDrift .info (ctx.kept arrivals) "metric-drift"
    (ctx.drift arrivals metric)

/-- The assessed readings of one series, each with the confidence it is given. -/
def cleaned (metric : String) : List SensorReading :=
  (ctx.categorical arrivals).map (fun reading => withConfidence (flagFactor reading) reading) ++
  (ctx.kept arrivals).map fun reading =>
    withConfidence (min (ctx.confidence arrivals metric) (flagFactor reading)) reading

/-- The excluded readings with a value count for their own contract. -/
def excludedNumeric : List SensorReading :=
  (ctx.future arrivals ++ ctx.flaggedBad arrivals).filter fun reading => reading.value ≠ none

/-- The contract that the numeric readings of a series count for: that of the first of them. -/
def credited : Option String := (ctx.numeric arrivals).head?.map contractOf

/-- What assessing has gathered. -/
structure State where
  observations : List SensorReading := []
  findings : List SeriesFinding := []
  driftingMetrics : Dict String (List String) := .empty
  totals : Dict String ℕ := .empty
  bad : Dict String ℕ := .empty
  sourceWatermarks : Dict String Instant := .empty

/-- Count every reading for its own contract. -/
def countOwn (counts : Dict String ℕ) (readings : List SensorReading) : Dict String ℕ :=
  (readings.map contractOf).foldl (fun counts contract => counts.bump contract 1) counts

/-- Count for the contract of the series. -/
def countSeries (counts : Dict String ℕ) (contract : Option String) (n : ℕ) : Dict String ℕ :=
  match contract with
  | none => counts
  | some contract => counts.bump contract n

/-- Keep the newest time that is visible of each contract. -/
def watermark (watermarks : Dict String Instant) (reading : SensorReading) : Dict String Instant :=
  if reading.observedAt = none then watermarks
  else match watermarks.get? (contractOf reading) with
    | none => watermarks.set (contractOf reading) reading.observedTs
    | some current =>
      if current < reading.observedTs then watermarks.set (contractOf reading) reading.observedTs
      else watermarks

/-- The bad readings among the numeric ones: outliers, and all others of a suspected fault. -/
def badCount (metric : String) : ℕ :=
  (ctx.outliers arrivals).length +
    if ctx.fault arrivals metric = "" then 0 else (ctx.kept arrivals).length

/-- One series of the loop. -/
def assessSeries (entityRef metric : String) (state : State) : State where
  observations := state.observations ++ ctx.cleaned arrivals metric
  findings := state.findings ++ ctx.findings arrivals metric
  driftingMetrics :=
    if ctx.drift arrivals metric = "" then state.driftingMetrics
    else state.driftingMetrics.push entityRef metric
  totals := countSeries (countOwn state.totals (ctx.excludedNumeric arrivals))
    (ctx.credited arrivals) (ctx.numeric arrivals).length
  bad := countSeries (countOwn state.bad (ctx.excludedNumeric arrivals))
    (ctx.credited arrivals) (ctx.badCount arrivals metric)
  sourceWatermarks := (ctx.trusted arrivals).foldl watermark state.sourceWatermarks

/-- The key of a reading's series. -/
def seriesKey (reading : SensorReading) : String ×ₗ String :=
  toLex (reading.entityRef, reading.metric)

/-- The loop over the series of all observations. -/
def assess (observations : List SensorReading) : State :=
  (sortedKeys seriesKey observations).foldl (fun state key =>
    ctx.assessSeries (groupOf seriesKey observations key) (ofLex key).1 (ofLex key).2 state) {}

/-- The share of bad readings of each contract with readings. -/
def errorRates (state : State) : Dict String ℚ :=
  Dict.collect Prod.fst (fun count : String × ℕ => (state.bad.getD count.1 0 : ℚ) / count.2)
    (state.totals.sortKeys.entries.filter fun count => 0 < count.2)

end AssessmentContext

/-- Assessed observations and what is derived from them. -/
structure AssessmentResult where
  observations : List SensorReading
  findings : List SeriesFinding
  driftingMetrics : Dict String (List String)
  errorRates : Dict String ℚ
  sourceWatermarks : Dict String Instant

/-- `assess_observations`. -/
def assessObservations (ctx : AssessmentContext) (observations : List SensorReading) :
    AssessmentResult :=
  let state := ctx.assess observations
  { observations := state.observations
    findings := state.findings
    driftingMetrics := state.driftingMetrics
    errorRates := AssessmentContext.errorRates state
    sourceWatermarks := state.sourceWatermarks }

end FlOp.Snapshot
