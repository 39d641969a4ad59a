import FlOp.Canonical.Snapshot
import FlOp.Core.Numbers
import FlOp.Core.Text
import FlOp.Library.Dict
import FlOp.Library.Fallible
import FlOp.Library.Numerals
import FlOp.Library.Ordering
import Mathlib.Algebra.Order.Field.Rat
import Mathlib.Algebra.Order.Ring.Rat
import Mathlib.Data.List.ReduceOption
import Mathlib.Data.Rat.Floor

/-! # Monitoring policies

The part of a profile that says when stationary equipment needs service, with its numbers taken as
exact rationals. Overrides for a type of asset and for a single asset layer on the base.
-/

namespace FlOp.Snapshot

open FlOp.Library

/-- The fields of a monitoring policy that may be overridden. -/
structure MonitoringPolicy where
  batteryLowThresholdPct : ℚ := 20
  batteryCriticalThresholdPct : ℚ := 5
  batteryForecastHorizonDays : ℚ := 3
  minObservationConfidence : ℚ := 1 / 2
  compositeHealthThreshold : ℚ := 7 / 20
  compositeWeightBattery : ℚ := 7 / 20
  compositeWeightHealth : ℚ := 7 / 20
  compositeWeightService : ℚ := 1 / 5
  compositeWeightDrift : ℚ := 1 / 10
  compositeBatteryHeadroomPct : ℚ := 30
  compositeServiceHeadroomDays : ℚ := 30
  serviceOperationType : String := "EQUIPMENT_SERVICE"
  servicePriorityClass : ℤ := 2
  serviceDeadlineDays : ℤ := 3
  servicePenaltyPerDayEur : ℚ := 150
  serviceNominalAreaHa : ℚ := 1
  serviceDurationMinutes : ℚ := 45
  escalatedPriorityClass : ℤ := 1
  escalatedDeadlineDays : ℤ := 1
  monitorMobileAssets : Bool := false
deriving DecidableEq, Repr

/-- A partial policy; unset fields inherit. -/
structure MonitoringOverride where
  batteryLowThresholdPct : Option ℚ := none
  batteryCriticalThresholdPct : Option ℚ := none
  batteryForecastHorizonDays : Option ℚ := none
  minObservationConfidence : Option ℚ := none
  compositeHealthThreshold : Option ℚ := none
  compositeWeightBattery : Option ℚ := none
  compositeWeightHealth : Option ℚ := none
  compositeWeightService : Option ℚ := none
  compositeWeightDrift : Option ℚ := none
  compositeBatteryHeadroomPct : Option ℚ := none
  compositeServiceHeadroomDays : Option ℚ := none
  serviceOperationType : Option String := none
  servicePriorityClass : Option ℤ := none
  serviceDeadlineDays : Option ℤ := none
  servicePenaltyPerDayEur : Option ℚ := none
  serviceNominalAreaHa : Option ℚ := none
  serviceDurationMinutes : Option ℚ := none
  escalatedPriorityClass : Option ℤ := none
  escalatedDeadlineDays : Option ℤ := none
  monitorMobileAssets : Option Bool := none
deriving DecidableEq, Repr

/-- A policy with the fields that an override sets. -/
def MonitoringPolicy.overridden (policy : MonitoringPolicy) (override : MonitoringOverride) :
    MonitoringPolicy where
  batteryLowThresholdPct := override.batteryLowThresholdPct.getD policy.batteryLowThresholdPct
  batteryCriticalThresholdPct :=
    override.batteryCriticalThresholdPct.getD policy.batteryCriticalThresholdPct
  batteryForecastHorizonDays :=
    override.batteryForecastHorizonDays.getD policy.batteryForecastHorizonDays
  minObservationConfidence := override.minObservationConfidence.getD policy.minObservationConfidence
  compositeHealthThreshold := override.compositeHealthThreshold.getD policy.compositeHealthThreshold
  compositeWeightBattery := override.compositeWeightBattery.getD policy.compositeWeightBattery
  compositeWeightHealth := override.compositeWeightHealth.getD policy.compositeWeightHealth
  compositeWeightService := override.compositeWeightService.getD policy.compositeWeightService
  compositeWeightDrift := override.compositeWeightDrift.getD policy.compositeWeightDrift
  compositeBatteryHeadroomPct :=
    override.compositeBatteryHeadroomPct.getD policy.compositeBatteryHeadroomPct
  compositeServiceHeadroomDays :=
    override.compositeServiceHeadroomDays.getD policy.compositeServiceHeadroomDays
  serviceOperationType := override.serviceOperationType.getD policy.serviceOperationType
  servicePriorityClass := override.servicePriorityClass.getD policy.servicePriorityClass
  serviceDeadlineDays := override.serviceDeadlineDays.getD policy.serviceDeadlineDays
  servicePenaltyPerDayEur := override.servicePenaltyPerDayEur.getD policy.servicePenaltyPerDayEur
  serviceNominalAreaHa := override.serviceNominalAreaHa.getD policy.serviceNominalAreaHa
  serviceDurationMinutes := override.serviceDurationMinutes.getD policy.serviceDurationMinutes
  escalatedPriorityClass := override.escalatedPriorityClass.getD policy.escalatedPriorityClass
  escalatedDeadlineDays := override.escalatedDeadlineDays.getD policy.escalatedDeadlineDays
  monitorMobileAssets := override.monitorMobileAssets.getD policy.monitorMobileAssets

/-- `_merged`: without an override the policy stays. -/
def MonitoringPolicy.merged (policy : MonitoringPolicy) :
    Option MonitoringOverride → MonitoringPolicy
  | none => policy
  | some override => policy.overridden override

/-- The monitoring section of a profile. -/
structure MonitoringPolicySpec extends MonitoringPolicy where
  assetTypeOverrides : Dict String MonitoringOverride := .empty
  assetOverrides : Dict String MonitoringOverride := .empty
deriving DecidableEq

namespace MonitoringPolicySpec

/-- Effective policy for one type of asset. -/
def forAssetType (spec : MonitoringPolicySpec) (assetType : String) : MonitoringPolicy :=
  spec.toMonitoringPolicy.merged (spec.assetTypeOverrides.get? assetType)

/-- Effective policy for one asset: base, then its type, then the asset itself. -/
def forAsset (spec : MonitoringPolicySpec) (assetType assetId : String) : MonitoringPolicy :=
  (spec.forAssetType assetType).merged (spec.assetOverrides.get? assetId)

end MonitoringPolicySpec

end FlOp.Snapshot

/-! # Stationary-equipment monitoring

Derives service tasks from observations and maintenance data: a low or draining battery, bad
health, an overdue service, a drifting metric, or several weak signals together.
-/

namespace FlOp.Snapshot

open Canonical FlOp.Core Library

def metricBatteryLevel : String := "battery-level"

def metricHealthStatus : String := "health-status"

def escalatedReasonPrefix : String := "escalated:"

def compositeMinSignals : ℕ := 2

def secondsPerDay : ℚ := 86400

/-- Subscores of the known health states; any other state counts as unknown. -/
def healthStateScore : String → ℚ
  | "healthy" => 1
  | "degraded" => 3 / 10
  | "failed" => 0
  | _ => 7 / 10

/-- What deriving a service task can raise. -/
inductive Raised where
  | typeError
  | valueError
  | zeroDivisionError
deriving DecidableEq, Repr

/-- A reading with the confidence its assessment gave it. -/
structure Reading extends Observation where
  confidence : Option ℚ := none

/-- An asset with its type and mobility. -/
structure MonitoredAsset extends Asset where
  assetType : String := ""
  mobility : String := "stationary"

/-- A derived task with the fields the policy gives it. -/
structure ServiceTask extends Task where
  areaHa : ℚ
  serviceDurationMinutes : ℤ
  priorityClass : ℤ
  penaltyPerDayEur : ℚ

/-- How maintenance data are read: a time from the text of a value, naive ones as UTC, and a
number of days; and how a date is written. -/
structure MaintenanceReaders where
  parseTime : CapabilityValue → Option Instant
  toFloat : CapabilityValue → Except Raised ℚ
  dateText : Instant → String

/-- A number with a fixed count of decimals. -/
def fixed (digits : ℕ) (x : ℚ) : String :=
  let scaled := (roundHalfEven (|x| * 10 ^ digits)).toNat
  (if x < 0 then "-" else "") ++ toString (scaled / 10 ^ digits) ++
    if digits = 0 then "" else "." ++ zeroPadded digits (scaled % 10 ^ digits)

/-- The time that readings without one count as, the first day of year one. -/
def earliestTime : Instant := -62135596800

def Reading.observedTs (reading : Reading) : Instant := reading.observedAt.getD earliestTime

/-- The readings of one asset and metric, oldest to newest. -/
def series (readings : List Reading) (assetId metric : String) : List Reading :=
  sortBy Reading.observedTs
    (readings.filter fun reading => reading.entityRef = assetId ∧ reading.metric = metric)

/-- A reading the policy may act on. -/
def confident (reading : Reading) (policy : MonitoringPolicy) : Bool :=
  match reading.confidence with
  | none => true
  | some confidence => policy.minObservationConfidence ≤ confidence

/-- The level of the latest battery reading, if it has one that is trustworthy. -/
def latestLevel (battery : List Reading) (policy : MonitoringPolicy) : Option ℚ :=
  match battery.getLast? with
  | none => none
  | some last => if confident last policy then last.value else none

/-- Battery at or below a threshold in the latest reading. -/
def batteryReason (battery : List Reading) (policy : MonitoringPolicy) : Option String :=
  match latestLevel battery policy with
  | none => none
  | some level =>
    if level ≤ policy.batteryCriticalThresholdPct then
      some (escalatedReasonPrefix ++ "battery-critical:" ++ fixed 1 level ++ "pct")
    else if level ≤ policy.batteryLowThresholdPct then
      some ("battery-low:" ++ fixed 1 level ++ "pct")
    else none

/-- Times and values of the trustworthy readings. -/
def trustedLevels (battery : List Reading) (policy : MonitoringPolicy) : List (Instant × ℚ) :=
  battery.filterMap fun reading =>
    match reading.value with
    | some level => if confident reading policy then some (reading.observedTs, level) else none
    | none => none

/-- The drain from the oldest to the newest level, and the newest level. -/
def drainTrend (levels : List (Instant × ℚ)) : Option (ℚ × ℚ) :=
  match levels.head?, levels.getLast? with
  | some first, some last =>
    let spanDays := (last.1 - first.1) / secondsPerDay
    if levels.length < 2 ∨ spanDays ≤ 0 then none
    else
      let drainPerDay := (first.2 - last.2) / spanDays
      if drainPerDay ≤ 0 then none else some (drainPerDay, last.2)
  | _, _ => none

/-- The drain projects below the threshold within the horizon. -/
def batteryForecastReason (battery : List Reading) (policy : MonitoringPolicy) : Option String :=
  match drainTrend (trustedLevels battery policy) with
  | none => none
  | some (drainPerDay, last) =>
    let projected := last - drainPerDay * policy.batteryForecastHorizonDays
    if projected ≤ policy.batteryLowThresholdPct then
      some ("battery-forecast:" ++ fixed 1 projected ++ "pct-in-" ++
        fixed 0 policy.batteryForecastHorizonDays ++ "d")
    else none

/-- The state of the latest health reading, if it is trustworthy. -/
def latestState (health : List Reading) (policy : MonitoringPolicy) : Option String :=
  match health.getLast? with
  | none => none
  | some last => if confident last policy then some last.stateValue else none

/-- Unhealthy state in the latest reading; a failed asset is past prognosis. -/
def healthReason (health : List Reading) (policy : MonitoringPolicy) : Option String :=
  match latestState health policy with
  | none => none
  | some stateValue =>
    let state := stateValue.toLower
    if state = "failed" then some (escalatedReasonPrefix ++ "health:" ++ state)
    else if state = "degraded" then some ("health:" ++ state)
    else none

def lastServiceAtTerm : String := "urn:xopt:maintenance:last-service-at"

def serviceIntervalTerm : String := "urn:xopt:maintenance:service-interval"

/-- When the next planned service is due; none without data or with a time that cannot be read. -/
def serviceDue (readers : MaintenanceReaders) (asset : MonitoredAsset) :
    Except Raised (Option Instant) :=
  match asset.capabilityValue lastServiceAtTerm, asset.capabilityValue serviceIntervalTerm with
  | some lastRaw, some intervalDays =>
    match readers.parseTime lastRaw with
    | none => .ok none
    | some last =>
      (readers.toFloat intervalDays).map fun days => some (last + days * secondsPerDay)
  | _, _ => .ok none

/-- Planned service interval exceeded. -/
def serviceOverdueReason (readers : MaintenanceReaders) (due : Option Instant) (now : Instant) :
    Option String :=
  match due with
  | some due => if due ≤ now then some ("service-overdue:due-" ++ readers.dateText due) else none
  | none => none

def clamp01 (value : ℚ) : ℚ := max 0 (min 1 value)

/-- Division of floats. -/
def quotient (x y : ℚ) : Except Raised ℚ := if y = 0 then .error .zeroDivisionError else .ok (x / y)

/-- Battery headroom above the low threshold. -/
def batterySignal (battery : List Reading) (policy : MonitoringPolicy) :
    Except Raised (List (ℚ × ℚ)) :=
  match latestLevel battery policy with
  | none => .ok []
  | some level =>
    (quotient (level - policy.batteryLowThresholdPct) policy.compositeBatteryHeadroomPct).map
      fun headroom => [(policy.compositeWeightBattery, clamp01 headroom)]

/-- The latest health state that is not blank. -/
def healthSignal (health : List Reading) (policy : MonitoringPolicy) : List (ℚ × ℚ) :=
  match latestState health policy with
  | none => []
  | some state =>
    if state = "" then [] else [(policy.compositeWeightHealth, healthStateScore state.toLower)]

/-- Time remaining until the planned service. -/
def serviceSignal (policy : MonitoringPolicy) (due : Option Instant) (now : Instant) :
    Except Raised (List (ℚ × ℚ)) :=
  match due with
  | none => .ok []
  | some due =>
    (quotient ((due - now) / secondsPerDay) policy.compositeServiceHeadroomDays).map
      fun remaining => [(policy.compositeWeightService, clamp01 remaining)]

def driftSignal (policy : MonitoringPolicy) (drifting : List String) : List (ℚ × ℚ) :=
  if drifting = [] then [] else [(policy.compositeWeightDrift, 0)]

/-- The signals that are available, each a weight and a subscore that is one where all is well. -/
def compositeSignals (battery health : List Reading) (policy : MonitoringPolicy)
    (due : Option Instant) (now : Instant) (drifting : List String) :
    Except Raised (List (ℚ × ℚ)) :=
  (batterySignal battery policy).bind fun level =>
    (serviceSignal policy due now).map fun remaining =>
      level ++ healthSignal health policy ++ remaining ++ driftSignal policy drifting

/-- The weighted mean of the subscores. -/
def compositeScore (signals : List (ℚ × ℚ)) : Except Raised ℚ :=
  quotient (signals.map fun signal => signal.1 * signal.2).sum (signals.map Prod.fst).sum

/-- Weighted health score of partial signals below any single rule. -/
def compositeReason (battery health : List Reading) (policy : MonitoringPolicy)
    (due : Option Instant) (now : Instant) (drifting : List String) :
    Except Raised (Option String) :=
  (compositeSignals battery health policy due now drifting).bind fun signals =>
    if signals.length < compositeMinSignals then .ok none
    else (compositeScore signals).map fun score =>
      if score < policy.compositeHealthThreshold then
        some ("composite-health:" ++ fixed 2 score)
      else none

/-- Reasons of the individual rules; the forecast is only looked at with a fair battery. -/
def ruleReasons (readers : MaintenanceReaders) (battery health : List Reading)
    (policy : MonitoringPolicy) (due : Option Instant) (now : Instant) (drifting : List String) :
    List String :=
  let batteryNow := batteryReason battery policy
  [batteryNow, if batteryNow.isSome then none else batteryForecastReason battery policy,
    healthReason health policy, serviceOverdueReason readers due now].reduceOption ++
    drifting.map fun metric => "calibration:" ++ metric ++ "-drift"

/-- Why an asset needs service: by the individual rules, or else by the composite score. -/
def serviceReasons (readers : MaintenanceReaders) (readings : List Reading) (asset : MonitoredAsset)
    (policy : MonitoringPolicy) (now : Instant) (drifting : List String) :
    Except Raised (List String) :=
  let battery := series readings asset.assetId metricBatteryLevel
  let health := series readings asset.assetId metricHealthStatus
  (serviceDue readers asset).bind fun due =>
    let reasons := ruleReasons readers battery health policy due now drifting
    if reasons = [] then
      (compositeReason battery health policy due now drifting).map Option.toList
    else .ok reasons

/-- The task that serves an asset for some reasons. -/
def serviceTask (asset : MonitoredAsset) (anchor : String) (policy : MonitoringPolicy)
    (now : Instant) (reasons : List String) : ServiceTask :=
  let escalated := reasons.any fun reason => startsWith escalatedReasonPrefix reason
  let deadlineDays := if escalated then policy.escalatedDeadlineDays else policy.serviceDeadlineDays
  { taskId := "service-" ++ asset.assetId
    orderId := "monitoring-" ++ asset.assetId
    operationType := policy.serviceOperationType
    locationRef := anchor
    areaHa := policy.serviceNominalAreaHa
    serviceDurationMinutes := Instant.truncated policy.serviceDurationMinutes
    deadline := some (now + deadlineDays * secondsPerDay)
    priorityClass :=
      if escalated then policy.escalatedPriorityClass else policy.servicePriorityClass
    penaltyPerDayEur := policy.servicePenaltyPerDayEur
    sourceRef := "monitoring:" ++ asset.assetId ++ ":" ++ ",".intercalate reasons }

/-- The service task of one asset; mobile ones are covered only if the policy says so, and those
without an anchor location are skipped. -/
def deriveServiceTask (readers : MaintenanceReaders) (readings : List Reading) (now : Instant)
    (spec : MonitoringPolicySpec) (calibrationNeeds : Dict String (List String))
    (asset : MonitoredAsset) : Except Raised (Option ServiceTask) :=
  let policy := spec.forAsset asset.assetType asset.assetId
  if asset.mobility ≠ "stationary" ∧ policy.monitorMobileAssets = false then .ok none
  else
    (serviceReasons readers readings asset policy now
      (calibrationNeeds.getD asset.assetId [])).map fun reasons =>
        if reasons = [] then none
        else match asset.homeDepotRef with
          | none => none
          | some anchor =>
            if anchor = "" then none else some (serviceTask asset anchor policy now reasons)

/-- One service task per asset that needs attention. -/
def deriveServiceTasks (readers : MaintenanceReaders) (assets : List MonitoredAsset)
    (readings : List Reading) (now : Instant) (spec : MonitoringPolicySpec)
    (calibrationNeeds : Dict String (List String)) : Except Raised (List ServiceTask) :=
  (assets.mapM (deriveServiceTask readers readings now spec calibrationNeeds)).map
    List.reduceOption

end FlOp.Snapshot
