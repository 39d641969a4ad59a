import FlOp.Snapshot.Monitoring
import Mathlib.Algebra.Order.BigOperators.Group.List
import Mathlib.Data.Option.Basic

/-! # Monitoring is monotone in its tunables

Raising the low-battery threshold, the forecast horizon or the composite threshold of a policy
makes service fire earlier: every asset that gets a service task keeps it.
-/

namespace FlOp.Snapshot

open Canonical FlOp.Core Library

/-- The second policy differs in the tunable fields only and has none of them lower. -/
def MonitoringPolicy.Raises (low high : MonitoringPolicy) : Prop :=
  ∃ battery horizon composite,
    low.batteryLowThresholdPct ≤ battery ∧ low.batteryForecastHorizonDays ≤ horizon ∧
      low.compositeHealthThreshold ≤ composite ∧
      high = { low with
        batteryLowThresholdPct := battery
        batteryForecastHorizonDays := horizon
        compositeHealthThreshold := composite }

/-- The second override sets the same fields, tunable ones no lower and the others alike. -/
def MonitoringOverride.Raises (low high : MonitoringOverride) : Prop :=
  ∃ battery horizon composite,
    Option.Rel (· ≤ ·) low.batteryLowThresholdPct battery ∧
      Option.Rel (· ≤ ·) low.batteryForecastHorizonDays horizon ∧
      Option.Rel (· ≤ ·) low.compositeHealthThreshold composite ∧
      high = { low with
        batteryLowThresholdPct := battery
        batteryForecastHorizonDays := horizon
        compositeHealthThreshold := composite }

/-- The base policy and each override are raised. -/
structure MonitoringPolicySpec.Raises (low high : MonitoringPolicySpec) : Prop where
  base : low.toMonitoringPolicy.Raises high.toMonitoringPolicy
  types : ∀ assetType, Option.Rel MonitoringOverride.Raises
    (low.assetTypeOverrides.get? assetType) (high.assetTypeOverrides.get? assetType)
  assets : ∀ assetId, Option.Rel MonitoringOverride.Raises
    (low.assetOverrides.get? assetId) (high.assetOverrides.get? assetId)

/-- Composite weights are not negative, headrooms are positive. -/
structure MonitoringPolicy.Composable (policy : MonitoringPolicy) : Prop where
  battery : 0 ≤ policy.compositeWeightBattery
  health : 0 ≤ policy.compositeWeightHealth
  service : 0 ≤ policy.compositeWeightService
  drift : 0 ≤ policy.compositeWeightDrift
  headroomPct : 0 < policy.compositeBatteryHeadroomPct
  headroomDays : 0 < policy.compositeServiceHeadroomDays

section Layers

variable {low high : MonitoringPolicy}

theorem getD_le_getD {a b : Option ℚ} {x y : ℚ} (set : Option.Rel (· ≤ ·) a b) (base : x ≤ y) :
    a.getD x ≤ b.getD y := by
  cases set with
  | some le => exact le
  | none => exact base

/-- Raised overrides raise a raised policy. -/
theorem MonitoringPolicy.Raises.merged (raises : low.Raises high)
    {override other : Option MonitoringOverride}
    (set : Option.Rel MonitoringOverride.Raises override other) :
    (low.merged override).Raises (high.merged other) := by
  cases set with
  | none => exact raises
  | some overrides =>
    obtain ⟨battery, horizon, composite, more, further, stricter, rfl⟩ := raises
    obtain ⟨battery', horizon', composite', more', further', stricter', rfl⟩ := overrides
    exact ⟨_, _, _, getD_le_getD more' more, getD_le_getD further' further,
      getD_le_getD stricter' stricter, rfl⟩

theorem MonitoringPolicySpec.Raises.forAsset {low high : MonitoringPolicySpec}
    (raises : low.Raises high) (assetType assetId : String) :
    (low.forAsset assetType assetId).Raises (high.forAsset assetType assetId) :=
  (raises.base.merged (raises.types assetType)).merged (raises.assets assetId)

end Layers

section Rules

variable {low high : MonitoringPolicy} {battery health : List Reading}

/-- What is read does not depend on the tunables. -/
theorem latestLevel_raised (raises : low.Raises high) :
    latestLevel battery high = latestLevel battery low := by
  obtain ⟨threshold, horizon, composite, -, -, -, rfl⟩ := raises
  rfl

theorem trustedLevels_raised (raises : low.Raises high) :
    trustedLevels battery high = trustedLevels battery low := by
  obtain ⟨threshold, horizon, composite, -, -, -, rfl⟩ := raises
  rfl

/-- A low battery stays low. -/
theorem batteryReason_raised (raises : low.Raises high)
    (fires : (batteryReason battery low).isSome = true) :
    (batteryReason battery high).isSome = true := by
  rw [batteryReason] at fires ⊢
  rw [latestLevel_raised raises]
  obtain ⟨threshold, horizon, composite, more, -, -, rfl⟩ := raises
  cases read : latestLevel battery low with
  | none =>
    rw [read] at fires
    exact fires
  | some level =>
    rw [read] at fires
    dsimp only at fires ⊢
    by_cases critical : level ≤ low.batteryCriticalThresholdPct
    · rw [if_pos critical]
      rfl
    · rw [if_neg critical] at fires ⊢
      by_cases below : level ≤ low.batteryLowThresholdPct
      · rw [if_pos (below.trans more)]
        rfl
      · rw [if_neg below] at fires
        cases fires

/-- A forecast that reaches the threshold within the horizon reaches a higher one within more. -/
theorem batteryForecastReason_raised (raises : low.Raises high)
    (fires : (batteryForecastReason battery low).isSome = true) :
    (batteryForecastReason battery high).isSome = true := by
  rw [batteryForecastReason] at fires ⊢
  rw [trustedLevels_raised raises]
  obtain ⟨threshold, horizon, composite, more, further, -, rfl⟩ := raises
  cases trend : drainTrend (trustedLevels battery low) with
  | none =>
    rw [trend] at fires
    exact fires
  | some found =>
    obtain ⟨drainPerDay, last⟩ := found
    have drains : 0 < drainPerDay := by
      rw [drainTrend] at trend
      split at trend
      · dsimp only at trend
        split_ifs at trend with short stable
        obtain ⟨rfl, -⟩ := Prod.mk.inj (Option.some.inj trend)
        exact not_le.mp stable
      · cases trend
    rw [trend] at fires
    dsimp only at fires ⊢
    split_ifs at fires with projected
    · have sooner := mul_le_mul_of_nonneg_left further drains.le
      rw [if_pos (by linarith)]
      rfl
    · cases fires

/-- Where a rule fired, one still does. -/
theorem ruleReasons_raised (raises : low.Raises high) {readers : MaintenanceReaders}
    {due : Option Instant} {now : Instant} {drifting : List String}
    (fires : ruleReasons readers battery health low due now drifting ≠ []) :
    ruleReasons readers battery health high due now drifting ≠ [] := by
  intro quiet
  rw [ruleReasons, List.append_eq_nil_iff] at quiet
  obtain ⟨rules, calibrated⟩ := quiet
  have silent : ∀ reason ∈ [batteryReason battery high,
      if (batteryReason battery high).isSome then none else batteryForecastReason battery high,
      healthReason health high, serviceOverdueReason readers due now], reason = none := by
    intro reason member
    cases reason with
    | none => rfl
    | some text =>
      have listed := List.reduceOption_mem_iff.mpr member
      rw [rules] at listed
      cases listed
  have noBattery := silent _ List.mem_cons_self
  have noForecast := silent _ (List.mem_cons_of_mem _ List.mem_cons_self)
  have noHealth := silent _ (List.mem_cons_of_mem _ (List.mem_cons_of_mem _ List.mem_cons_self))
  have noService := silent _ (List.mem_cons_of_mem _ (List.mem_cons_of_mem _
    (List.mem_cons_of_mem _ List.mem_cons_self)))
  rw [noBattery] at noForecast
  have before : batteryReason battery low = none := by
    by_contra some
    have still := batteryReason_raised raises (Option.isSome_iff_ne_none.mpr some)
    rw [noBattery] at still
    cases still
  have forecast : batteryForecastReason battery low = none := by
    by_contra some
    have still := batteryForecastReason_raised raises (Option.isSome_iff_ne_none.mpr some)
    rw [show batteryForecastReason battery high = none from noForecast] at still
    cases still
  have unhealthy : healthReason health low = healthReason health high := by
    obtain ⟨_, _, _, -, -, -, rfl⟩ := raises
    rfl
  apply fires
  rw [ruleReasons, before, forecast, unhealthy, noHealth, noService, calibrated]
  rfl

end Rules

section Composite

variable {low high policy : MonitoringPolicy} {battery health : List Reading}
  {due : Option Instant} {now : Instant} {drifting : List String}

theorem clamp01_mono {x y : ℚ} (le : x ≤ y) : clamp01 x ≤ clamp01 y :=
  max_le_max_left _ (min_le_min_left _ le)

/-- A signal of a raised policy has the same weight and no higher score. -/
def Dims (signal other : ℚ × ℚ) : Prop := other.1 = signal.1 ∧ other.2 ≤ signal.2

theorem forall₂_dims_refl (signals : List (ℚ × ℚ)) : List.Forall₂ Dims signals signals :=
  List.forall₂_same.mpr fun _ _ => ⟨rfl, le_rfl⟩

/-- The battery signal of a raised policy is dimmed. -/
theorem batterySignal_raised (raises : low.Raises high) (composable : low.Composable) :
    ∃ signals others, batterySignal battery low = .ok signals ∧
      batterySignal battery high = .ok others ∧ List.Forall₂ Dims signals others ∧
        ∀ signal ∈ signals, 0 ≤ signal.1 := by
  rw [batterySignal, batterySignal, latestLevel_raised raises]
  obtain ⟨threshold, horizon, composite, more, -, -, rfl⟩ := raises
  cases latestLevel battery low with
  | none => exact ⟨[], [], rfl, rfl, .nil, fun signal member => by cases member⟩
  | some level =>
    have headroom := composable.headroomPct
    have less : (level - threshold) / low.compositeBatteryHeadroomPct ≤
        (level - low.batteryLowThresholdPct) / low.compositeBatteryHeadroomPct :=
      div_le_div_of_nonneg_right (sub_le_sub_left more level) headroom.le
    refine ⟨[(low.compositeWeightBattery, clamp01 ((level - low.batteryLowThresholdPct) /
        low.compositeBatteryHeadroomPct))],
      [(low.compositeWeightBattery, clamp01 ((level - threshold) /
        low.compositeBatteryHeadroomPct))], ?_, ?_, .cons ⟨rfl, clamp01_mono less⟩ .nil,
      fun signal member => ?_⟩
    · dsimp only
      rw [quotient, if_neg headroom.ne']
      rfl
    · dsimp only
      rw [quotient, if_neg headroom.ne']
      rfl
    · obtain rfl := List.mem_singleton.mp member
      exact composable.battery

/-- The other signals do not depend on the tunables. -/
theorem serviceSignal_ok (composable : policy.Composable) :
    ∃ signals, serviceSignal policy due now = .ok signals ∧ ∀ signal ∈ signals, 0 ≤ signal.1 := by
  cases due with
  | none => exact ⟨[], rfl, fun signal member => by cases member⟩
  | some due =>
    rw [serviceSignal, quotient, if_neg composable.headroomDays.ne']
    refine ⟨_, rfl, fun signal member => ?_⟩
    obtain rfl := List.mem_singleton.mp member
    exact composable.service

theorem weight_healthSignal_nonneg (composable : policy.Composable) :
    ∀ signal ∈ healthSignal health policy, 0 ≤ signal.1 := by
  intro signal member
  rw [healthSignal] at member
  split at member
  · cases member
  · split_ifs at member
    · cases member
    · obtain rfl := List.mem_singleton.mp member
      exact composable.health

theorem weight_driftSignal_nonneg (composable : policy.Composable) :
    ∀ signal ∈ driftSignal policy drifting, 0 ≤ signal.1 := by
  intro signal member
  rw [driftSignal] at member
  split_ifs at member
  · cases member
  · obtain rfl := List.mem_singleton.mp member
    exact composable.drift

/-- The signals of a raised policy are dimmed ones, and weights are not negative. -/
theorem compositeSignals_raised (raises : low.Raises high) (composable : low.Composable) :
    ∃ signals others, compositeSignals battery health low due now drifting = .ok signals ∧
      compositeSignals battery health high due now drifting = .ok others ∧
      List.Forall₂ Dims signals others ∧ ∀ signal ∈ signals, 0 ≤ signal.1 := by
  obtain ⟨levels, others, known, dimmed, dims, positive⟩ :=
    @batterySignal_raised low high battery raises composable
  obtain ⟨remaining, scheduled, weighted⟩ := @serviceSignal_ok low due now composable
  have same : healthSignal health high = healthSignal health low ∧
      serviceSignal high due now = serviceSignal low due now ∧
        driftSignal high drifting = driftSignal low drifting := by
    obtain ⟨_, _, _, -, -, -, rfl⟩ := raises
    exact ⟨rfl, rfl, rfl⟩
  refine ⟨levels ++ healthSignal health low ++ remaining ++ driftSignal low drifting,
    others ++ healthSignal health low ++ remaining ++ driftSignal low drifting, ?_, ?_, ?_, ?_⟩
  · rw [compositeSignals, known, scheduled]
    rfl
  · rw [compositeSignals, dimmed, same.2.1, scheduled, same.1, same.2.2]
    rfl
  · exact List.rel_append (List.rel_append (List.rel_append dims (forall₂_dims_refl _))
      (forall₂_dims_refl _)) (forall₂_dims_refl _)
  · intro signal member
    simp only [List.mem_append] at member
    rcases member with ((level | state) | due) | drift
    · exact positive signal level
    · exact weight_healthSignal_nonneg composable signal state
    · exact weighted signal due
    · exact weight_driftSignal_nonneg composable signal drift

/-- Dimmed signals have the same total weight and no higher weighted sum. -/
theorem sums_of_dims {signals others : List (ℚ × ℚ)} (dims : List.Forall₂ Dims signals others)
    (weighted : ∀ signal ∈ signals, 0 ≤ signal.1) :
    (others.map Prod.fst).sum = (signals.map Prod.fst).sum ∧
      (others.map fun signal => signal.1 * signal.2).sum ≤
        (signals.map fun signal => signal.1 * signal.2).sum := by
  induction dims with
  | nil => exact ⟨rfl, le_rfl⟩
  | @cons signal other _ _ dim _ ih =>
    obtain ⟨here, later⟩ := List.forall_mem_cons.mp weighted
    obtain ⟨weights, scores⟩ := ih later
    simp only [List.map_cons, List.sum_cons]
    rw [weights, dim.1]
    exact ⟨rfl, add_le_add (mul_le_mul_of_nonneg_left dim.2 here) scores⟩

/-- A composite score below the threshold falls further below a higher one. -/
theorem compositeReason_raised (raises : low.Raises high) (composable : low.Composable)
    {reason : Option String}
    (found : compositeReason battery health low due now drifting = .ok reason) :
    ∃ other, compositeReason battery health high due now drifting = .ok other ∧
      (reason.isSome = true → other.isSome = true) := by
  obtain ⟨signals, others, known, dimmed, dims, weighted⟩ :=
    @compositeSignals_raised low high battery health due now drifting raises composable
  obtain ⟨weights, scores⟩ := sums_of_dims dims weighted
  have thresholds : low.compositeHealthThreshold ≤ high.compositeHealthThreshold := by
    obtain ⟨_, _, _, -, -, stricter, rfl⟩ := raises
    exact stricter
  rw [compositeReason, known] at found
  rw [compositeReason, dimmed]
  change (if signals.length < compositeMinSignals then Except.ok none else _) = _ at found
  change ∃ other, (if others.length < compositeMinSignals then Except.ok none else _) = _ ∧ _
  rw [← dims.length_eq]
  by_cases few : signals.length < compositeMinSignals
  · rw [if_pos few] at found ⊢
    obtain rfl := Except.ok.inj found
    exact ⟨none, rfl, id⟩
  · rw [if_neg few, compositeScore, quotient] at found
    rw [if_neg few, compositeScore, quotient, weights]
    by_cases weightless : (signals.map Prod.fst).sum = 0
    · rw [if_pos weightless] at found
      cases found
    · have total : 0 < (signals.map Prod.fst).sum := by
        refine lt_of_le_of_ne (List.sum_nonneg ?_) (Ne.symm weightless)
        exact List.forall_mem_map.mpr weighted
      rw [if_neg weightless] at found ⊢
      obtain rfl := Except.ok.inj found
      refine ⟨_, rfl, fun fires => ?_⟩
      have lower := div_le_div_of_nonneg_right scores total.le
      dsimp only at fires ⊢
      split_ifs at fires with below
      · rw [if_pos (lower.trans_lt (below.trans_le thresholds))]
        rfl
      · cases fires

end Composite

section Derivation

variable {readers : MaintenanceReaders} {readings : List Reading} {now : Instant}
  {needs : Dict String (List String)} {asset : MonitoredAsset}

/-- An asset with a reason for service keeps one. -/
theorem serviceReasons_raised {low high : MonitoringPolicy} (raises : low.Raises high)
    (composable : low.Composable) {drifting reasons : List String}
    (found : serviceReasons readers readings asset low now drifting = .ok reasons) :
    ∃ others, serviceReasons readers readings asset high now drifting = .ok others ∧
      (reasons ≠ [] → others ≠ []) := by
  obtain ⟨due, scheduled, found⟩ := Fallible.bind_eq_ok.mp found
  rw [serviceReasons, scheduled]
  generalize series readings asset.assetId metricBatteryLevel = battery at found ⊢
  generalize series readings asset.assetId metricHealthStatus = health at found ⊢
  change ∃ others, (if ruleReasons readers battery health high due now drifting = [] then _
    else _) = _ ∧ _
  by_cases quiet : ruleReasons readers battery health low due now drifting = []
  · rw [if_pos quiet] at found
    obtain ⟨reason, composite, rfl⟩ := Fallible.map_eq_ok.mp found
    by_cases still : ruleReasons readers battery health high due now drifting = []
    · obtain ⟨other, known, fires⟩ := compositeReason_raised raises composable composite
      refine ⟨other.toList, by rw [if_pos still, known]; rfl, fun some => ?_⟩
      cases reason with
      | none => exact absurd rfl some
      | some text =>
        obtain ⟨text', rfl⟩ := Option.isSome_iff_exists.mp (fires rfl)
        exact List.cons_ne_nil _ _
    · exact ⟨_, if_neg still, fun _ => still⟩
  · have still := ruleReasons_raised raises quiet
    exact ⟨_, if_neg still, fun _ => still⟩

/-- An asset with a service task keeps one. -/
theorem deriveServiceTask_raised {low high : MonitoringPolicySpec} (raises : low.Raises high)
    (composable : (low.forAsset asset.assetType asset.assetId).Composable)
    {task : Option ServiceTask}
    (found : deriveServiceTask readers readings now low needs asset = .ok task) :
    ∃ other, deriveServiceTask readers readings now high needs asset = .ok other ∧
      (task.isSome = true → other.isSome = true) := by
  have effective := raises.forAsset asset.assetType asset.assetId
  have mobile : (high.forAsset asset.assetType asset.assetId).monitorMobileAssets =
      (low.forAsset asset.assetType asset.assetId).monitorMobileAssets := by
    obtain ⟨_, _, _, -, -, -, same⟩ := effective
    rw [same]
  rw [deriveServiceTask] at found ⊢
  rw [mobile]
  by_cases skipped : asset.mobility ≠ "stationary" ∧
      (low.forAsset asset.assetType asset.assetId).monitorMobileAssets = false
  · rw [if_pos skipped] at found ⊢
    obtain rfl := Except.ok.inj found
    exact ⟨none, rfl, id⟩
  · rw [if_neg skipped] at found ⊢
    obtain ⟨reasons, derived, rfl⟩ := Fallible.map_eq_ok.mp found
    obtain ⟨others, known, kept⟩ := serviceReasons_raised effective composable derived
    rw [known]
    refine ⟨_, rfl, fun served => ?_⟩
    dsimp only at served ⊢
    by_cases none : reasons = []
    · rw [if_pos none] at served
      cases served
    · rw [if_neg none] at served
      rw [if_neg (kept none)]
      cases anchored : asset.homeDepotRef with
      | none =>
        rw [anchored] at served
        cases served
      | some anchor =>
        rw [anchored] at served
        dsimp only at served ⊢
        split_ifs at served ⊢ with blank
        · cases served
        · rfl

/-- A derived task is named after its asset. -/
theorem taskId_deriveServiceTask {spec : MonitoringPolicySpec} {task : ServiceTask}
    (found : deriveServiceTask readers readings now spec needs asset = .ok (some task)) :
    task.taskId = "service-" ++ asset.assetId := by
  rw [deriveServiceTask] at found
  split_ifs at found with skipped
  · cases found
  · obtain ⟨reasons, -, same⟩ := Fallible.map_eq_ok.mp found
    split_ifs at same
    split at same
    · cases same
    · split_ifs at same
      rw [← Option.some.inj same]
      rfl

/-- Raising the tunables of a policy keeps the service task of every asset that has one. -/
theorem deriveServiceTasks_monotone (readers : MaintenanceReaders) (assets : List MonitoredAsset)
    (readings : List Reading) (now : Instant) (needs : Dict String (List String))
    {low high : MonitoringPolicySpec} (raises : low.Raises high)
    (composable : ∀ asset ∈ assets, (low.forAsset asset.assetType asset.assetId).Composable)
    {tasks : List ServiceTask}
    (derived : deriveServiceTasks readers assets readings now low needs = .ok tasks) :
    ∃ more, deriveServiceTasks readers assets readings now high needs = .ok more ∧
      (tasks.map (·.taskId)).Sublist (more.map (·.taskId)) ∧
      ∀ asset ∈ assets, ∀ task,
        deriveServiceTask readers readings now low needs asset = .ok (some task) →
          ∃ other, deriveServiceTask readers readings now high needs asset = .ok (some other) := by
  obtain ⟨found, each, rfl⟩ := Fallible.map_eq_ok.mp derived
  have pairs := Fallible.mapM_eq_ok.mp each
  clear derived each
  rw [deriveServiceTasks]
  have both : ∃ others, List.Forall₂ (fun asset other =>
      deriveServiceTask readers readings now high needs asset = .ok other) assets others ∧
        (found.reduceOption.map (·.taskId)).Sublist (others.reduceOption.map (·.taskId)) := by
    induction pairs with
    | nil => exact ⟨[], .nil, .slnil⟩
    | @cons asset task _ _ first _ ih =>
      obtain ⟨here, later⟩ := List.forall_mem_cons.mp composable
      obtain ⟨others, rest, below⟩ := ih later
      obtain ⟨other, known, kept⟩ := deriveServiceTask_raised raises here first
      refine ⟨other :: others, .cons known rest, ?_⟩
      cases task with
      | none =>
        rw [List.reduceOption_cons_of_none]
        cases other with
        | none => rwa [List.reduceOption_cons_of_none]
        | some _ =>
          rw [List.reduceOption_cons_of_some]
          exact below.cons _
      | some task =>
        obtain ⟨same, rfl⟩ := Option.isSome_iff_exists.mp (kept rfl)
        rw [List.reduceOption_cons_of_some, List.reduceOption_cons_of_some, List.map_cons,
          List.map_cons, taskId_deriveServiceTask first, taskId_deriveServiceTask known]
        exact below.cons_cons _
  obtain ⟨others, all, below⟩ := both
  refine ⟨others.reduceOption, ?_, below, fun asset member task served => ?_⟩
  · rw [Fallible.mapM_eq_ok.mpr all]
    rfl
  · obtain ⟨other, known, kept⟩ := deriveServiceTask_raised raises (composable asset member) served
    obtain ⟨task', rfl⟩ := Option.isSome_iff_exists.mp (kept rfl)
    exact ⟨task', known⟩

end Derivation

/-- Readers for assets without maintenance data. -/
def plainReaders : MaintenanceReaders where
  parseTime _ := none
  toFloat _ := .error .typeError
  dateText _ := ""

/-- A station whose battery reads 18 percent. -/
def probeStation : MonitoredAsset where
  assetId := "probe-1"
  homeDepotRef := some "depot-1"

def probeReadings : List Reading :=
  [{ entityRef := "probe-1", metric := metricBatteryLevel, value := some 18, observedAt := some 0 }]

/-- The engine's policy, and one that fires earlier. -/
def earlierPolicy : MonitoringPolicySpec where
  batteryLowThresholdPct := 25
  batteryForecastHorizonDays := 5
  compositeHealthThreshold := 1 / 2

theorem deriveServiceTasks_monotone_probe :
    ∃ tasks, deriveServiceTasks plainReaders [probeStation] probeReadings 0 {} .empty = .ok tasks ∧
      tasks.map (·.taskId) = ["service-probe-1"] ∧
      ∃ more, deriveServiceTasks plainReaders [probeStation] probeReadings 0 earlierPolicy .empty =
          .ok more ∧
        (tasks.map (·.taskId)).Sublist (more.map (·.taskId)) ∧
        ∀ asset ∈ [probeStation], ∀ task,
          deriveServiceTask plainReaders probeReadings 0 {} .empty asset = .ok (some task) →
            ∃ other, deriveServiceTask plainReaders probeReadings 0 earlierPolicy .empty asset =
              .ok (some other) := by
  have served : (deriveServiceTasks plainReaders [probeStation] probeReadings 0 {} .empty).map
      (fun tasks => tasks.map (·.taskId)) = .ok ["service-probe-1"] := by decide +kernel
  obtain ⟨tasks, derived, ids⟩ := Fallible.map_eq_ok.mp served
  refine ⟨tasks, derived, ids, deriveServiceTasks_monotone plainReaders [probeStation]
    probeReadings 0 .empty ⟨⟨25, 5, 1 / 2, by decide +kernel, by decide +kernel, by decide +kernel,
      rfl⟩, fun _ => .none, fun _ => .none⟩ ?_ derived⟩
  intro asset member
  obtain rfl := List.mem_singleton.mp member
  exact ⟨by decide +kernel, by decide +kernel, by decide +kernel, by decide +kernel,
    by decide +kernel, by decide +kernel⟩

end FlOp.Snapshot
