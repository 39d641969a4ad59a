import FlOp.Snapshot.PolicyTuning

/-! # Sizes and directions of tuning steps

A step is part of the current value, but the clamp that follows it may lengthen it or turn it
around where the current value lies outside of the bounds of its field. The reviewed policy and the
overlay are not checked against these bounds.
-/

namespace FlOp.Snapshot

open FlOp.Library FlOp.Stream

section Steps

variable (settings : TuningSettings)
variable (accuracy : Accuracy) (policy : MonitoringPolicySpec) (leadTime : Option LeadTimeStats)

/-- A field that changes moves by a bounded part of its value, and in the given direction. -/
def StepWithin (direction : Option TuningDirection) (before after : ℚ) : Prop :=
  (after ≠ before → |after - before| ≤ |before| * (settings.maxStepPct / 100)) ∧
    (direction = some .tighten → after ≤ before) ∧ (direction = some .loosen → before ≤ after)

/-- A tuning steps every field of every scope so. -/
def BoundedSteps (file : OverlayFile) : Prop :=
  ∀ overlay tuning, loadTunedOverrides file = .ok overlay →
    autoTuneMonitoringPolicy settings accuracy policy file leadTime = .ok tuning →
    ∀ scope field, StepWithin settings (scopeDirection settings accuracy leadTime scope)
      (overlay.current policy scope field) (tuning.overrides.current policy scope field)

/-- The current value and the size of its step fit into the bounds of the field. -/
def StepFits (field : Tunable) (current : ℚ) : TuningDirection → Prop
  | .tighten =>
    if 0 ≤ settings.maxStepPct then
      field.low ≤ current ∧ current - |current| * (settings.maxStepPct / 100) ≤ field.high
    else current = field.high
  | .loosen =>
    if 0 ≤ settings.maxStepPct then
      current ≤ field.high ∧ field.low ≤ current + |current| * (settings.maxStepPct / 100)
    else current = field.low

theorem stepWithin_boundedStep_iff (field : Tunable) (current : ℚ)
    (direction : TuningDirection) :
    StepWithin settings (some direction) current (boundedStep settings field current direction) ↔
      StepFits settings field current direction := by
  have nonneg : 0 ≤ settings.maxStepPct / 100 ↔ 0 ≤ settings.maxStepPct :=
    ⟨fun part => by linarith, fun whole => by linarith⟩
  have ordered := field.low_lt_high.le
  rw [boundedStep_eq_relativeStep, StepWithin]
  cases direction with
  | tighten =>
    have lowers := relativeStep_lowers_iff field.low_pos ordered (settings.maxStepPct / 100) current
    simp only [nonneg] at lowers
    rw [TuningDirection.sign, neg_one_mul, StepFits.eq_1, ← lowers]
    constructor
    · rintro ⟨reach, falls, -⟩ moved
      exact ⟨reach moved, falls rfl⟩
    · intro within
      refine ⟨fun moved => (within moved).1, fun _ => ?_, fun other => by cases other⟩
      by_contra! rises
      exact absurd (within rises.ne').2 rises.not_ge
  | loosen =>
    have raises := relativeStep_raises_iff field.low_pos ordered (settings.maxStepPct / 100) current
    simp only [nonneg] at raises
    rw [TuningDirection.sign, one_mul, StepFits.eq_2, ← raises]
    constructor
    · rintro ⟨reach, -, rises⟩ moved
      exact ⟨reach moved, rises rfl⟩
    · intro within
      refine ⟨fun moved => (within moved).1, fun other => (by cases other), fun _ => ?_⟩
      by_contra! falls
      exact absurd (within falls.ne).2 falls.not_ge

/-- Tuning steps are bounded and directed exactly if, in every scope with a direction, the current
values fit. -/
theorem boundedSteps_iff (file : OverlayFile) :
    BoundedSteps settings accuracy policy leadTime file ↔
      ∀ overlay, loadTunedOverrides file = .ok overlay → ∀ scope direction,
        scopeDirection settings accuracy leadTime scope = some direction →
        ∀ field, StepFits settings field (overlay.current policy scope field) direction := by
  constructor
  · intro bounded overlay loaded scope direction directed field
    have tuned : autoTuneMonitoringPolicy settings accuracy policy file leadTime =
        .ok (tuneOverlay settings accuracy policy leadTime overlay) := by
      rw [autoTuneMonitoringPolicy, loaded]
      rfl
    have within := bounded overlay _ loaded tuned scope field
    rw [current_tuneOverlay, directed] at within
    exact (stepWithin_boundedStep_iff settings field _ direction).mp within
  · intro fits overlay tuning loaded tuned scope field
    obtain rfl : tuneOverlay settings accuracy policy leadTime overlay = tuning := by
      rw [autoTuneMonitoringPolicy, loaded] at tuned
      exact Except.ok.inj tuned
    rw [current_tuneOverlay]
    cases directed : scopeDirection settings accuracy leadTime scope with
    | none => exact ⟨fun moved => absurd rfl moved, nofun, nofun⟩
    | some direction =>
      exact (stepWithin_boundedStep_iff settings field _ direction).mpr
        (fits overlay loaded scope direction directed field)

end Steps

/-- Half of the prognoses were withdrawn. -/
def noisyAccuracy : Accuracy := { nObserved := 10, falsePositiveRate := 1 / 2 }

/-- A reviewed horizon above its bound and a reviewed threshold below its bound. -/
def outlyingPolicy : MonitoringPolicySpec :=
  { batteryForecastHorizonDays := 30, batteryLowThresholdPct := 3 }

/-- Tightening halves the horizon and raises the threshold. -/
theorem outlying_fields_jump :
    (tuneOverlay {} noisyAccuracy outlyingPolicy none {}).overrides.current outlyingPolicy .global
      .batteryForecastHorizonDays = 14 ∧
    (tuneOverlay {} noisyAccuracy outlyingPolicy none {}).overrides.current outlyingPolicy .global
      .batteryLowThresholdPct = 5 ∧
    ¬ BoundedSteps {} noisyAccuracy outlyingPolicy none .absent := by
  have lowered : (tuneOverlay {} noisyAccuracy outlyingPolicy none {}).overrides.current
      outlyingPolicy .global .batteryForecastHorizonDays = 14 := by decide +kernel
  have raised : (tuneOverlay {} noisyAccuracy outlyingPolicy none {}).overrides.current
      outlyingPolicy .global .batteryLowThresholdPct = 5 := by decide +kernel
  refine ⟨lowered, raised, fun bounded => ?_⟩
  have directed : scopeDirection {} noisyAccuracy none .global = some .tighten := by
    decide +kernel
  have falls := (bounded {} _ rfl rfl .global .batteryLowThresholdPct).2.1 directed
  rw [raised] at falls
  exact absurd falls (by decide +kernel)

end FlOp.Snapshot
