import FlOp.Snapshot.PolicyTuning
import Mathlib.Order.Filter.AtTopBot.Basic
import Mathlib.Order.Filter.Finite

/-! # Housekeeping after a drain

A session ends its drain cycles with accuracy, lead times and auto-tuning over the whole logs. The
overlay of one call is where the next one starts, so calls without new records step again, until
every stepped field rests at one of its bounds.
-/

namespace FlOp.Stream

open FlOp.Library FlOp.Snapshot

/-- What housekeeping reads and writes under the quality directory. -/
structure QualityDir where
  prognosisLog : List OutcomeRecord := []
  leadTimeLog : List CompletionRecord := []
  overlay : OverlayFile := .absent
  audit : List TuningRecord := []

section Finalize

variable (settings : TuningSettings) (shown : ℚ → String) (policy : MonitoringPolicySpec)

/-- A changed overlay replaces the file. -/
def writeOverlay (file : OverlayFile) (tuning : Tuning) : OverlayFile :=
  if tuning.changed then .document (tuning.overrides.dump shown) else file

/-- `StreamSession.finalize`; without its log lines. -/
def finalize (dir : QualityDir) : Except OverlayError QualityDir :=
  if settings.autoTuneEnabled then
    (autoTuneMonitoringPolicy settings (prognosisAccuracy dir.prognosisLog) policy dir.overlay
      (leadTimeStats dir.leadTimeLog)).map fun tuning =>
        { dir with
          overlay := writeOverlay shown dir.overlay tuning
          audit := dir.audit ++ tuning.records }
  else .ok dir

/-- The directory after a call; one that raises has written nothing. -/
def finalized (dir : QualityDir) : QualityDir :=
  match finalize settings shown policy dir with
  | .ok written => written
  | .error _ => dir

end Finalize

section Overlay

variable (settings : TuningSettings) (shown : ℚ → String) (policy : MonitoringPolicySpec)
variable (accuracy : Accuracy) (leadTime : Option LeadTimeStats)

/-- What a call does to the overlay file, with the evidence held fixed. -/
def tunedFile (file : OverlayFile) : OverlayFile :=
  if settings.autoTuneEnabled then
    match loadTunedOverrides file with
    | .ok overlay =>
      writeOverlay shown file (tuneOverlay settings accuracy policy leadTime overlay)
    | .error _ => file
  else file

/-- What a call does to a current value. -/
def scopeStep (scope : TuningScope) (field : Tunable) (current : ℚ) : ℚ :=
  (scopeDirection settings accuracy leadTime scope).elim current
    (boundedStep settings field current)

variable {settings}
variable {file : OverlayFile} {overlay : TunedOverlay}

theorem tunedFile_of_disabled (disabled : settings.autoTuneEnabled ≠ true) :
    tunedFile settings shown policy accuracy leadTime file = file := by
  rw [tunedFile, if_neg disabled]

theorem tunedFile_of_error {error : OverlayError}
    (failed : loadTunedOverrides file = .error error) :
    tunedFile settings shown policy accuracy leadTime file = file := by
  rw [tunedFile, failed]
  exact ite_self _

/-- A call leaves an overlay that is read with the stepped values. -/
theorem load_tunedFile (enabled : settings.autoTuneEnabled = true)
    (loaded : loadTunedOverrides file = .ok overlay) : ∃ reread,
    loadTunedOverrides (tunedFile settings shown policy accuracy leadTime file) = .ok reread ∧
      ∀ scope field, reread.current policy scope field =
        scopeStep settings accuracy leadTime scope field (overlay.current policy scope field) := by
  rw [tunedFile, if_pos enabled, loaded]
  dsimp only
  rw [writeOverlay]
  by_cases changed : (tuneOverlay settings accuracy policy leadTime overlay).changed = true
  · rw [if_pos changed]
    obtain ⟨reread, read, same⟩ := load_dump shown
      (tuneOverlay settings accuracy policy leadTime overlay).overrides
    refine ⟨reread, read, fun scope field => ?_⟩
    rw [TunedOverlay.current, Dict.getD, same, scopeStep, ← current_tuneOverlay]
    rfl
  · rw [if_neg changed]
    refine ⟨overlay, loaded, fun scope field => ?_⟩
    rw [scopeStep]
    cases directed : scopeDirection settings accuracy leadTime scope with
    | none => rfl
    | some direction =>
      by_contra moves
      exact changed ((changed_tuneOverlay_iff settings accuracy policy leadTime overlay).mpr
        ⟨scope, direction, field, directed, Ne.symm moves⟩)

/-- A call leaves the file as it is exactly if it steps no value. -/
theorem tunedFile_eq_iff (enabled : settings.autoTuneEnabled = true)
    (loaded : loadTunedOverrides file = .ok overlay) :
    tunedFile settings shown policy accuracy leadTime file = file ↔
      ∀ scope field, scopeStep settings accuracy leadTime scope field
        (overlay.current policy scope field) = overlay.current policy scope field := by
  constructor
  · intro kept scope field
    obtain ⟨reread, read, stepped⟩ := load_tunedFile shown policy accuracy leadTime enabled loaded
    rw [kept, loaded] at read
    rw [← stepped, Except.ok.inj read]
  · intro still
    rw [tunedFile, if_pos enabled, loaded]
    dsimp only
    rw [writeOverlay, if_neg]
    rw [changed_tuneOverlay_iff]
    rintro ⟨scope, direction, field, directed, moves⟩
    have rests := still scope field
    rw [scopeStep, directed] at rests
    exact moves rests

/-- Every call takes the same steps again, from the values that the call before it left. -/
theorem load_iterate_tunedFile (enabled : settings.autoTuneEnabled = true)
    (loaded : loadTunedOverrides file = .ok overlay) (n : ℕ) : ∃ reread,
    loadTunedOverrides ((tunedFile settings shown policy accuracy leadTime)^[n] file) = .ok reread ∧
      ∀ scope field, reread.current policy scope field =
        (scopeStep settings accuracy leadTime scope field)^[n]
          (overlay.current policy scope field) := by
  induction n with
  | zero => exact ⟨overlay, loaded, fun _ _ => rfl⟩
  | succ n ih =>
    obtain ⟨before, read, values⟩ := ih
    obtain ⟨reread, written, stepped⟩ :=
      load_tunedFile shown policy accuracy leadTime enabled read
    refine ⟨reread, ?_, fun scope field => ?_⟩
    · rw [Function.iterate_succ_apply']
      exact written
    · rw [stepped, values, Function.iterate_succ_apply']

/-- Steps of one value end. -/
theorem scopeStep_iterate_rests (scope : TuningScope) (field : Tunable) (current : ℚ) :
    ∃ n, ∀ m, n ≤ m → (scopeStep settings accuracy leadTime scope field)^[m + 1] current =
      (scopeStep settings accuracy leadTime scope field)^[m] current := by
  cases directed : scopeDirection settings accuracy leadTime scope with
  | none =>
    refine ⟨0, fun m _ => ?_⟩
    rw [Function.iterate_succ_apply', scopeStep, directed, Option.elim_none]
  | some direction =>
    have relative : scopeStep settings accuracy leadTime scope field =
        relativeStep field.low field.high (direction.sign * (settings.maxStepPct / 100)) := by
      funext current
      rw [scopeStep, directed, Option.elim_some, boundedStep_eq_relativeStep]
    obtain ⟨goal, n, there⟩ := relativeStep_iterate_rests field.low_pos field.low_lt_high
      (direction.sign * (settings.maxStepPct / 100)) current
    refine ⟨n, fun m later => ?_⟩
    rw [relative, there m later, there (m + 1) (by omega)]

/-- Only the whole fleet and the types of asset with rates have a direction. -/
def tunedScopes : Finset TuningScope :=
  insert .global (accuracy.byAssetType.keys.map TuningScope.assetType).toFinset

theorem scopeStep_of_notMem {scope : TuningScope} (other : scope ∉ tunedScopes accuracy)
    (field : Tunable) (current : ℚ) :
    scopeStep settings accuracy leadTime scope field current = current := by
  rw [scopeStep]
  rcases scope with _ | name
  · exact absurd (Finset.mem_insert_self _ _) other
  · have unknown : accuracy.byAssetType.get? name = none := by
      rw [← Option.not_isSome_iff_eq_none, ← Dict.mem_keys_iff]
      intro known
      refine other (Finset.mem_insert_of_mem ?_)
      rw [List.mem_toFinset]
      exact List.mem_map_of_mem known
    rw [scopeDirection, unknown]
    rfl

/-- Calls without new records end up changing nothing. -/
theorem tunedFile_iterate_rests (enabled : settings.autoTuneEnabled = true)
    (loaded : loadTunedOverrides file = .ok overlay) :
    ∃ n, ∀ m, n ≤ m → (tunedFile settings shown policy accuracy leadTime)^[m + 1] file =
      (tunedFile settings shown policy accuracy leadTime)^[m] file := by
  have ends : ∀ᶠ m in Filter.atTop, ∀ scope ∈ tunedScopes accuracy, ∀ field,
      (scopeStep settings accuracy leadTime scope field)^[m + 1]
        (overlay.current policy scope field) =
      (scopeStep settings accuracy leadTime scope field)^[m]
        (overlay.current policy scope field) := by
    rw [Filter.eventually_all_finset]
    intro scope _
    have each : ∀ᶠ m in Filter.atTop, ∀ field ∈ Tunable.all.toFinset,
        (scopeStep settings accuracy leadTime scope field)^[m + 1]
          (overlay.current policy scope field) =
        (scopeStep settings accuracy leadTime scope field)^[m]
          (overlay.current policy scope field) := by
      rw [Filter.eventually_all_finset]
      intro field _
      exact Filter.eventually_atTop.mpr (scopeStep_iterate_rests accuracy leadTime scope field _)
    exact each.mono fun m rests field => rests field (List.mem_toFinset.mpr field.mem_all)
  obtain ⟨n, rests⟩ := Filter.eventually_atTop.mp ends
  refine ⟨n, fun m later => ?_⟩
  obtain ⟨reread, read, values⟩ :=
    load_iterate_tunedFile shown policy accuracy leadTime enabled loaded m
  rw [Function.iterate_succ_apply', tunedFile_eq_iff shown policy accuracy leadTime enabled read]
  intro scope field
  by_cases tuned : scope ∈ tunedScopes accuracy
  · rw [values]
    exact (Function.iterate_succ_apply' _ _ _).symm.trans (rests m later scope tuned field)
  · exact scopeStep_of_notMem accuracy leadTime tuned field _

/-- The first step of a current value reaches the bound it moves to, or there is no step. -/
def StepSettles (settings : TuningSettings) (field : Tunable) (current : ℚ)
    (direction : TuningDirection) : Prop :=
  let rate := direction.sign * (settings.maxStepPct / 100)
  rate = 0 ∨ (rate < 0 ∧ current + |current| * rate ≤ field.low) ∨
    (0 < rate ∧ field.high ≤ current + |current| * rate)

instance (settings : TuningSettings) (field : Tunable) (current : ℚ)
    (direction : TuningDirection) : Decidable (StepSettles settings field current direction) :=
  inferInstanceAs (Decidable (_ ∨ _))

/-- A second call changes nothing exactly if the values of all directed scopes settle. -/
theorem tunedFile_rests_iff (enabled : settings.autoTuneEnabled = true)
    (loaded : loadTunedOverrides file = .ok overlay) :
    tunedFile settings shown policy accuracy leadTime
        (tunedFile settings shown policy accuracy leadTime file) =
      tunedFile settings shown policy accuracy leadTime file ↔
      ∀ scope direction, scopeDirection settings accuracy leadTime scope = some direction →
        ∀ field, StepSettles settings field (overlay.current policy scope field) direction := by
  obtain ⟨reread, read, stepped⟩ := load_tunedFile shown policy accuracy leadTime enabled loaded
  rw [tunedFile_eq_iff shown policy accuracy leadTime enabled read]
  refine forall_congr' fun scope => ?_
  simp only [stepped, scopeStep]
  cases scopeDirection settings accuracy leadTime scope with
  | none => exact iff_of_true (fun _ => rfl) nofun
  | some direction =>
    have settles (field : Tunable) := relativeStep_rests_iff field.low_pos field.low_lt_high
      (direction.sign * (settings.maxStepPct / 100)) (overlay.current policy scope field)
    simp only [Option.elim_some, boundedStep_eq_relativeStep, settles]
    constructor
    · intro rests other same field
      obtain rfl := Option.some.inj same
      exact rests field
    · exact fun rests field => rests direction rfl field

end Overlay

section Calls

variable (settings : TuningSettings) (shown : ℚ → String) (policy : MonitoringPolicySpec)
variable (dir : QualityDir)

/-- A call steps the overlay with the evidence of the logs and does not write to them. -/
theorem finalized_spec :
    (finalized settings shown policy dir).overlay = tunedFile settings shown policy
      (prognosisAccuracy dir.prognosisLog) (leadTimeStats dir.leadTimeLog) dir.overlay ∧
    (finalized settings shown policy dir).prognosisLog = dir.prognosisLog ∧
    (finalized settings shown policy dir).leadTimeLog = dir.leadTimeLog := by
  rw [finalized, finalize, tunedFile, autoTuneMonitoringPolicy]
  by_cases enabled : settings.autoTuneEnabled = true
  · rw [if_pos enabled, if_pos enabled]
    cases loadTunedOverrides dir.overlay with
    | error error => exact ⟨rfl, rfl, rfl⟩
    | ok overlay => exact ⟨rfl, rfl, rfl⟩
  · rw [if_neg enabled, if_neg enabled]
    exact ⟨rfl, rfl, rfl⟩

theorem iterate_finalized (n : ℕ) :
    ((finalized settings shown policy)^[n] dir).overlay =
      (tunedFile settings shown policy (prognosisAccuracy dir.prognosisLog)
        (leadTimeStats dir.leadTimeLog))^[n] dir.overlay := by
  induction n generalizing dir with
  | zero => rfl
  | succ n ih =>
    obtain ⟨overlay, prognoses, leadTimes⟩ := finalized_spec settings shown policy dir
    rw [Function.iterate_succ_apply, ih, prognoses, leadTimes, overlay,
      ← Function.iterate_succ_apply]

/-- The overlay file after some calls without new records. -/
def overlayAfter (n : ℕ) : OverlayFile := ((finalized settings shown policy)^[n] dir).overlay

def ChangesAtMostOnce : Prop :=
  ∀ i j, overlayAfter settings shown policy dir (i + 1) ≠ overlayAfter settings shown policy dir i →
    overlayAfter settings shown policy dir (j + 1) ≠ overlayAfter settings shown policy dir j →
    i = j

/-- The values of all scopes with a direction settle, if anything is tuned at all. -/
def Settles : Prop :=
  settings.autoTuneEnabled = true → ∀ overlay, loadTunedOverrides dir.overlay = .ok overlay →
    ∀ scope direction, scopeDirection settings (prognosisAccuracy dir.prognosisLog)
      (leadTimeStats dir.leadTimeLog) scope = some direction →
    ∀ field, StepSettles settings field (overlay.current policy scope field) direction

/-- Without new records every call takes the same steps again, from the values that the call before
left. The overlay comes to rest after finitely many calls, and it changes at most once exactly if
the first step of every value reaches its bound. -/
theorem finalize_without_records :
    (settings.autoTuneEnabled = true → ∀ overlay, loadTunedOverrides dir.overlay = .ok overlay →
      ∀ n, ∃ reread,
        loadTunedOverrides (overlayAfter settings shown policy dir n) = .ok reread ∧
        ∀ scope field, reread.current policy scope field =
          (scopeStep settings (prognosisAccuracy dir.prognosisLog) (leadTimeStats dir.leadTimeLog)
            scope field)^[n] (overlay.current policy scope field)) ∧
    (∃ n, ∀ m, n ≤ m → overlayAfter settings shown policy dir (m + 1) =
      overlayAfter settings shown policy dir m) ∧
    (ChangesAtMostOnce settings shown policy dir ↔ Settles settings policy dir) := by
  rw [ChangesAtMostOnce, Settles]
  simp only [overlayAfter, iterate_finalized, changes_once_iff]
  generalize prognosisAccuracy dir.prognosisLog = accuracy
  generalize leadTimeStats dir.leadTimeLog = leadTime
  refine ⟨fun enabled overlay loaded => ?_, ?_⟩
  · exact load_iterate_tunedFile shown policy accuracy leadTime enabled loaded
  by_cases tuned : settings.autoTuneEnabled = true ∧
      ∃ overlay, loadTunedOverrides dir.overlay = .ok overlay
  · obtain ⟨enabled, overlay, loaded⟩ := tuned
    refine ⟨tunedFile_iterate_rests shown policy accuracy leadTime enabled loaded, ?_⟩
    rw [tunedFile_rests_iff shown policy accuracy leadTime enabled loaded]
    constructor
    · intro settles _ other read
      rw [loaded] at read
      rw [← Except.ok.inj read]
      exact settles
    · exact fun settles => settles enabled overlay loaded
  · have fixed : tunedFile settings shown policy accuracy leadTime dir.overlay = dir.overlay := by
      by_cases enabled : settings.autoTuneEnabled = true
      · cases loaded : loadTunedOverrides dir.overlay with
        | error error => exact tunedFile_of_error shown policy accuracy leadTime loaded
        | ok overlay => exact absurd ⟨enabled, overlay, loaded⟩ tuned
      · exact tunedFile_of_disabled shown policy accuracy leadTime enabled
    refine ⟨⟨0, fun m _ => ?_⟩, ?_⟩
    · rw [Function.iterate_fixed fixed, Function.iterate_fixed fixed]
    · rw [fixed, fixed]
      exact iff_of_true rfl fun enabled overlay loaded => absurd ⟨enabled, overlay, loaded⟩ tuned

end Calls

/-- One revision with a service task that stays and one that was withdrawn. -/
def withdrawnHalf : QualityDir where
  prognosisLog :=
    [{ generatedAt := 0
       revisionId := "r1"
       nServiceActive := 1
       nServiceWithdrawn := 1
       nServiceEscalated := 0 }]

/-- The same evidence lowers the forecast horizon twice. -/
theorem withdrawnHalf_steps_twice :
    ¬ ChangesAtMostOnce { autoTuneEnabled := true } toString {} withdrawnHalf := by
  rw [ChangesAtMostOnce]
  simp only [overlayAfter, iterate_finalized, changes_once_iff]
  have loaded : loadTunedOverrides withdrawnHalf.overlay = .ok {} := rfl
  rw [tunedFile_rests_iff toString {} _ _ rfl loaded]
  intro settles
  have horizon := settles .global .tighten (by decide +kernel) .batteryForecastHorizonDays
  exact absurd horizon (by decide +kernel)

end FlOp.Stream
