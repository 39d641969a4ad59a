import FlOp.Library.ClampedSteps
import FlOp.Snapshot.TunedOverlay
import FlOp.Stream.LeadTime
import FlOp.Stream.Prognosis
import Mathlib.Tactic.Ring

/-! # Guarded tuning of the monitoring policy

Accumulated accuracy moves the tunable fields down where too many service prognoses were withdrawn,
and up where too many were escalated or served late. A step is relative to the current value and
clamped to absolute bounds; the stepped values are kept in an overlay over the reviewed profile,
for the whole fleet and for each type of asset.
-/

namespace FlOp.Snapshot

open FlOp.Core FlOp.Library FlOp.Stream

/-- The constants of the environment that tuning reads. -/
structure TuningSettings where
  autoTuneEnabled : Bool := false
  maxStepPct : ℚ := 10
  falsePositiveAlert : ℚ := 3 / 10
  falseNegativeAlert : ℚ := 1 / 5
  lateShareAlert : ℚ := 3 / 10
  leadTimeMinSamples : ℤ := 3
deriving DecidableEq, Repr

/-- Tightening lowers the fields, loosening raises them. -/
inductive TuningDirection where
  | tighten
  | loosen
deriving DecidableEq, Repr

def TuningDirection.sign : TuningDirection → ℚ
  | .tighten => -1
  | .loosen => 1

inductive TuningReason where
  | conflictingSignals
  | falsePositives
  | falseNegatives
  | lateServiceCompletions
  | healthy
deriving DecidableEq, Repr

def TuningReason.text : TuningReason → String
  | .conflictingSignals => "conflicting-signals"
  | .falsePositives => "false-positives"
  | .falseNegatives => "false-negatives"
  | .lateServiceCompletions => "late-service-completions"
  | .healthy => "healthy"

/-- One changed field, as the audit trail shows it. -/
structure Adjustment where
  field : Tunable
  old : ℚ
  new : ℚ
deriving DecidableEq, Repr

/-- One line of the audit trail, without its time. -/
structure TuningRecord where
  scope : String
  reason : String
  falsePositiveRate : ℚ
  falseNegativeRate : ℚ
  serviceLateShare : Option ℚ
  nServiceCompletions : ℤ
  nObserved : ℚ
  adjustments : List Adjustment
deriving DecidableEq, Repr

/-- The value a step of a scope starts from. -/
def TunedOverlay.current (overlay : TunedOverlay) (policy : MonitoringPolicySpec)
    (scope : TuningScope) (field : Tunable) : ℚ :=
  (overlay.fields scope).getD field (policy.baseValue scope field)

/-- Where the policy was loaded with the overlay, the current values are those in force. -/
theorem current_applyTunedOverrides (policy : MonitoringPolicySpec) (overlay : TunedOverlay)
    (scope : TuningScope) (field : Tunable) :
    overlay.current (applyTunedOverrides policy overlay) scope field =
      (applyTunedOverrides policy overlay).baseValue scope field :=
  getD_fields_applyTunedOverrides policy overlay scope field

section Steps

variable (settings : TuningSettings)

/-- One relative step in the given direction, clamped to the field bounds. -/
def boundedStep (field : Tunable) (current : ℚ) (direction : TuningDirection) : ℚ :=
  let step := |current| * settings.maxStepPct / 100
  clamp field.low field.high (current + direction.sign * step)

theorem boundedStep_eq_relativeStep (field : Tunable) (current : ℚ)
    (direction : TuningDirection) :
    boundedStep settings field current direction =
      relativeStep field.low field.high (direction.sign * (settings.maxStepPct / 100)) current := by
  rw [boundedStep, relativeStep]
  congr 1
  ring

/-- Service-completion late share and sample count, trusted past the minimum. -/
def serviceLateness : Option LeadTimeStats → Option ℚ × ℤ
  | none => (none, 0)
  | some leadTime =>
    let n := leadTime.nServiceCompletions
    if n < settings.leadTimeMinSamples then (none, n) else (leadTime.serviceLateShare, n)

/-- Single tuning direction from the available signals. -/
def tuningDirection (fpRate fnRate : ℚ) (lateShare : Option ℚ) :
    Option TuningDirection × TuningReason :=
  let tighten := settings.falsePositiveAlert < fpRate
  let fnHigh := settings.falseNegativeAlert < fnRate
  let lateHigh := ∃ share ∈ lateShare, settings.lateShareAlert < share
  if tighten ∧ (fnHigh ∨ lateHigh) then (none, .conflictingSignals)
  else if tighten then (some .tighten, .falsePositives)
  else if fnHigh then (some .loosen, .falseNegatives)
  else if lateHigh then (some .loosen, .lateServiceCompletions)
  else (none, .healthy)

/-- Step one field and record the change, if there is one. -/
def stepField (baseValue : Tunable → ℚ) (direction : TuningDirection)
    (state : TunedFields × List Adjustment) (field : Tunable) : TunedFields × List Adjustment :=
  let current := state.1.getD field (baseValue field)
  let adjusted := boundedStep settings field current direction
  if adjusted ≠ current then
    (state.1.set field adjusted, state.2 ++ [⟨field, roundTo 4 current, roundTo 4 adjusted⟩])
  else state

/-- Step every tunable field once, recording each change. -/
def applySteps (scope : TunedFields) (baseValue : Tunable → ℚ) (direction : TuningDirection) :
    TunedFields × List Adjustment :=
  Tunable.all.foldl (stepField settings baseValue direction) (scope, [])

/-- Without a direction a scope stays as it is. -/
def steered (scope : TunedFields) (baseValue : Tunable → ℚ) :
    Option TuningDirection → TunedFields × List Adjustment
  | none => (scope, [])
  | some direction => applySteps settings scope baseValue direction

/-- An overlay under tuning, the records of its scopes and whether anything changed. -/
structure Tuning where
  overrides : TunedOverlay
  records : List TuningRecord := []
  changed : Bool := false

/-- Tune the fields of the whole fleet. -/
def tuneGlobal (accuracy : Accuracy) (policy : MonitoringPolicySpec)
    (leadTime : Option LeadTimeStats) (overrides : TunedOverlay) : Tuning :=
  let (lateShare, nService) := serviceLateness settings leadTime
  let (direction, reason) := tuningDirection settings accuracy.falsePositiveRate
    accuracy.falseNegativeRate lateShare
  if direction.isSome ∨ reason = .conflictingSignals then
    let (scope, adjustments) := steered settings overrides.scalars
      (Tunable.ofPolicy policy.toMonitoringPolicy) direction
    { overrides := { overrides with scalars := scope }
      changed := !adjustments.isEmpty
      records :=
        [{ scope := "global"
           reason := reason.text
           falsePositiveRate := roundTo 4 accuracy.falsePositiveRate
           falseNegativeRate := roundTo 4 accuracy.falseNegativeRate
           serviceLateShare := lateShare.map (roundTo 4)
           nServiceCompletions := nService
           nObserved := accuracy.nObserved
           adjustments := adjustments }] }
  else { overrides := overrides }

/-- Tune the fields of one type of asset; a scope without fields is dropped. -/
def tuneAssetType (policy : MonitoringPolicySpec) (tuning : Tuning) (entry : String × Rates) :
    Tuning :=
  let (assetType, rates) := entry
  let (direction, reason) := tuningDirection settings rates.falsePositiveRate
    rates.falseNegativeRate none
  if direction = none ∧ reason ≠ .conflictingSignals then tuning
  else
    let typeScope := tuning.overrides.assetTypeOverrides
    let (scope, adjustments) := steered settings (typeScope.getD assetType .empty)
      (Tunable.ofPolicy (policy.forAssetType assetType)) direction
    { overrides :=
        { tuning.overrides with
          assetTypeOverrides :=
            if scope.entries.isEmpty then typeScope.erase assetType
            else typeScope.set assetType scope }
      changed := tuning.changed || !adjustments.isEmpty
      records := tuning.records ++
        [{ scope := assetType
           reason := reason.text
           falsePositiveRate := roundTo 4 rates.falsePositiveRate
           falseNegativeRate := roundTo 4 rates.falseNegativeRate
           serviceLateShare := none
           nServiceCompletions := 0
           nObserved := rates.nObserved
           adjustments := adjustments }] }

/-- One guarded adjustment of a loaded overlay. -/
def tuneOverlay (accuracy : Accuracy) (policy : MonitoringPolicySpec)
    (leadTime : Option LeadTimeStats) (overrides : TunedOverlay) : Tuning :=
  accuracy.byAssetType.sortKeys.entries.foldl (tuneAssetType settings policy)
    (tuneGlobal settings accuracy policy leadTime overrides)

/-- Read the overlay and tune it. -/
def autoTuneMonitoringPolicy (accuracy : Accuracy) (policy : MonitoringPolicySpec)
    (file : OverlayFile) (leadTime : Option LeadTimeStats) : Except OverlayError Tuning :=
  (loadTunedOverrides file).map (tuneOverlay settings accuracy policy leadTime)

/-- The direction of each scope; only lead times of the whole fleet are measured. -/
def scopeDirection (accuracy : Accuracy) (leadTime : Option LeadTimeStats) :
    TuningScope → Option TuningDirection
  | .global => (tuningDirection settings accuracy.falsePositiveRate accuracy.falseNegativeRate
      (serviceLateness settings leadTime).1).1
  | .assetType name => (accuracy.byAssetType.get? name).bind fun rates =>
      (tuningDirection settings rates.falsePositiveRate rates.falseNegativeRate none).1

section Fields

variable (baseValue : Tunable → ℚ) (direction : TuningDirection)

/-- A step changes the current value of a field. -/
def Moves (scope : TunedFields) (field : Tunable) : Prop :=
  boundedStep settings field (scope.getD field (baseValue field)) direction ≠
    scope.getD field (baseValue field)

instance (scope : TunedFields) : DecidablePred (Moves settings baseValue direction scope) :=
  fun _ => inferInstanceAs (Decidable (_ ≠ _))

variable {settings baseValue direction} in
theorem stepField_of_moves {state : TunedFields × List Adjustment} {field : Tunable}
    (moves : Moves settings baseValue direction state.1 field) :
    let current := state.1.getD field (baseValue field)
    let adjusted := boundedStep settings field current direction
    stepField settings baseValue direction state field =
      (state.1.set field adjusted, state.2 ++ [⟨field, roundTo 4 current, roundTo 4 adjusted⟩]) :=
  if_pos moves

variable {settings baseValue direction} in
theorem stepField_of_rests {state : TunedFields × List Adjustment} {field : Tunable}
    (rests : ¬ Moves settings baseValue direction state.1 field) :
    stepField settings baseValue direction state field = state :=
  if_neg rests

theorem get?_stepField (state : TunedFields × List Adjustment) (field key : Tunable) :
    (stepField settings baseValue direction state field).1.get? key =
      if key = field ∧ Moves settings baseValue direction state.1 key then
        some (boundedStep settings key (state.1.getD key (baseValue key)) direction)
      else state.1.get? key := by
  by_cases moves : Moves settings baseValue direction state.1 field
  · rw [stepField_of_moves moves, Dict.get?_set]
    by_cases same : key = field
    · subst same
      rw [if_pos rfl, if_pos ⟨rfl, moves⟩]
    · rw [if_neg same, if_neg fun both => same both.1]
  · rw [stepField_of_rests moves, if_neg]
    rintro ⟨rfl, moved⟩
    exact moves moved

theorem stepField_snd (state : TunedFields × List Adjustment) (field : Tunable) :
    (stepField settings baseValue direction state field).2 = [] ↔
      state.2 = [] ∧ ¬ Moves settings baseValue direction state.1 field := by
  by_cases moves : Moves settings baseValue direction state.1 field
  · simp only [stepField_of_moves moves, List.append_eq_nil_iff, List.cons_ne_nil, and_false,
      moves, not_true_eq_false]
  · simp only [stepField_of_rests moves, moves, not_false_eq_true, and_true]

/-- Stepping one field does not touch the others. -/
theorem getD_stepField_of_ne (state : TunedFields × List Adjustment) {field key : Tunable}
    (differs : key ≠ field) :
    (stepField settings baseValue direction state field).1.getD key (baseValue key) =
      state.1.getD key (baseValue key) := by
  rw [Dict.getD, get?_stepField, if_neg fun both => differs both.1, Dict.getD]

theorem foldl_stepField {fields : List Tunable} (nodup : fields.Nodup)
    (state : TunedFields × List Adjustment) :
    (∀ key, (fields.foldl (stepField settings baseValue direction) state).1.get? key =
      if key ∈ fields ∧ Moves settings baseValue direction state.1 key then
        some (boundedStep settings key (state.1.getD key (baseValue key)) direction)
      else state.1.get? key) ∧
    ((fields.foldl (stepField settings baseValue direction) state).2 = [] ↔
      state.2 = [] ∧ ∀ field ∈ fields, ¬ Moves settings baseValue direction state.1 field) := by
  induction fields generalizing state with
  | nil => simp
  | cons first rest ih =>
    obtain ⟨fresh, distinct⟩ := List.nodup_cons.mp nodup
    obtain ⟨values, changes⟩ := ih distinct (stepField settings baseValue direction state first)
    have kept {key : Tunable} (later : key ∈ rest) :
        (stepField settings baseValue direction state first).1.getD key (baseValue key) =
          state.1.getD key (baseValue key) :=
      getD_stepField_of_ne settings baseValue direction state fun same => fresh (same ▸ later)
    have movesLater {key : Tunable} (later : key ∈ rest) :
        Moves settings baseValue direction
          (stepField settings baseValue direction state first).1 key ↔
          Moves settings baseValue direction state.1 key := by
      rw [Moves, Moves, kept later]
    refine ⟨fun key => ?_, ?_⟩
    · rw [List.foldl_cons, values]
      by_cases later : key ∈ rest
      · have differs : key ≠ first := fun same => fresh (same ▸ later)
        simp only [later, true_and, movesLater later, kept later, List.mem_cons, or_true,
          get?_stepField, differs, false_and, if_false]
      · simp only [later, false_and, if_false, get?_stepField, List.mem_cons, or_false]
    · rw [List.foldl_cons, changes, stepField_snd, List.forall_mem_cons, and_assoc]
      refine and_congr_right fun _ => and_congr_right fun _ => ?_
      exact forall₂_congr fun field later => not_congr (movesLater later)

end Fields

section Scopes

variable (accuracy : Accuracy) (policy : MonitoringPolicySpec) (leadTime : Option LeadTimeStats)

/-- What happens to the fields of a scope. -/
def steeredScope (overlay : TunedOverlay) (scope : TuningScope) : TunedFields × List Adjustment :=
  steered settings (overlay.fields scope) (policy.baseValue scope)
    (scopeDirection settings accuracy leadTime scope)

theorem tuneGlobal_spec (overlay : TunedOverlay) :
    (tuneGlobal settings accuracy policy leadTime overlay).overrides =
      { overlay with
        scalars := (steeredScope settings accuracy policy leadTime overlay .global).1 } ∧
    ((tuneGlobal settings accuracy policy leadTime overlay).changed = true ↔
      (steeredScope settings accuracy policy leadTime overlay .global).2 ≠ []) := by
  rw [tuneGlobal, steeredScope, scopeDirection, MonitoringPolicySpec.baseValue]
  rcases serviceLateness settings leadTime with ⟨lateShare, n⟩
  dsimp only
  rcases tuningDirection settings accuracy.falsePositiveRate accuracy.falseNegativeRate lateShare
    with ⟨direction, reason⟩
  dsimp only
  by_cases audited : direction.isSome ∨ reason = .conflictingSignals
  · rw [if_pos audited]
    simp [TunedOverlay.fields]
  · rw [if_neg audited]
    obtain rfl : direction = none := by
      cases direction with
      | none => rfl
      | some _ => exact absurd (.inl rfl) audited
    simp [steered, TunedOverlay.fields]

/-- What happens to the fields of a type of asset with some rates. -/
def typeSteps (overlay : TunedOverlay) (entry : String × Rates) : TunedFields × List Adjustment :=
  steered settings (overlay.assetTypeOverrides.getD entry.1 .empty)
    (policy.baseValue (.assetType entry.1))
    (tuningDirection settings entry.2.falsePositiveRate entry.2.falseNegativeRate none).1

theorem tuneAssetType_spec (tuning : Tuning) (entry : String × Rates) :
    (tuneAssetType settings policy tuning entry).overrides.scalars = tuning.overrides.scalars ∧
    (∀ name, (tuneAssetType settings policy tuning entry).overrides.assetTypeOverrides.getD name
      .empty = if entry.1 = name then (typeSteps settings policy tuning.overrides entry).1
        else tuning.overrides.assetTypeOverrides.getD name .empty) ∧
    ((tuneAssetType settings policy tuning entry).changed = true ↔ tuning.changed = true ∨
      (typeSteps settings policy tuning.overrides entry).2 ≠ []) := by
  obtain ⟨assetType, rates⟩ := entry
  rw [tuneAssetType, typeSteps, MonitoringPolicySpec.baseValue]
  dsimp only
  rcases tuningDirection settings rates.falsePositiveRate rates.falseNegativeRate none
    with ⟨direction, reason⟩
  dsimp only
  by_cases skipped : direction = none ∧ reason ≠ .conflictingSignals
  · obtain ⟨rfl, quiet⟩ := skipped
    rw [if_pos ⟨rfl, quiet⟩, steered]
    refine ⟨rfl, fun name => ?_, by simp⟩
    by_cases same : assetType = name
    · rw [if_pos same, same]
    · rw [if_neg same]
  · rw [if_neg skipped]
    refine ⟨rfl, fun name => ?_, by simp⟩
    dsimp only
    generalize steered settings _ _ direction = result
    by_cases bare : result.1.entries.isEmpty
    · rw [if_pos bare, Dict.getD, Dict.get?_erase, Dict.eq_empty_of_isEmpty bare]
      by_cases same : assetType = name
      · rw [if_pos same, if_pos same.symm, Option.getD_none]
      · rw [if_neg same, if_neg (Ne.symm same), Dict.getD]
    · rw [if_neg bare, Dict.getD_set]
      by_cases same : assetType = name
      · rw [if_pos same, if_pos same.symm]
      · rw [if_neg same, if_neg (Ne.symm same)]

theorem getD_tuneAssetType (tuning : Tuning) (entry : String × Rates) (key : String) :
    (tuneAssetType settings policy tuning entry).overrides.assetTypeOverrides.getD key .empty =
      if entry.1 = key then
        (steered settings (tuning.overrides.assetTypeOverrides.getD key .empty)
          (policy.baseValue (.assetType key)) (tuningDirection settings
            entry.2.falsePositiveRate entry.2.falseNegativeRate none).1).1
      else tuning.overrides.assetTypeOverrides.getD key .empty := by
  rw [(tuneAssetType_spec settings policy tuning entry).2.1]
  by_cases same : entry.1 = key
  · rw [if_pos same, if_pos same, ← same]
    rfl
  · rw [if_neg same, if_neg same]

/-- Every scope takes its own steps from its own fields, whatever is stepped before it. -/
theorem fields_tuneOverlay (overlay : TunedOverlay) (scope : TuningScope) :
    (tuneOverlay settings accuracy policy leadTime overlay).overrides.fields scope =
      (steeredScope settings accuracy policy leadTime overlay scope).1 := by
  obtain ⟨first, -⟩ := tuneGlobal_spec settings accuracy policy leadTime overlay
  cases scope with
  | global =>
    have kept (entries : List (String × Rates)) (tuning : Tuning) :
        (entries.foldl (tuneAssetType settings policy) tuning).overrides.scalars =
          tuning.overrides.scalars := by
      induction entries generalizing tuning with
      | nil => rfl
      | cons entry rest ih =>
        rw [List.foldl_cons, ih, (tuneAssetType_spec settings policy tuning entry).1]
    rw [TunedOverlay.fields, tuneOverlay, kept, first]
  | assetType name =>
    have stepped := @Dict.read_foldl_entries _ _ _ _ _
      (fun (tuning : Tuning) key => tuning.overrides.assetTypeOverrides.getD key .empty)
      (tuneAssetType settings policy)
      (fun key fields rates => (steered settings fields (policy.baseValue (.assetType key))
        (tuningDirection settings rates.falsePositiveRate rates.falseNegativeRate none).1).1)
      (getD_tuneAssetType settings policy) accuracy.byAssetType.sortKeys
      (tuneGlobal settings accuracy policy leadTime overlay) name
    rw [Dict.get?_sortKeys, first] at stepped
    rw [TunedOverlay.fields, tuneOverlay, steeredScope, scopeDirection]
    cases listed : accuracy.byAssetType.get? name with
    | none =>
      rw [listed] at stepped
      exact stepped
    | some rates =>
      rw [listed] at stepped
      exact stepped

theorem changed_foldl_tuneAssetType {entries : List (String × Rates)}
    (nodup : (entries.map Prod.fst).Nodup) (tuning : Tuning) :
    (entries.foldl (tuneAssetType settings policy) tuning).changed = true ↔
      tuning.changed = true ∨
        ∃ entry ∈ entries, (typeSteps settings policy tuning.overrides entry).2 ≠ [] := by
  induction entries generalizing tuning with
  | nil => simp
  | cons first rest ih =>
    rw [List.map_cons, List.nodup_cons] at nodup
    obtain ⟨-, types, changes⟩ := tuneAssetType_spec settings policy tuning first
    have later : ∀ entry ∈ rest,
        typeSteps settings policy (tuneAssetType settings policy tuning first).overrides entry =
          typeSteps settings policy tuning.overrides entry := by
      intro entry member
      have differs : first.1 ≠ entry.1 := fun same =>
        nodup.1 (same ▸ List.mem_map_of_mem member)
      rw [typeSteps, typeSteps, types, if_neg differs]
    rw [List.foldl_cons, ih nodup.2, changes, List.exists_mem_cons_iff, or_assoc]
    refine or_congr_right (or_congr_right (exists_congr fun entry => ?_))
    exact and_congr_right fun member => by rw [later entry member]

/-- A tuned overlay counts as changed exactly if some scope changed a field. -/
theorem changed_tuneOverlay (overlay : TunedOverlay) :
    (tuneOverlay settings accuracy policy leadTime overlay).changed = true ↔
      ∃ scope, (steeredScope settings accuracy policy leadTime overlay scope).2 ≠ [] := by
  obtain ⟨overrides, changes⟩ := tuneGlobal_spec settings accuracy policy leadTime overlay
  rw [tuneOverlay, changed_foldl_tuneAssetType settings policy
    accuracy.byAssetType.sortKeys.nodupKeys, changes, overrides]
  constructor
  · rintro (global | ⟨⟨name, rates⟩, member, moved⟩)
    · exact ⟨.global, global⟩
    · have listed := (Dict.get?_eq_some_iff _ _ _).mpr member
      rw [Dict.get?_sortKeys] at listed
      refine ⟨.assetType name, ?_⟩
      rw [steeredScope, scopeDirection, listed]
      exact moved
  · rintro ⟨_ | name, moved⟩
    · exact .inl moved
    · rw [steeredScope, scopeDirection] at moved
      cases listed : accuracy.byAssetType.get? name with
      | none =>
        rw [listed] at moved
        exact absurd rfl moved
      | some rates =>
        rw [listed] at moved
        rw [← Dict.get?_sortKeys] at listed
        exact .inr ⟨(name, rates), (Dict.get?_eq_some_iff _ _ _).mp listed, moved⟩

/-- A directed scope takes one step in every field. -/
theorem current_tuneOverlay (overlay : TunedOverlay) (scope : TuningScope) (field : Tunable) :
    (tuneOverlay settings accuracy policy leadTime overlay).overrides.current policy scope field =
      (scopeDirection settings accuracy leadTime scope).elim (overlay.current policy scope field)
        (boundedStep settings field (overlay.current policy scope field)) := by
  rw [TunedOverlay.current, fields_tuneOverlay, steeredScope]
  cases scopeDirection settings accuracy leadTime scope with
  | none => rfl
  | some direction =>
    obtain ⟨values, -⟩ := foldl_stepField settings (policy.baseValue scope) direction
      Tunable.nodup_all (overlay.fields scope, [])
    rw [Option.elim_some, steered, applySteps, Dict.getD, values]
    by_cases moves : Moves settings (policy.baseValue scope) direction (overlay.fields scope) field
    · rw [if_pos ⟨Tunable.mem_all field, moves⟩]
      rfl
    · rw [if_neg fun both => moves both.2]
      exact (not_not.mp moves).symm

/-- A tuned overlay counts as changed exactly if a step changes a current value. -/
theorem changed_tuneOverlay_iff (overlay : TunedOverlay) :
    (tuneOverlay settings accuracy policy leadTime overlay).changed = true ↔
      ∃ scope direction field, scopeDirection settings accuracy leadTime scope = some direction ∧
        boundedStep settings field (overlay.current policy scope field) direction ≠
          overlay.current policy scope field := by
  rw [changed_tuneOverlay]
  refine exists_congr fun scope => ?_
  rw [steeredScope]
  cases scopeDirection settings accuracy leadTime scope with
  | none => simp [steered]
  | some direction =>
    obtain ⟨-, changes⟩ := foldl_stepField settings (policy.baseValue scope) direction
      Tunable.nodup_all (overlay.fields scope, [])
    simp only [steered, applySteps, ne_eq, changes, true_and, Tunable.mem_all, true_implies,
      not_forall, not_not, Option.some.injEq]
    constructor
    · rintro ⟨field, moves⟩
      exact ⟨direction, field, rfl, moves⟩
    · rintro ⟨_, field, rfl, moves⟩
      exact ⟨field, moves⟩

end Scopes

end Steps

end FlOp.Snapshot
