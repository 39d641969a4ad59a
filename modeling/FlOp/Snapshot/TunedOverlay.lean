import FlOp.Snapshot.Monitoring
import FlOp.Stream.Broker
import Mathlib.Data.String.Basic
import Mathlib.Tactic.NormNum

/-! # The tuned-policy overlay

Tuned values live in a file of their own, for the whole fleet and for each type of asset, and layer
on the reviewed profile when a policy is loaded. A hand-edited overlay cannot inject other keys:
reading keeps the tunable fields with numeric values only.
-/

namespace FlOp.Snapshot

open FlOp.Library FlOp.Stream

/-- The auto-tunable policy fields, in the order of their names. -/
inductive Tunable where
  | batteryForecastHorizonDays
  | batteryLowThresholdPct
  | compositeHealthThreshold
deriving DecidableEq, Repr

namespace Tunable

def all : List Tunable :=
  [.batteryForecastHorizonDays, .batteryLowThresholdPct, .compositeHealthThreshold]

theorem mem_all (field : Tunable) : field ∈ all := by cases field <;> decide

theorem nodup_all : all.Nodup := by decide

def name : Tunable → String
  | .batteryForecastHorizonDays => "batteryForecastHorizonDays"
  | .batteryLowThresholdPct => "batteryLowThresholdPct"
  | .compositeHealthThreshold => "compositeHealthThreshold"

def ofName : String → Option Tunable
  | "batteryForecastHorizonDays" => some .batteryForecastHorizonDays
  | "batteryLowThresholdPct" => some .batteryLowThresholdPct
  | "compositeHealthThreshold" => some .compositeHealthThreshold
  | _ => none

@[simp] theorem ofName_name (field : Tunable) : ofName field.name = some field := by
  cases field <;> rfl

/-- Lower end of `_TUNABLE_BOUNDS`. -/
def low : Tunable → ℚ
  | .batteryForecastHorizonDays => 1
  | .batteryLowThresholdPct => 5
  | .compositeHealthThreshold => 1 / 10

/-- Upper end of `_TUNABLE_BOUNDS`. -/
def high : Tunable → ℚ
  | .batteryForecastHorizonDays => 14
  | .batteryLowThresholdPct => 40
  | .compositeHealthThreshold => 3 / 5

theorem low_pos (field : Tunable) : 0 < field.low := by cases field <;> norm_num [low]

theorem low_lt_high (field : Tunable) : field.low < field.high := by
  cases field <;> norm_num [low, high]

/-- `getattr(policy, field)`. -/
def ofPolicy (policy : MonitoringPolicy) : Tunable → ℚ
  | .batteryForecastHorizonDays => policy.batteryForecastHorizonDays
  | .batteryLowThresholdPct => policy.batteryLowThresholdPct
  | .compositeHealthThreshold => policy.compositeHealthThreshold

end Tunable

/-- Tuned fields of one scope. -/
abbrev TunedFields := Dict Tunable ℚ

/-- The tuned overrides: global fields and fields of a type of asset. -/
structure TunedOverlay where
  scalars : TunedFields := .empty
  assetTypeOverrides : Dict String TunedFields := .empty
deriving DecidableEq

/-- What is tuned on its own: the whole fleet or one type of asset. -/
inductive TuningScope where
  | global
  | assetType (name : String)
deriving DecidableEq, Repr

/-- The fields of a scope; a missing one has none. -/
def TunedOverlay.fields (overlay : TunedOverlay) : TuningScope → TunedFields
  | .global => overlay.scalars
  | .assetType name => overlay.assetTypeOverrides.getD name .empty

section Files

/-- The content of the overlay file. -/
inductive OverlayFile where
  | absent
  | unreadable
  | undecodable
  | document (raw : Json)

inductive OverlayError where
  | unicodeDecodeError
  | attributeError
deriving DecidableEq, Repr

def assetTypeOverridesKey : String := "assetTypeOverrides"

/-- `float(value)` of what is an instance of `int` or `float`; the truth values are. -/
def numeric : Json → Option ℚ
  | .number value _ => some value
  | .boolean value => some (if value then 1 else 0)
  | _ => none

/-- Keep only known scalar tunable fields with numeric values. -/
def cleanTunables : Json → TunedFields
  | .object fields =>
    Dict.collect Prod.fst Prod.snd <| fields.filterMap fun entry => do
      return (← Tunable.ofName entry.1, ← numeric entry.2)
  | _ => .empty

/-- A type of asset with its tunable fields, if it has any. -/
def cleanType (entry : String × Json) : Option (String × TunedFields) :=
  let cleaned := cleanTunables entry.2
  if cleaned.entries.isEmpty then none else some (entry.1, cleaned)

def cleanTypes (fields : List (String × Json)) : Dict String TunedFields :=
  Dict.collect Prod.fst Prod.snd (fields.filterMap cleanType)

/-- Read the overlay; empty when absent or unreadable. Only errors of reading and of the JSON
syntax are caught. -/
def loadTunedOverrides : OverlayFile → Except OverlayError TunedOverlay
  | .absent | .unreadable => .ok {}
  | .undecodable => .error .unicodeDecodeError
  | .document (.object fields) =>
    let scalars := cleanTunables (.object fields)
    let types := Json.get fields assetTypeOverridesKey .null
    if types.truthy then
      match types with
      | .object byType => .ok { scalars := scalars, assetTypeOverrides := cleanTypes byType }
      | _ => .error .attributeError
    else .ok { scalars := scalars }
  | .document _ => .error .attributeError

variable (shown : ℚ → String)

/-- The fields that are set, by name. -/
def dumpFields (fields : TunedFields) : List (String × Json) :=
  Tunable.all.filterMap fun field =>
    (fields.get? field).map fun value => (field.name, .number value (shown value))

/-- The fields of each type of asset, by its name. -/
def dumpTypes (types : Dict String TunedFields) : List (String × Json) :=
  types.sortKeys.entries.map fun entry => (entry.1, .object (dumpFields shown entry.2))

/-- `json.dumps(overrides, sort_keys=True)`, where `shown` is how a number is written. -/
def TunedOverlay.dump (overlay : TunedOverlay) : Json :=
  let types := dumpTypes shown overlay.assetTypeOverrides
  let scalars := dumpFields shown overlay.scalars
  .object (if types.isEmpty then scalars else (assetTypeOverridesKey, .object types) :: scalars)

/-- Names of fields are told apart from the key of the types of asset. -/
theorem key_bne_name (field : Tunable) : (assetTypeOverridesKey != field.name) = true := by
  cases field <;> decide

theorem mem_dumpFields {fields : TunedFields} {entry : String × Json} :
    entry ∈ dumpFields shown fields ↔ ∃ field value, fields.get? field = some value ∧
      (field.name, Json.number value (shown value)) = entry := by
  simp only [dumpFields, List.mem_filterMap, Option.map_eq_some_iff, Tunable.mem_all, true_and]

/-- Fields are read as they were written. -/
theorem get?_cleanTunables_dumpFields (fields : TunedFields) (field : Tunable) :
    (cleanTunables (.object (dumpFields shown fields))).get? field = fields.get? field := by
  have written : (dumpFields shown fields).filterMap (fun entry => do
      return (← Tunable.ofName entry.1, ← numeric entry.2)) =
      Tunable.all.filterMap fun field => (fields.get? field).map fun value => (field, value) := by
    rw [dumpFields, List.filterMap_filterMap]
    congr 1
    funext field
    cases fields.get? field <;> simp [numeric]
  have nodup : ((Tunable.all.filterMap fun field =>
      (fields.get? field).map fun value => (field, value)).map Prod.fst).Nodup := by
    rw [List.map_filterMap]
    refine Tunable.nodup_all.filterMap fun first second key left right => ?_
    simp only [Option.mem_def, Option.map_eq_some_iff] at left right
    obtain ⟨_, ⟨_, _, rfl⟩, rfl⟩ := left
    obtain ⟨_, ⟨_, _, rfl⟩, rfl⟩ := right
    rfl
  ext value
  change (Dict.collect Prod.fst Prod.snd _).get? field = some value ↔ _
  rw [written, Dict.get?_collect_eq_some_iff nodup]
  simp [Tunable.mem_all]

theorem mem_dumpTypes {types : Dict String TunedFields} {entry : String × Json} :
    entry ∈ dumpTypes shown types ↔ ∃ fields, types.get? entry.1 = some fields ∧
      Json.object (dumpFields shown fields) = entry.2 := by
  simp only [← types.get?_sortKeys, Dict.get?_eq_some_iff]
  rw [dumpTypes, List.mem_map]
  constructor
  · rintro ⟨⟨name, fields⟩, member, rfl⟩
    exact ⟨fields, member, rfl⟩
  · rintro ⟨fields, member, written⟩
    exact ⟨(entry.1, fields), member, Prod.ext rfl written⟩

/-- The fields of each type of asset are read as they were written; a type without any is left
out, which reads the same. -/
theorem get?_cleanTypes_dumpTypes (types : Dict String TunedFields) (assetType : String)
    (field : Tunable) :
    ((cleanTypes (dumpTypes shown types)).getD assetType .empty).get? field =
      (types.getD assetType .empty).get? field := by
  rw [Dict.getD, Dict.getD]
  cases found : (cleanTypes (dumpTypes shown types)).get? assetType with
  | some cleaned =>
    obtain ⟨item, member, rfl, rfl⟩ := Dict.exists_of_get?_collect found
    obtain ⟨⟨name, raw⟩, written, kept⟩ := List.mem_filterMap.mp member
    obtain ⟨fields, stored, rfl⟩ := (mem_dumpTypes shown).mp written
    simp only [cleanType, Option.ite_none_left_eq_some, Option.some.injEq] at kept
    obtain ⟨-, rfl⟩ := kept
    rw [stored]
    exact get?_cleanTunables_dumpFields shown fields field
  | none =>
    cases stored : types.get? assetType with
    | none => rfl
    | some fields =>
      have dropped : (cleanTunables (.object (dumpFields shown fields))).entries.isEmpty := by
        by_contra filled
        have written : (assetType, .object (dumpFields shown fields)) ∈ dumpTypes shown types :=
          (mem_dumpTypes shown).mpr ⟨fields, stored, rfl⟩
        have clean : cleanType (assetType, .object (dumpFields shown fields)) =
            some (assetType, _) := if_neg filled
        have kept := List.mem_filterMap.mpr ⟨_, written, clean⟩
        have some := (Dict.isSome_get?_collect Prod.fst Prod.snd _ assetType).mpr ⟨_, kept, rfl⟩
        change ((cleanTypes _).get? assetType).isSome = true at some
        rw [found] at some
        cases some
      change (Dict.empty : TunedFields).get? field = fields.get? field
      rw [← get?_cleanTunables_dumpFields shown fields, Dict.eq_empty_of_isEmpty dropped]

/-- An overlay is read as it was written. -/
theorem load_dump (overlay : TunedOverlay) : ∃ reread,
    loadTunedOverrides (.document (overlay.dump shown)) = .ok reread ∧
      ∀ scope field, (reread.fields scope).get? field = (overlay.fields scope).get? field := by
  let scalars := cleanTunables (.object (dumpFields shown overlay.scalars))
  let types := cleanTypes (dumpTypes shown overlay.assetTypeOverrides)
  have same (scope : TuningScope) (field : Tunable) :
      (TunedOverlay.fields { scalars := scalars, assetTypeOverrides := types } scope).get? field =
        (overlay.fields scope).get? field := by
    rcases scope with _ | name
    · exact get?_cleanTunables_dumpFields shown overlay.scalars field
    · exact get?_cleanTypes_dumpTypes shown overlay.assetTypeOverrides name field
  refine ⟨{ scalars := scalars, assetTypeOverrides := types }, ?_, same⟩
  rw [TunedOverlay.dump]
  by_cases bare : (dumpTypes shown overlay.assetTypeOverrides).isEmpty
  · have absent : (dumpFields shown overlay.scalars).lookup assetTypeOverridesKey = none := by
      rw [List.lookup_eq_none_iff]
      intro entry member
      obtain ⟨field, value, -, rfl⟩ := (mem_dumpFields shown).mp member
      exact key_bne_name field
    have none : types = .empty := by
      change cleanTypes (dumpTypes shown overlay.assetTypeOverrides) = _
      rw [List.isEmpty_iff.mp bare]
      rfl
    simp only [bare, if_true, loadTunedOverrides, Json.get, absent, Option.getD_none, Json.truthy,
      Bool.false_eq_true, if_false, none]
    rfl
  · simp only [bare, loadTunedOverrides, Json.get, List.lookup_cons_self, Option.getD_some,
      Json.truthy, Bool.not_false, if_true, Bool.false_eq_true, if_false]
    rfl

end Files

section Applying

/-- An override with the tuned fields set. -/
def MonitoringOverride.updated (override : MonitoringOverride) (fields : TunedFields) :
    MonitoringOverride :=
  { override with
    batteryForecastHorizonDays :=
      (fields.get? .batteryForecastHorizonDays).or override.batteryForecastHorizonDays
    batteryLowThresholdPct :=
      (fields.get? .batteryLowThresholdPct).or override.batteryLowThresholdPct
    compositeHealthThreshold :=
      (fields.get? .compositeHealthThreshold).or override.compositeHealthThreshold }

/-- The value a policy has for a field of a scope. -/
def MonitoringPolicySpec.baseValue (policy : MonitoringPolicySpec) : TuningScope → Tunable → ℚ
  | .global => Tunable.ofPolicy policy.toMonitoringPolicy
  | .assetType name => Tunable.ofPolicy (policy.forAssetType name)

/-- Layer the tuned overlay on the reviewed profile policy, field by field. -/
def applyTunedOverrides (policy : MonitoringPolicySpec) (overlay : TunedOverlay) :
    MonitoringPolicySpec :=
  { policy with
    batteryForecastHorizonDays :=
      overlay.scalars.getD .batteryForecastHorizonDays policy.batteryForecastHorizonDays
    batteryLowThresholdPct :=
      overlay.scalars.getD .batteryLowThresholdPct policy.batteryLowThresholdPct
    compositeHealthThreshold :=
      overlay.scalars.getD .compositeHealthThreshold policy.compositeHealthThreshold
    assetTypeOverrides := overlay.assetTypeOverrides.entries.foldl
      (fun merged entry => merged.set entry.1 ((merged.getD entry.1 {}).updated entry.2))
      policy.assetTypeOverrides }

theorem get?_applyTunedOverrides (policy : MonitoringPolicySpec) (overlay : TunedOverlay)
    (name : String) :
    (applyTunedOverrides policy overlay).assetTypeOverrides.get? name =
      (overlay.assetTypeOverrides.get? name).elim (policy.assetTypeOverrides.get? name)
        fun fields => some (((policy.assetTypeOverrides.get? name).getD {}).updated fields) := by
  refine Dict.read_foldl_entries Dict.get?
    (fun _ (override : Option MonitoringOverride) fields =>
      some ((override.getD {}).updated fields)) ?_ _ _ name
  intro merged entry key
  rw [Dict.get?_set]
  by_cases same : key = entry.1
  · rw [if_pos same, if_pos same.symm, same, Dict.getD]
  · rw [if_neg same, if_neg (Ne.symm same)]

theorem ofPolicy_overridden_updated (policy : MonitoringPolicy) (override : MonitoringOverride)
    {fields : TunedFields} {field : Tunable} {value : ℚ} (tuned : fields.get? field = some value) :
    Tunable.ofPolicy (policy.overridden (override.updated fields)) field = value := by
  cases field <;>
    simp [Tunable.ofPolicy, MonitoringPolicy.overridden, MonitoringOverride.updated, tuned]

/-- A tuned field of a scope is the value that the tuned policy has there. -/
theorem getD_fields_applyTunedOverrides (policy : MonitoringPolicySpec) (overlay : TunedOverlay)
    (scope : TuningScope) (field : Tunable) :
    (overlay.fields scope).getD field ((applyTunedOverrides policy overlay).baseValue scope field) =
      (applyTunedOverrides policy overlay).baseValue scope field := by
  cases tuned : (overlay.fields scope).get? field with
  | none => rw [Dict.getD, tuned, Option.getD_none]
  | some value =>
    rw [Dict.getD, tuned, Option.getD_some]
    cases scope with
    | global =>
      change overlay.scalars.get? field = some value at tuned
      cases field <;>
        simp [MonitoringPolicySpec.baseValue, Tunable.ofPolicy, applyTunedOverrides, Dict.getD,
          tuned]
    | assetType name =>
      rw [MonitoringPolicySpec.baseValue, MonitoringPolicySpec.forAssetType,
        get?_applyTunedOverrides]
      change (overlay.assetTypeOverrides.getD name .empty).get? field = some value at tuned
      cases listed : overlay.assetTypeOverrides.get? name with
      | none =>
        rw [Dict.getD, listed] at tuned
        cases tuned
      | some fields =>
        rw [Dict.getD, listed] at tuned
        exact (ofPolicy_overridden_updated _ _ tuned).symm

end Applying

end FlOp.Snapshot
