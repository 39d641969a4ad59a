import FlOp.Contracts.Composition

/-! # What a composite profile enforces

Adding a profile never drops an enforced constraint. Its weather limits only tighten, but the
sensitivity of an operation type is that of the first profile that declares one, so a later
profile's extra weather dimensions count for nothing on a shared operation type.
-/

namespace FlOp.Contracts

open Library
open FlOp.Core

theorem any_enforced_constraintsById (specs : List ConstraintSpec) (id : String) :
    ((constraintsById specs).get? id).any (·.enforced) = true ↔
      ∃ spec ∈ specs, spec.id = id ∧ spec.enforced = true := by
  induction specs using List.reverseRecOn with
  | nil => simp [Dict.collectWith]
  | append_singleton rest spec ih =>
    have collected : constraintsById (rest ++ [spec]) =
        (constraintsById rest).upsert ConstraintSpec.keepEnforced spec.id spec := by
      rw [constraintsById, Dict.collectWith, List.foldl_append]
      rfl
    rw [collected, Dict.get?_upsert]
    by_cases same : id = spec.id
    · rw [if_pos same, Option.any_merge ConstraintSpec.enforced_keepEnforced, ← same,
        Bool.or_eq_true, ih]
      simp [same, or_and_right, exists_or]
    · rw [if_neg same, ih]
      simp [Ne.symm same]

theorem id_of_mem_constraintsById {specs : List ConstraintSpec} {id : String}
    {spec : ConstraintSpec} (stored : (constraintsById specs).get? id = some spec) :
    spec.id = id :=
  Dict.key_of_get?_collectWith (fun _ _ same => ConstraintSpec.keepEnforced_id same) stored

/-- A union of constraints enforces what either list does. -/
theorem enforced_mergeConstraints (primary secondary : List ConstraintSpec) (id : String) :
    (∃ spec ∈ mergeConstraints primary secondary, spec.id = id ∧ spec.enforced = true) ↔
      ∃ spec ∈ primary ++ secondary, spec.id = id ∧ spec.enforced = true := by
  rw [mergeConstraints_eq, ← any_enforced_constraintsById (primary ++ secondary), Option.any_eq_true]
  constructor
  · rintro ⟨spec, member, rfl, enforced⟩
    obtain ⟨⟨key, _⟩, entry, rfl⟩ := List.mem_map.mp member
    have stored := (Dict.get?_eq_some_iff _ key _).mpr entry
    obtain rfl := id_of_mem_constraintsById stored
    exact ⟨_, stored, enforced⟩
  · rintro ⟨spec, stored, enforced⟩
    have entry := (Dict.get?_eq_some_iff _ _ _).mp stored
    exact ⟨spec, List.mem_map.mpr ⟨_, entry, rfl⟩, id_of_mem_constraintsById stored, enforced⟩

theorem OptimizationProfile.mem_enforcedConstraints {profile : OptimizationProfile}
    {id : String} : id ∈ profile.enforcedConstraints ↔
      ∃ spec ∈ profile.constraints, spec.id = id ∧ spec.enforced = true := by
  simp only [enforcedConstraints, List.mem_map, List.mem_filter]
  constructor
  · rintro ⟨spec, ⟨member, enforced⟩, same⟩
    exact ⟨spec, member, same, enforced⟩
  · rintro ⟨spec, member, same, enforced⟩
    exact ⟨spec, ⟨member, enforced⟩, same⟩

theorem OptimizationProfile.mem_enforcedConstraints_composedWith
    (self other : OptimizationProfile) (id : String) :
    id ∈ (self.composedWith other).enforcedConstraints ↔
      id ∈ self.enforcedConstraints ∨ id ∈ other.enforcedConstraints := by
  simp only [mem_enforcedConstraints]
  refine (enforced_mergeConstraints _ _ id).trans ?_
  simp only [List.mem_append, or_and_right, exists_or]

/-- A composite enforces exactly what its members do. -/
theorem mem_enforcedConstraints_composite (primary : OptimizationProfile)
    (rest : List OptimizationProfile) (id : String) :
    id ∈ (composite primary rest).enforcedConstraints ↔
      ∃ member ∈ primary :: rest, id ∈ member.enforcedConstraints := by
  induction rest generalizing primary with
  | nil => simp [composite]
  | cons next rest ih =>
    have step := ih (primary.composedWith next)
    simp only [List.exists_mem_cons_iff,
      OptimizationProfile.mem_enforcedConstraints_composedWith, or_assoc] at step ⊢
    exact step

/-- What a forecast window says about the weather; a missing reading blocks nothing. -/
structure WeatherForecast where
  windSpeed : Option PyFloat := none
  precipitationRate : Option PyFloat := none
  soilMoisture : Option PyFloat := none

/-- A reading is there and above the limit. -/
def exceeds (reading : Option PyFloat) (limit : PyFloat) : Bool :=
  reading.any fun value => limit.lt value

/-- `_window_ok`. -/
def windowOk (forecast : WeatherForecast) (dims : List String) (weather : WeatherPolicySpec) :
    Bool :=
  if "wind" ∈ dims ∧ exceeds forecast.windSpeed weather.maxWindMs then false
  else if "rain" ∈ dims ∧ exceeds forecast.precipitationRate weather.maxRainMmPerH then false
  else if "soil-moisture" ∈ dims ∧ exceeds forecast.soilMoisture weather.maxSoilMoisturePct then
    false
  else true

/-- The weather dimensions a sensitivity list may name. -/
def weatherDimensions : List String := ["wind", "rain", "soil-moisture"]

namespace WeatherPolicySpec

/-- The dimensions that can block an operation type; none without an entry. -/
def dims (weather : WeatherPolicySpec) (operationType : String) : List String :=
  weather.sensitivity.getD operationType []

/-- The policy rejects a forecast for an operation type. -/
def rejects (weather : WeatherPolicySpec) (operationType : String) (forecast : WeatherForecast) :
    Bool :=
  !windowOk forecast (weather.dims operationType) weather

end WeatherPolicySpec

theorem windowOk_eq_false {forecast : WeatherForecast} {dims : List String}
    {weather : WeatherPolicySpec} :
    windowOk forecast dims weather = false ↔
      ("wind" ∈ dims ∧ exceeds forecast.windSpeed weather.maxWindMs) ∨
      ("rain" ∈ dims ∧ exceeds forecast.precipitationRate weather.maxRainMmPerH) ∨
      ("soil-moisture" ∈ dims ∧ exceeds forecast.soilMoisture weather.maxSoilMoisturePct) := by
  unfold windowOk
  split_ifs <;> simp_all

/-- The dimensions declared for an operation type by the first profile that declares any. -/
def firstDims (members : List OptimizationProfile) (operationType : String) : List String :=
  (members.findSome? fun member => member.weatherPolicy.sensitivity.get? operationType).getD []

/-- Every weather dimension a member names for an operation is named by the first profile with an
entry for it. -/
def CoveredByFirst (members : List OptimizationProfile) (operationType : String)
    (member : OptimizationProfile) : Prop :=
  ∀ dim ∈ weatherDimensions, dim ∈ member.weatherPolicy.dims operationType →
    dim ∈ firstDims members operationType

/-- A composite is sensitive as the first profile with an entry is. -/
theorem dims_composite (primary : OptimizationProfile) (rest : List OptimizationProfile)
    (operationType : String) :
    (composite primary rest).weatherPolicy.dims operationType =
      firstDims (primary :: rest) operationType := by
  suffices found : (composite primary rest).weatherPolicy.sensitivity.get? operationType =
      (primary :: rest).findSome? fun member =>
        member.weatherPolicy.sensitivity.get? operationType by
    rw [WeatherPolicySpec.dims, Dict.getD, found, firstDims]
  induction rest generalizing primary with
  | nil => simp [composite]
  | cons next rest ih =>
    have step := ih (primary.composedWith next)
    have united : (primary.composedWith next).weatherPolicy.sensitivity.get? operationType =
        (primary.weatherPolicy.sensitivity.get? operationType).or
          (next.weatherPolicy.sensitivity.get? operationType) := Dict.get?_update _ _ _
    refine step.trans ?_
    simp only [List.findSome?_cons, united]
    cases primary.weatherPolicy.sensitivity.get? operationType <;> rfl

/-- A limit that merges by the minimum is exceeded in the composite where it is in a member,
unless the first profile's is `nan`. -/
theorem exceeds_composite (limit : WeatherPolicySpec → PyFloat)
    (merges : ∀ a b, limit (a.composedWith b) = (limit a).minimum (limit b))
    {primary member : OptimizationProfile} {rest : List OptimizationProfile}
    (numeric : limit primary.weatherPolicy ≠ .nan) (listed : member ∈ primary :: rest)
    {reading : Option PyFloat} (above : exceeds reading (limit member.weatherPolicy)) :
    exceeds reading (limit (composite primary rest).weatherPolicy) := by
  induction rest generalizing primary member with
  | nil =>
    obtain rfl := List.mem_singleton.mp listed
    exact above
  | cons next rest ih =>
    have numericNext : limit (primary.composedWith next).weatherPolicy ≠ .nan := by
      rw [OptimizationProfile.composedWith, merges]
      exact PyFloat.minimum_ne_nan numeric _
    have tightens : exceeds reading (limit primary.weatherPolicy) ∨
        exceeds reading (limit next.weatherPolicy) →
        exceeds reading (limit (primary.composedWith next).weatherPolicy) := by
      simp only [exceeds, Option.any_eq_true]
      rw [OptimizationProfile.composedWith, merges]
      rintro (⟨value, read, lower⟩ | ⟨value, read, lower⟩)
      · exact ⟨value, read, PyFloat.minimum_lt numeric (.inl lower)⟩
      · exact ⟨value, read, PyFloat.minimum_lt numeric (.inr lower)⟩
    rcases List.mem_cons.mp listed with rfl | later
    · exact ih numericNext List.mem_cons_self (tightens (.inl above))
    · rcases List.mem_cons.mp later with rfl | inRest
      · exact ih numericNext List.mem_cons_self (tightens (.inr above))
      · exact ih numericNext (List.mem_cons_of_mem _ inRest) above

/-- A composite rejects what a member rejects, if the sensitivity it keeps names the member's
dimensions. -/
theorem rejects_composite {primary member : OptimizationProfile}
    {rest : List OptimizationProfile} (numeric : primary.weatherPolicy.LimitsNumeric)
    (listed : member ∈ primary :: rest) {operationType : String} {forecast : WeatherForecast}
    (covered : CoveredByFirst (primary :: rest) operationType member)
    (rejected : member.weatherPolicy.rejects operationType forecast) :
    (composite primary rest).weatherPolicy.rejects operationType forecast := by
  unfold WeatherPolicySpec.rejects at rejected ⊢
  rw [Bool.not_eq_true', windowOk_eq_false] at rejected ⊢
  rw [dims_composite]
  obtain ⟨windNumeric, rainNumeric, soilNumeric⟩ := numeric
  rcases rejected with ⟨named, above⟩ | ⟨named, above⟩ | ⟨named, above⟩
  · exact .inl ⟨covered _ (by decide) named,
      exceeds_composite (·.maxWindMs) (fun _ _ => rfl) windNumeric listed above⟩
  · exact .inr (.inl ⟨covered _ (by decide) named,
      exceeds_composite (·.maxRainMmPerH) (fun _ _ => rfl) rainNumeric listed above⟩)
  · exact .inr (.inr ⟨covered _ (by decide) named,
      exceeds_composite (·.maxSoilMoisturePct) (fun _ _ => rfl) soilNumeric listed
        above⟩)

/-- A profile with one weather-sensitive operation. -/
def sensitiveTo (operationType : String) (dims : List String) : OptimizationProfile where
  apiVersion := "x-optimization/v0.1.0"
  kind := "OptimizationProfile"
  metadata := { id := "p", version := "0.1.0", semanticModelRef := "urn:m" }
  weatherPolicy := { sensitivity := Dict.empty.set operationType dims }

/-- A composite never drops a constraint a member enforces, and it rejects a forecast a member
rejects wherever the sensitivity it keeps for the operation names the member's dimensions. -/
theorem composite_keeps_members (primary : OptimizationProfile)
    (rest : List OptimizationProfile) :
    (∀ member ∈ primary :: rest, ∀ id ∈ member.enforcedConstraints,
      id ∈ (composite primary rest).enforcedConstraints) ∧
    (primary.weatherPolicy.LimitsNumeric →
      ∀ member ∈ primary :: rest, ∀ operationType forecast,
        CoveredByFirst (primary :: rest) operationType member →
        member.weatherPolicy.rejects operationType forecast →
        (composite primary rest).weatherPolicy.rejects operationType forecast) := by
  refine ⟨fun member listed id enforced => ?_, fun numeric member listed operationType forecast
    covered rejected => rejects_composite numeric listed covered rejected⟩
  exact (mem_enforcedConstraints_composite primary rest id).mpr ⟨member, listed, enforced⟩

/-- A second profile that names fewer dimensions is covered by the first. -/
theorem composite_keeps_members_spraying :
    let primary := sensitiveTo "SPRAYING" ["wind", "rain"]
    let member := sensitiveTo "SPRAYING" ["rain"]
    (composite primary [member]).weatherPolicy.rejects "SPRAYING"
      { precipitationRate := some (.number 9) } := by
  refine (composite_keeps_members (sensitiveTo "SPRAYING" ["wind", "rain"])
    [sensitiveTo "SPRAYING" ["rain"]]).2 ?_ (sensitiveTo "SPRAYING" ["rain"]) (by simp) _ _ ?_ ?_
  · exact ⟨by decide, by decide, by decide⟩
  · unfold CoveredByFirst
    decide +kernel
  · decide +kernel

/-- A second profile's rain sensitivity is lost on an operation the first ties to wind only. -/
theorem composite_relaxes_shared_operation :
    ¬ ∀ (primary : OptimizationProfile) (rest : List OptimizationProfile),
      ∀ member ∈ primary :: rest, ∀ operationType forecast,
        member.weatherPolicy.rejects operationType forecast →
        (composite primary rest).weatherPolicy.rejects operationType forecast := by
  intro keeps
  have rejected := keeps (sensitiveTo "SPRAYING" ["wind"]) [sensitiveTo "SPRAYING" ["rain"]]
    (sensitiveTo "SPRAYING" ["rain"]) (by simp) "SPRAYING"
    { precipitationRate := some (.number 9) } (by decide +kernel)
  revert rejected
  decide +kernel

end FlOp.Contracts
