import FlOp.Core.Numbers
import FlOp.Core.Text
import FlOp.Library.Fallible
import FlOp.Library.Merge
import FlOp.Library.Ordering
import Mathlib.Data.String.Basic

/-! # Optimization profiles

A profile declares what one domain consumes and enforces. The profiles of a shared fleet are
layered onto the first one, each section with a merge rule of its own. Fields a document has
beyond the declared ones travel with their record.
-/

namespace FlOp.Contracts

open Library
open FlOp.Core

/-- Undeclared fields of a document, kept as they are written. -/
abbrev ExtraFields := List (String × String)

structure ProfileMetadata where
  id : String
  version : String
  semanticModelRef : String
  extra : ExtraFields := []
deriving DecidableEq

structure PlanningModeBinding where
  id : String
  adapter : String
deriving DecidableEq

structure ConstraintSpec where
  id : String
  severity : String
  enforced : Bool := false
  extra : ExtraFields := []
deriving DecidableEq

structure ObjectiveSpec where
  mode : String
  priorities : List String
deriving DecidableEq

/-- Partial monitoring policy for one asset type; unset fields inherit. -/
structure MonitoringPolicyOverride where
  batteryLowThresholdPct : Option PyFloat := none
  batteryCriticalThresholdPct : Option PyFloat := none
  batteryForecastHorizonDays : Option PyFloat := none
  minObservationConfidence : Option PyFloat := none
  compositeHealthThreshold : Option PyFloat := none
  compositeWeightBattery : Option PyFloat := none
  compositeWeightHealth : Option PyFloat := none
  compositeWeightService : Option PyFloat := none
  compositeWeightDrift : Option PyFloat := none
  compositeBatteryHeadroomPct : Option PyFloat := none
  compositeServiceHeadroomDays : Option PyFloat := none
  serviceOperationType : Option String := none
  servicePriorityClass : Option ℤ := none
  serviceDeadlineDays : Option ℤ := none
  servicePenaltyPerDayEur : Option PyFloat := none
  serviceNominalAreaHa : Option PyFloat := none
  serviceDurationMinutes : Option PyFloat := none
  escalatedPriorityClass : Option ℤ := none
  escalatedDeadlineDays : Option ℤ := none
  monitorMobileAssets : Option Bool := none
  extra : ExtraFields := []
deriving DecidableEq

/-- Monitoring policy of a profile; the defaults are the engine's. -/
structure MonitoringPolicySpec where
  batteryLowThresholdPct : PyFloat := .number 20
  batteryCriticalThresholdPct : PyFloat := .number 5
  batteryForecastHorizonDays : PyFloat := .number 3
  minObservationConfidence : PyFloat := .number (1 / 2)
  compositeHealthThreshold : PyFloat := .number (7 / 20)
  compositeWeightBattery : PyFloat := .number (7 / 20)
  compositeWeightHealth : PyFloat := .number (7 / 20)
  compositeWeightService : PyFloat := .number (1 / 5)
  compositeWeightDrift : PyFloat := .number (1 / 10)
  compositeBatteryHeadroomPct : PyFloat := .number 30
  compositeServiceHeadroomDays : PyFloat := .number 30
  serviceOperationType : String := "EQUIPMENT_SERVICE"
  servicePriorityClass : ℤ := 2
  serviceDeadlineDays : ℤ := 3
  servicePenaltyPerDayEur : PyFloat := .number 150
  serviceNominalAreaHa : PyFloat := .number 1
  serviceDurationMinutes : PyFloat := .number 45
  escalatedPriorityClass : ℤ := 1
  escalatedDeadlineDays : ℤ := 1
  monitorMobileAssets : Bool := false
  assetTypeOverrides : Dict String MonitoringPolicyOverride := .empty
  assetOverrides : Dict String MonitoringPolicyOverride := .empty
  extra : ExtraFields := []
deriving DecidableEq

/-- Weather limits and the dimensions each operation type is sensitive to. -/
structure WeatherPolicySpec where
  maxWindMs : PyFloat := .number 10
  maxRainMmPerH : PyFloat := .number 5
  maxSoilMoisturePct : PyFloat := .number 85
  sensitivity : Dict String (List String) := .empty
  requireForecastCoverage : Bool := false
  extra : ExtraFields := []
deriving DecidableEq

/-- Consumable demand an operation type places on depot inventory. -/
structure MaterialDemandSpec where
  material : String
  perAreaHa : PyFloat
  extra : ExtraFields := []
deriving DecidableEq

structure AllocationPolicySpec where
  countPriority : PyFloat := .number 1
  extra : ExtraFields := []
deriving DecidableEq

structure PlanningDefaults where
  periodicHorizonDays : Option ℤ := none
  rollingHorizonHours : Option ℤ := none
  freezeWindowMinutes : Option ℤ := none
  maxAssignmentRoutingIterations : Option ℤ := none
  extra : ExtraFields := []
deriving DecidableEq

/-- One profile document. -/
structure OptimizationProfile where
  apiVersion : String
  kind : String
  metadata : ProfileMetadata
  inputContracts : List String := []
  planningModes : List PlanningModeBinding := []
  constraints : List ConstraintSpec := []
  objectives : Option ObjectiveSpec := none
  planningDefaults : Option PlanningDefaults := none
  monitoring : MonitoringPolicySpec := {}
  weatherPolicy : WeatherPolicySpec := {}
  materialDemand : Dict String MaterialDemandSpec := .empty
  allocationPolicy : AllocationPolicySpec := {}
  outputContracts : List String := []
  extra : ExtraFields := []
deriving DecidableEq

/-- `_union_preserving_order`. -/
def unionPreservingOrder (primary secondary : List String) : List String :=
  unionBy id primary secondary

/-- One constraint enters the union: by id, in order of first appearance. -/
def mergeConstraint (state : Dict String ConstraintSpec × List String) (spec : ConstraintSpec) :
    Dict String ConstraintSpec × List String :=
  let (byId, order) := state
  match byId.get? spec.id with
  | none => (byId.set spec.id spec, order ++ [spec.id])
  | some existing =>
    if spec.enforced && !existing.enforced then (byId.set spec.id spec, order)
    else (byId, order)

/-- `_merge_constraints`: union by id; an enforced constraint wins a conflict. -/
def mergeConstraints (primary secondary : List ConstraintSpec) : List ConstraintSpec :=
  let (byId, order) := (primary ++ secondary).foldl mergeConstraint (.empty, [])
  order.filterMap byId.get?

namespace MonitoringPolicySpec

/-- Layer another domain's monitoring policy onto this one: scalars stay, overrides unite. -/
def composedWith (self other : MonitoringPolicySpec) : MonitoringPolicySpec :=
  { self with
    assetTypeOverrides := other.assetTypeOverrides.update self.assetTypeOverrides
    assetOverrides := other.assetOverrides.update self.assetOverrides }

end MonitoringPolicySpec

namespace WeatherPolicySpec

/-- Layer another domain's weather policy onto this one: the lower limit of either holds. -/
def composedWith (self other : WeatherPolicySpec) : WeatherPolicySpec :=
  { self with
    maxWindMs := self.maxWindMs.minimum other.maxWindMs
    maxRainMmPerH := self.maxRainMmPerH.minimum other.maxRainMmPerH
    maxSoilMoisturePct := self.maxSoilMoisturePct.minimum other.maxSoilMoisturePct
    sensitivity := other.sensitivity.update self.sensitivity
    requireForecastCoverage := self.requireForecastCoverage || other.requireForecastCoverage }

end WeatherPolicySpec

namespace OptimizationProfile

def enforcedConstraints (self : OptimizationProfile) : List String :=
  (self.constraints.filter (·.enforced)).map (·.id)

/-- Layer another domain's profile onto this one. Identity, scalar defaults, objectives and the
allocation policy stay. -/
def composedWith (self other : OptimizationProfile) : OptimizationProfile :=
  { self with
    inputContracts := unionPreservingOrder self.inputContracts other.inputContracts
    outputContracts := unionPreservingOrder self.outputContracts other.outputContracts
    planningModes := unionBy (·.id) self.planningModes other.planningModes
    constraints := mergeConstraints self.constraints other.constraints
    monitoring := self.monitoring.composedWith other.monitoring
    weatherPolicy := self.weatherPolicy.composedWith other.weatherPolicy
    materialDemand := other.materialDemand.update self.materialDemand }

end OptimizationProfile

/-- Layer every later profile onto the first. -/
def composite (primary : OptimizationProfile) (rest : List OptimizationProfile) :
    OptimizationProfile :=
  rest.foldl OptimizationProfile.composedWith primary

/-- The registry's profile index: the profile id each domain declares, and the loaded profiles. -/
structure ProfileRegistry where
  domains : Dict String (Option String) := .empty
  profiles : Dict String OptimizationProfile := .empty

namespace ProfileRegistry

def getDomainProfile (registry : ProfileRegistry) (domain : String) :
    Except String (Option String) :=
  match registry.domains.get? domain with
  | none =>
    .error ("Unknown domain '" ++ domain ++ "'; known: " ++
      reprTexts (sortBy id registry.domains.keys))
  | some profileId => .ok profileId

def getProfile (registry : ProfileRegistry) (profileId : String) :
    Except String OptimizationProfile :=
  match registry.profiles.get? profileId with
  | none => .error ("Unknown profile id: " ++ profileId)
  | some profile => .ok profile

/-- The profile ids declared by the given domains, in domain order and without repetition. -/
def domainProfileIds (registry : ProfileRegistry) (domains : List String) :
    Except String (List String) :=
  domains.foldlM
    (fun profileIds domain => do
      match ← registry.getDomainProfile domain with
      | none => return profileIds
      | some profileId =>
        return if profileId ≠ "" ∧ profileId ∉ profileIds then profileIds ++ [profileId]
          else profileIds)
    []

/-- Layer the profiles with the given ids onto a composite. -/
def layer (registry : ProfileRegistry) (primary : OptimizationProfile)
    (profileIds : List String) : Except String OptimizationProfile :=
  profileIds.foldlM
    (fun composite profileId => do
      return composite.composedWith (← registry.getProfile profileId))
    primary

/-- The first declared profile with each later one layered on, if any domain declares one. -/
def compositeProfile (registry : ProfileRegistry) (domains : List String) :
    Except String (Option OptimizationProfile) := do
  match ← registry.domainProfileIds domains with
  | [] => return none
  | first :: rest =>
    let primary ← registry.getProfile first
    return some (← registry.layer primary rest)

theorem mem_of_getProfile {registry : ProfileRegistry} {profileId : String}
    {profile : OptimizationProfile} (loaded : registry.getProfile profileId = .ok profile) :
    profile ∈ registry.profiles.values := by
  unfold getProfile at loaded
  split at loaded
  · cases loaded
  · next stored =>
    cases loaded
    exact List.mem_map.mpr ⟨_, (Dict.get?_eq_some_iff _ _ _).mp stored, rfl⟩

private theorem exists_of_layered {registry : ProfileRegistry} {profileIds : List String}
    {primary composed : OptimizationProfile}
    (layered : registry.layer primary profileIds = .ok composed) :
    ∃ rest, composed = composite primary rest ∧
      ∀ profile ∈ rest, profile ∈ registry.profiles.values := by
  induction profileIds generalizing primary with
  | nil =>
    cases layered
    exact ⟨[], rfl, fun profile member => absurd member List.not_mem_nil⟩
  | cons profileId profileIds ih =>
    unfold layer at layered
    rw [List.foldlM_cons] at layered
    obtain ⟨next, step, later⟩ := Fallible.bind_eq_ok.mp layered
    obtain ⟨profile, loaded, same⟩ := Fallible.bind_eq_ok.mp step
    cases same
    obtain ⟨rest, composed, members⟩ := ih later
    exact ⟨profile :: rest, composed,
      List.forall_mem_cons.mpr ⟨mem_of_getProfile loaded, members⟩⟩

/-- What the registry composes is the composite of loaded profiles. -/
theorem exists_of_compositeProfile {registry : ProfileRegistry} {domains : List String}
    {composed : OptimizationProfile}
    (returned : registry.compositeProfile domains = .ok (some composed)) :
    ∃ primary rest, composed = composite primary rest ∧
      ∀ profile ∈ primary :: rest, profile ∈ registry.profiles.values := by
  obtain ⟨profileIds, -, found⟩ := Fallible.bind_eq_ok.mp returned
  cases profileIds with
  | nil => cases found
  | cons first rest =>
    obtain ⟨primary, loaded, layers⟩ := Fallible.bind_eq_ok.mp found
    obtain ⟨last, layered, same⟩ := Fallible.bind_eq_ok.mp layers
    cases same
    obtain ⟨rest, composed, members⟩ := exists_of_layered layered
    exact ⟨primary, rest, composed, List.forall_mem_cons.mpr ⟨mem_of_getProfile loaded, members⟩⟩

end ProfileRegistry

end FlOp.Contracts
