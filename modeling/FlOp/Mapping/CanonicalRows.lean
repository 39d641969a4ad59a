import FlOp.Library.Dict
import Mathlib.Algebra.Order.Ring.Rat
import Mathlib.Data.List.Perm.Subperm

/-! # Binding tables

The canonical mapping of one source contract: which physical column carries which canonical
attribute, which column identifies a row, and how raw metric codes are spelled canonically.
-/

namespace FlOp.Mapping

open Library

/-- A binding from one source field to a canonical attribute path. -/
structure FieldBinding where
  sourceField : String
  binding : String
  planningUse : List String := []
deriving DecidableEq, Repr

structure BindingTable where
  canonicalEntity : String
  bindings : List FieldBinding := []
  metricCodes : Dict String String := .empty

namespace BindingTable

def byBindingPath (table : BindingTable) : Dict String FieldBinding :=
  Dict.collect (·.binding) id table.bindings

/-- The physical column bound to a canonical path, if any. -/
def sourceField (table : BindingTable) (path : String) : Option String :=
  (table.byBindingPath.get? path).map (·.sourceField)

/-- The column of the first identity binding. -/
def entityKeyField (table : BindingTable) : Option String :=
  (table.bindings.find? fun b => "identity" ∈ b.planningUse).map (·.sourceField)

/-- A column name that is usable: present and not empty. -/
def named (field : Option String) : Option String := field.filter (· ≠ "")

end BindingTable

end FlOp.Mapping

/-! # Canonical solver rows

The engine's working rows are keyed by canonical names. A physical row becomes one by renaming its
columns as the contract's bindings say; the row class then keeps its declared fields and fills the
others with their defaults.
-/

namespace FlOp.Mapping

open Library

/-- The working-row key of each canonical attribute path. -/
def canonicalKeys : List (String × String) := [
  ("asset.assetId", "asset_id"),
  ("asset.assetType", "asset_type"),
  ("asset.name", "name"),
  ("asset.homeDepotRef", "home_depot_ref"),
  ("asset.location.lat", "lat"),
  ("asset.location.lon", "lon"),
  ("asset.capabilities.ratedPower", "rated_power"),
  ("asset.capabilities.requiredPower", "required_power"),
  ("asset.capabilities.fuelTankVolume", "fuel_tank_volume"),
  ("asset.capabilities.fuelConsumptionRate", "fuel_consumption_rate"),
  ("asset.capabilities.energyResourceType", "energy_resource_type"),
  ("asset.capabilities.energyUnit", "energy_unit"),
  ("asset.capabilities.energyCapacity", "energy_capacity"),
  ("asset.capabilities.energyConsumptionRate", "energy_consumption_rate"),
  ("asset.capabilities.travelSpeed", "travel_speed"),
  ("asset.capabilities.workingWidth", "working_width"),
  ("asset.capabilities.minOperatingSpeed", "min_speed"),
  ("asset.capabilities.maxOperatingSpeed", "max_speed"),
  ("asset.capabilities.fertilizerCapacity", "material_capacity"),
  ("asset.capabilities.workRates", "work_rates"),
  ("asset.capabilities.loadCapacity", "load_capacity"),
  ("asset.capabilities.loadCapacities", "load_capacities"),
  ("asset.capabilities.machineWearEurPerH", "machine_wear_eur_per_h"),
  ("asset.capabilities.wageEurPerH", "wage_eur_per_h"),
  ("asset.capabilities.compatibleOperations", "compatible_operations"),
  ("asset.capabilities.certifiedOperations", "certified_operations"),
  ("asset.availability.shiftStart", "shift_start"),
  ("asset.availability.shiftEnd", "shift_end"),
  ("location.locationId", "location_id"),
  ("location.locationType", "location_type"),
  ("location.name", "name"),
  ("location.lat", "lat"),
  ("location.lon", "lon"),
  ("location.areaHa", "area"),
  ("location.soilType", "soil_type"),
  ("location.polygon", "polygon"),
  ("location.restrictedOperations", "restricted_operations"),
  ("location.restrictionWindows", "restriction_windows"),
  ("location.inventory.fuel", "inventory_fuel"),
  ("location.inventory.fertilizer", "inventory_material"),
  ("location.inventory.energy", "inventory_energy"),
  ("task.taskId", "task_id"),
  ("task.orderId", "order_ref"),
  ("task.alternativeGroupRef", "alternative_group_ref"),
  ("task.locationRef", "location_ref"),
  ("task.operationType", "operation_type"),
  ("task.areaHa", "area"),
  ("task.workAreaGeometry", "work_area_geometry"),
  ("task.coveredGeometry", "covered_geometry"),
  ("task.workQuantity", "work_quantity"),
  ("task.workQuantityUnit", "work_quantity_unit"),
  ("task.serviceDurationMinutes", "service_duration_min"),
  ("task.timeWindows", "time_windows"),
  ("task.dependsOnTaskRef", "depends_on_task_ref"),
  ("task.loadDemand", "load_demand"),
  ("task.loadMaterial", "load_material"),
  ("task.pickupLocationRef", "pickup_location_ref"),
  ("task.deadline", "deadline"),
  ("task.penaltyPerDay", "penalty_per_day"),
  ("task.priorityClass", "priority_class"),
  ("task.status", "status"),
  ("task.revenueValue", "revenue"),
  ("forecast.forecastId", "forecast_id"),
  ("forecast.location.lat", "lat"),
  ("forecast.location.lon", "lon"),
  ("forecast.forecastFor.from", "valid_from"),
  ("forecast.forecastFor.to", "valid_to"),
  ("forecast.value.windSpeed", "wind_speed"),
  ("forecast.value.precipitationRate", "precipitation_rate"),
  ("forecast.value.soilMoisture", "soil_moisture"),
  ("travelLink.linkId", "link_id"),
  ("travelLink.fromLocationRef", "from_location_ref"),
  ("travelLink.toLocationRef", "to_location_ref"),
  ("travelLink.travelTimeS", "travel_time_s"),
  ("travelLink.distanceKm", "distance_km"),
  ("travelLink.networkMode", "network_mode"),
  ("travelLink.routeGeometry", "route_geometry"),
  ("travelLink.tollEur", "toll_eur"),
  ("costRate.costRateId", "rate_id"),
  ("costRate.rateType", "rate_type"),
  ("costRate.unitPrice", "unit_price"),
  ("costRate.perUnit", "per_unit"),
  ("costRate.validFrom", "valid_from"),
  ("costRate.validTo", "valid_to")]

/-- `_CANONICAL_KEY.get(path)`. -/
def canonicalKey (path : String) : Option String := canonicalKeys.lookup path

/-- What a field of a row class starts from. -/
inductive Default where
  | text (value : String)
  | number (value : ℚ)
  | null
  | emptyList
  | emptyDict
deriving DecidableEq, Repr

/-- A row class: its fields, those without a default being required. -/
structure RowClass where
  fields : Dict String (Option Default)

def primeMoverRow : RowClass where
  fields := ⟨[("asset_id", none), ("asset_type", some (.text "")), ("name", some (.text "")),
    ("home_depot_ref", some (.text "")), ("lat", some (.number 0)),
    ("lon", some (.number 0)), ("rated_power", some (.number 0)),
    ("fuel_tank_volume", some (.number 0)), ("fuel_consumption_rate", some (.number 18)),
    ("energy_resource_type", some (.text "fuel")), ("energy_unit", some (.text "L")),
    ("energy_capacity", some (.number 0)), ("energy_consumption_rate", some (.number 0)),
    ("machine_wear_eur_per_h", some (.number 0)), ("travel_speed", some (.number 15)),
    ("load_capacity", some (.number 0)), ("load_capacities", some .emptyDict),
    ("compatible_operations", some .emptyList)],
    by decide⟩

def relatedRow : RowClass where
  fields := ⟨[("asset_id", none), ("asset_type", some (.text "")), ("name", some (.text "")),
    ("home_depot_ref", some (.text "")), ("required_power", some (.number 0)),
    ("working_width", some (.number 12)), ("min_speed", some (.number 0)),
    ("max_speed", some (.number 8)), ("material_capacity", some (.number 0)),
    ("work_rates", some .emptyDict), ("compatible_operations", some .emptyList)],
    by decide⟩

def operatorRow : RowClass where
  fields := ⟨[("asset_id", none), ("name", some (.text "")), ("home_depot_ref", some (.text "")),
    ("shift_start", some (.text "")), ("shift_end", some (.text "")),
    ("wage_eur_per_h", some (.number 0)), ("certified_operations", some .emptyList)],
    by decide⟩

def siteRow : RowClass where
  fields := ⟨[("location_id", none), ("location_type", some (.text "field")),
    ("name", some (.text "")), ("lat", some (.number 0)), ("lon", some (.number 0)),
    ("area", some (.number 0)), ("soil_type", some (.text "")), ("polygon", some .null),
    ("restricted_operations", some .emptyList), ("restriction_windows", some .emptyList)],
    by decide⟩

def depotRow : RowClass where
  fields := ⟨[("location_id", none), ("name", some (.text "")), ("lat", some (.number 0)),
    ("lon", some (.number 0)), ("inventory_fuel", some (.number 0)),
    ("inventory_material", some (.number 0)), ("inventory_energy", some (.number 0)),
    ("energy_resource_type", some (.text "")), ("energy_unit", some (.text ""))],
    by decide⟩

def forecastRow : RowClass where
  fields := ⟨[("forecast_id", none), ("lat", some (.number 0)), ("lon", some (.number 0)),
    ("valid_from", some .null), ("valid_to", some .null), ("wind_speed", some .null),
    ("precipitation_rate", some .null), ("soil_moisture", some .null)],
    by decide⟩

def travelLinkRow : RowClass where
  fields := ⟨[("link_id", none), ("from_location_ref", some (.text "")),
    ("to_location_ref", some (.text "")), ("travel_time_s", some (.number 0)),
    ("distance_km", some (.number 0)), ("network_mode", some (.text "any")),
    ("route_geometry", some .emptyList), ("toll_eur", some (.number 0))],
    by decide⟩

def costRateRow : RowClass where
  fields := ⟨[("rate_id", none), ("rate_type", some (.text "")), ("unit_price", some (.number 0)),
    ("per_unit", some (.text "")), ("valid_from", some .null), ("valid_to", some .null)],
    by decide⟩

def taskRow : RowClass where
  fields := ⟨[("task_id", none), ("order_ref", some (.text "")),
    ("alternative_group_ref", some (.text "")), ("location_ref", some (.text "")),
    ("operation_type", some (.text "")), ("area", some (.number 0)),
    ("work_area_geometry", some .emptyList), ("covered_geometry", some .emptyList),
    ("work_quantity", some (.number 0)), ("work_quantity_unit", some (.text "")),
    ("service_duration_min", some (.number 0)), ("time_windows", some .emptyList),
    ("depends_on_task_ref", some (.text "")), ("load_demand", some (.number 0)),
    ("load_material", some (.text "")), ("pickup_location_ref", some (.text "")),
    ("deadline", some .null), ("penalty_per_day", some (.number 0)),
    ("priority_class", some (.text "")), ("status", some (.text "")),
    ("revenue", some (.number 0))],
    by decide⟩

/-- The row class of each contract. -/
def contractRowClass : List (String × RowClass) := [
  ("vehicles", primeMoverRow),
  ("implements", relatedRow),
  ("operators", operatorRow),
  ("fields", siteRow),
  ("depots", depotRow),
  ("orders", taskRow),
  ("routes", travelLinkRow),
  ("prices", costRateRow),
  ("machines", primeMoverRow),
  ("attachments", relatedRow),
  ("construction-operators", operatorRow),
  ("sites", siteRow),
  ("yards", depotRow),
  ("jobs", taskRow),
  ("drone-ugvs", primeMoverRow),
  ("drone-uavs", primeMoverRow),
  ("drone-payload-modules", relatedRow),
  ("drone-operators", operatorRow),
  ("drone-logistics-hubs", depotRow),
  ("drone-delivery-locations", siteRow),
  ("drone-restricted-zones", siteRow),
  ("drone-delivery-orders", taskRow),
  ("drone-travel-links", travelLinkRow),
  ("drone-weather", forecastRow),
  ("drone-prices", costRateRow)]

section Projection

variable {α : Type} (ofDefault : Default → α)

/-- Rename the columns that are there; a later binding of the same key replaces an earlier one. -/
def toCanonicalDict (bindings : List FieldBinding) (row : Dict String α) : Dict String α :=
  bindings.foldl (fun out binding =>
    match canonicalKey binding.binding, row.get? binding.sourceField with
    | some key, some value => out.set key value
    | _, _ => out) .empty

/-- The declared fields with their values, or their defaults. -/
def RowClass.fill (cls : RowClass) (data : Dict String α) : Dict String α where
  entries := cls.fields.entries.map fun field =>
    (field.1, (data.get? field.1).getD (ofDefault (field.2.getD .null)))
  nodupKeys := by
    rw [List.map_map]
    exact cls.fields.nodupKeys

/-- `from_canonical_dict`: keys that are no fields are ignored, a required field that is missing
is an error. -/
def RowClass.fromCanonicalDict (cls : RowClass) (data : Dict String α) :
    Option (Dict String α) :=
  if ∀ field ∈ cls.fields.entries, field.2 = none → field.1 ∈ data.keys then
    some (cls.fill ofDefault data)
  else none

/-- `to_canonical_row`: one physical row of a contract as its working row. -/
def toCanonicalRow (tables : Dict String BindingTable) (contractId : String)
    (row : Dict String α) : Option (Dict String α) := do
  let cls ← contractRowClass.lookup contractId
  cls.fromCanonicalDict ofDefault
    (toCanonicalDict ((tables.get? contractId).elim [] (·.bindings)) row)

/-- The projection sees a row by its columns, not by their order. -/
theorem toCanonicalDict_congr (bindings : List FieldBinding) {row other : Dict String α}
    (same : ∀ column, row.get? column = other.get? column) :
    toCanonicalDict bindings row = toCanonicalDict bindings other := by
  simp only [toCanonicalDict, same]

theorem toCanonicalRow_congr (tables : Dict String BindingTable) (contractId : String)
    {row other : Dict String α} (same : ∀ column, row.get? column = other.get? column) :
    toCanonicalRow ofDefault tables contractId row =
      toCanonicalRow ofDefault tables contractId other := by
  simp only [toCanonicalRow, toCanonicalDict_congr _ same]

end Projection

end FlOp.Mapping
