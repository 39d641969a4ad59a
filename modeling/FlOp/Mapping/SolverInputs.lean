import FlOp.Mapping.CanonicalRows
import FlOp.Mapping.Records

/-! # Solver inputs from a snapshot

The working rows are reconstructed from canonical records: every binding of the selected tables asks
the resolver of its section for the value at its path, and the row class of the section fills in
what no binding gives. A path without a resolution resolves to nothing.
-/

namespace FlOp.Mapping

open Library FlOp.Core

variable {D : Type}

/-- How a resolver shows an attribute in a working row. -/
inductive Render
  | plain
  | iso
  | isoIntervals
  | part (key : String)
  | spanStart
  | spanStop
deriving DecidableEq, Repr

/-- An interval as an ISO-8601 "from/to" text. -/
def Readers.isoInterval (readers : Readers D) : PyValue D → PyValue D
  | .interval start stop =>
    .text (readers.isoformat start ++ "/" ++ (stop.elim "" readers.isoformat))
  | value => value

/-- Show an attribute; one that is absent stays so. -/
def Readers.render (readers : Readers D) : Render → PyValue D → PyValue D
  | .plain, value => value
  | .iso, .time value => .text (readers.isoformat value)
  | .isoIntervals, .list items => .list (items.map readers.isoInterval)
  | .part key, .dict entries => .ofOption (lookupEntry entries key)
  | .spanStart, .interval start _ => .text (readers.isoformat start)
  | .spanStop, .interval _ (some stop) => .text (readers.isoformat stop)
  | _, _ => .null

/-- The attribute a path is resolved to. -/
structure Resolution where
  path : List String
  name : String
  render : Render := .plain
deriving DecidableEq, Repr

/-- The resolution of a path in a table. -/
def Emitted.resolve (emitted : Emitted D) (readers : Readers D) (resolutions : List Resolution)
    (path : List String) : PyValue D :=
  match resolutions.find? fun resolution => resolution.path = path with
  | some resolution => readers.render resolution.render (emitted.get resolution.name)
  | none => .null

def assetResolutions : List Resolution := [
  ⟨["assetId"], "asset_id", .plain⟩,
  ⟨["assetType"], "asset_type", .plain⟩,
  ⟨["name"], "name", .plain⟩,
  ⟨["homeDepotRef"], "home_depot_ref", .plain⟩,
  ⟨["location", "lat"], "location.lat", .plain⟩,
  ⟨["location", "lon"], "location.lon", .plain⟩]

/-- `_asset_value`: capabilities are found by their semantic term. -/
def assetValue (readers : Readers D) (asset : Emitted D) (binding : MetaBinding) : PyValue D :=
  let tokens := dottedTokens binding.binding
  if "capabilities" ∈ tokens ∨ "availability" ∈ tokens then
    .ofOption ((asset.capabilities.find? fun capability =>
      capability.semanticTerm = binding.semanticTerm).map (·.value))
  else asset.resolve readers assetResolutions tokens.tail

def locationResolutions : List Resolution := [
  ⟨["locationId"], "location_id", .plain⟩,
  ⟨["locationType"], "location_type", .plain⟩,
  ⟨["name"], "name", .plain⟩,
  ⟨["lat"], "lat", .plain⟩,
  ⟨["lon"], "lon", .plain⟩,
  ⟨["areaHa"], "area_ha", .plain⟩,
  ⟨["soilType"], "soil_type", .plain⟩,
  ⟨["polygon"], "polygon", .plain⟩,
  ⟨["restrictedOperations"], "restricted_operations", .plain⟩,
  ⟨["restrictionWindows"], "restriction_windows", .isoIntervals⟩]

/-- `inv_lookup.get((location_id, material), 0.0)`; the last position of a material counts. -/
def stockOf (inventory : List InventoryPosition) (locationId material : String) : ℚ :=
  ((inventory.reverse.find? fun position => position.inventoryLocationRef = locationId ∧
    position.materialType = material).map (·.availableQuantity)).getD 0

/-- `_location_value`. -/
def locationValue (readers : Readers D) (inventory : List InventoryPosition) (location : Emitted D)
    (binding : MetaBinding) : PyValue D :=
  let path := (dottedTokens binding.binding).tail
  if path.take 1 = ["inventory"] then
    .float (stockOf inventory (location.text "location_id") (path.getLastD ""))
  else location.resolve readers locationResolutions path

def forecastResolutions : List Resolution := [
  ⟨["forecastId"], "forecast_id", .plain⟩,
  ⟨["location", "lat"], "location", .part "lat"⟩,
  ⟨["location", "lon"], "location", .part "lon"⟩,
  ⟨["forecastFor", "from"], "forecast_for", .spanStart⟩,
  ⟨["forecastFor", "to"], "forecast_for", .spanStop⟩]

/-- `_forecast_value`. -/
def forecastValue (readers : Readers D) (forecast : Emitted D) (binding : MetaBinding) :
    PyValue D :=
  let path := (dottedTokens binding.binding).tail
  if path.take 1 = ["value"] then
    readers.render (.part (path.getLastD "")) (forecast.get "value")
  else forecast.resolve readers forecastResolutions path

/-- `_travel_link_value`. -/
def travelLinkResolutions : List Resolution := [
  ⟨["linkId"], "link_id", .plain⟩,
  ⟨["fromLocationRef"], "from_location_ref", .plain⟩,
  ⟨["toLocationRef"], "to_location_ref", .plain⟩,
  ⟨["travelTimeS"], "travel_time_s", .plain⟩,
  ⟨["distanceKm"], "distance_km", .plain⟩,
  ⟨["networkMode"], "network_mode", .plain⟩,
  ⟨["routeGeometry"], "route_geometry", .plain⟩]

/-- `_cost_rate_value`. -/
def costRateResolutions : List Resolution := [
  ⟨["validFrom"], "valid_from", .iso⟩,
  ⟨["validTo"], "valid_to", .iso⟩,
  ⟨["costRateId"], "cost_rate_id", .plain⟩,
  ⟨["rateType"], "rate_type", .plain⟩,
  ⟨["unitPrice"], "unit_price_eur", .plain⟩,
  ⟨["perUnit"], "per_unit", .plain⟩]

/-- `_task_value`. -/
def taskResolutions : List Resolution := [
  ⟨["taskId"], "task_id", .plain⟩,
  ⟨["orderId"], "order_id", .plain⟩,
  ⟨["alternativeGroupRef"], "alternative_group_ref", .plain⟩,
  ⟨["locationRef"], "location_ref", .plain⟩,
  ⟨["operationType"], "operation_type", .plain⟩,
  ⟨["areaHa"], "area_ha", .plain⟩,
  ⟨["workAreaGeometry"], "work_area_geometry", .plain⟩,
  ⟨["coveredGeometry"], "covered_geometry", .plain⟩,
  ⟨["workQuantity"], "work_quantity", .plain⟩,
  ⟨["workQuantityUnit"], "work_quantity_unit", .plain⟩,
  ⟨["serviceDurationMinutes"], "service_duration_minutes", .plain⟩,
  ⟨["loadDemand"], "load_demand_kg", .plain⟩,
  ⟨["loadMaterial"], "load_material", .plain⟩,
  ⟨["pickupLocationRef"], "pickup_location_ref", .plain⟩,
  ⟨["dependsOnTaskRef"], "depends_on_task_ref", .plain⟩,
  ⟨["penaltyPerDay"], "penalty_per_day_eur", .plain⟩,
  ⟨["priorityClass"], "priority_class", .plain⟩,
  ⟨["status"], "status", .plain⟩,
  ⟨["revenueValue"], "revenue_value_eur", .plain⟩,
  ⟨["deadline"], "deadline", .iso⟩,
  ⟨["timeWindows"], "time_windows", .isoIntervals⟩]

/-- The resolutions of an entity. -/
def entityResolutions (entity : String) : List Resolution :=
  ([("asset", assetResolutions), ("location", locationResolutions), ("task", taskResolutions),
    ("forecast", forecastResolutions), ("travel-link", travelLinkResolutions),
    ("cost-rate", costRateResolutions)].lookup entity).getD []

/-- The value of a record at the path of a binding, by the resolver of its entity. -/
def entityValue (readers : Readers D) (entity : String) (inventory : List InventoryPosition)
    (emitted : Emitted D) (binding : MetaBinding) : PyValue D :=
  if entity = "asset" then assetValue readers emitted binding
  else if entity = "location" then locationValue readers inventory emitted binding
  else if entity = "forecast" then forecastValue readers emitted binding
  else emitted.resolve readers (entityResolutions entity) (dottedTokens binding.binding).tail

/-- A value that is there. -/
def PyValue.present : PyValue D → Option (PyValue D)
  | .null => none
  | value => some value

/-- `_project`: one row by canonical keys; bindings without a key or a value are skipped. -/
def project (valueOf : MetaBinding → PyValue D) (bindings : List MetaBinding) :
    Dict String (PyValue D) :=
  bindings.foldl (fun row binding =>
    match canonicalKey binding.binding, (valueOf binding).present with
    | some key, some value => row.set key value
    | _, _ => row) .empty

/-- `_project_many`: the union over several tables. -/
def projectMany (valueOf : MetaBinding → PyValue D) (tables : List MappingTable) :
    Dict String (PyValue D) :=
  tables.foldl (fun row table => row.update (project valueOf table.bindings)) .empty

/-- What a working row holds by default. -/
def ofDefault : Default → PyValue D
  | .text value => .text value
  | .number value => .float value
  | .null => .null
  | .emptyList => .list []
  | .emptyDict => .dict []

/-- A section of the solver's payload: the entity and the tables it is projected with, the records
it takes and the class of its rows. -/
structure Section (D : Type) where
  name : String
  entity : String
  takesRole : Option String → Bool
  holds : Emitted D → Bool
  rowClass : RowClass

/-- The section of the assets in a role. -/
def assetSection (name role : String) (rowClass : RowClass) : Section D where
  name := name
  entity := "asset"
  takesRole assetRole := assetRole = some role
  holds asset := role ∈ asset.roles
  rowClass := rowClass

/-- The section of an entity without roles. -/
def entitySection (name entity : String) (rowClass : RowClass) : Section D where
  name := name
  entity := entity
  takesRole _ := true
  holds _ := true
  rowClass := rowClass

def sections : List (Section D) := [
  assetSection "prime_movers" "mobile-prime-mover" primeMoverRow,
  assetSection "related_equipment" "implement" relatedRow,
  assetSection "operators" "operator" operatorRow,
  { name := "sites"
    entity := "location"
    takesRole := fun assetRole => assetRole ≠ some "depot"
    holds := fun location => location.text "location_type" ≠ "depot"
    rowClass := siteRow },
  { name := "depots"
    entity := "location"
    takesRole := fun assetRole => assetRole = some "depot"
    holds := fun location => location.text "location_type" = "depot"
    rowClass := depotRow },
  entitySection "tasks" "task" taskRow,
  entitySection "forecasts" "forecast" forecastRow,
  entitySection "travel_links" "travel-link" travelLinkRow,
  entitySection "cost_rates" "cost-rate" costRateRow]

/-- The tables a section is projected with. -/
def Section.tables (own : Section D) (tables : List MappingTable) : List MappingTable :=
  tables.filter fun table => table.canonicalEntity = own.entity ∧ own.takesRole table.assetRole

/-- The canonical records of a snapshot, each with its entity. -/
abbrev Snapshot (D : Type) := List (String × Emitted D)

/-- `map_dataset`: the records of one contract's rows. -/
def mapDataset (readers : Readers D) (table : MappingTable)
    (rows : List (Dict String (PyValue D))) : Option (Snapshot D) :=
  (rows.mapM (mapRow readers table)).map fun mapped =>
    mapped.filterMap (·.map fun emitted => (table.canonicalEntity, emitted))

/-- The records of the rows of several contracts. -/
def mapDatasets (readers : Readers D)
    (datasets : List (MappingTable × List (Dict String (PyValue D)))) : Option (Snapshot D) :=
  (datasets.mapM fun dataset => mapDataset readers dataset.1 dataset.2).map List.flatten

/-- The stock of all locations. -/
def Snapshot.inventory (snapshot : Snapshot D) : List InventoryPosition :=
  snapshot.flatMap (·.2.inventory)

/-- The working row of one record of a section. -/
def Section.row (own : Section D) (readers : Readers D) (tables : List MappingTable)
    (snapshot : Snapshot D) (emitted : Emitted D) : Option (Dict String (PyValue D)) :=
  own.rowClass.fromCanonicalDict ofDefault (projectMany
    (entityValue readers own.entity (Snapshot.inventory snapshot) emitted) (own.tables tables))

/-- The working rows of one section; without a table there are none. -/
def Section.rows (own : Section D) (readers : Readers D) (tables : List MappingTable)
    (snapshot : Snapshot D) : Option (List (Dict String (PyValue D))) :=
  if own.tables tables = [] then some []
  else
    (snapshot.filter fun record => record.1 = own.entity ∧ own.holds record.2).mapM fun record =>
      own.row readers tables snapshot record.2

/-- `build_solver_inputs`: the rows of every section. -/
def buildSolverInputs (readers : Readers D) (tables : List MappingTable) (snapshot : Snapshot D) :
    Option (List (String × List (Dict String (PyValue D)))) :=
  (sections (D := D)).mapM fun own =>
    (own.rows readers tables snapshot).map fun rows => (own.name, rows)

/-- The forward direction of a table, as the raw projection reads it. -/
def MappingTable.toBindingTable (table : MappingTable) : BindingTable where
  canonicalEntity := table.canonicalEntity
  bindings := table.bindings.map (·.toFieldBinding)

/-- The tables by contract. -/
def bindingTables (tables : List MappingTable) : Dict String BindingTable :=
  Dict.collect (·.contractId) (·.toBindingTable) tables

end FlOp.Mapping
