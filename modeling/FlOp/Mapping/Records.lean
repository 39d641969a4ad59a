import FlOp.Mapping.Accumulator

/-! # Canonical records

Each canonical entity is built from the accumulated row attribute by attribute: a key of the row is
converted to the type the record declares, and an absent one falls to the default of the attribute
or raises. A record is built only if all of its attributes are.
-/

namespace FlOp.Mapping

open Library FlOp.Core

variable {D : Type}

/-- The declared types of record attributes. -/
inductive RecordType
  | any
  | text
  | textOr (fallback : String)
  | textOrRole
  | reference
  | plainText
  | number
  | tollAmount
  | whole
  | wholeNumber
  | minutes
  | timestamp
  | intervals
  | polygon
  | polyline
  | texts
  | coordinate (key : String)
  | floatDict
  | span
  | anyDict
deriving DecidableEq, Repr

/-- The type of a location without one of its own: the role of its mapping. -/
def fallbackLocationType (assetRole : Option String) : String :=
  match assetRole with
  | some role => if role = "" then "field" else role
  | none => "field"

namespace Readers

variable (readers : Readers D)

/-- One ISO-8601 "from/to" item; a malformed one is skipped. -/
def parseTimeInterval (item : PyValue D) : Option (PyValue D) :=
  let text := (readers.toText item).toList
  let start := text.takeWhile (· ≠ '/')
  match text.dropWhile (· ≠ '/') with
  | [] => none
  | _ :: stop =>
    if start = [] then none
    else
      (readers.validTime (.text (String.ofList start))).bind fun first =>
        if stop = [] then some (.interval first none)
        else (readers.validTime (.text (String.ofList stop))).map fun last =>
          .interval first (some last)

/-- Parse interval strings, skipping malformed ones. -/
def parseTimeIntervals (raw : PyValue D) : Option (PyValue D) :=
  if raw.truthy then raw.iterate.map fun items => .list (items.filterMap readers.parseTimeInterval)
  else some (.list [])

/-- A vertex whose first two coordinates are numbers. -/
def parseVertex : PyValue D → Option (ℚ × ℚ)
  | .list (lat :: lon :: _) =>
    (readers.toFloat lat).bind fun lat => (readers.toFloat lon).map fun lon => (lat, lon)
  | _ => none

/-- The vertices of a list or of a stringified list; malformed ones are skipped. -/
def parseVertices (raw : PyValue D) : List (ℚ × ℚ) :=
  let value := match raw with
    | .text value => (readers.literalEval value).getD .null
    | value => value
  match value with
  | .list items => items.filterMap readers.parseVertex
  | _ => []

/-- Vertices as pairs of floats. -/
def ofVertices (points : List (ℚ × ℚ)) : PyValue D :=
  .list (points.map fun point => .list [.float point.1, .float point.2])

/-- Polygon vertices, without the closing one; fewer than three make no polygon. -/
def parsePolygon (raw : PyValue D) : PyValue D :=
  let points := readers.parseVertices raw
  let points :=
    if 2 ≤ points.length ∧ points.head? = points.getLast? then points.dropLast else points
  ofVertices (if 3 ≤ points.length then points else [])

/-- An ordered route polyline. -/
def parseRouteGeometry (raw : PyValue D) : PyValue D :=
  let points := readers.parseVertices raw
  ofVertices (if 2 ≤ points.length then points else [])

/-- Convert a value to a declared type, for a mapping in a role. -/
def convert (assetRole : Option String) : RecordType → PyValue D → Option (PyValue D)
  | .any, value => some value
  | .text, value => some (.text (readers.toText value))
  | .textOr fallback, value =>
    some (.text (if value.truthy then readers.toText value else fallback))
  | .textOrRole, value =>
    some (.text (if value.truthy then readers.toText value else fallbackLocationType assetRole))
  | .reference, value =>
    some (if value.truthy ∧ readers.toText value ≠ "" then .text (readers.toText value) else .null)
  | .plainText, value =>
    match value with
    | .text _ => some value
    | _ => none
  | .number, value => (readers.toFloat value).map .float
  | .tollAmount, value =>
    (if value.truthy then readers.toFloat value else some 0).map fun toll => .float (max 0 toll)
  | .whole, value => (readers.toInt value).map .int
  | .wholeNumber, value => (readers.toFloat value).map fun x => .int (Instant.truncated x)
  | .minutes, value =>
    if value.truthy then (readers.toFloat value).map fun x => .int (Instant.truncated x)
    else some .null
  | .timestamp, value => (readers.validTime value).map .time
  | .intervals, value => readers.parseTimeIntervals value
  | .polygon, value => some (readers.parsePolygon value)
  | .polyline, value => some (readers.parseRouteGeometry value)
  | .texts, value =>
    if value.truthy then
      value.iterate.map fun items => .list (items.map fun item => .text (readers.toText item))
    else some (.list [])
  | .coordinate key, value =>
    if value.truthy then
      match value with
      | .dict entries => ((lookupEntry entries key).bind readers.validFloat).map .float
      | _ => none
    else some .null
  | .floatDict, value =>
    match value with
    | .dict entries => (entries.mapM fun entry =>
        (readers.validFloat entry.2).map fun x => (entry.1, .float x)).map .dict
    | _ => none
  | .span, value =>
    match value with
    | .dict entries =>
      match (lookupEntry entries "from").filter (·.truthy) with
      | none => some .null
      | some start =>
        (readers.validTime start).bind fun start =>
          match lookupEntry entries "to" with
          | none => some (.interval start none)
          | some .null => some (.interval start none)
          | some stop => (readers.validTime stop).map fun stop => .interval start (some stop)
    | _ => none
  | .anyDict, value =>
    match value with
    | .dict _ => some value
    | _ => none

end Readers

/-- The value of an attribute whose key is absent. -/
inductive Absent
  | null
  | text (value : String)
  | role
  | whole (value : ℤ)
  | number (value : ℚ)
  | emptyList
  | emptyDict
deriving DecidableEq, Repr

def Absent.value (assetRole : Option String) : Absent → PyValue D
  | null => .null
  | text value => .text value
  | role => .text (fallbackLocationType assetRole)
  | whole value => .int value
  | number value => .float value
  | emptyList => .list []
  | emptyDict => .dict []

/-- An attribute of a record: the key of the row it is read from, its type, and its value where the
key is absent; an attribute without one is required. -/
structure RecordAttribute where
  name : String
  key : String
  type : RecordType
  absent : Option Absent
deriving DecidableEq, Repr

/-- The value of an attribute of one row. -/
def RecordAttribute.read (own : RecordAttribute) (readers : Readers D)
    (assetRole : Option String) (fields : List (String × PyValue D)) : Option (PyValue D) :=
  match lookupEntry fields own.key with
  | some value => readers.convert assetRole own.type value
  | none => own.absent.map (·.value assetRole)

/-- Build a record, one attribute after the other. -/
def buildRecord (readers : Readers D) (assetRole : Option String)
    (fields : List (String × PyValue D)) :
    List RecordAttribute → Option (List (String × PyValue D))
  | [] => some []
  | first :: rest =>
    (first.read readers assetRole fields).bind fun value =>
      (buildRecord readers assetRole fields rest).map fun record => (first.name, value) :: record

/-- `build_asset`. -/
def assetAttributes : List RecordAttribute := [
  ⟨"asset_id", "assetId", .text, none⟩,
  ⟨"asset_type", "assetType", .text, some (.text "")⟩,
  ⟨"mobility", "mobility", .text, some (.text "mobile")⟩,
  ⟨"name", "name", .text, some (.text "")⟩,
  ⟨"home_depot_ref", "homeDepotRef", .plainText, some .null⟩,
  ⟨"location.lat", "location", .coordinate "lat", some .null⟩,
  ⟨"location.lon", "location", .coordinate "lon", some .null⟩]

/-- `build_location`. -/
def locationAttributes : List RecordAttribute := [
  ⟨"location_id", "locationId", .text, none⟩,
  ⟨"location_type", "locationType", .textOrRole, some .role⟩,
  ⟨"lat", "lat", .number, none⟩,
  ⟨"lon", "lon", .number, none⟩,
  ⟨"name", "name", .text, some (.text "")⟩,
  ⟨"area_ha", "areaHa", .number, some .null⟩,
  ⟨"soil_type", "soilType", .text, some (.text "")⟩,
  ⟨"polygon", "polygon", .polygon, some .emptyList⟩,
  ⟨"restricted_operations", "restrictedOperations", .texts, some .emptyList⟩,
  ⟨"restriction_windows", "restrictionWindows", .intervals, some .emptyList⟩,
  ⟨"charging_power_kw", "chargingPowerKw", .number, some .null⟩,
  ⟨"charging_slots", "chargingSlots", .wholeNumber, some .null⟩]

/-- `build_task`. -/
def taskAttributes : List RecordAttribute := [
  ⟨"task_id", "taskId", .text, none⟩,
  ⟨"order_id", "orderId", .text, some (.text "")⟩,
  ⟨"alternative_group_ref", "alternativeGroupRef", .text, some (.text "")⟩,
  ⟨"operation_type", "operationType", .text, none⟩,
  ⟨"location_ref", "locationRef", .text, none⟩,
  ⟨"area_ha", "areaHa", .number, some .null⟩,
  ⟨"work_area_geometry", "workAreaGeometry", .polyline, some .emptyList⟩,
  ⟨"covered_geometry", "coveredGeometry", .polyline, some .emptyList⟩,
  ⟨"work_quantity", "workQuantity", .number, some .null⟩,
  ⟨"work_quantity_unit", "workQuantityUnit", .text, some (.text "")⟩,
  ⟨"service_duration_minutes", "serviceDurationMinutes", .minutes, some .null⟩,
  ⟨"load_demand_kg", "loadDemand", .number, some .null⟩,
  ⟨"load_material", "loadMaterial", .text, some (.text "")⟩,
  ⟨"pickup_location_ref", "pickupLocationRef", .reference, some .null⟩,
  ⟨"time_windows", "timeWindows", .intervals, some .emptyList⟩,
  ⟨"depends_on_task_ref", "dependsOnTaskRef", .reference, some .null⟩,
  ⟨"deadline", "deadline", .timestamp, some .null⟩,
  ⟨"priority_class", "priorityClass", .whole, some (.whole 5)⟩,
  ⟨"revenue_value_eur", "revenueValue", .number, some (.number 0)⟩,
  ⟨"penalty_per_day_eur", "penaltyPerDay", .number, some (.number 0)⟩,
  ⟨"status", "status", .text, some (.text "pending")⟩]

/-- `build_forecast`. -/
def forecastAttributes : List RecordAttribute := [
  ⟨"forecast_id", "forecastId", .text, none⟩,
  ⟨"location", "location", .floatDict, some .null⟩,
  ⟨"forecast_for", "forecastFor", .span, some .null⟩,
  ⟨"value", "value", .anyDict, some .emptyDict⟩]

/-- `build_travel_link`. -/
def travelLinkAttributes : List RecordAttribute := [
  ⟨"link_id", "linkId", .text, none⟩,
  ⟨"from_location_ref", "fromLocationRef", .text, none⟩,
  ⟨"to_location_ref", "toLocationRef", .text, none⟩,
  ⟨"travel_time_s", "travelTimeS", .number, none⟩,
  ⟨"distance_km", "distanceKm", .number, some .null⟩,
  ⟨"network_mode", "networkMode", .textOr "any", some (.text "any")⟩,
  ⟨"route_geometry", "routeGeometry", .polyline, some .emptyList⟩,
  ⟨"toll_eur", "tollEur", .tollAmount, some (.number 0)⟩]

/-- `build_cost_rate`. -/
def costRateAttributes : List RecordAttribute := [
  ⟨"cost_rate_id", "costRateId", .text, none⟩,
  ⟨"rate_type", "rateType", .text, none⟩,
  ⟨"unit_price_eur", "unitPrice", .number, none⟩,
  ⟨"per_unit", "perUnit", .text, some (.text "")⟩,
  ⟨"valid_from", "validFrom", .timestamp, some .null⟩,
  ⟨"valid_to", "validTo", .timestamp, some .null⟩]

/-- The attributes of the record of an entity; an entity without a builder has none. -/
def entityAttributes (entity : String) : Option (List RecordAttribute) :=
  [("asset", assetAttributes), ("location", locationAttributes), ("task", taskAttributes),
    ("forecast", forecastAttributes), ("travel-link", travelLinkAttributes),
    ("cost-rate", costRateAttributes)].lookup entity

/-- Available material at a location. -/
structure InventoryPosition where
  inventoryLocationRef : String
  materialType : String
  availableQuantity : ℚ
  canonicalUnit : String
deriving DecidableEq, Repr

/-- What one row is mapped to: the record of its entity, with the capabilities and roles of an asset
and the stock of a location. -/
structure Emitted (D : Type) where
  record : List (String × PyValue D)
  capabilities : List (Capability D) := []
  roles : List String := []
  inventory : List InventoryPosition := []

/-- An attribute of the emitted record. -/
def Emitted.get (emitted : Emitted D) (name : String) : PyValue D :=
  .ofOption (lookupEntry emitted.record name)

/-- An attribute that is a text. -/
def Emitted.text (emitted : Emitted D) (name : String) : String :=
  match emitted.get name with
  | .text value => value
  | _ => ""

/-- The stock of one location. -/
def inventoryPositions (readers : Readers D) (locationId : String) :
    List (StockEntry D) → Option (List InventoryPosition)
  | [] => some []
  | entry :: rest =>
    (readers.toFloat entry.quantity).bind fun quantity =>
      (inventoryPositions readers locationId rest).map fun positions =>
        ⟨locationId, entry.material, quantity, entry.unit.getD ""⟩ :: positions

/-- Build the record of an entity from its row; an entity without a builder emits nothing. Assets
keep their capabilities and the role of their mapping, and locations their stock. -/
def emitRecord (readers : Readers D) (table : MappingTable) (acc : Accumulator D) :
    Option (Option (Emitted D)) :=
  match entityAttributes table.canonicalEntity with
  | none => some none
  | some attributes =>
    (buildRecord readers table.assetRole acc.attributes attributes).bind fun record =>
      if table.canonicalEntity = "asset" then
        some (some { record := record
                     capabilities := acc.capabilities
                     roles := table.assetRole.toList.filter (· ≠ "") })
      else if table.canonicalEntity = "location" then
        (inventoryPositions readers (({ record := record } : Emitted D).text "location_id")
          acc.inventory).map fun inventory => some { record := record, inventory := inventory }
      else some (some { record := record })

/-- Map one row: it raises, is dropped or emits a record. -/
def mapRow (readers : Readers D) (table : MappingTable) (row : Dict String (PyValue D)) :
    Option (Option (Emitted D)) :=
  (accumulateRow readers table row).bind fun
    | .dropped _ => some none
    | .kept acc _ => emitRecord readers table acc

end FlOp.Mapping
