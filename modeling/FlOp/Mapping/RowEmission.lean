import FlOp.Mapping.CanonicalRows
import FlOp.Mapping.CellValues

/-! # Mapping the rows of a dataset

Each row of texts is gathered binding by binding and then built into the record of its entity. A row
that a policy drops is listed as excluded, with the finding of the policy; nothing else that goes
wrong with a row is handled.
-/

namespace FlOp.Mapping

open Library FlOp.Core

variable {T : Type}

/-- The mapping of one contract, with the metric codes of its observations. -/
structure SourceTable extends MappingTable where
  metricCodes : Dict String String := .empty

structure CellCapability (T : Type) where
  capabilityId : String
  semanticTerm : String
  value : CellValue T
  canonicalUnit : Option String

/-- A stocked material of a location. -/
structure CellStock (T : Type) where
  material : String
  unit : Option String
  quantity : CellValue T

/-- What the bindings of one row have gathered. -/
structure Gathered (T : Type) where
  capabilities : List (CellCapability T) := []
  inventory : List (CellStock T) := []
  attributes : List (String × CellValue T) := []

/-- `route_value`; a path through a value that is no dictionary raises. -/
def Gathered.routeValue (acc : Gathered T) (binding : MetaBinding) (value : CellValue T) :
    Option (Gathered T) :=
  match binding.slot with
  | .capability semanticTerm =>
    some { acc with capabilities := acc.capabilities ++ [{
      capabilityId := (dottedTokens binding.binding).getLastD ""
      semanticTerm := semanticTerm
      value := value
      canonicalUnit := binding.canonicalUnit }] }
  | .inventory material =>
    some { acc with inventory := acc.inventory ++ [⟨material, binding.canonicalUnit, value⟩] }
  | .field path =>
    ((CellValue.nesting T).setPath path value acc.attributes).map fun written =>
      { acc with attributes := written }

/-- Hardness of a contractual commitment. -/
inductive CommitmentHardness
  | hard
  | medium
  | soft
deriving DecidableEq, Repr

def CommitmentHardness.value : CommitmentHardness → String
  | hard => "hard"
  | medium => "medium"
  | soft => "soft"

/-- `CommitmentHardness(text)`. -/
def CommitmentHardness.ofText (text : String) : Option CommitmentHardness :=
  [hard, medium, soft].find? fun hardness => hardness.value = text

/-- A value of a canonical record. -/
inductive FieldValue (T : Type) where
  | null
  | text (value : String)
  | number (value : PyFloat)
  | whole (value : ℤ)
  | time (value : T)
  | interval (start : T) (stop : Option T)
  | intervals (items : List (T × Option T))
  | vertices (points : List (PyFloat × PyFloat))
  | texts (items : List String)
  | numbers (entries : List (String × PyFloat))
  | values (entries : List (String × CellValue T))
  | cell (value : CellValue T)
  | hardness (value : CommitmentHardness)

namespace Builtins

variable (py : Builtins T)

/-- One ISO-8601 "from/to" item; a malformed one is skipped. -/
def parseTimeInterval (text : List Char) : Option (T × Option T) :=
  let start := text.takeWhile (· ≠ '/')
  match text.dropWhile (· ≠ '/') with
  | [] => none
  | _ :: stop =>
    if start = [] then none
    else
      (py.validTime (.text (String.ofList start))).bind fun first =>
        if stop = [] then some (first, none)
        else (py.validTime (.text (String.ofList stop))).map fun last => (first, some last)

/-- Parse interval strings, skipping malformed ones. -/
def parseTimeIntervals (raw : CellValue T) : Option (FieldValue T) :=
  if raw.truthy then
    raw.iterate.bind fun items => (items.mapM py.textOfLiteral).map fun texts =>
      .intervals (texts.filterMap fun text => py.parseTimeInterval text.toList)
  else some (.intervals [])

/-- The vertices whose first two coordinates are numbers; a coordinate that raises is not
handled. -/
def vertices : List Literal → Option (List (PyFloat × PyFloat))
  | [] => some []
  | .sequence (lat :: lon :: _) :: rest =>
    match py.floatOfLiteral lat, py.floatOfLiteral lon with
    | .value x, .value y => (vertices rest).map ((x, y) :: ·)
    | .raised, _ => none
    | .value _, .raised => none
    | _, _ => vertices rest
  | _ :: rest => vertices rest

/-- The vertices of a list or of a stringified list. -/
def parseVertices (raw : CellValue T) : Option (List (PyFloat × PyFloat)) :=
  if raw.truthy then
    let evaluated : Attempt Literal := match raw with
      | .literal (.text value) => py.literalEval value
      | .literal value => .value value
      | _ => .refused
    match evaluated with
    | .value (.sequence items) => py.vertices items
    | .value _ | .refused => some []
    | .raised => none
  else some []

/-- `a == b` of two vertices. -/
def sameVertex (a b : PyFloat × PyFloat) : Bool :=
  a.1 ≠ .nan && a.2 ≠ .nan && a = b

/-- Polygon vertices, without the closing one; fewer than three make no polygon. -/
def parsePolygon (raw : CellValue T) : Option (List (PyFloat × PyFloat)) :=
  (py.parseVertices raw).map fun points =>
    let points := match points.head?, points.getLast? with
      | some first, some last =>
        if 2 ≤ points.length ∧ sameVertex first last then points.dropLast else points
      | _, _ => points
    if 3 ≤ points.length then points else []

/-- An ordered route polyline. -/
def parseRouteGeometry (raw : CellValue T) : Option (List (PyFloat × PyFloat)) :=
  (py.parseVertices raw).map fun points => if 2 ≤ points.length then points else []

/-- `max(0.0, x)`. -/
def atLeastZero (x : PyFloat) : PyFloat := if (PyFloat.number 0).lt x then x else .number 0

/-- Convert a value to a declared type, for a mapping in a role. -/
def convert (assetRole : Option String) : RecordType → CellValue T → Option (FieldValue T)
  | .any, value => some (.cell value)
  | .text, value => (py.toText value).map .text
  | .textOr fallback, value =>
    if value.truthy then (py.toText value).map .text else some (.text fallback)
  | .textOrRole, value =>
    if value.truthy then (py.toText value).map .text
    else some (.text (fallbackLocationType assetRole))
  | .reference, value =>
    if value.truthy then
      (py.toText value).map fun text => if text = "" then .null else .text text
    else some .null
  | .plainText, value =>
    match value with
    | .literal (.text text) => some (.text text)
    | _ => none
  | .number, value => (py.toFloat value).map .number
  | .tollAmount, value =>
    (if value.truthy then py.toFloat value else some (.number 0)).map fun toll =>
      .number (atLeastZero toll)
  | .whole, value => (py.toInt value).map .whole
  | .wholeNumber, value => ((py.toFloat value).bind intOfFloat).map .whole
  | .minutes, value =>
    if value.truthy then ((py.toFloat value).bind intOfFloat).map .whole else some .null
  | .timestamp, value => (py.validTime value).map .time
  | .intervals, value => py.parseTimeIntervals value
  | .polygon, value => (py.parsePolygon value).map .vertices
  | .polyline, value => (py.parseRouteGeometry value).map .vertices
  | .texts, value =>
    if value.truthy then
      value.iterate.bind fun items => (items.mapM py.textOfLiteral).map .texts
    else some (.texts [])
  | .coordinate key, value =>
    if value.truthy then
      match value with
      | .dict entries => ((lookupEntry entries key).bind py.validFloat).map .number
      | _ => none
    else some .null
  | .floatDict, value =>
    match value with
    | .dict entries => (entries.mapM fun entry =>
        (py.validFloat entry.2).map fun x => (entry.1, x)).map .numbers
    | _ => none
  | .span, value =>
    match value with
    | .dict entries =>
      match (lookupEntry entries "from").filter (·.truthy) with
      | none => some .null
      | some start =>
        (py.validTime start).bind fun start =>
          match lookupEntry entries "to" with
          | none => some (.interval start none)
          | some stop => (py.validTime stop).map fun stop => .interval start (some stop)
    | _ => none
  | .anyDict, value =>
    match value with
    | .dict entries => some (.values entries)
    | _ => none

end Builtins

/-- The empty list of a declared type. -/
def RecordType.emptyList : RecordType → FieldValue T
  | polygon | polyline => .vertices []
  | intervals => .intervals []
  | _ => .texts []

/-- The value of an attribute of a declared type whose key is absent. -/
def Absent.fieldValue (assetRole : Option String) (type : RecordType) : Absent → FieldValue T
  | null => .null
  | text value => .text value
  | role => .text (fallbackLocationType assetRole)
  | whole value => .whole value
  | number value => .number (.number value)
  | emptyList => type.emptyList
  | emptyDict => .values []

/-- An attribute of a built record; the metric of an observation and the hardness of a commitment
have types of their own. -/
inductive SourceAttribute
  | plain (own : RecordAttribute)
  | metric
  | hardness

def SourceAttribute.name : SourceAttribute → String
  | plain own => own.name
  | metric => "metric"
  | hardness => "hardness"

/-- The value of an attribute of one row. -/
def SourceAttribute.read (py : Builtins T) (table : SourceTable)
    (fields : List (String × CellValue T)) : SourceAttribute → Option (FieldValue T)
  | plain own =>
    match lookupEntry fields own.key with
    | some value => py.convert table.assetRole own.type value
    | none => own.absent.map (·.fieldValue table.assetRole own.type)
  | metric =>
    ((lookupEntry fields "metric").elim (some "") py.toText).map fun raw =>
      .text (table.metricCodes.getD raw raw)
  | hardness =>
    ((lookupEntry fields "hardness").elim (some CommitmentHardness.medium.value) py.toText).bind
      fun raw => (CommitmentHardness.ofText raw).map .hardness

/-- `build_observation`. -/
def observationAttributes : List SourceAttribute := [
  .plain ⟨"observation_id", "observationId", .text, none⟩,
  .plain ⟨"entity_ref", "entityRef", .text, some (.text "")⟩,
  .metric,
  .plain ⟨"value", "value", .number, some .null⟩,
  .plain ⟨"state_value", "stateValue", .text, some (.text "")⟩,
  .plain ⟨"unit", "unit", .plainText, some .null⟩,
  .plain ⟨"observed_at", "observedAt", .timestamp, some .null⟩,
  .plain ⟨"ingested_at", "ingestedAt", .timestamp, some .null⟩,
  .plain ⟨"quality_flag", "qualityFlag", .text, some (.text "")⟩]

/-- `build_commitment`. -/
def commitmentAttributes : List SourceAttribute := [
  .plain ⟨"commitment_id", "commitmentId", .text, none⟩,
  .plain ⟨"contract_id", "contractRef", .text, some (.text "")⟩,
  .plain ⟨"task_id", "taskRef", .plainText, some .null⟩,
  .plain ⟨"commitment_type", "commitmentType", .text, some (.text "")⟩,
  .hardness,
  .plain ⟨"value.deadline", "deadline", .any, some .null⟩,
  .plain ⟨"value.latenessPenalty", "latenessPenalty", .any, some .null⟩,
  .plain ⟨"valid_from", "validFrom", .timestamp, some .null⟩,
  .plain ⟨"valid_to", "validTo", .timestamp, some .null⟩]

/-- `ENTITY_EMITTERS`: the attributes that the emitter of an entity builds. -/
def emitters : List (String × List SourceAttribute) := [
  ("asset", assetAttributes.map .plain),
  ("location", locationAttributes.map .plain),
  ("task", taskAttributes.map .plain),
  ("forecast", forecastAttributes.map .plain),
  ("observation", observationAttributes),
  ("commitment", commitmentAttributes),
  ("travel-link", travelLinkAttributes.map .plain),
  ("cost-rate", costRateAttributes.map .plain)]

/-- Available material at a location. -/
structure StockPosition where
  inventoryLocationRef : String
  materialType : String
  availableQuantity : PyFloat
  canonicalUnit : String

/-- A canonical entity; an asset has the capabilities of its row and the role of its mapping. -/
structure EntityRecord (T : Type) where
  entity : String
  fields : List (String × FieldValue T)
  capabilities : List (CellCapability T) := []
  roles : List String := []

/-- Canonical objects and findings of the datasets mapped so far; the records of all entities are
one list. -/
structure MappingResult (T : Type) where
  entities : List (EntityRecord T) := []
  inventory : List StockPosition := []
  findings : List (QualityFinding T) := []
  excluded : Dict String (List String) := .empty

/-- What a policy leaves of a column: its text or a conservative number. -/
def PyValue.left : PyValue T → Option Literal
  | .text value => some (.text value)
  | .float value => some (.float (.number value))
  | _ => none

/-- The column a binding reads; a column that is not there reads as absent. -/
def MetaBinding.column (binding : MetaBinding) (row : Dict String String) : PyValue T :=
  match row.get? binding.sourceField with
  | some value => .text value
  | none => .null

/-- The value a binding gives to the row. -/
def MetaBinding.coerce (binding : MetaBinding) (py : Builtins T) (left : Literal) :
    Option (CellValue T) :=
  (py.coerceValue binding.quantityKind left).bind (inCanonicalUnit binding.canonicalUnit)

/-- Resolve the bindings one after the other; a row that is dropped gathers nothing. -/
def gather (py : Builtins T) (contractId entityRef : String) (row : Dict String String) :
    ℕ → List MetaBinding → Gathered T → MappingResult T →
      Option (Option (Gathered T) × MappingResult T)
  | _, [], acc, result => some (some acc, result)
  | seq, binding :: rest, acc, result =>
    let outcome := applyMissingValuePolicy binding entityRef seq (binding.column row)
    let found := { result with findings := result.findings ++ outcome.finding.toList }
    if outcome.dropEntity then
      some (none, { found with excluded := found.excluded.push contractId entityRef })
    else
      match outcome.value.left with
      | none => gather py contractId entityRef row (seq + 1) rest acc found
      | some left =>
        (binding.coerce py left).bind fun value =>
          (acc.routeValue binding value).bind fun routed =>
            gather py contractId entityRef row (seq + 1) rest routed found

/-- The entity a row is about. -/
def SourceTable.entityRef (table : SourceTable) (row : Dict String String) : String :=
  row.getD (table.entityKeyField.getD "") "<unknown>"

/-- `accumulate_row`. -/
def gatherRow (py : Builtins T) (table : SourceTable) (row : Dict String String)
    (result : MappingResult T) : Option (Option (Gathered T) × MappingResult T) :=
  gather py table.contractId (table.entityRef row) row 1 table.bindings {} result

/-- Build a record, one attribute after the other. -/
def buildFields (py : Builtins T) (table : SourceTable) (fields : List (String × CellValue T)) :
    List SourceAttribute → Option (List (String × FieldValue T))
  | [] => some []
  | first :: rest =>
    (first.read py table fields).bind fun value =>
      (buildFields py table fields rest).map fun record => (first.name, value) :: record

/-- The stock of one location. -/
def stockPositions (py : Builtins T) (locationId : String) :
    List (CellStock T) → Option (List StockPosition)
  | [] => some []
  | entry :: rest =>
    (py.toFloat entry.quantity).bind fun quantity =>
      (stockPositions py locationId rest).map fun positions =>
        ⟨locationId, entry.material, quantity, entry.unit.getD ""⟩ :: positions

/-- The id of a location. -/
def locationIdOf (fields : List (String × FieldValue T)) : String :=
  match lookupEntry fields "location_id" with
  | some (.text value) => value
  | _ => ""

/-- The emitter of an entity appends one record, and the stock of a location. -/
def emit (py : Builtins T) (table : SourceTable) (attributes : List SourceAttribute)
    (acc : Gathered T) (result : MappingResult T) : Option (MappingResult T) :=
  (buildFields py table acc.attributes attributes).bind fun fields =>
    let record : EntityRecord T := {
      entity := table.canonicalEntity
      fields := fields
      capabilities := if table.canonicalEntity = "asset" then acc.capabilities else []
      roles :=
        if table.canonicalEntity = "asset" then table.assetRole.toList.filter (· ≠ "") else [] }
    let stock := if table.canonicalEntity = "location" then acc.inventory else []
    (stockPositions py (locationIdOf fields) stock).map fun positions =>
      { result with
        entities := result.entities ++ [record]
        inventory := result.inventory ++ positions }

/-- One row of the loop. -/
def mapSourceRow (py : Builtins T) (table : SourceTable) (attributes : List SourceAttribute)
    (result : MappingResult T) (row : Dict String String) : Option (MappingResult T) :=
  (gatherRow py table row result).bind fun
    | (none, found) => some found
    | (some acc, found) => emit py table attributes acc found

/-- The rows of the loop, one after the other. -/
def mapSourceRows (py : Builtins T) (table : SourceTable) (attributes : List SourceAttribute) :
    List (Dict String String) → MappingResult T → Option (MappingResult T)
  | [], result => some result
  | row :: rest, result =>
    (mapSourceRow py table attributes result row).bind (mapSourceRows py table attributes rest)

/-- `MappingEngine.map_dataset`: the rows of an entity without an emitter are passed over. -/
def mapSourceDataset (py : Builtins T) (table : SourceTable) (rows : List (Dict String String))
    (result : MappingResult T) : Option (MappingResult T) :=
  match emitters.lookup table.canonicalEntity with
  | none => some result
  | some attributes => mapSourceRows py table attributes rows result

end FlOp.Mapping
