import FlOp.Contracts.AvroSchema
import FlOp.Core.Text
import FlOp.Core.Yaml
import FlOp.Library.Listing

/-! # Generators of physical schemas

What the generators share: the type maps, the hints of a document and of its fields, and the walk
over the field properties. A document is a mapping whose values may have any shape.
-/

namespace FlOp.Contracts.Gen

open FlOp.Core Library

/-- A mapping of a document. -/
abbrev Block := List (Scalar × Yaml)

/-- The formats that are generated. -/
inductive TargetFormat where
  | avro
  | proto
  | es
  | parquet
deriving DecidableEq, Repr

/-- `FORMAT_KEY`. -/
def TargetFormat.key : TargetFormat → String
  | avro => "avro"
  | proto => "proto"
  | es => "es"
  | parquet => "parquet"

/-- `PHYSICAL_TYPE_TO_PROTO`. -/
def physicalTypeToProto : String → Option String
  | "string" => some "string"
  | "double" => some "double"
  | "float" => some "float"
  | "int" => some "int32"
  | "integer" => some "int32"
  | "long" => some "int64"
  | "boolean" => some "bool"
  | "bool" => some "bool"
  | "bytes" => some "bytes"
  | _ => none

/-- `PHYSICAL_TYPE_TO_ES`. -/
def physicalTypeToEs : String → Option String
  | "string" => some "keyword"
  | "double" => some "double"
  | "float" => some "float"
  | "int" => some "integer"
  | "integer" => some "integer"
  | "long" => some "long"
  | "boolean" => some "boolean"
  | "bool" => some "boolean"
  | "bytes" => some "binary"
  | _ => none

/-- `PHYSICAL_TYPE_TO_PARQUET`. -/
def physicalTypeToParquet : String → Option String
  | "string" => some "large_string"
  | "double" => some "float64"
  | "float" => some "float32"
  | "int" => some "int32"
  | "integer" => some "int32"
  | "long" => some "int64"
  | "boolean" => some "bool_"
  | "bool" => some "bool_"
  | "bytes" => some "large_binary"
  | _ => none

/-- `_type_map_for_format`. -/
def typeMap : TargetFormat → String → Option String
  | .avro => physicalTypeToAvro
  | .proto => physicalTypeToProto
  | .es => physicalTypeToEs
  | .parquet => physicalTypeToParquet

/-- `VALID_ES_TYPES`. -/
def validEsTypes : List String :=
  ["keyword", "text", "integer", "long", "float", "double", "boolean", "date", "binary", "object",
    "nested", "geo_point"]

/-- `PROTO3_RESERVED_WORDS`. -/
def proto3ReservedWords : List String :=
  ["syntax", "import", "package", "option", "message", "enum", "service", "rpc", "returns",
    "stream", "oneof", "map", "extensions", "reserved", "to", "max", "repeated", "optional",
    "required"]

/-- What a map from texts holds for a value; what is not hashable cannot be looked up. -/
def lookUp (map : String → Option String) : Yaml → Except PyError (Option String)
  | .scalar (.text value) => .ok (map value)
  | .scalar _ => .ok none
  | _ => .error .typeError

/-- Whether a value is in a set of texts. -/
def inSet (texts : List String) : Yaml → Except PyError Bool
  | .scalar (.text value) => .ok (value ∈ texts)
  | .scalar _ => .ok false
  | _ => .error .typeError

/-- The mapping that a list of custom properties holds under a name, item by item. -/
def valueOf (name : String) : Yaml → Option Block
  | .mapping item =>
    if (Yaml.get item "property" .null).isText name then
      match Yaml.get item "value" .null with
      | .mapping value => some value
      | _ => none
    else none
  | _ => none

/-- `find_property`. -/
def findProperty (customProperties : Yaml) (name : String) : Option Block :=
  match customProperties with
  | .sequence items => items.findSome? (valueOf name)
  | _ => none

/-- The item is a custom property of a name. -/
def isNamed (name : String) : Yaml → Bool
  | .mapping item => (Yaml.get item "property" .null).isText name
  | _ => false

/-- The semantic block: the first one by name, if it is a mapping. -/
def xOptimization (prop : Block) : Block :=
  match Yaml.get prop "customProperties" .null with
  | .sequence items => ((items.find? (isNamed "xOptimization")).bind
      (valueOf "xOptimization")).getD []
  | _ => []

/-- What the semantic block says of a field. -/
structure SemanticHints where
  isLatitude : Bool
  isLongitude : Bool
  isTimestamp : Bool
  isDate : Bool

/-- `semantic_hints`. -/
def semanticHints (shown : Yaml → String) (prop : Block) : SemanticHints :=
  let term := (Yaml.get (xOptimization prop) "semanticTerm" (.text "")).str shown
  let quantityKind := (Yaml.get (xOptimization prop) "quantityKind" (.text "")).str shown
  let logicalType := (Yaml.get prop "logicalType" (.text "")).str shown
  { isLatitude := endsWith ":latitude" term || endsWith ":lat" term
    isLongitude := endsWith ":longitude" term || endsWith ":lon" term
    isTimestamp := quantityKind = "timestamp" ∨ logicalType = "datetime" ∨
      logicalType = "timestamp"
    isDate := logicalType = "date" ∧ quantityKind ≠ "timestamp" }

/-- An item that is a mapping. -/
def block? : Yaml → Option Block
  | .mapping block => some block
  | _ => none

/-- The field properties of schema objects. -/
def propertiesOf : List Yaml → Yielded PyError Block
  | [] => ⟨[], none⟩
  | .mapping schemaObj :: rest =>
    match (Yaml.get schemaObj "properties" (.sequence [])).items with
    | .error error => ⟨[], some error⟩
    | .ok props => (propertiesOf rest).after (props.filterMap block?)
  | _ :: rest => propertiesOf rest

/-- `iter_schema_properties`. -/
def iterSchemaProperties (odcsDoc : Block) : Yielded PyError Block :=
  match (Yaml.get odcsDoc "schema" (.sequence [])).items with
  | .error error => ⟨[], some error⟩
  | .ok schemaObjs => propertiesOf schemaObjs

/-- The name of a field property. -/
def nameOf (prop : Block) : Yaml := Yaml.get prop "name" (.text "")

/-- The physical type that a field property declares. -/
def physicalTypeOf (prop : Block) : Yaml := Yaml.get prop "physicalType" (.text "")

/-- A field is required unless its property says otherwise. -/
def isRequired (prop : Block) : Bool := (Yaml.get prop "required" (.boolean true)).truthy

/-- `get_schema_gen_hints`. -/
def getSchemaGenHints (fmt : TargetFormat) (odcsDoc : Block) : Except PyError Block :=
  let schemaObjs := Yaml.get odcsDoc "schema" (.sequence [])
  if !schemaObjs.truthy then .error (.generationError "ODCS document has no 'schema' section")
  else schemaObjs.first.bind fun schemaObj => schemaObj.entriesOf.bind fun block =>
    match findProperty (Yaml.get block "customProperties" .null) "schemaGeneration" with
    | none =>
      .error (.generationError "Missing 'schemaGeneration' customProperty in schema[0]")
    | some rootGen =>
      match Yaml.get rootGen fmt.key .null with
      | .mapping hints => .ok hints
      | _ => .error (.generationError
          ("Missing or invalid '" ++ fmt.key ++ "' block inside schemaGeneration"))

/-- `get_field_gen_hints`. -/
def getFieldGenHints (fmt : TargetFormat) (prop : Block) : Yaml :=
  match findProperty (Yaml.get prop "customProperties" .null) "fieldGeneration" with
  | none => .mapping []
  | some fieldGen => (Yaml.get fieldGen fmt.key .null).orElse (.mapping [])

/-- `_REQUIRED_SCHEMA_KEYS`. -/
def requiredSchemaKeys : TargetFormat → List String
  | .avro => ["namespace", "recordName", "recordDoc"]
  | .proto => ["package", "messageName"]
  | .es => ["indexName"]
  | .parquet => []

/-- The required schema hints are there. -/
def requireKeys (contractId : String) (fmt : TargetFormat) (hints : Block) :
    List String → Except PyError Unit
  | [] => .ok ()
  | key :: rest =>
    if (Yaml.get hints key .null).truthy then requireKeys contractId fmt hints rest
    else .error (.generationError (contractId ++ ": schemaGeneration." ++ fmt.key ++
      " missing required key '" ++ key ++ "'"))

/-- A property's physical type in the type map of a format. -/
def requireType (shown : Yaml → String) (contractId : String) (fmt : TargetFormat)
    (prop : Block) : Except PyError String :=
  (lookUp (typeMap fmt) (physicalTypeOf prop)).bind fun found =>
    match found with
    | some type => .ok type
    | none => .error (.generationError (contractId ++ ": field '" ++ (nameOf prop).str shown ++
        "' has unknown physicalType '" ++ (physicalTypeOf prop).str shown ++ "'"))

section Required

variable {contractId : String} {fmt : TargetFormat}

theorem requireType_of_typed {shown : Yaml → String} {prop : Block}
    {name type : String}
    (declared : physicalTypeOf prop = .text name) (typed : typeMap fmt name = some type) :
    requireType shown contractId fmt prop = .ok type := by
  have looked : lookUp (typeMap fmt) (.text name) = .ok (some type) := congrArg Except.ok typed
  rw [requireType, declared, looked]
  rfl

theorem requireKeys_eq_ok {hints : Block} {keys : List String}
    (there : ∀ key ∈ keys, (Yaml.get hints key .null).truthy) :
    requireKeys contractId fmt hints keys = .ok () := by
  induction keys with
  | nil => rfl
  | cons key rest ih =>
    obtain ⟨here, later⟩ := List.forall_mem_cons.mp there
    rw [requireKeys, if_pos here]
    exact ih later

end Required

/-- `json.dumps`, read as a value. -/
def dumps (value : Yaml) : Except PyError Yaml :=
  match value.json with
  | some written => .ok written
  | none => .error .typeError

end FlOp.Contracts.Gen
