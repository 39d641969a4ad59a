import FlOp.Contracts.Evolution

/-! # Physical contract documents

A contract document lists schema objects with their properties. The evolution policy and the
generators read the same document, each with its own defaults for what a property leaves out.
-/

namespace FlOp.Contracts

open Library
open FlOp.Core

/-- A format's block of generation hints, as far as the Avro generator reads it. A hint that is
missing reads as empty; a default is kept as its JSON text. -/
structure AvroHints where
  namespaceName : String := ""
  recordName : String := ""
  recordDoc : String := ""
  aliases : Option (List String) := none
  default : Option String := none
deriving DecidableEq, Repr

/-- The object a custom property holds: the semantic block's quantity kind, or generation hints. -/
structure CustomValue where
  quantityKind : String := ""
  avro : Option AvroHints := none
deriving DecidableEq, Repr

/-- A custom property; its value counts only if it is an object. -/
structure CustomProperty where
  property : String
  value : Option CustomValue := none
deriving DecidableEq, Repr

/-- One field property. `required` is whether the written value is true, if one is written. -/
structure OdcsProperty where
  name : Option String := none
  logicalType : String := ""
  physicalType : String := ""
  required : Option Bool := none
  description : String := ""
  customProperties : List CustomProperty := []
deriving DecidableEq, Repr

/-- A schema object; an entry of `properties` that is no object is `none`. -/
structure SchemaObject where
  customProperties : List CustomProperty := []
  properties : List (Option OdcsProperty) := []
deriving DecidableEq, Repr

/-- A contract document; an entry of `schema` that is no object is `none`. -/
structure OdcsDocument where
  schemaObjects : List (Option SchemaObject) := []
deriving DecidableEq, Repr

/-- `find_property`: the first object held under a name. -/
def findProperty (customProperties : List CustomProperty) (name : String) :
    Option CustomValue :=
  customProperties.findSome? fun item => if item.property = name then item.value else none

/-- `iter_schema_properties`: the properties of all schema objects, in order. -/
def OdcsDocument.properties (doc : OdcsDocument) : List OdcsProperty :=
  (doc.schemaObjects.filterMap id).flatMap fun schemaObject => schemaObject.properties.filterMap id

namespace OdcsProperty

/-- The semantic block: the first one by name, if it is an object. -/
def xOptimization (prop : OdcsProperty) : CustomValue :=
  ((prop.customProperties.find? fun item => item.property = "xOptimization").bind
    (·.value)).getD {}

/-- The field is an absolute point in time. -/
def isTimestamp (prop : OdcsProperty) : Bool :=
  prop.xOptimization.quantityKind = "timestamp" ∨
    prop.logicalType = "datetime" ∨ prop.logicalType = "timestamp"

/-- The field is a calendar date. -/
def isDate (prop : OdcsProperty) : Bool :=
  prop.logicalType = "date" ∧ prop.xOptimization.quantityKind ≠ "timestamp"

/-- The field's Avro generation hints. -/
def fieldHints (prop : OdcsProperty) : AvroHints :=
  ((findProperty prop.customProperties "fieldGeneration").bind (·.avro)).getD {}

/-- What the evolution policy records of a property: `required` defaults to false. -/
def fieldSpec (prop : OdcsProperty) : FieldSpec where
  logicalType := prop.logicalType
  physicalType := prop.physicalType
  required := prop.required.getD false

end OdcsProperty

/-- The named properties, which are all a snapshot sees. -/
def OdcsDocument.namedProperties (doc : OdcsDocument) : List (String × OdcsProperty) :=
  doc.properties.filterMap fun prop => prop.name.map fun name => (name, prop)

/-- The fields of `schema_snapshot`: a later property of a name replaces an earlier one. -/
def schemaSnapshot (doc : OdcsDocument) : Dict String FieldSpec :=
  Dict.collect (·.1) (·.2.fieldSpec) doc.namedProperties

/-- The last property of a name. -/
def OdcsDocument.lastNamed (doc : OdcsDocument) (name : String) : Option OdcsProperty :=
  (doc.namedProperties.reverse.find? fun entry => entry.1 = name).map (·.2)

theorem get?_schemaSnapshot (doc : OdcsDocument) (name : String) :
    (schemaSnapshot doc).get? name = (doc.lastNamed name).map (·.fieldSpec) := by
  rw [schemaSnapshot, Dict.get?_collect, OdcsDocument.lastNamed, Option.map_map]
  rfl

/-- The last property of a name is a property of that name. -/
theorem OdcsDocument.mem_of_lastNamed {doc : OdcsDocument} {name : String} {prop : OdcsProperty}
    (last : doc.lastNamed name = some prop) : prop ∈ doc.properties ∧ prop.name = some name := by
  obtain ⟨⟨key, found⟩, located, rfl⟩ := Option.map_eq_some_iff.mp last
  have same : key = name := by simpa using List.find?_some located
  have member := List.mem_reverse.mp (List.mem_of_find?_eq_some located)
  obtain ⟨listed, declared, named⟩ := List.mem_filterMap.mp member
  obtain ⟨text, written, pair⟩ := Option.map_eq_some_iff.mp named
  obtain ⟨rfl, rfl⟩ := Prod.mk.inj pair
  exact ⟨declared, same ▸ written⟩

end FlOp.Contracts
