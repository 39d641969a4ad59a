import FlOp.Contracts.Gen.Avro
import FlOp.Contracts.Gen.Es
import FlOp.Contracts.Gen.Parquet
import FlOp.Contracts.Gen.Proto

/-! # Soundness of the generation checker

A document that passes the checker has its schema generated, with every field listed once, exactly
if it is clear for the format. Being clear is what the checker leaves out: names that differ and can
be written, hints of the expected shape, and no field under the name of a geo point.
-/

namespace FlOp.Contracts.Gen

open FlOp.Core Library

/-- A generated schema: a JSON value, or the text of a protocol buffer file. -/
inductive Artifact where
  | json (value : Yaml)
  | proto (text : List Char)

section Formats

variable (shown : Yaml → String)

/-- `generate`, of the generator of a format. -/
def generate (fmt : TargetFormat) (odcsDoc : Block) (contractId : String) :
    Except PyError Artifact :=
  match fmt with
  | .avro => (avroGenerate shown odcsDoc contractId).map .json
  | .proto => (protoGenerate shown odcsDoc contractId).map .proto
  | .es => (esGenerate shown odcsDoc contractId).map .json
  | .parquet => (parquetGenerate shown odcsDoc contractId).map .json

/-- The named entries of an artifact, with their types. -/
def entriesIn (fmt : TargetFormat) : Artifact → List (Yaml × Yaml)
  | .json value =>
    match fmt with
    | .es => esEntries value
    | .parquet => listedFields "arrow_type" value
    | _ => listedFields "type" value
  | .proto text => protoEntries text

/-- The type that a property's own declaration and hints determine. -/
def ownType (fmt : TargetFormat) (prop : Block) : Yaml :=
  match fmt with
  | .avro => avroType shown prop
  | .proto => protoType prop
  | .es => esType shown prop
  | .parquet => parquetType shown prop

/-- An artifact is generated that lists every field of the document once, under its name and with
its type. -/
def Delivers (fmt : TargetFormat) (odcsDoc : Block) (contractId : String) : Prop :=
  ∃ artifact, generate shown fmt odcsDoc contractId = .ok artifact ∧
    ListsOnce ((iterSchemaProperties odcsDoc).items.map fun prop =>
      (ownName prop, ownType shown fmt prop)) (entriesIn fmt artifact)

/-- A document that a format's generator handles without loss. -/
def Clear (fmt : TargetFormat) (odcsDoc : Block) (contractId : String) : Prop :=
  match fmt with
  | .avro => AvroClear odcsDoc
  | .proto => ProtoClear shown odcsDoc
  | .es => EsClear shown odcsDoc
  | .parquet => ParquetClear odcsDoc contractId

end Formats

theorem exists_map_eq_ok {α : Type} {result : Except PyError α} {wrap : α → Artifact}
    {p : Artifact → Prop} :
    (∃ artifact, result.map wrap = .ok artifact ∧ p artifact) ↔
      ∃ value, result = .ok value ∧ p (wrap value) := by
  constructor
  · rintro ⟨artifact, made, held⟩
    obtain ⟨value, own, rfl⟩ := Fallible.map_eq_ok.mp made
    exact ⟨value, own, held⟩
  · rintro ⟨value, own, held⟩
    exact ⟨wrap value, Fallible.map_eq_ok.mpr ⟨value, own, rfl⟩, held⟩

/-- A ready document is delivered exactly if it is clear. -/
theorem delivers_iff_of_ready (shown : Yaml → String) {fmt : TargetFormat} {odcsDoc : Block}
    (contractId : String) (ready : Ready odcsDoc fmt) :
    Delivers shown fmt odcsDoc contractId ↔ Clear shown fmt odcsDoc contractId := by
  cases fmt with
  | avro => exact exists_map_eq_ok.trans (avro_delivers_iff shown contractId ready)
  | proto => exact exists_map_eq_ok.trans (proto_delivers_iff shown contractId ready)
  | es => exact exists_map_eq_ok.trans (es_delivers_iff shown contractId ready)
  | parquet => exact exists_map_eq_ok.trans (parquet_delivers_iff shown contractId ready)

/-- What passes the checker is delivered exactly if it is clear. -/
theorem delivers_iff_clear (shown : Yaml → String) (fmt : TargetFormat) (odcsDoc : Block)
    (contractId : String) (pass : passes shown odcsDoc contractId fmt) :
    Delivers shown fmt odcsDoc contractId ↔ Clear shown fmt odcsDoc contractId :=
  delivers_iff_of_ready shown contractId (ready_of_passes pass)

/-- A coordinate field. -/
def coordinateField (name term : String) : Yaml :=
  .mapping (Yaml.fields [("name", .text name), ("physicalType", .text "double"),
    ("customProperties", .sequence [.mapping (Yaml.fields
      [("property", .text "xOptimization"), ("value", .mapping (Yaml.fields
        [("semanticTerm", .text term)]))])])])

/-- A contract of places with coordinates and other fields. -/
def placesDoc (others : List Yaml) : Block :=
  Yaml.fields [("schema", .sequence [.mapping (Yaml.fields
    [("customProperties", .sequence [.mapping (Yaml.fields
      [("property", .text "schemaGeneration"), ("value", .mapping (Yaml.fields
        [("es", .mapping (Yaml.fields [("indexName", .text "depots")]))]))])]),
    ("properties", .sequence ([coordinateField "lat" "geo:latitude",
      coordinateField "lon" "geo:longitude"] ++ others))])])]

/-- The geo points of a document. -/
def geoNamesOf (odcsDoc : Block) : Option (List String) :=
  match (iterSchemaProperties odcsDoc).items.foldlM (coordinateStep fun _ => "") {} with
  | .ok coordinates => some coordinates.geoNames
  | .error _ => none

theorem geoNames_of_located {odcsDoc : Block} {coordinates : Coordinates} {names : List String}
    (known : geoNamesOf odcsDoc = some names)
    (located : (iterSchemaProperties odcsDoc).items.foldlM (coordinateStep fun _ => "") {} =
      .ok coordinates) : coordinates.geoNames = names := by
  rw [geoNamesOf, located] at known
  exact Option.some.inj known

theorem hints_placesDoc (others : List Yaml) {hints : Block}
    (found : getSchemaGenHints .es (placesDoc others) = .ok hints) :
    hints = Yaml.fields [("indexName", .text "depots")] :=
  (Except.ok.inj found).symm

theorem placesDoc_delivers : Delivers (fun _ => "") .es (placesDoc []) "depots" := by
  refine (delivers_iff_clear _ _ _ _ (by decide +kernel)).mpr ?_
  have named : ∀ prop ∈ (iterSchemaProperties (placesDoc [])).items,
      nameOf prop = .text "lat" ∨ nameOf prop = .text "lon" :=
    List.forall_mem_cons.mpr ⟨.inl rfl, List.forall_mem_singleton.mpr (.inr rfl)⟩
  have names : (iterSchemaProperties (placesDoc [])).items.map ownName =
      [.text "lat", .text "lon"] := rfl
  refine ⟨fun hints found => ?_, fun prop member => ?_, ?_, fun coordinates located => ?_⟩
  · rw [hints_placesDoc [] found]
    rfl
  · exact (named prop member).elim (fun lat => ⟨_, lat⟩) fun lon => ⟨_, lon⟩
  · rw [names]
    simp [Yaml.text]
  · have known : geoNamesOf (placesDoc []) = some ["location"] := by decide +kernel
    rw [geoNames_of_located known located]
    intro prop member name geo text
    obtain rfl := List.mem_singleton.mp geo
    rcases named prop member with lat | lon
    · exact absurd (lat.symm.trans text) (by simp [Yaml.text])
    · exact absurd (lon.symm.trans text) (by simp [Yaml.text])

/-- A field named like a geo point. -/
def locationField : Yaml :=
  .mapping (Yaml.fields [("name", .text "location"), ("physicalType", .text "string")])

/-- A declared location passes the checker and becomes a geo point. -/
theorem location_replaced :
    passes (fun _ => "") (placesDoc [locationField]) "depots" .es ∧
      ¬ Delivers (fun _ => "") .es (placesDoc [locationField]) "depots" := by
  have pass : passes (fun _ => "") (placesDoc [locationField]) "depots" .es := by decide +kernel
  refine ⟨pass, fun delivers => ?_⟩
  have clear : EsClear (fun _ => "") (placesDoc [locationField]) :=
    (delivers_iff_of_ready _ "depots" (ready_of_passes pass)).mp delivers
  obtain ⟨coordinates, located⟩ := exists_coordinates (fun _ => "") {} clear.named
  have known : geoNamesOf (placesDoc [locationField]) = some ["location"] := by decide +kernel
  have listed : Yaml.fields [("name", .text "location"), ("physicalType", .text "string")] ∈
      (iterSchemaProperties (placesDoc [locationField])).items :=
    List.mem_cons_of_mem _ (List.mem_cons_of_mem _ List.mem_cons_self)
  have replaced := clear.apart coordinates located _ listed "location"
    (by rw [geoNames_of_located known located]; exact List.mem_cons_self) rfl
  have declared : esType (fun _ => "")
      (Yaml.fields [("name", .text "location"), ("physicalType", .text "string")]) =
      .text "keyword" := rfl
  rw [declared] at replaced
  simp [Yaml.text] at replaced

end FlOp.Contracts.Gen
