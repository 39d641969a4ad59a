import FlOp.Contracts.OdcsDocument
import FlOp.Contracts.UpgradePath
import FlOp.Library.Fallible

/-! # Generated Avro records and the evolution gate

The gate compares snapshots, the generator reads the documents. They differ in the default of
`required`, in whether the quantity kind counts, and in how often a property name counts, and
exactly there a change the gate calls compatible can produce a record that cannot read old data.
-/

namespace FlOp.Contracts

open Library

/-- The Avro type of a value. -/
inductive AvroBase where
  | primitive (name : String)
  | timestampMillis
  | date
deriving DecidableEq, Repr

/-- A field's type: a value, or a value or null. -/
inductive AvroType where
  | plain (base : AvroBase)
  | nullable (base : AvroBase)
deriving DecidableEq, Repr

structure AvroField where
  name : String
  aliases : Option (List String) := none
  type : AvroType
  default : Option String := none
  doc : String := ""
deriving DecidableEq, Repr

structure AvroRecord where
  name : String
  namespaceName : String
  doc : String
  fields : List AvroField
deriving DecidableEq, Repr

/-- `PHYSICAL_TYPE_TO_AVRO`. -/
def physicalTypeToAvro : String → Option String
  | "string" => some "string"
  | "double" => some "double"
  | "float" => some "float"
  | "int" => some "int"
  | "integer" => some "int"
  | "long" => some "long"
  | "boolean" => some "boolean"
  | "bool" => some "boolean"
  | "bytes" => some "bytes"
  | _ => none

/-- The base type of a field: time semantics first, else the physical type's. -/
def avroBase (prop : OdcsProperty) (primitive : String) : AvroBase :=
  if prop.isTimestamp then .timestampMillis
  else if prop.isDate then .date
  else .primitive primitive

/-- `_build_field`: `required` defaults to true. -/
def buildField (contractId : String) (prop : OdcsProperty) : Except String AvroField :=
  let name := prop.name.getD ""
  match physicalTypeToAvro prop.physicalType with
  | none =>
    .error (contractId ++ ": field '" ++ name ++ "' has unknown physicalType '" ++
      prop.physicalType ++ "'")
  | some primitive =>
    let base := avroBase prop primitive
    let (type, default) :=
      match prop.fieldHints.default with
      | some default => (AvroType.plain base, some default)
      | none =>
        if prop.required.getD true then (.plain base, none)
        else (.nullable base, some "null")
    .ok ⟨name, prop.fieldHints.aliases, type, default, prop.description⟩

/-- `get_schema_gen_hints`: the hints of the first schema object. -/
def schemaHints (doc : OdcsDocument) : Except String AvroHints :=
  match doc.schemaObjects with
  | [] => .error "ODCS document has no 'schema' section"
  | none :: _ => .error "schema[0] is not an object"
  | some schemaObject :: _ =>
    match findProperty schemaObject.customProperties "schemaGeneration" with
    | none => .error "Missing 'schemaGeneration' customProperty in schema[0]"
    | some root =>
      match root.avro with
      | none => .error "Missing or invalid 'avro' block inside schemaGeneration"
      | some hints => .ok hints

/-- A hint the record cannot be generated without. -/
def requireHint (contractId key value : String) : Except String Unit :=
  if value = "" then
    .error (contractId ++ ": schemaGeneration.avro missing required key '" ++ key ++ "'")
  else .ok ()

/-- `AvroGenerator.generate`. -/
def generateAvro (contractId : String) (doc : OdcsDocument) : Except String AvroRecord :=
  (schemaHints doc).bind fun hints =>
  (requireHint contractId "namespace" hints.namespaceName).bind fun _ =>
  (requireHint contractId "recordName" hints.recordName).bind fun _ =>
  (requireHint contractId "recordDoc" hints.recordDoc).bind fun _ =>
  (doc.properties.mapM (buildField contractId)).bind fun fields =>
  .ok ⟨hints.recordName, hints.namespaceName, hints.recordDoc, fields⟩

/-- A reader's record resolves a writer's one if each of its fields is in the writer's with the
same type or has a default. -/
def CanRead (reader writer : AvroRecord) : Prop :=
  ∀ field ∈ reader.fields, (∃ written ∈ writer.fields,
    written.name = field.name ∧ written.type = field.type) ∨ field.default.isSome

instance (reader writer : AvroRecord) : Decidable (CanRead reader writer) :=
  inferInstanceAs (Decidable (∀ field ∈ reader.fields, _ ∨ _))

namespace OdcsProperty

/-- The name the generator writes. -/
def fieldName (prop : OdcsProperty) : String := prop.name.getD ""

/-- The generated field has a default: a hinted one, or null where `required` is written as
false. -/
def hasDefault (prop : OdcsProperty) : Bool :=
  prop.fieldHints.default.isSome ∨ prop.required = some false

/-- The generated field may be null: a hinted default takes the null away. -/
def isNullable (prop : OdcsProperty) : Bool :=
  prop.fieldHints.default = none ∧ prop.required = some false

/-- The base type of the generated field, if the physical type is known. -/
def avroBase? (prop : OdcsProperty) : Option AvroBase :=
  (physicalTypeToAvro prop.physicalType).map (avroBase prop)

end OdcsProperty

/-- What a property generates. -/
theorem buildField_eq_ok {contractId : String} {prop : OdcsProperty} {field : AvroField}
    (built : buildField contractId prop = .ok field) :
    field.name = prop.fieldName ∧ field.default.isSome = prop.hasDefault ∧
      ∃ base, prop.avroBase? = some base ∧
        field.type = if prop.isNullable then .nullable base else .plain base := by
  unfold buildField at built
  unfold OdcsProperty.avroBase? OdcsProperty.hasDefault OdcsProperty.isNullable
  cases known : physicalTypeToAvro prop.physicalType with
  | none =>
    simp only [known] at built
    cases built
  | some primitive =>
    simp only [known] at built
    cases hint : prop.fieldHints.default with
    | some default =>
      simp only [hint] at built
      cases built
      exact ⟨rfl, by simp, avroBase prop primitive, rfl, by simp⟩
    | none =>
      simp only [hint] at built
      cases stated : prop.required with
      | none =>
        simp only [stated] at built
        cases built
        exact ⟨rfl, by simp, avroBase prop primitive, rfl, by simp⟩
      | some required =>
        cases required <;>
        · simp only [stated] at built
          cases built
          exact ⟨rfl, by simp, avroBase prop primitive, rfl, by simp⟩

/-- A generated record has the fields its properties build. -/
theorem fields_of_generateAvro {contractId : String} {doc : OdcsDocument} {record : AvroRecord}
    (generated : generateAvro contractId doc = .ok record) :
    doc.properties.mapM (buildField contractId) = .ok record.fields := by
  obtain ⟨hints, -, generated⟩ := Fallible.bind_eq_ok.mp generated
  obtain ⟨-, -, generated⟩ := Fallible.bind_eq_ok.mp generated
  obtain ⟨-, -, generated⟩ := Fallible.bind_eq_ok.mp generated
  obtain ⟨-, -, generated⟩ := Fallible.bind_eq_ok.mp generated
  obtain ⟨fields, built, same⟩ := Fallible.bind_eq_ok.mp generated
  cases same
  exact built

/-- The document has a property of this name that is never null and has the same base type. -/
def OdcsDocument.Carries (doc : OdcsDocument) (prop : OdcsProperty) : Prop :=
  ∃ written ∈ doc.properties, written.fieldName = prop.fieldName ∧
    written.isNullable = false ∧ written.avroBase? = prop.avroBase?

/-- Records resolve exactly if every property without a default is carried by the old document. -/
theorem canRead_iff {contractId : String} {old new : OdcsDocument} {oldRecord newRecord : AvroRecord}
    (generatedOld : generateAvro contractId old = .ok oldRecord)
    (generatedNew : generateAvro contractId new = .ok newRecord) :
    CanRead newRecord oldRecord ↔
      ∀ prop ∈ new.properties, prop.hasDefault = true ∨ old.Carries prop := by
  have builtOld := fields_of_generateAvro generatedOld
  have builtNew := fields_of_generateAvro generatedNew
  have plain : ∀ prop : OdcsProperty, prop.hasDefault = false → prop.isNullable = false := by
    intro prop missing
    simp only [OdcsProperty.hasDefault, OdcsProperty.isNullable, decide_eq_false_iff_not] at *
    tauto
  constructor
  · intro reads prop member
    obtain ⟨field, inNew, built⟩ := Fallible.exists_result_of_mapM builtNew member
    obtain ⟨name, default, base, hasBase, type⟩ := buildField_eq_ok built
    rcases reads field inNew with ⟨written, inOld, sameName, sameType⟩ | given
    · by_cases missing : prop.hasDefault = false
      · obtain ⟨source, declared, builtSource⟩ := Fallible.exists_item_of_mapM builtOld inOld
        obtain ⟨nameOld, -, baseOld, hasBaseOld, typeOld⟩ := buildField_eq_ok builtSource
        rw [typeOld, type, plain prop missing] at sameType
        cases null : source.isNullable with
        | true =>
          rw [null] at sameType
          cases sameType
        | false =>
          rw [null] at sameType
          cases sameType
          exact .inr ⟨source, declared, nameOld.symm.trans (sameName.trans name), null,
            hasBaseOld.trans hasBase.symm⟩
      · exact .inl (by simpa using missing)
    · exact .inl (default ▸ given)
  · intro covered field inNew
    obtain ⟨prop, member, built⟩ := Fallible.exists_item_of_mapM builtNew inNew
    obtain ⟨name, default, base, hasBase, type⟩ := buildField_eq_ok built
    by_cases missing : prop.hasDefault = false
    · rcases covered prop member with given | ⟨source, declared, sameName, null, sameBase⟩
      · rw [missing] at given
        cases given
      · obtain ⟨written, inOld, builtSource⟩ := Fallible.exists_result_of_mapM builtOld declared
        obtain ⟨nameOld, -, baseOld, hasBaseOld, typeOld⟩ := buildField_eq_ok builtSource
        have sameBases : baseOld = base :=
          Option.some.inj (hasBaseOld.symm.trans (sameBase.trans hasBase))
        refine .inl ⟨written, inOld, nameOld.trans (sameName.trans name.symm), ?_⟩
        rw [typeOld, type, null, plain prop missing, sameBases]
    · exact .inr (default.trans (by simpa using missing))

/-- The gate sees the property as a required one, and the old document's last property of its name
agrees with it in being a timestamp. -/
def KeepsTime (old new : OdcsDocument) (prop : OdcsProperty) : Prop :=
  ∃ name, new.lastNamed name = some prop ∧ prop.required = some true ∧
    ∃ written, old.lastNamed name = some written ∧ written.isTimestamp = prop.isTimestamp

/-- Past the gate, a property seen as required is one the old document carries, if both agree in
being a timestamp. -/
theorem carries_of_keepsTime {old new : OdcsDocument}
    (compatible : (classifyChange (schemaSnapshot old) (schemaSnapshot new)).changeClass ≠
      .breaking) {prop : OdcsProperty} (keeps : KeepsTime old new prop) : old.Carries prop := by
  obtain ⟨name, lastNew, required, written, lastOld, sameTime⟩ := keeps
  obtain ⟨declared, nameOld⟩ := OdcsDocument.mem_of_lastNamed lastOld
  obtain ⟨-, nameNew⟩ := OdcsDocument.mem_of_lastNamed lastNew
  have stays := ((atMost_classifyChange le_rfl).mp
    (ChangeReport.atMost_one_iff.mpr compatible)).1 name written.fieldSpec
    (by rw [get?_schemaSnapshot, lastOld, Option.map_some])
  rw [get?_schemaSnapshot, lastNew, Option.map_some, Option.some.injEq] at stays
  obtain ⟨logical, physical, stated⟩ := FieldSpec.mk.inj stays
  have writtenRequired : written.required = some true := by
    rw [required] at stated
    cases shape : written.required with
    | none => simp [shape] at stated
    | some value => simpa [shape] using stated.symm
  refine ⟨written, declared, ?_, ?_, ?_⟩
  · rw [OdcsProperty.fieldName, nameOld, OdcsProperty.fieldName, nameNew]
  · simp [OdcsProperty.isNullable, writtenRequired]
  · have sameDate : written.isTimestamp = false → written.isDate = prop.isDate := by
      intro noTime
      have noTimeNew := sameTime ▸ noTime
      simp only [OdcsProperty.isTimestamp, decide_eq_false_iff_not, not_or] at noTime noTimeNew
      simp [OdcsProperty.isDate, logical, noTime.1, noTimeNew.1]
    unfold OdcsProperty.avroBase?
    rw [physical]
    congr 1
    funext primitive
    unfold avroBase
    rw [← sameTime]
    cases time : written.isTimestamp with
    | true => rfl
    | false => rw [sameDate time]

/-- Past the gate, the new record reads the old one exactly if each new property without a default
is seen as required and keeps being a timestamp or not, or is carried by the old document. -/
theorem gate_keeps_readers_iff {contractId : String} {old new : OdcsDocument}
    {oldRecord newRecord : AvroRecord} (generatedOld : generateAvro contractId old = .ok oldRecord)
    (generatedNew : generateAvro contractId new = .ok newRecord)
    (compatible : (classifyChange (schemaSnapshot old) (schemaSnapshot new)).changeClass ≠
      .breaking) :
    CanRead newRecord oldRecord ↔
      ∀ prop ∈ new.properties,
        prop.hasDefault = true ∨ KeepsTime old new prop ∨ old.Carries prop := by
  rw [canRead_iff generatedOld generatedNew]
  constructor
  · intro covered prop member
    exact (covered prop member).imp id .inr
  · intro covered prop member
    rcases covered prop member with given | keeps | carried
    · exact .inl given
    · exact .inr (carries_of_keepsTime compatible keeps)
    · exact .inr carried

/-- Generation hints of the orders. -/
def ordersHints : AvroHints where
  namespaceName := "fl"
  recordName := "Order"
  recordDoc := "An order."

/-- Orders with one required field, and whatever else is given. -/
def ordersDocument (others : List OdcsProperty) : OdcsDocument :=
  let id : OdcsProperty :=
    { name := "order_id", physicalType := "string", required := some true }
  let hints : CustomProperty :=
    { property := "schemaGeneration", value := some { avro := some ordersHints } }
  ⟨[some ⟨[hints], (id :: others).map some⟩]⟩

theorem gate_keeps_readers_optional :
    let note : OdcsProperty :=
      { name := "note", physicalType := "string", required := some false }
    ∀ oldRecord newRecord, generateAvro "orders" (ordersDocument []) = .ok oldRecord →
      generateAvro "orders" (ordersDocument [note]) = .ok newRecord →
      CanRead newRecord oldRecord := by
  intro note oldRecord newRecord generatedOld generatedNew
  refine (gate_keeps_readers_iff generatedOld generatedNew (by decide +kernel)).mpr ?_
  intro prop member
  rcases List.mem_cons.mp member with rfl | member
  · exact .inr (.inl ⟨"order_id", by decide +kernel, rfl, _, rfl, rfl⟩)
  · obtain rfl := List.mem_singleton.mp member
    exact .inl (by decide +kernel)

/-- A property added without `required` passes the gate as optional and is generated as a field
that old data lacks and that has no default. -/
theorem gate_misses_unstated_requirement :
    ¬ ∀ (contractId : String) (old new : OdcsDocument) (oldRecord newRecord : AvroRecord),
      generateAvro contractId old = .ok oldRecord →
      generateAvro contractId new = .ok newRecord →
      (classifyChange (schemaSnapshot old) (schemaSnapshot new)).changeClass ≠ .breaking →
      CanRead newRecord oldRecord := by
  intro gate
  let id : AvroField := { name := "order_id", type := .plain (.primitive "string") }
  let note : AvroField := { name := "note", type := .plain (.primitive "string") }
  let record (fields : List AvroField) : AvroRecord := ⟨"Order", "fl", "An order.", fields⟩
  have reads := gate "orders" (ordersDocument [])
    (ordersDocument [{ name := "note", physicalType := "string" }]) (record [id])
    (record [id, note]) (by decide +kernel) (by decide +kernel) (by decide +kernel)
  revert reads
  decide +kernel

end FlOp.Contracts
