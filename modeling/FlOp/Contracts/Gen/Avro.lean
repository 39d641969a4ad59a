import FlOp.Contracts.Gen.Records

/-! # Avro schemas

The Avro generator maps every property to a field of a record. It takes its hints for granted: what
is neither a mapping nor without the words it asks for raises, and so does a value that JSON has no
word for.
-/

namespace FlOp.Contracts.Gen

open FlOp.Core Library

/-- `_AVRO_TIMESTAMP_MILLIS`. -/
def avroTimestampMillis : Yaml :=
  .mapping (Yaml.fields [("type", .text "long"), ("logicalType", .text "timestamp-millis")])

/-- `_AVRO_DATE`. -/
def avroDate : Yaml :=
  .mapping (Yaml.fields [("type", .text "int"), ("logicalType", .text "date")])

/-- `key in value`. -/
def holds (key : String) : Yaml → Except PyError Bool
  | .mapping entries => .ok (Yaml.lookup entries key).isSome
  | .sequence items => .ok (items.any fun item => item.isText key)
  | .scalar (.text value) => .ok (containsText key value)
  | .scalar _ => .error .typeError

/-- `value[key]`, of a key that is a text. -/
def itemAt (key : String) : Yaml → Except PyError Yaml
  | .mapping entries =>
    match Yaml.lookup entries key with
    | some value => .ok value
    | none => .error .keyError
  | _ => .error .typeError

/-- What a hint says, if it is there. -/
def hint (key : String) (hints : Yaml) : Except PyError (Option Yaml) :=
  (holds key hints).bind fun held =>
    if held then (itemAt key hints).map some else .ok none

section Generator

variable (shown : Yaml → String)

/-- The type of the values of a field: time semantics first, else the physical type's. -/
def avroBaseType (prop : Block) (primitive : String) : Yaml :=
  if (semanticHints shown prop).isTimestamp then avroTimestampMillis
  else if (semanticHints shown prop).isDate then avroDate
  else .text primitive

/-- The entries that say the type: a hinted default comes first, then `required`. -/
def avroTypeEntries (prop : Block) (base : Yaml) (default : Option Yaml) :
    List (String × Yaml) :=
  match default with
  | some value => [("type", base), ("default", value)]
  | none =>
    if isRequired prop then [("type", base)]
    else [("type", .sequence [.text "null", base]), ("default", .null)]

/-- `AvroGenerator._build_field`. -/
def avroField (contractId : String) (prop : Block) : Except PyError (List (String × Yaml)) :=
  (requireType shown contractId .avro prop).bind fun primitive =>
  (hint "aliases" (getFieldGenHints .avro prop)).bind fun aliases =>
  (hint "default" (getFieldGenHints .avro prop)).map fun default =>
    ("name", nameOf prop) :: ((aliases.map fun value => ("aliases", value)).toList ++
      avroTypeEntries prop (avroBaseType shown prop primitive) default ++
      [("doc", Yaml.get prop "description" (.text ""))])

/-- What an Avro schema says of itself. -/
def avroHeader (hints : Block) : List (String × Yaml) :=
  [("type", .text "record"), ("name", Yaml.get hints "recordName" .null),
    ("namespace", Yaml.get hints "namespace" .null), ("doc", Yaml.get hints "recordDoc" .null)]

/-- `AvroGenerator.generate`. -/
def avroGenerate (odcsDoc : Block) (contractId : String) : Except PyError Yaml :=
  (getSchemaGenHints .avro odcsDoc).bind fun hints =>
  (requireKeys contractId .avro hints (requiredSchemaKeys .avro)).bind fun _ =>
  ((iterSchemaProperties odcsDoc).collect (avroField shown contractId)).bind fun fields =>
    dumps (record (avroHeader hints) fields)

/-- The type that a property's declaration and hints determine. -/
def avroType (prop : Block) : Yaml :=
  let primitive :=
    match physicalTypeOf prop with
    | .scalar (.text name) => (physicalTypeToAvro name).getD ""
    | _ => ""
  let base := avroBaseType shown prop primitive
  match hint "default" (getFieldGenHints .avro prop) with
  | .ok (some _) => base
  | _ => if isRequired prop then base else .sequence [.text "null", base]

end Generator

/-- A field whose values can all be read and written. -/
structure AvroWritable (prop : Block) : Prop where
  named : (nameOf prop).json.isSome
  described : (Yaml.get prop "description" (.text "")).json.isSome
  hinted : ∀ key ∈ ["aliases", "default"], ∃ value,
    hint key (getFieldGenHints .avro prop) = .ok value ∧ ∀ written ∈ value, written.json.isSome

section Correct

variable {shown : Yaml → String} {prop : Block} {contractId : String}

theorem json_avroBaseType (primitive : String) :
    (avroBaseType shown prop primitive).json = some (avroBaseType shown prop primitive) := by
  unfold avroBaseType
  split_ifs
  · rfl
  · rfl
  · exact Yaml.json_text _

theorem json_sequence_null {base : Yaml} (plain : base.json = some base) :
    (Yaml.sequence [.text "null", base]).json = some (.sequence [.text "null", base]) := by
  have items : Yaml.jsonItems [.text "null", base] = some [.text "null", base] :=
    Yaml.jsonItems_eq_some.mpr (.cons (Yaml.json_text _) (.cons plain .nil))
  rw [Yaml.json, items, Option.map_some]

theorem json_avroType : (avroType shown prop).json = some (avroType shown prop) := by
  unfold avroType
  dsimp only
  split
  · exact json_avroBaseType _
  · split_ifs
    · exact json_avroBaseType _
    · exact json_sequence_null (json_avroBaseType _)

/-- A field that is built has the property's name and type. -/
theorem avroField_keys (ready : FieldReady .avro prop) {block : List (String × Yaml)}
    (built : avroField shown contractId prop = .ok block) :
    Yaml.lookup (Yaml.fields block) "name" = some (nameOf prop) ∧
      Yaml.lookup (Yaml.fields block) "type" = some (avroType shown prop) := by
  obtain ⟨name, type, declared, typed⟩ := ready.typed
  obtain ⟨primitive, required, built⟩ := Fallible.bind_eq_ok.mp built
  rw [requireType_of_typed declared typed] at required
  obtain rfl := Except.ok.inj required
  obtain ⟨aliases, -, built⟩ := Fallible.bind_eq_ok.mp built
  obtain ⟨default, hinted, rfl⟩ := Fallible.map_eq_ok.mp built
  refine ⟨rfl, ?_⟩
  have primitive : (match physicalTypeOf prop with
      | .scalar (.text name) => (physicalTypeToAvro name).getD ""
      | _ => "") = type := by
    rw [declared]
    exact (congrArg (Option.getD · "") typed : (physicalTypeToAvro name).getD "" = _)
  unfold avroType
  dsimp only
  rw [primitive, hinted]
  cases aliases <;> cases default <;> cases need : isRequired prop <;>
    simp [Yaml.lookup, Yaml.fields, avroTypeEntries, need]

/-- A field is built and can be written exactly if its values can. -/
theorem avroField_writable_iff (ready : FieldReady .avro prop) :
    (∃ block, avroField shown contractId prop = .ok block ∧ Writable block) ↔
      AvroWritable prop := by
  obtain ⟨name, type, declared, typed⟩ := ready.typed
  have required : requireType shown contractId .avro prop = .ok type :=
    requireType_of_typed declared typed
  have plain : (avroBaseType shown prop type).json = some (avroBaseType shown prop type) :=
    json_avroBaseType type
  have base := Option.isSome_of_eq_some plain
  have nullable := Option.isSome_of_eq_some (json_sequence_null plain)
  have entries : ∀ aliases default : Option Yaml,
      Writable (("name", nameOf prop) :: ((aliases.map fun value => ("aliases", value)).toList ++
        avroTypeEntries prop (avroBaseType shown prop type) default ++
        [("doc", Yaml.get prop "description" (.text ""))])) ↔
      (nameOf prop).json.isSome ∧ (∀ value ∈ aliases, value.json.isSome) ∧
        (∀ value ∈ default, value.json.isSome) ∧
        (Yaml.get prop "description" (.text "")).json.isSome := by
    intro aliases default
    cases aliases <;> cases default <;> cases need : isRequired prop <;>
      simp [avroTypeEntries, need, base, nullable]
  unfold avroField
  constructor
  · rintro ⟨block, built, writable⟩
    obtain ⟨primitive, found, built⟩ := Fallible.bind_eq_ok.mp built
    obtain rfl := Except.ok.inj (required.symm.trans found)
    obtain ⟨aliases, hintedAliases, built⟩ := Fallible.bind_eq_ok.mp built
    obtain ⟨default, hintedDefault, rfl⟩ := Fallible.map_eq_ok.mp built
    obtain ⟨named, writtenAliases, writtenDefault, described⟩ := (entries _ _).mp writable
    refine ⟨named, described, ?_⟩
    simp only [List.forall_mem_cons, List.not_mem_nil, false_imp_iff, implies_true, and_true]
    exact ⟨⟨aliases, hintedAliases, writtenAliases⟩, ⟨default, hintedDefault, writtenDefault⟩⟩
  · intro writable
    obtain ⟨aliases, hintedAliases, writtenAliases⟩ := writable.hinted "aliases" (by simp)
    obtain ⟨default, hintedDefault, writtenDefault⟩ := writable.hinted "default" (by simp)
    refine ⟨_, Fallible.bind_eq_ok.mpr ⟨type, required, Fallible.bind_eq_ok.mpr ⟨aliases,
      hintedAliases, Fallible.map_eq_ok.mpr ⟨default, hintedDefault, rfl⟩⟩⟩, ?_⟩
    exact (entries _ _).mpr
      ⟨writable.named, writtenAliases, writtenDefault, writable.described⟩

end Correct

/-- A document whose Avro schema can be written. -/
structure AvroClear (odcsDoc : Block) : Prop where
  header : ∀ hints, getSchemaGenHints .avro odcsDoc = .ok hints → Writable (avroHeader hints)
  fields : ∀ prop ∈ (iterSchemaProperties odcsDoc).items, AvroWritable prop
  distinct : ((iterSchemaProperties odcsDoc).items.map ownName).Nodup

/-- The Avro schema of a ready document delivers every property once exactly if the document is
clear. -/
theorem avro_delivers_iff (shown : Yaml → String) {odcsDoc : Block} (contractId : String)
    (ready : Ready odcsDoc .avro) :
    (∃ artifact, avroGenerate shown odcsDoc contractId = .ok artifact ∧
      ListsOnce ((iterSchemaProperties odcsDoc).items.map fun prop =>
        (ownName prop, avroType shown prop)) (listedFields "type" artifact)) ↔
      AvroClear odcsDoc := by
  obtain ⟨hints, found, there⟩ := ready.hinted (by decide)
  have generates : avroGenerate shown odcsDoc contractId =
      ((iterSchemaProperties odcsDoc).collect (avroField shown contractId)).bind fun fields =>
        dumps (record (avroHeader hints) fields) := by
    rw [avroGenerate, found]
    change (requireKeys contractId .avro hints (requiredSchemaKeys .avro)).bind _ = _
    rw [requireKeys_eq_ok there]
    rfl
  rw [generates, delivers_record_iff ready.finite (by simp [avroHeader])
    (fun prop member _ built => avroField_keys (ready.fields prop member) built)
    fun _ _ => json_avroType]
  constructor
  · rintro ⟨top, each, distinct⟩
    refine ⟨fun other same => ?_, fun prop member => ?_, distinct⟩
    · obtain rfl := Except.ok.inj (found.symm.trans same)
      exact top
    · exact (avroField_writable_iff (ready.fields prop member)).mp (each prop member)
  · intro clear
    refine ⟨clear.header hints found, fun prop member => ?_, clear.distinct⟩
    exact (avroField_writable_iff (ready.fields prop member)).mpr (clear.fields prop member)

end FlOp.Contracts.Gen
