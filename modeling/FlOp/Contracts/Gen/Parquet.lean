import FlOp.Contracts.Gen.Records

/-! # Parquet descriptors

The Parquet generator needs no hints: it describes every property by its name and the Arrow type of
its values.
-/

namespace FlOp.Contracts.Gen

open FlOp.Core Library

section Generator

variable (shown : Yaml → String)

/-- The Arrow type of a property: time semantics first, else the physical type's. -/
def parquetArrowType (prop : Block) : Except PyError String :=
  if (semanticHints shown prop).isTimestamp then .ok "timestamp[ms, tz=UTC]"
  else if (semanticHints shown prop).isDate then .ok "date32"
  else (lookUp physicalTypeToParquet (Yaml.get prop "physicalType" (.text "string"))).map
    fun found => found.getD "large_string"

/-- The entry of a property. -/
def parquetField (prop : Block) : Except PyError (List (String × Yaml)) :=
  (parquetArrowType shown prop).map fun arrowType =>
    [("name", nameOf prop), ("arrow_type", .text arrowType),
      ("nullable", .boolean (!(Yaml.get prop "required" (.boolean false)).truthy)),
      ("description", Yaml.get prop "description" (.text ""))]

/-- The name of the first schema object, else the contract's. -/
def entityName (odcsDoc : Block) (contractId : String) : Except PyError Yaml :=
  let schemaObjs := Yaml.get odcsDoc "schema" (.sequence [])
  if schemaObjs.truthy then schemaObjs.first.map fun schemaObj =>
    match schemaObj with
    | .mapping block => Yaml.get block "name" (.text contractId)
    | _ => .text contractId
  else .ok (.text contractId)

/-- What a descriptor says of itself. -/
def parquetHeader (entity : Yaml) (contractId : String) : List (String × Yaml) :=
  [("entity", entity), ("contract_id", .text contractId)]

/-- `ParquetGenerator.generate`. -/
def parquetGenerate (odcsDoc : Block) (contractId : String) : Except PyError Yaml :=
  (entityName odcsDoc contractId).bind fun entity =>
  ((iterSchemaProperties odcsDoc).collect (parquetField shown)).bind fun fields =>
    dumps (record (parquetHeader entity contractId) fields)

/-- The Arrow type that a property's declaration determines. -/
def parquetType (prop : Block) : Yaml :=
  if (semanticHints shown prop).isTimestamp then .text "timestamp[ms, tz=UTC]"
  else if (semanticHints shown prop).isDate then .text "date32"
  else match physicalTypeOf prop with
    | .scalar (.text name) => .text ((physicalTypeToParquet name).getD "")
    | _ => .text ""

end Generator

/-- A document whose descriptor can be written. -/
structure ParquetClear (odcsDoc : Block) (contractId : String) : Prop where
  named : ∀ entity, entityName odcsDoc contractId = .ok entity → entity.json.isSome
  fields : ∀ prop ∈ (iterSchemaProperties odcsDoc).items,
    (nameOf prop).json.isSome ∧ (Yaml.get prop "description" (.text "")).json.isSome
  distinct : ((iterSchemaProperties odcsDoc).items.map ownName).Nodup

section Correct

variable {shown : Yaml → String} {prop : Block}

/-- A physical type that is declared is what the generator reads. -/
theorem physicalType_of_declared {name : String} (declared : physicalTypeOf prop = .text name)
    (known : name ≠ "") : Yaml.get prop "physicalType" (.text "string") = .text name := by
  unfold physicalTypeOf Yaml.get at declared
  unfold Yaml.get
  cases held : Yaml.lookup prop "physicalType" with
  | none =>
    rw [held] at declared
    cases declared
    exact absurd rfl known
  | some value =>
    rw [held] at declared
    exact declared

/-- The Arrow type of a ready property. -/
theorem parquetArrowType_eq_ok (ready : FieldReady .parquet prop) :
    ∃ arrowType, parquetArrowType shown prop = .ok arrowType ∧
      parquetType shown prop = .text arrowType := by
  obtain ⟨name, type, declared, typed⟩ := ready.typed
  have found : physicalTypeToParquet name = some type := typed
  have known : name ≠ "" := by
    rintro rfl
    cases found
  unfold parquetArrowType parquetType
  split_ifs
  · exact ⟨_, rfl, rfl⟩
  · exact ⟨_, rfl, rfl⟩
  · refine ⟨type, ?_, ?_⟩
    · rw [physicalType_of_declared declared known]
      change Except.map _ (Except.ok (physicalTypeToParquet name)) = _
      rw [found]
      rfl
    · rw [declared]
      change Yaml.text ((physicalTypeToParquet name).getD "") = _
      rw [found, Option.getD_some]

theorem parquetField_keys (ready : FieldReady .parquet prop) {block : List (String × Yaml)}
    (built : parquetField shown prop = .ok block) :
    Yaml.lookup (Yaml.fields block) "name" = some (nameOf prop) ∧
      Yaml.lookup (Yaml.fields block) "arrow_type" = some (parquetType shown prop) := by
  obtain ⟨arrowType, found, typeIs⟩ : ∃ arrowType, parquetArrowType shown prop = .ok arrowType ∧
      parquetType shown prop = .text arrowType :=
    parquetArrowType_eq_ok ready
  obtain ⟨other, same, rfl⟩ := Fallible.map_eq_ok.mp built
  obtain rfl := Except.ok.inj (found.symm.trans same)
  refine ⟨rfl, ?_⟩
  rw [typeIs]
  rfl

theorem json_parquetType : (parquetType shown prop).json = some (parquetType shown prop) := by
  unfold parquetType
  split_ifs
  · exact Yaml.json_text _
  · exact Yaml.json_text _
  · split <;> exact Yaml.json_text _

/-- An entry is built and can be written exactly if its name and description can. -/
theorem parquetField_writable_iff (ready : FieldReady .parquet prop) :
    (∃ block, parquetField shown prop = .ok block ∧ Writable block) ↔
      (nameOf prop).json.isSome ∧ (Yaml.get prop "description" (.text "")).json.isSome := by
  obtain ⟨arrowType, found, -⟩ : ∃ arrowType, parquetArrowType shown prop = .ok arrowType ∧
      parquetType shown prop = .text arrowType :=
    parquetArrowType_eq_ok ready
  have built : parquetField shown prop = .ok
      [("name", nameOf prop), ("arrow_type", .text arrowType),
        ("nullable", .boolean (!(Yaml.get prop "required" (.boolean false)).truthy)),
        ("description", Yaml.get prop "description" (.text ""))] := by
    rw [parquetField, found]
    rfl
  simp [built]

end Correct

/-- The descriptor of a ready document delivers every property once exactly if the document is
clear. -/
theorem parquet_delivers_iff (shown : Yaml → String) {odcsDoc : Block} (contractId : String)
    (ready : Ready odcsDoc .parquet) :
    (∃ artifact, parquetGenerate shown odcsDoc contractId = .ok artifact ∧
      ListsOnce ((iterSchemaProperties odcsDoc).items.map fun prop =>
        (ownName prop, parquetType shown prop)) (listedFields "arrow_type" artifact)) ↔
      ParquetClear odcsDoc contractId := by
  obtain ⟨schemaObj, isFirst⟩ := ready.first
  obtain ⟨entity, named⟩ : ∃ entity, entityName odcsDoc contractId = .ok entity := by
    rw [entityName, if_pos ready.listed, isFirst]
    exact ⟨_, rfl⟩
  have generates : parquetGenerate shown odcsDoc contractId =
      ((iterSchemaProperties odcsDoc).collect (parquetField shown)).bind fun fields =>
        dumps (record (parquetHeader entity contractId) fields) := by
    rw [parquetGenerate, named]
    rfl
  have top : Writable (parquetHeader entity contractId) ↔ entity.json.isSome := by
    simp [parquetHeader]
  rw [generates, delivers_record_iff ready.finite (by simp [parquetHeader])
    (fun prop member _ built => parquetField_keys (ready.fields prop member) built)
    fun _ _ => json_parquetType, top]
  constructor
  · rintro ⟨written, each, distinct⟩
    refine ⟨fun other same => ?_, fun prop member => ?_, distinct⟩
    · obtain rfl := Except.ok.inj (named.symm.trans same)
      exact written
    · exact (parquetField_writable_iff (ready.fields prop member)).mp (each prop member)
  · intro clear
    refine ⟨clear.named entity named, fun prop member => ?_, clear.distinct⟩
    exact (parquetField_writable_iff (ready.fields prop member)).mpr (clear.fields prop member)

end FlOp.Contracts.Gen
