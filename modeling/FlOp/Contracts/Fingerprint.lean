import Mathlib.Data.Finmap
import Mathlib.Data.String.Basic

/-! # Canonical mapping documents

A mapping document is JSON-like: record metadata and a list of field mappings. An object is a
finite map, so key order does not count; normalizing and serializing with sorted keys see no more
than that. Both the metadata fingerprint and the evolution policy read the document as blocks.
-/

namespace FlOp.Contracts

/-- A JSON object up to the order of its keys. -/
abbrev JsonObject (ν : Type) := Finmap fun _ : String => ν

/-- A metadata value: the shapes the mapping language gives a meaning, and any other one by its
normal form. -/
inductive MetaValue where
  | null
  | text (value : String)
  | texts (items : List String)
  | codes (entries : JsonObject String)
  | other (json : String) (truthy : Bool)
deriving DecidableEq

/-- One entry of `fieldMappings`: its source field, and its other keys. -/
structure FieldMapping where
  sourceField : String
  fields : JsonObject MetaValue
deriving DecidableEq

/-- A mapping document. Metadata that is no object counts as none, and so does an entry of
`fieldMappings` that is no object or names no source field. -/
structure MappingDocument where
  metadata : Option (JsonObject MetaValue) := none
  fieldMappings : List (Option FieldMapping) := []

namespace MappingDocument

/-- The field mappings the document declares. -/
def declared (doc : MappingDocument) : List FieldMapping := doc.fieldMappings.filterMap id

/-- The record metadata without the keys that are set aside. -/
def comparedMetadata (cosmetic : List String) (doc : MappingDocument) :
    Option (JsonObject MetaValue) :=
  doc.metadata.map fun fields => cosmetic.foldl (fun kept key => kept.erase key) fields

/-- The semantic blocks: the record metadata under `contract`, and each field mapping under its
source field. -/
def collectBlocks (cosmetic : List String) (doc : MappingDocument) :
    JsonObject (JsonObject MetaValue) :=
  let blocks : JsonObject (JsonObject MetaValue) :=
    match doc.comparedMetadata cosmetic with
    | none => ∅
    | some fields => (∅ : JsonObject (JsonObject MetaValue)).insert "contract" fields
  doc.fieldMappings.foldl
    (fun blocks entry =>
      match entry with
      | none => blocks
      | some mapping => blocks.insert ("field:" ++ mapping.sourceField) mapping.fields)
    blocks

/-- `_collect_mapping_blocks`: the blocks behind the metadata fingerprint. -/
def collectMappingBlocks (doc : MappingDocument) : JsonObject (JsonObject MetaValue) :=
  doc.collectBlocks ["domain"]

/-- `_mapping_policy_blocks`: the blocks the evolution policy compares. -/
def mappingPolicyBlocks (doc : MappingDocument) : JsonObject (JsonObject MetaValue) :=
  doc.collectBlocks ["domain", "mappingVersion"]

/-- What the last mapping of a source field declares. -/
def lastMapping (doc : MappingDocument) (field : String) : Option (JsonObject MetaValue) :=
  (doc.declared.reverse.find? fun mapping => mapping.sourceField = field).map (·.fields)

theorem append_field_inj {a b : String} : "field:" ++ a = "field:" ++ b ↔ a = b := by
  rw [← String.toList_inj, String.toList_append, String.toList_append, List.append_cancel_left_eq,
    String.toList_inj]

theorem contract_ne_field (field : String) : "contract" ≠ "field:" ++ field := by
  intro same
  have chars := congrArg String.toList same
  rw [String.toList_append] at chars
  simp at chars

private theorem lookup_foldl_insert (entries : List (Option FieldMapping))
    (blocks : JsonObject (JsonObject MetaValue)) (key : String) :
    (entries.foldl
      (fun blocks entry =>
        match entry with
        | none => blocks
        | some mapping => blocks.insert ("field:" ++ mapping.sourceField) mapping.fields)
      blocks).lookup key =
    (((entries.filterMap id).reverse.find? fun mapping =>
      "field:" ++ mapping.sourceField = key).map (·.fields)).or (blocks.lookup key) := by
  induction entries generalizing blocks with
  | nil => simp
  | cons entry rest ih =>
    rw [List.foldl_cons, ih]
    cases entry with
    | none => rfl
    | some mapping =>
      have listed : (some mapping :: rest).filterMap id = mapping :: rest.filterMap id := rfl
      rw [listed, List.reverse_cons, List.find?_append, Option.map_or, Option.or_assoc]
      congr 1
      by_cases same : "field:" ++ mapping.sourceField = key
      · subst same
        simp
      · simp [same, Finmap.lookup_insert_of_ne _ (Ne.symm same)]

theorem lookup_contract (cosmetic : List String) (doc : MappingDocument) :
    (doc.collectBlocks cosmetic).lookup "contract" = doc.comparedMetadata cosmetic := by
  have absent : ((doc.fieldMappings.filterMap id).reverse.find? fun mapping =>
      "field:" ++ mapping.sourceField = "contract") = none :=
    List.find?_eq_none.mpr fun mapping _ same =>
      contract_ne_field mapping.sourceField (of_decide_eq_true same).symm
  rw [collectBlocks, lookup_foldl_insert, absent]
  cases doc.comparedMetadata cosmetic <;> simp

/-- The block of a source field is what its last mapping declares. -/
theorem lookup_field (cosmetic : List String) (doc : MappingDocument) (field : String) :
    (doc.collectBlocks cosmetic).lookup ("field:" ++ field) = doc.lastMapping field := by
  rw [collectBlocks, lookup_foldl_insert, lastMapping, declared]
  simp only [append_field_inj]
  have unset : Finmap.lookup ("field:" ++ field)
      (match doc.comparedMetadata cosmetic with
      | none => (∅ : JsonObject (JsonObject MetaValue))
      | some fields => (∅ : JsonObject (JsonObject MetaValue)).insert "contract" fields) =
      none := by
    cases doc.comparedMetadata cosmetic with
    | none => rfl
    | some fields => rw [Finmap.lookup_insert_of_ne _ (contract_ne_field field).symm]; rfl
  rw [unset, Option.or_none]

/-- Blocks are equal exactly if the compared metadata and every field's last mapping are. -/
theorem collectBlocks_eq_iff (cosmetic : List String) (a b : MappingDocument) :
    a.collectBlocks cosmetic = b.collectBlocks cosmetic ↔
      a.comparedMetadata cosmetic = b.comparedMetadata cosmetic ∧
      ∀ field, a.lastMapping field = b.lastMapping field := by
  constructor
  · intro same
    refine ⟨?_, fun field => ?_⟩
    · rw [← lookup_contract, same, lookup_contract]
    · rw [← lookup_field cosmetic, same, lookup_field]
  · rintro ⟨metadata, last⟩
    refine Finmap.ext_lookup fun key => ?_
    by_cases contract : key = "contract"
    · rw [contract, lookup_contract, lookup_contract, metadata]
    · by_cases field : ∃ name, key = "field:" ++ name
      · obtain ⟨name, rfl⟩ := field
        rw [lookup_field, lookup_field, last]
      · have other : ∀ doc : MappingDocument, (doc.collectBlocks cosmetic).lookup key = none := by
          intro doc
          have absent : ((doc.fieldMappings.filterMap id).reverse.find? fun mapping =>
              "field:" ++ mapping.sourceField = key) = none :=
            List.find?_eq_none.mpr fun mapping _ same =>
              field ⟨mapping.sourceField, (of_decide_eq_true same).symm⟩
          rw [collectBlocks, lookup_foldl_insert, absent]
          cases doc.comparedMetadata cosmetic with
          | none => rfl
          | some fields => simp [Finmap.lookup_insert_of_ne _ contract]
        rw [other, other]

end MappingDocument

end FlOp.Contracts

/-! # What the metadata fingerprint sees

Both the fingerprint and the evolution policy keep one block a source field, so of several
mappings of one field they see the last. A mapping that a later one of its field replaces can be
added or dropped unseen.
-/

namespace FlOp.Contracts

namespace MappingDocument

/-- The document declares the mapping, and another mapping of its source field comes last. -/
def Shadowed (doc : MappingDocument) (mapping : FieldMapping) : Prop :=
  mapping ∈ doc.declared ∧ doc.lastMapping mapping.sourceField ≠ some mapping.fields

/-- Both documents declare the same set of field mappings. -/
def SameMappings (a b : MappingDocument) : Prop :=
  ∀ mapping, mapping ∈ a.declared ↔ mapping ∈ b.declared

/-- The documents agree in their compared metadata and in the last mapping of every field. -/
def AgreeOnLast (a b : MappingDocument) : Prop :=
  a.comparedMetadata ["domain", "mappingVersion"] =
    b.comparedMetadata ["domain", "mappingVersion"] ∧
  ∀ field, a.lastMapping field = b.lastMapping field

theorem mem_declared_of_lastMapping {doc : MappingDocument} {mapping : FieldMapping}
    (last : doc.lastMapping mapping.sourceField = some mapping.fields) :
    mapping ∈ doc.declared := by
  obtain ⟨found, located, fields⟩ := Option.map_eq_some_iff.mp last
  have same : found.sourceField = mapping.sourceField := by
    simpa using List.find?_some located
  obtain rfl : found = mapping := by
    cases found
    cases mapping
    cases same
    cases fields
    rfl
  exact List.mem_reverse.mp (List.mem_of_find?_eq_some located)

/-- The last mapping of a field depends on which document it is read from only through the list
of mappings: documents with the same last mappings differ in shadowed ones only. -/
theorem sameMappings_of_shadowed {a b : MappingDocument}
    (last : ∀ field, a.lastMapping field = b.lastMapping field)
    (forth : ∀ mapping, a.Shadowed mapping → mapping ∈ b.declared)
    (back : ∀ mapping, b.Shadowed mapping → mapping ∈ a.declared) : SameMappings a b := by
  intro mapping
  constructor
  · intro member
    by_cases kept : a.lastMapping mapping.sourceField = some mapping.fields
    · exact mem_declared_of_lastMapping ((last _).symm.trans kept)
    · exact forth mapping ⟨member, kept⟩
  · intro member
    by_cases kept : b.lastMapping mapping.sourceField = some mapping.fields
    · exact mem_declared_of_lastMapping ((last _).trans kept)
    · exact back mapping ⟨member, kept⟩

/-- Setting one more key aside keeps equal metadata equal. -/
theorem comparedMetadata_policy {a b : MappingDocument}
    (same : a.comparedMetadata ["domain"] = b.comparedMetadata ["domain"]) :
    a.comparedMetadata ["domain", "mappingVersion"] =
      b.comparedMetadata ["domain", "mappingVersion"] := by
  have erased : ∀ doc : MappingDocument, doc.comparedMetadata ["domain", "mappingVersion"] =
      (doc.comparedMetadata ["domain"]).map fun fields => fields.erase "mappingVersion" := by
    intro doc
    simp [comparedMetadata, Option.map_map, Function.comp_def]
  rw [erased, erased, same]

section Hash

variable {τ δ : Type} (dumps : JsonObject (JsonObject MetaValue) → τ) (sha256 : τ → δ)

/-- The fingerprint: a digest of the serialized blocks. -/
def mappingMetadataHash (doc : MappingDocument) : δ := sha256 (dumps doc.collectMappingBlocks)

/-- With a digest and a serialization that keep everything apart, equal fingerprints and equal
policy blocks come from equal sets of mappings exactly if documents that agree in the last
mapping of every field declare each other's shadowed mappings. -/
theorem fingerprint_sees_mappings_iff (dumps_injective : Function.Injective dumps)
    (sha256_injective : Function.Injective sha256) (a b : MappingDocument) :
    ((mappingMetadataHash dumps sha256 a = mappingMetadataHash dumps sha256 b →
        SameMappings a b) ∧
      (a.mappingPolicyBlocks = b.mappingPolicyBlocks → SameMappings a b)) ↔
    (AgreeOnLast a b →
      (∀ mapping, a.Shadowed mapping → mapping ∈ b.declared) ∧
      ∀ mapping, b.Shadowed mapping → mapping ∈ a.declared) := by
  constructor
  · rintro ⟨-, policy⟩ agree
    have same := policy ((collectBlocks_eq_iff _ a b).mpr agree)
    exact ⟨fun mapping shadowed => (same mapping).mp shadowed.1,
      fun mapping shadowed => (same mapping).mpr shadowed.1⟩
  · intro declares
    have seen : AgreeOnLast a b → SameMappings a b := fun agree =>
      sameMappings_of_shadowed agree.2 (declares agree).1 (declares agree).2
    refine ⟨fun hashes => ?_, fun blocks => seen ((collectBlocks_eq_iff _ a b).mp blocks)⟩
    have blocks := dumps_injective (sha256_injective hashes)
    obtain ⟨metadata, last⟩ := (collectBlocks_eq_iff _ a b).mp blocks
    exact seen ⟨comparedMetadata_policy metadata, last⟩

end Hash

/-- The two mappings of `area_ha` in the agricultural orders. -/
def areaMapping (binding : String) : FieldMapping where
  sourceField := "area_ha"
  fields := (∅ : JsonObject MetaValue).insert "binding" (.text binding)

/-- The orders with both mappings of `area_ha`. -/
def ordersMapping : MappingDocument where
  metadata := some ((∅ : JsonObject MetaValue).insert "domain" (.text "agricultural"))
  fieldMappings := [some (areaMapping "task.areaHa"), some (areaMapping "task.workQuantity")]

/-- The orders with the second mapping of `area_ha` only. -/
def ordersMappingWithoutArea : MappingDocument where
  metadata := ordersMapping.metadata
  fieldMappings := [some (areaMapping "task.workQuantity")]

theorem fingerprint_sees_mappings_orders :
    SameMappings ordersMapping
      { ordersMapping with fieldMappings := none :: ordersMapping.fieldMappings } :=
  ((fingerprint_sees_mappings_iff id id Function.injective_id Function.injective_id
    ordersMapping
    { ordersMapping with fieldMappings := none :: ordersMapping.fieldMappings }).mpr
      fun _ => ⟨fun _ shadowed => shadowed.1, fun _ shadowed => shadowed.1⟩).1 rfl

/-- Dropping the first mapping of `area_ha` leaves fingerprint and policy blocks as they are. -/
theorem fingerprint_misses_area :
    ¬ ∀ (τ δ : Type) (dumps : JsonObject (JsonObject MetaValue) → τ) (sha256 : τ → δ),
      Function.Injective dumps → Function.Injective sha256 → ∀ a b : MappingDocument,
        (a.metadata.bind (·.lookup "domain")) = (b.metadata.bind (·.lookup "domain")) →
        (mappingMetadataHash dumps sha256 a = mappingMetadataHash dumps sha256 b →
          SameMappings a b) ∧
        (a.mappingPolicyBlocks = b.mappingPolicyBlocks → SameMappings a b) := by
  intro sees
  have blocks : ordersMapping.collectMappingBlocks =
      ordersMappingWithoutArea.collectMappingBlocks := by decide +kernel
  have same := (sees _ _ id id Function.injective_id Function.injective_id ordersMapping
    ordersMappingWithoutArea (by decide)).1 blocks
  have absent : areaMapping "task.areaHa" ∉ ordersMappingWithoutArea.declared := by
    decide +kernel
  exact absent ((same _).mp List.mem_cons_self)

end MappingDocument

end FlOp.Contracts
