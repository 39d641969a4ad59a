import FlOp.Contracts.Gen.Base

/-! # The generation checker

The checker reads the hints of a document the way the generators do and reports what they would
refuse. A document passes if nothing is reported.
-/

namespace FlOp.Contracts.Gen

open FlOp.Core Library

/-- What was found in one field. -/
structure FieldCheckResult where
  fieldName : Yaml
  errors : List String

structure GenerationCheckReport where
  contractId : String
  fmt : TargetFormat
  fieldResults : List FieldCheckResult := []
  schemaErrors : List String := []

/-- Nothing is reported. -/
def GenerationCheckReport.ok (report : GenerationCheckReport) : Bool :=
  report.schemaErrors.isEmpty && report.fieldResults.all fun result => result.errors.isEmpty

/-- `_check_schema_level`. -/
def checkSchemaLevel (odcsDoc : Block) (fmt : TargetFormat) : Except PyError (List String) :=
  let schemaObjs := Yaml.get odcsDoc "schema" (.sequence [])
  if !schemaObjs.truthy then .ok ["no 'schema' section found"]
  else schemaObjs.first.bind fun schemaObj =>
    if fmt = .parquet then .ok []
    else schemaObj.entriesOf.bind fun block =>
      match findProperty (Yaml.get block "customProperties" .null) "schemaGeneration" with
      | none => .ok ["missing 'schemaGeneration' customProperty in schema[0]"]
      | some rootGen =>
        match Yaml.get rootGen fmt.key .null with
        | .mapping hints =>
          .ok (((requiredSchemaKeys fmt).filter fun key =>
            !(Yaml.get hints key .null).truthy).map fun key =>
              "schemaGeneration." ++ fmt.key ++ "." ++ key ++ " is missing or empty")
        | _ => .ok ["missing or invalid '" ++ fmt.key ++ "' block inside schemaGeneration"]

/-- The number that `isinstance(value, int)` lets through. -/
def intOf : Yaml → Option ℤ
  | .scalar (.integer value) => some value
  | .scalar (.boolean value) => some (if value then 1 else 0)
  | _ => none

section Fields

variable (shown : Yaml → String)

/-- The errors of a physical type. -/
def checkType (fmt : TargetFormat) (prop : Block) : Except PyError (List String) :=
  if !(physicalTypeOf prop).truthy then .ok ["physicalType is missing"]
  else (lookUp (typeMap fmt) (physicalTypeOf prop)).map fun found =>
    match found with
    | some _ => []
    | none => ["physicalType '" ++ (physicalTypeOf prop).str shown ++ "' is not in the " ++
        fmt.key ++ " type map"]

/-- The errors of a field number, and the numbers that are taken then. -/
def checkNumber (value : Yaml) (seen : List ℤ) : List String × List ℤ :=
  let invalid := ["fieldGeneration.proto.fieldNumber is missing or invalid"]
  match intOf value with
  | none => (invalid, seen)
  | some number =>
    if number < 1 then (invalid, seen)
    else if number ∈ seen then
      (["fieldGeneration.proto.fieldNumber " ++ value.str shown ++
        " is already used by another field"], seen)
    else ([], number :: seen)

/-- `_check_field`. -/
def checkField (fmt : TargetFormat) (prop : Block) (seen : List ℤ) :
    Except PyError (List String × List ℤ) :=
  (checkType shown fmt prop).bind fun typeErrors =>
    match fmt with
    | .proto => (getFieldGenHints .proto prop).entriesOf.bind fun hints =>
      let numbered := checkNumber shown (Yaml.get hints "fieldNumber" .null) seen
      (inSet proto3ReservedWords (nameOf prop)).map fun reserved =>
        (typeErrors ++ numbered.1 ++
          if reserved then ["field name '" ++ (nameOf prop).str shown ++
            "' conflicts with a proto3 reserved word"] else [], numbered.2)
    | .es => (getFieldGenHints .es prop).entriesOf.bind fun hints =>
      let override := Yaml.get hints "type" .null
      if !override.truthy then .ok (typeErrors, seen)
      else (inSet validEsTypes override).map fun valid =>
        (typeErrors ++
          if valid then [] else ["fieldGeneration.es.type '" ++ override.str shown ++
            "' is not a valid ES mapping type"], seen)
    | _ => .ok (typeErrors, seen)

/-- One field of the loop. -/
def checkStep (fmt : TargetFormat) (state : List FieldCheckResult × List ℤ) (prop : Block) :
    Except PyError (List FieldCheckResult × List ℤ) :=
  (checkField shown fmt prop state.2).map fun checked =>
    (state.1 ++ [⟨nameOf prop, checked.1⟩], checked.2)

/-- `check_generation`. -/
def checkGeneration (odcsDoc : Block) (contractId : String) (fmt : TargetFormat) :
    Except PyError GenerationCheckReport :=
  (checkSchemaLevel odcsDoc fmt).bind fun schemaErrors =>
    if schemaErrors ≠ [] then .ok { contractId, fmt, schemaErrors }
    else ((iterSchemaProperties odcsDoc).forEach (checkStep shown fmt) ([], [])).map fun state =>
      { contractId, fmt, fieldResults := state.1 }

/-- The checker returns and reports no problem. -/
def passes (odcsDoc : Block) (contractId : String) (fmt : TargetFormat) : Bool :=
  match checkGeneration shown odcsDoc contractId fmt with
  | .ok report => report.ok
  | .error _ => false

end Fields

/-- The number that a field is given. -/
def fieldNumber (prop : Block) : ℤ :=
  match getFieldGenHints .proto prop with
  | .mapping hints => (intOf (Yaml.get hints "fieldNumber" .null)).getD 0
  | _ => 0

/-- A field that the checker has nothing against. -/
structure FieldReady (fmt : TargetFormat) (prop : Block) : Prop where
  typed : ∃ name type, physicalTypeOf prop = .text name ∧ typeMap fmt name = some type
  numbered : fmt = .proto → ∃ hints number, getFieldGenHints .proto prop = .mapping hints ∧
    intOf (Yaml.get hints "fieldNumber" .null) = some number ∧ 1 ≤ number
  unreserved : fmt = .proto → inSet proto3ReservedWords (nameOf prop) = .ok false
  overridden : fmt = .es → ∃ hints, getFieldGenHints .es prop = .mapping hints ∧
    ((Yaml.get hints "type" .null).truthy = false ∨
      ∃ type ∈ validEsTypes, Yaml.get hints "type" .null = .text type)

/-- A document that the checker has nothing against. -/
structure Ready (odcsDoc : Block) (fmt : TargetFormat) : Prop where
  listed : (Yaml.get odcsDoc "schema" (.sequence [])).truthy
  first : ∃ schemaObj, (Yaml.get odcsDoc "schema" (.sequence [])).first = .ok schemaObj
  hinted : fmt ≠ .parquet → ∃ hints, getSchemaGenHints fmt odcsDoc = .ok hints ∧
    ∀ key ∈ requiredSchemaKeys fmt, (Yaml.get hints key .null).truthy
  finite : (iterSchemaProperties odcsDoc).failure = none
  fields : ∀ prop ∈ (iterSchemaProperties odcsDoc).items, FieldReady fmt prop
  distinct : fmt = .proto → ((iterSchemaProperties odcsDoc).items.map fieldNumber).Nodup

section Sound

variable {shown : Yaml → String} {fmt : TargetFormat} {prop : Block}

theorem inSet_eq_ok_true {texts : List String} {value : Yaml}
    (held : inSet texts value = .ok true) : ∃ name ∈ texts, value = .text name := by
  cases value with
  | scalar s =>
    cases s with
    | text name => exact ⟨name, by simpa [inSet] using held, rfl⟩
    | _ => simp [inSet] at held
  | sequence items => cases held
  | mapping entries => cases held

theorem checkType_eq_nil (checked : checkType shown fmt prop = .ok []) :
    ∃ name type, physicalTypeOf prop = .text name ∧ typeMap fmt name = some type := by
  unfold checkType at checked
  split_ifs at checked
  · cases checked
  · obtain ⟨found, looked, none⟩ := Fallible.map_eq_ok.mp checked
    cases found with
    | none => cases none
    | some type =>
      cases value : physicalTypeOf prop with
      | scalar s =>
        rw [value] at looked
        cases s with
        | text name => exact ⟨name, type, rfl, Except.ok.inj looked⟩
        | _ => cases looked
      | sequence items =>
        rw [value] at looked
        cases looked
      | mapping entries =>
        rw [value] at looked
        cases looked

theorem checkNumber_eq_nil {value : Yaml} {seen taken : List ℤ}
    (checked : checkNumber shown value seen = ([], taken)) :
    ∃ number, intOf value = some number ∧ 1 ≤ number ∧ number ∉ seen ∧ taken = number :: seen := by
  unfold checkNumber at checked
  cases whole : intOf value with
  | none => simp [whole] at checked
  | some number =>
    simp only [whole] at checked
    split_ifs at checked with below used
    · exact absurd (congrArg Prod.fst checked) (by simp)
    · exact absurd (congrArg Prod.fst checked) (by simp)
    · exact ⟨number, rfl, by omega, used, (congrArg Prod.snd checked).symm⟩

/-- A proto field without errors is ready, and its number is a new one. -/
theorem ready_of_checkField_proto {seen taken : List ℤ}
    (checked : checkField shown .proto prop seen = .ok ([], taken)) :
    FieldReady .proto prop ∧ fieldNumber prop ∉ seen ∧ taken = fieldNumber prop :: seen := by
  obtain ⟨typeErrors, type, checked⟩ := Fallible.bind_eq_ok.mp checked
  obtain ⟨hints, own, checked⟩ := Fallible.bind_eq_ok.mp checked
  obtain ⟨reserved, named, none⟩ := Fallible.map_eq_ok.mp checked
  obtain ⟨errors, rfl⟩ := Prod.mk.inj none
  obtain ⟨⟨rfl, numberErrors⟩, free⟩ :=
    (List.append_eq_nil_iff.mp errors).imp_left List.append_eq_nil_iff.mp
  obtain ⟨number, whole, positive, new, taken⟩ :=
    checkNumber_eq_nil (Prod.ext numberErrors rfl :
      checkNumber shown (Yaml.get hints "fieldNumber" .null) seen = ([], _))
  have block := Yaml.eq_mapping_of_entriesOf own
  have numberIs : fieldNumber prop = number := by
    rw [fieldNumber, block]
    simp only [whole, Option.getD_some]
  have unreserved : inSet proto3ReservedWords (nameOf prop) = .ok false := by
    cases reserved with
    | false => exact named
    | true => cases free
  refine ⟨⟨checkType_eq_nil type, fun _ => ⟨hints, number, block, whole, positive⟩,
    fun _ => unreserved, nofun⟩, ?_⟩
  rw [numberIs]
  exact ⟨new, taken⟩

/-- A field of an index mapping without errors is ready. -/
theorem ready_of_checkField_es {seen taken : List ℤ}
    (checked : checkField shown .es prop seen = .ok ([], taken)) : FieldReady .es prop := by
  obtain ⟨typeErrors, type, checked⟩ := Fallible.bind_eq_ok.mp checked
  obtain ⟨hints, own, checked⟩ := Fallible.bind_eq_ok.mp checked
  have block := Yaml.eq_mapping_of_entriesOf own
  dsimp only at checked
  split_ifs at checked with absent
  · obtain ⟨rfl, -⟩ := Prod.mk.inj (Except.ok.inj checked)
    exact ⟨checkType_eq_nil type, nofun, nofun, fun _ =>
      ⟨hints, block, .inl (by simpa using absent)⟩⟩
  · obtain ⟨valid, held, none⟩ := Fallible.map_eq_ok.mp checked
    obtain ⟨errors, -⟩ := Prod.mk.inj none
    obtain ⟨rfl, free⟩ := List.append_eq_nil_iff.mp errors
    cases valid with
    | false => cases free
    | true => exact ⟨checkType_eq_nil type, nofun, nofun, fun _ =>
        ⟨hints, block, .inr (inSet_eq_ok_true held)⟩⟩

/-- A field without errors is ready, and its number is a new one. -/
theorem ready_of_checkField {seen taken : List ℤ}
    (checked : checkField shown fmt prop seen = .ok ([], taken)) :
    FieldReady fmt prop ∧
      (fmt = .proto → fieldNumber prop ∉ seen ∧ taken = fieldNumber prop :: seen) := by
  cases fmt with
  | proto =>
    obtain ⟨ready, number⟩ := ready_of_checkField_proto checked
    exact ⟨ready, fun _ => number⟩
  | es => exact ⟨ready_of_checkField_es checked, nofun⟩
  | avro =>
    obtain ⟨typeErrors, type, checked⟩ := Fallible.bind_eq_ok.mp checked
    obtain ⟨rfl, -⟩ := Prod.mk.inj (Except.ok.inj checked)
    exact ⟨⟨checkType_eq_nil type, nofun, nofun, nofun⟩, nofun⟩
  | parquet =>
    obtain ⟨typeErrors, type, checked⟩ := Fallible.bind_eq_ok.mp checked
    obtain ⟨rfl, -⟩ := Prod.mk.inj (Except.ok.inj checked)
    exact ⟨⟨checkType_eq_nil type, nofun, nofun, nofun⟩, nofun⟩

/-- Fields without errors are ready, and their numbers are distinct. -/
theorem ready_of_checkSteps {props : List Block} {state final : List FieldCheckResult × List ℤ}
    (run : props.foldlM (checkStep shown fmt) state = .ok final)
    (clean : ∀ result ∈ final.1, result.errors = []) :
    (∀ prop ∈ props, FieldReady fmt prop) ∧ (∀ result ∈ state.1, result.errors = []) ∧
      (fmt = .proto → (props.map fieldNumber).Nodup ∧
        ∀ prop ∈ props, fieldNumber prop ∉ state.2) := by
  induction props generalizing state with
  | nil =>
    obtain rfl := Except.ok.inj run
    exact ⟨nofun, clean, fun _ => ⟨List.nodup_nil, nofun⟩⟩
  | cons prop rest ih =>
    obtain ⟨next, stepped, later⟩ := Fallible.bind_eq_ok.mp run
    obtain ⟨⟨errors, taken⟩, checked, rfl⟩ := Fallible.map_eq_ok.mp stepped
    obtain ⟨readies, earlier, numbers⟩ := ih later
    have none : errors = [] :=
      earlier ⟨nameOf prop, errors⟩ (List.mem_append_right _ List.mem_cons_self)
    rw [none] at checked
    obtain ⟨ready, number⟩ := ready_of_checkField checked
    refine ⟨List.forall_mem_cons.mpr ⟨ready, readies⟩,
      fun result member => earlier result (List.mem_append_left _ member), fun proto => ?_⟩
    obtain ⟨new, taken⟩ := number proto
    obtain ⟨distinct, others⟩ := numbers proto
    rw [taken] at others
    constructor
    · refine List.nodup_cons.mpr ⟨fun again => ?_, distinct⟩
      obtain ⟨other, member, same⟩ := List.mem_map.mp again
      exact others other member (same ▸ List.mem_cons_self)
    · refine List.forall_mem_cons.mpr ⟨new, fun other member used => ?_⟩
      exact others other member (List.mem_cons_of_mem _ used)

/-- The checker finds nothing wrong on the level of the schema where the generators do not. -/
theorem hints_of_checkSchemaLevel {odcsDoc : Block}
    (checked : checkSchemaLevel odcsDoc fmt = .ok []) :
    (Yaml.get odcsDoc "schema" (.sequence [])).truthy = true ∧
      (∃ schemaObj, (Yaml.get odcsDoc "schema" (.sequence [])).first = .ok schemaObj) ∧
      (fmt ≠ .parquet → ∃ hints, getSchemaGenHints fmt odcsDoc = .ok hints ∧
        ∀ key ∈ requiredSchemaKeys fmt, (Yaml.get hints key .null).truthy = true) := by
  unfold checkSchemaLevel at checked
  unfold getSchemaGenHints
  dsimp only at checked ⊢
  cases listed : (Yaml.get odcsDoc "schema" (.sequence [])).truthy with
  | false => simp [listed] at checked
  | true =>
    rw [listed] at checked
    obtain ⟨schemaObj, isFirst, checked⟩ := Fallible.bind_eq_ok.mp checked
    refine ⟨rfl, ⟨schemaObj, isFirst⟩, fun hinted => ?_⟩
    rw [if_neg hinted] at checked
    obtain ⟨block, own, checked⟩ := Fallible.bind_eq_ok.mp checked
    cases found : findProperty (Yaml.get block "customProperties" .null) "schemaGeneration" with
    | none => simp [found] at checked
    | some rootGen =>
      simp only [found] at checked
      cases shape : Yaml.get rootGen fmt.key .null with
      | mapping hints =>
        simp only [shape, Except.ok.injEq, List.map_eq_nil_iff, List.filter_eq_nil_iff,
          Bool.not_eq_true', Bool.not_eq_false] at checked
        refine ⟨hints, ?_, checked⟩
        refine Fallible.bind_eq_ok.mpr ⟨schemaObj, isFirst, ?_⟩
        refine Fallible.bind_eq_ok.mpr ⟨block, own, ?_⟩
        simp only [found, shape]
      | scalar s => simp [shape] at checked
      | sequence items => simp [shape] at checked

/-- A document that passes is ready. -/
theorem ready_of_passes {odcsDoc : Block} {contractId : String}
    (pass : passes shown odcsDoc contractId fmt) : Ready odcsDoc fmt := by
  unfold passes at pass
  cases checked : checkGeneration shown odcsDoc contractId fmt with
  | error error => simp [checked] at pass
  | ok report =>
    simp only [checked, GenerationCheckReport.ok, Bool.and_eq_true, List.isEmpty_iff,
      List.all_eq_true] at pass
    obtain ⟨noErrors, clean⟩ := pass
    obtain ⟨schemaErrors, level, checked⟩ := Fallible.bind_eq_ok.mp checked
    split_ifs at checked with found
    · obtain rfl := Except.ok.inj checked
      exact absurd noErrors found
    · obtain rfl : schemaErrors = [] := not_not.mp found
      obtain ⟨state, looped, rfl⟩ := Fallible.map_eq_ok.mp checked
      obtain ⟨finite, run⟩ := Yielded.forEach_eq_ok.mp looped
      obtain ⟨listed, first, hinted⟩ := hints_of_checkSchemaLevel level
      obtain ⟨fields, -, numbers⟩ := ready_of_checkSteps run clean
      exact ⟨listed, first, hinted, finite, fields, fun proto => (numbers proto).1⟩

end Sound

end FlOp.Contracts.Gen
