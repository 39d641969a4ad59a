import FlOp.Core.Numbers
import FlOp.Library.Dict
import FlOp.Library.Fallible
import Mathlib.Data.Nat.Size

/-! # The Avro codec

A table is written under a schema inferred from its first record. The schema names the columns and
gives each the type of the first record's value; the Avro library leaves out what the schema does
not name and refuses what does not match it.
-/

namespace FlOp.Formats

open FlOp.Core Library

/-- What a record holds; a NumPy scalar wraps a native value. -/
inductive AvroValue where
  | null
  | boolean (value : Bool)
  | int (value : ℤ)
  | float (value : PyFloat)
  | text (value : String)
  | list (items : List AvroValue)
  | dict (fields : List (String × AvroValue))
  | numpy (native : AvroValue)
  | other (shown : String)

abbrev TableRecord := Dict String AvroValue

/-- The type of a column beside null. -/
inductive ColumnType where
  | boolean
  | long
  | double
  | string
  | array (items : ColumnType)
  | mapOfString
deriving DecidableEq, Repr

/-- The inferred record schema; every column is nullable with default null. -/
structure TableSchema where
  name : String
  namespaceName : String := "org.fl_op.generated"
  fields : List (String × ColumnType) := []
deriving DecidableEq, Repr

/-- `_normalize_val`. -/
def normalizeVal : AvroValue → AvroValue
  | .numpy native => native
  | value => value

/-- `_normalize`, of one record. -/
def normalizeRecord (record : TableRecord) : TableRecord := record.mapValues normalizeVal

mutual

/-- `_avro_type_for`. -/
def avroTypeFor : AvroValue → ColumnType
  | .boolean _ => .boolean
  | .int _ => .long
  | .float _ => .double
  | .list items => .array (itemTypeFor items)
  | .dict _ => .mapOfString
  | _ => .string

/-- The type of the first item that is not null. -/
def itemTypeFor : List AvroValue → ColumnType
  | [] => .string
  | .null :: rest => itemTypeFor rest
  | item :: _ => avroTypeFor item

end

/-- `_infer_schema`, with the capitalized stem of the file. -/
def inferSchema (name : String) (sample : TableRecord) : TableSchema where
  name := name
  fields := sample.entries.map fun entry => (entry.1, avroTypeFor entry.2)

/-- `float(n)`: the nearest number with 53 significant bits; too large a one overflows. -/
def floatOfInt (n : ℤ) : Option PyFloat :=
  let exponent := Nat.size n.natAbs - 53
  let nearest := roundHalfEven (n / 2 ^ exponent) * 2 ^ exponent
  if |nearest| < 2 ^ 1024 then some (.number nearest) else none

/-- What the Avro library writes of a value under a column type; `none` where it does not match. -/
def writtenAs : ColumnType → AvroValue → Option AvroValue
  | .boolean, .boolean b => some (.boolean b)
  | .long, .int n => if -2 ^ 63 ≤ n ∧ n < 2 ^ 63 then some (.int n) else none
  | .double, .float x => some (.float x)
  | .double, .int n => (floatOfInt n).map .float
  | .string, .text t => some (.text t)
  | .array items, .list values => (values.mapM (writtenAs items)).map .list
  | .mapOfString, .dict fields =>
    (fields.mapM fun (field : String × AvroValue) => match field.2 with
      | .text t => some (field.1, AvroValue.text t)
      | _ => none).map .dict
  | _, _ => none

/-- The same under the nullable type of a column. -/
def writtenNullable (type : ColumnType) : AvroValue → Option AvroValue
  | .null => some .null
  | value => writtenAs type value

/-- A record as the library stores it: a column for each field of the schema, null by default. -/
def storedRecord (schema : TableSchema) (record : TableRecord) : Option TableRecord :=
  (schema.fields.mapM fun field =>
    (writtenNullable field.2 (record.getD field.1 .null)).map fun value => (field.1, value)).map
      (Dict.collect Prod.fst Prod.snd)

/-- The Avro library's writer and reader of container files. -/
structure AvroLibrary (φ : Type) where
  write : TableSchema → List TableRecord → Except String φ
  read : φ → List TableRecord

/-- What the library documents: data that matches its schema is read back as it is stored under
the schema, and data that does not is refused. -/
structure AvroLibrary.Documented {φ : Type} (lib : AvroLibrary φ) : Prop where
  stores : ∀ schema records stored, records.mapM (storedRecord schema) = some stored →
    ∃ file, lib.write schema records = .ok file ∧ lib.read file = stored
  refuses : ∀ schema records, records.mapM (storedRecord schema) = none →
    ∃ error, lib.write schema records = .error error

section Codec

variable {φ : Type} (lib : AvroLibrary φ)

/-- `AvroCodec.write`; the name is the capitalized stem of the file. -/
def avroWrite (name : String) (records : List TableRecord) : Except String φ :=
  match records.map normalizeRecord with
  | [] => lib.write { name := "Empty" } []
  | first :: rest => lib.write (inferSchema name first) (first :: rest)

/-- `AvroCodec.read`. -/
def avroRead : Option φ → List TableRecord
  | none => []
  | some file => lib.read file

/-- Values that compare as equal: an integer equals the number of the same value. -/
inductive SameValue : AvroValue → AvroValue → Prop
  | refl (value : AvroValue) : SameValue value value
  | number (n : ℤ) : SameValue (.float (.number n)) (.int n)

/-- Records agree in every key, where an absent key reads as null. -/
def SameRecord (read written : TableRecord) : Prop :=
  ∀ key, SameValue (read.getD key .null) (written.getD key .null)

/-- Writing succeeds, and reading the file back yields the same records. -/
def KeepsRecords (name : String) (records : List TableRecord) : Prop :=
  ∃ file, avroWrite lib name records = .ok file ∧
    List.Forall₂ SameRecord (avroRead lib (some file)) (records.map normalizeRecord)

/-- A native scalar. -/
def AvroValue.isScalar : AvroValue → Bool
  | .list _ | .dict _ | .numpy _ => false
  | _ => true

/-- A record of scalars, native or of NumPy. -/
def Flat (record : TableRecord) : Prop :=
  ∀ key value, record.get? key = some value → (normalizeVal value).isScalar = true

/-- A value goes with the first record's value of its column. -/
def Fits : AvroValue → AvroValue → Prop
  | .boolean _, value => ∃ b, value = .boolean b
  | .int _, value => ∃ n, value = .int n ∧ -2 ^ 63 ≤ n ∧ n < 2 ^ 63
  | .float _, value =>
    (∃ x, value = .float x) ∨ ∃ n, value = .int n ∧ floatOfInt n = some (.number n)
  | _, value => ∃ t, value = .text t

/-- The first record covers a record: it has every key that is not null there, with a value that
the other one goes with. -/
def CoveredBy (first record : TableRecord) : Prop :=
  ∀ key value, record.get? key = some value → value ≠ .null →
    ∃ sample, first.get? key = some sample ∧ Fits sample value

/-- The first record covers all. -/
def Covered (records : List TableRecord) : Prop :=
  ∀ first ∈ (records.map normalizeRecord).head?, ∀ record ∈ records.map normalizeRecord,
    CoveredBy first record

/-- Scalars that go with the first one are those that the library keeps under its type. -/
theorem written_same_iff {sample value : AvroValue} (flat : sample.isScalar = true)
    (nonnull : value ≠ .null) :
    (∃ kept, writtenNullable (avroTypeFor sample) value = some kept ∧ SameValue kept value) ↔
      Fits sample value := by
  have text : (∃ kept, writtenNullable .string value = some kept ∧ SameValue kept value) ↔
      ∃ t, value = .text t := by
    cases value with
    | null => exact absurd rfl nonnull
    | text t => exact iff_of_true ⟨_, rfl, .refl _⟩ ⟨t, rfl⟩
    | _ => simp [writtenNullable, writtenAs]
  cases sample with
  | boolean b =>
    cases value with
    | null => exact absurd rfl nonnull
    | boolean b' => exact iff_of_true ⟨_, rfl, .refl _⟩ ⟨b', rfl⟩
    | _ => simp [avroTypeFor, writtenNullable, writtenAs, Fits]
  | int n =>
    cases value with
    | null => exact absurd rfl nonnull
    | int m =>
      simp only [avroTypeFor, writtenNullable, writtenAs, Fits, AvroValue.int.injEq]
      constructor
      · rintro ⟨kept, inside, -⟩
        split at inside
        · rename_i bounds
          exact ⟨m, rfl, bounds⟩
        · cases inside
      · rintro ⟨m', rfl, bounds⟩
        exact ⟨_, if_pos bounds, .refl _⟩
    | _ => simp [avroTypeFor, writtenNullable, writtenAs, Fits]
  | float x =>
    cases value with
    | null => exact absurd rfl nonnull
    | float y => exact iff_of_true ⟨_, rfl, .refl _⟩ (Or.inl ⟨y, rfl⟩)
    | int m =>
      simp only [avroTypeFor, writtenNullable, writtenAs, Fits, Option.map_eq_some_iff]
      constructor
      · rintro ⟨_, ⟨near, rounded, rfl⟩, same⟩
        cases same with
        | number => exact Or.inr ⟨m, rfl, rounded⟩
      · rintro (⟨_, absurd⟩ | ⟨m', same, exact⟩)
        · cases absurd
        · cases same
          exact ⟨_, ⟨_, exact, rfl⟩, .number m⟩
    | _ => simp [avroTypeFor, writtenNullable, writtenAs, Fits]
  | null => exact text
  | text t => exact text
  | other shown => exact text
  | list items => cases flat
  | dict fields => cases flat
  | numpy native => cases flat

/-- A record is stored column by column. -/
theorem get?_storedRecord {name : String} {first record stored : TableRecord}
    (kept : storedRecord (inferSchema name first) record = some stored) (key : String) :
    stored.get? key = (first.get? key).bind fun sample =>
      writtenNullable (avroTypeFor sample) (record.getD key .null) := by
  obtain ⟨pairs, written, rfl⟩ := Option.map_eq_some_iff.mp kept
  have columns := Fallible.mapM_eq_some.mp written
  rw [inferSchema, List.forall₂_map_left_iff] at columns
  have keys : List.Forall₂ (· = ·) (first.entries.map Prod.fst) (pairs.map Prod.fst) := by
    rw [List.forall₂_map_left_iff, List.forall₂_map_right_iff]
    refine columns.imp fun entry pair column => ?_
    obtain ⟨_, -, rfl⟩ := Option.map_eq_some_iff.mp column
    rfl
  rw [List.forall₂_eq_eq_eq] at keys
  have nodup : (pairs.map Prod.fst).Nodup := keys ▸ first.nodupKeys
  ext value
  rw [Dict.get?_collect_eq_some_iff nodup, Option.bind_eq_some_iff]
  constructor
  · intro member
    obtain ⟨entry, listed, column⟩ := Fallible.exists_right_of_forall₂ columns.flip member
    obtain ⟨_, found, same⟩ := Option.map_eq_some_iff.mp column
    obtain ⟨rfl, rfl⟩ := Prod.mk.inj same
    exact ⟨entry.2, (first.get?_eq_some_iff _ _).mpr listed, found⟩
  · rintro ⟨sample, listed, found⟩
    obtain ⟨pair, member, column⟩ := Fallible.exists_right_of_forall₂ columns
      ((first.get?_eq_some_iff _ _).mp listed)
    rw [found] at column
    have same : (key, value) = pair := Option.some.inj column
    exact same ▸ member

theorem isSome_storedRecord_iff {name : String} {first record : TableRecord} :
    (storedRecord (inferSchema name first) record).isSome ↔ ∀ key sample,
      first.get? key = some sample →
        (writtenNullable (avroTypeFor sample) (record.getD key .null)).isSome := by
  rw [storedRecord, Option.isSome_map, Fallible.isSome_mapM, inferSchema]
  simp only [List.forall_mem_map, Option.isSome_map, Prod.forall, Dict.get?_eq_some_iff]

theorem getD_eq (record : TableRecord) {key : String} {value : AvroValue}
    (found : record.get? key = some value) : record.getD key .null = value := by
  rw [Dict.getD, found]
  rfl

/-- A flat record is stored as it is exactly when the first record covers it. -/
theorem stored_same_iff {name : String} {first record : TableRecord}
    (flat : ∀ key sample, first.get? key = some sample → sample.isScalar = true) :
    (∃ stored, storedRecord (inferSchema name first) record = some stored ∧
      SameRecord stored record) ↔ CoveredBy first record := by
  constructor
  · rintro ⟨stored, kept, same⟩ key value found nonnull
    have agrees := same key
    rw [Dict.getD, get?_storedRecord kept, getD_eq record found] at agrees
    cases sampled : first.get? key with
    | none =>
      rw [sampled, Option.bind_none, Option.getD_none] at agrees
      cases agrees
      exact absurd rfl nonnull
    | some sample =>
      rw [sampled, Option.bind_some] at agrees
      have written := isSome_storedRecord_iff.mp (Option.isSome_iff_exists.mpr ⟨_, kept⟩) key
        sample sampled
      rw [getD_eq record found] at written
      obtain ⟨w, written⟩ := Option.isSome_iff_exists.mp written
      rw [written] at agrees
      exact ⟨sample, rfl, (written_same_iff (flat key sample sampled) nonnull).mp
        ⟨w, written, agrees⟩⟩
  · intro covered
    have columns : ∀ key sample, first.get? key = some sample → ∃ w,
        writtenNullable (avroTypeFor sample) (record.getD key .null) = some w ∧
          SameValue w (record.getD key .null) := by
      intro key sample sampled
      cases found : record.get? key with
      | none =>
        rw [Dict.getD, found]
        exact ⟨.null, rfl, .refl _⟩
      | some value =>
        rw [getD_eq record found]
        by_cases missing : value = .null
        · subst missing
          exact ⟨.null, rfl, .refl _⟩
        · obtain ⟨sample', sampled', fits⟩ := covered key value found missing
          obtain rfl := Option.some.inj (sampled.symm.trans sampled')
          exact (written_same_iff (flat key sample sampled) missing).mpr fits
    have complete : (storedRecord (inferSchema name first) record).isSome :=
      isSome_storedRecord_iff.mpr fun key sample sampled => by
        obtain ⟨w, written, -⟩ := columns key sample sampled
        rw [written]
        rfl
    obtain ⟨stored, kept⟩ := Option.isSome_iff_exists.mp complete
    refine ⟨stored, kept, fun key => ?_⟩
    rw [Dict.getD, get?_storedRecord kept]
    cases sampled : first.get? key with
    | none =>
      cases found : record.get? key with
      | none =>
        rw [Dict.getD, found]
        exact .refl _
      | some value =>
        rw [getD_eq record found]
        by_cases missing : value = .null
        · subst missing
          exact .refl _
        · obtain ⟨sample, present, -⟩ := covered key value found missing
          rw [sampled] at present
          cases present
    | some sample =>
      obtain ⟨w, written, same⟩ := columns key sample sampled
      rw [Option.bind_some, written]
      exact same

theorem flat_normalizeRecord {record : TableRecord} (flat : Flat record) :
    ∀ key sample, (normalizeRecord record).get? key = some sample → sample.isScalar = true := by
  intro key sample found
  rw [normalizeRecord, Dict.get?_mapValues, Option.map_eq_some_iff] at found
  obtain ⟨value, held, rfl⟩ := found
  exact flat key value held

/-- What the first record covers, in terms of the records as they are stored. -/
theorem covered_cons_iff (name : String) {first : TableRecord} {others : List TableRecord}
    (flat : Flat first) :
    Covered (first :: others) ↔ ∀ other ∈ (first :: others).map normalizeRecord,
      ∃ stored, storedRecord (inferSchema name (normalizeRecord first)) other = some stored ∧
        SameRecord stored other := by
  simp only [Covered, stored_same_iff (flat_normalizeRecord flat), List.map_cons,
    List.head?_cons, Option.mem_def, Option.some.injEq, forall_eq']

/-- Records that survive are covered by the first one. -/
theorem covered_of_keepsRecords (documented : lib.Documented) {name : String}
    {first : TableRecord} {others : List TableRecord} (flat : Flat first)
    (keeps : KeepsRecords lib name (first :: others)) : Covered (first :: others) := by
  obtain ⟨file, written, same⟩ := keeps
  rw [covered_cons_iff name flat]
  intro other member
  change lib.write (inferSchema name (normalizeRecord first))
    ((first :: others).map normalizeRecord) = .ok file at written
  cases stored : ((first :: others).map normalizeRecord).mapM
      (storedRecord (inferSchema name (normalizeRecord first))) with
  | none =>
    obtain ⟨error, refused⟩ := documented.refuses _ _ stored
    rw [refused] at written
    cases written
  | some results =>
    obtain ⟨file', written', read⟩ := documented.stores _ _ _ stored
    obtain rfl := Except.ok.inj (written.symm.trans written')
    rw [avroRead, read] at same
    exact Fallible.exists_both_of_forall₂ (Fallible.mapM_eq_some.mp stored) same.flip member

/-- Flat records survive writing and reading exactly when the first record covers them all. -/
theorem keepsRecords_iff_covered (lib : AvroLibrary φ) (documented : lib.Documented)
    (name : String) (records : List TableRecord) (nonempty : records ≠ [])
    (flat : ∀ record ∈ records, Flat record) :
    KeepsRecords lib name records ↔ Covered records := by
  obtain ⟨first, others, rfl⟩ := List.exists_cons_of_ne_nil nonempty
  have sampled := flat first List.mem_cons_self
  constructor
  · exact covered_of_keepsRecords lib documented sampled
  · intro covered
    obtain ⟨results, pairs⟩ :=
      Fallible.exists_forall₂ ((covered_cons_iff name sampled).mp covered)
    have stored := Fallible.mapM_eq_some.mpr (pairs.imp fun _ _ both => both.1)
    obtain ⟨file, written, read⟩ := documented.stores _ _ _ stored
    refine ⟨file, written, ?_⟩
    rw [avroRead, read]
    exact (pairs.imp fun _ _ both => both.2).flip

/-- Every table of flat records survives writing and reading. -/
def KeepsEveryTable (lib : AvroLibrary φ) : Prop :=
  ∀ name records, records ≠ [] → (∀ record ∈ records, Flat record) → KeepsRecords lib name records

end Codec

/-! ## A table whose second record has a further key -/

/-- A library that stores tables as they are documented to be stored. -/
def tableLibrary : AvroLibrary (List TableRecord) where
  write := fun schema records =>
    match records.mapM (storedRecord schema) with
    | some stored => .ok stored
    | none => .error "ValueError"
  read := id

theorem tableLibrary_documented : tableLibrary.Documented := by
  constructor
  · intro schema records stored kept
    exact ⟨stored, by simp [tableLibrary, kept], rfl⟩
  · intro schema records unmatched
    exact ⟨"ValueError", by simp [tableLibrary, unmatched]⟩

theorem flat_set {record : TableRecord} (flat : Flat record) (key : String) {value : AvroValue}
    (scalar : (normalizeVal value).isScalar = true) : Flat (record.set key value) := by
  intro other found stored
  rw [Dict.get?_set] at stored
  split at stored
  · exact Option.some.inj stored ▸ scalar
  · exact flat other found stored

theorem flat_empty : Flat Dict.empty := by
  intro key value found
  rw [Dict.get?_empty] at found
  cases found

/-- A bin of a table of bins. -/
def binRecord (id : ℤ) : TableRecord := Dict.empty.set "id" (.int id)

/-- A bin that has been inspected. -/
def inspectedBin (id : ℤ) (inspector : String) : TableRecord :=
  (binRecord id).set "inspected_by" (.text inspector)

theorem flat_binRecord (id : ℤ) : Flat (binRecord id) := flat_set flat_empty "id" rfl

theorem flat_inspectedBin (id : ℤ) (inspector : String) : Flat (inspectedBin id inspector) :=
  flat_set (flat_binRecord id) "inspected_by" rfl

theorem keepsRecords_iff_covered_bins :
    KeepsRecords tableLibrary "Bins" [binRecord 1, binRecord 2] ↔
      Covered [binRecord 1, binRecord 2] :=
  keepsRecords_iff_covered tableLibrary tableLibrary_documented "Bins" [binRecord 1, binRecord 2]
    (List.cons_ne_nil _ _) (by
      intro record member
      simp only [List.mem_cons, List.not_mem_nil, or_false] at member
      rcases member with rfl | rfl
      · exact flat_binRecord 1
      · exact flat_binRecord 2)

/-- The inspector of the second bin is lost. -/
theorem avroCodec_loses_later_keys :
    tableLibrary.Documented ∧ ¬ KeepsEveryTable tableLibrary := by
  refine ⟨tableLibrary_documented, fun keeps => ?_⟩
  have kept := keeps "Bins" [binRecord 1, inspectedBin 2 "crew-1"] (List.cons_ne_nil _ _) (by
    intro record member
    simp only [List.mem_cons, List.not_mem_nil, or_false] at member
    rcases member with rfl | rfl
    · exact flat_binRecord 1
    · exact flat_inspectedBin 2 "crew-1")
  have covered := covered_of_keepsRecords tableLibrary tableLibrary_documented
    (flat_binRecord 1) kept
  obtain ⟨sample, present, -⟩ := covered _ rfl _ (List.mem_cons_of_mem _ List.mem_cons_self)
    "inspected_by" (.text "crew-1") rfl (by simp)
  cases present

end FlOp.Formats
