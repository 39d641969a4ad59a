import FlOp.Core.Numbers

/-! # Document values

What loading a YAML document gives: scalars, lists, and mappings whose keys are scalars. JSON has no
word for dates and times, and turns every other key into a text.
-/

namespace FlOp.Core

/-- A scalar; a date or a time is known by its text, and a float also by its JSON text. -/
inductive Scalar where
  | null
  | boolean (value : Bool)
  | integer (value : ℤ)
  | real (value : PyFloat) (json : String)
  | text (value : String)
  | time (shown : String)
deriving DecidableEq

/-- A value of a document; a mapping holds each key once. -/
inductive Yaml where
  | scalar (value : Scalar)
  | sequence (items : List Yaml)
  | mapping (entries : List (Scalar × Yaml))

/-- An exception. -/
inductive PyError where
  | generationError (message : String)
  | attributeError
  | indexError
  | keyError
  | typeError
deriving DecidableEq, Repr

namespace Scalar

/-- The number that a scalar compares as. -/
def number? : Scalar → Option PyFloat
  | boolean value => some (.number (if value then 1 else 0))
  | integer value => some (.number value)
  | real value _ => some value
  | _ => none

/-- Whether two scalars are one key of a dictionary. -/
def sameKey (a b : Scalar) : Bool := a = b ∨ (a.number?.isSome ∧ a.number? = b.number?)

theorem sameKey_text {s : String} {a : Scalar} : sameKey a (.text s) ↔ a = .text s := by
  cases a <;> simp [sameKey, number?]

/-- The key of a JSON object; there is none for a time. -/
def jsonKey : Scalar → Option String
  | null => some "null"
  | boolean value => some (if value then "true" else "false")
  | integer value => some (toString value)
  | real _ json => some json
  | text value => some value
  | time _ => none

/-- `bool(value)`. -/
def truthy : Scalar → Bool
  | null => false
  | boolean value => value
  | integer value => value ≠ 0
  | real value _ => value ≠ .number 0
  | text value => value ≠ ""
  | time _ => true

end Scalar

namespace Yaml

def null : Yaml := .scalar .null

def text (value : String) : Yaml := .scalar (.text value)

def boolean (value : Bool) : Yaml := .scalar (.boolean value)

def integer (value : ℤ) : Yaml := .scalar (.integer value)

/-- The entries of a mapping with texts for keys. -/
def fields (entries : List (String × Yaml)) : List (Scalar × Yaml) :=
  entries.map fun entry => (.text entry.1, entry.2)

/-- The value is a given text. -/
def isText (value : Yaml) (expected : String) : Bool :=
  match value with
  | scalar s => s = .text expected
  | _ => false

/-- `bool(value)`. -/
def truthy : Yaml → Bool
  | scalar value => value.truthy
  | sequence items => !items.isEmpty
  | mapping entries => !entries.isEmpty

/-- `first or second`. -/
def orElse (first second : Yaml) : Yaml := if first.truthy then first else second

/-- Lists and dictionaries are not hashable. -/
def hashable : Yaml → Bool
  | scalar _ => true
  | _ => false

/-- `entries.get(key)`. -/
def lookup (entries : List (Scalar × Yaml)) (key : String) : Option Yaml :=
  (entries.find? fun entry => entry.1 = .text key).map Prod.snd

/-- `entries.get(key, default)`. -/
def get (entries : List (Scalar × Yaml)) (key : String) (default : Yaml) : Yaml :=
  (lookup entries key).getD default

/-- The dictionary that `value.get` reads. -/
def entriesOf : Yaml → Except PyError (List (Scalar × Yaml))
  | mapping entries => .ok entries
  | _ => .error .attributeError

/-- The items of a loop over the value. -/
def items : Yaml → Except PyError (List Yaml)
  | sequence items => .ok items
  | mapping entries => .ok (entries.map fun entry => .scalar entry.1)
  | scalar (.text value) => .ok (value.toList.map fun c => .text (String.singleton c))
  | scalar _ => .error .typeError

/-- `value[0]`. -/
def first : Yaml → Except PyError Yaml
  | sequence (item :: _) => .ok item
  | sequence [] => .error .indexError
  | mapping entries =>
    match entries.find? fun entry => entry.1.sameKey (.integer 0) with
    | some entry => .ok entry.2
    | none => .error .keyError
  | scalar (.text value) =>
    match value.toList with
    | c :: _ => .ok (.text (String.singleton c))
    | [] => .error .indexError
  | scalar _ => .error .typeError

/-- `str(value)`, given how other values show. -/
def str (shown : Yaml → String) : Yaml → String
  | scalar (.text value) => value
  | scalar (.integer value) => toString value
  | scalar (.boolean value) => if value then "True" else "False"
  | value => shown value

mutual

/-- `json.dumps(value)`, read as a value again; `none` where it raises. -/
def json : Yaml → Option Yaml
  | scalar (.time _) => none
  | scalar value => some (.scalar value)
  | sequence items => (jsonItems items).map .sequence
  | mapping entries => (jsonEntries entries).map .mapping

def jsonItems : List Yaml → Option (List Yaml)
  | [] => some []
  | item :: rest => (json item).bind fun first => (jsonItems rest).map (first :: ·)

def jsonEntries : List (Scalar × Yaml) → Option (List (Scalar × Yaml))
  | [] => some []
  | (key, value) :: rest => key.jsonKey.bind fun name => (json value).bind fun first =>
    (jsonEntries rest).map ((.text name, first) :: ·)

end

theorem eq_mapping_of_entriesOf {value : Yaml} {entries : List (Scalar × Yaml)}
    (own : value.entriesOf = .ok entries) : value = mapping entries := by
  cases value with
  | mapping held => rw [Except.ok.inj own]
  | scalar s => cases own
  | sequence items => cases own

@[simp] theorem json_text (value : String) : (text value).json = some (text value) := by
  simp [text, json]

@[simp] theorem json_boolean (value : Bool) : (boolean value).json = some (boolean value) := by
  simp [boolean, json]

@[simp] theorem json_null : null.json = some null := by simp [null, json]

/-- A list is written exactly if its items are. -/
theorem jsonItems_eq_some {items results : List Yaml} :
    jsonItems items = some results ↔ List.Forall₂ (fun a b => a.json = some b) items results := by
  induction items generalizing results with
  | nil =>
    rw [jsonItems, List.forall₂_nil_left_iff, Option.some.injEq, eq_comm]
  | cons item rest ih =>
    rw [jsonItems, List.forall₂_cons_left_iff]
    simp only [Option.bind_eq_some_iff, Option.map_eq_some_iff, ih]
    constructor
    · rintro ⟨first, here, later, written, rfl⟩
      exact ⟨first, later, here, written, rfl⟩
    · rintro ⟨first, later, here, written, rfl⟩
      exact ⟨first, here, later, written, rfl⟩

theorem isSome_jsonItems {items : List Yaml} :
    (jsonItems items).isSome ↔ ∀ item ∈ items, item.json.isSome := by
  induction items with
  | nil => simp [jsonItems]
  | cons item rest ih =>
    rw [List.forall_mem_cons, ← ih, jsonItems]
    cases item.json <;> cases jsonItems rest <;> simp

theorem isSome_json_sequence {items : List Yaml} :
    (sequence items).json.isSome ↔ ∀ item ∈ items, item.json.isSome := by
  rw [json, Option.isSome_map, isSome_jsonItems]

/-- What is written of entries. -/
def Writes (entries written : List (String × Yaml)) : Prop :=
  List.Forall₂ (fun a b => b.1 = a.1 ∧ a.2.json = some b.2) entries written

theorem jsonEntries_fields {entries : List (String × Yaml)} {results : List (Scalar × Yaml)} :
    jsonEntries (fields entries) = some results ↔
      ∃ written, Writes entries written ∧ results = fields written := by
  induction entries generalizing results with
  | nil =>
    constructor
    · intro run
      exact ⟨[], .nil, (Option.some.inj run).symm⟩
    · rintro ⟨written, pairs, rfl⟩
      cases pairs
      rfl
  | cons entry rest ih =>
    rw [fields, List.map_cons, jsonEntries, Scalar.jsonKey, Option.bind_some]
    constructor
    · intro run
      obtain ⟨first, here, later⟩ := Option.bind_eq_some_iff.mp run
      obtain ⟨others, written, rfl⟩ := Option.map_eq_some_iff.mp later
      obtain ⟨own, pairs, rfl⟩ := ih.mp written
      exact ⟨(entry.1, first) :: own, .cons ⟨rfl, here⟩ pairs, rfl⟩
    · rintro ⟨written, pairs, rfl⟩
      obtain ⟨first, own, ⟨key, here⟩, later, rfl⟩ := List.forall₂_cons_left_iff.mp pairs
      refine Option.bind_eq_some_iff.mpr ⟨first.2, here, Option.map_eq_some_iff.mpr ?_⟩
      exact ⟨fields own, ih.mpr ⟨own, later, rfl⟩, by rw [fields, fields, List.map_cons, key]⟩

theorem json_fields {entries : List (String × Yaml)} {result : Yaml} :
    (mapping (fields entries)).json = some result ↔
      ∃ written, Writes entries written ∧ result = mapping (fields written) := by
  rw [json, Option.map_eq_some_iff]
  constructor
  · rintro ⟨results, run, rfl⟩
    obtain ⟨written, pairs, rfl⟩ := jsonEntries_fields.mp run
    exact ⟨written, pairs, rfl⟩
  · rintro ⟨written, pairs, rfl⟩
    exact ⟨_, jsonEntries_fields.mpr ⟨written, pairs, rfl⟩, rfl⟩

/-- A mapping is written exactly if its values are. -/
theorem isSome_json_fields {entries : List (String × Yaml)} :
    (mapping (fields entries)).json.isSome ↔ ∀ entry ∈ entries, entry.2.json.isSome := by
  induction entries with
  | nil => simp [fields, json, jsonEntries]
  | cons entry rest ih =>
    rw [List.forall_mem_cons, ← ih, fields, List.map_cons, json, json, jsonEntries,
      Scalar.jsonKey, Option.bind_some, ← fields]
    cases entry.2.json <;> cases jsonEntries (fields rest) <;> simp

/-- What is written under a key is the value there. -/
theorem Writes.lookup {entries written : List (String × Yaml)} (writes : Writes entries written)
    (key : String) :
    Yaml.lookup (fields written) key = (Yaml.lookup (fields entries) key).bind json := by
  induction writes with
  | nil => rfl
  | @cons entry result _ _ here _ ih =>
    obtain ⟨same, value⟩ := here
    unfold Yaml.lookup fields at ih ⊢
    rw [List.map_cons, List.map_cons, List.find?_cons, List.find?_cons, same]
    by_cases own : entry.1 = key
    · simp [own, value]
    · simpa [own] using ih

end Yaml

end FlOp.Core
