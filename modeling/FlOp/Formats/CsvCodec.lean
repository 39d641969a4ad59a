import FlOp.Library.Csv
import FlOp.Library.Dict
import Mathlib.Data.List.Zip

/-! # The CSV codec

A table is written under the columns of its first record. The writer leaves line breaks to the CSV
format; the reader opens the file as text, so a line break inside a value comes back as a line feed.
-/

namespace FlOp.Formats

open FlOp.Library Csv

/-- What a reader gives for a column; a row that is too long keeps the rest of it together. -/
inductive CsvValue where
  | text (value : String)
  | none
  | rest (values : List String)
deriving DecidableEq, Repr

abbrev CsvRecord := Dict (Option String) CsvValue

/-- A written file: its text and, where the writer stopped, the keys it refused. -/
structure CsvFile where
  text : List Char
  refused : Option (List String)

namespace CsvCodec

/-- `csv.field_size_limit`. -/
def fieldSizeLimit : ℕ := 131072

section Write

variable {ν : Type*} (str : ν → String)

/-- The text of a value; `None` has none. -/
def valueText (value : Option ν) : String := value.elim "" str

/-- The text under a column; a record without the key has `restval`. -/
def cellText (record : Dict String (Option ν)) (name : String) : String :=
  (record.get? name).elim "" (valueText str)

/-- `DictWriter._dict_to_list`. -/
def dictToList (fieldnames : List String) (record : Dict String (Option ν)) :
    Except (List String) (List String) :=
  let wrong := record.keys.filter fun key => key ∉ fieldnames
  if wrong = [] then .ok (fieldnames.map (cellText str record)) else .error wrong

/-- `DictWriter.writerows`; the rows before a refused one are written. -/
def writerows (fieldnames : List String) : List (Dict String (Option ν)) → CsvFile
  | [] => ⟨[], .none⟩
  | record :: rest =>
    match dictToList str fieldnames record with
    | .error wrong => ⟨[], some wrong⟩
    | .ok row =>
      let later := writerows fieldnames rest
      ⟨writeRow (row.map String.toList) ++ later.text, later.refused⟩

/-- `CsvCodec.write`. -/
def write : List (Dict String (Option ν)) → CsvFile
  | [] => ⟨[], .none⟩
  | first :: rest =>
    let fieldnames := first.keys
    let written := writerows str fieldnames (first :: rest)
    ⟨writeRow (fieldnames.map String.toList) ++ written.text, written.refused⟩

end Write

/-- `DictReader.__next__`, of a row that is not blank. -/
def dictRow (fieldnames row : List String) : CsvRecord :=
  let zipped := Dict.collect (fun pair => some pair.1) (fun pair => .text pair.2)
    (fieldnames.zip row)
  if fieldnames.length < row.length then
    zipped.set .none (.rest (row.drop fieldnames.length))
  else
    (fieldnames.drop row.length).foldl (fun d key => d.set (some key) .none) zipped

/-- `csv.DictReader`; blank lines after the first are skipped. -/
def dictReader : List (List String) → List CsvRecord
  | [] => []
  | fieldnames :: rows => (rows.filter (· ≠ [])).map (dictRow fieldnames)

/-- `CsvCodec.read`, of the text of a file that is there; no result is a `csv.Error`. -/
def read : Option (List Char) → Option (List CsvRecord)
  | .none => some []
  | some text =>
    (readRows fieldSizeLimit text).map fun rows =>
      dictReader (rows.map fun row => row.map String.ofList)

/-- A text as a file opened without `newline` gives it back. -/
def translateBreaks (text : String) : String := String.ofList (universalNewlines text.toList)

section RoundTrip

variable {ν : Type*} {str : ν → String} {fieldnames : List String}

theorem dictToList_eq_ok {record : Dict String (Option ν)} {row : List String}
    (listed : dictToList str fieldnames record = .ok row) :
    row = fieldnames.map (cellText str record) := by
  rw [dictToList] at listed
  split at listed
  · exact (Except.ok.inj listed).symm
  · cases listed

/-- Rows that are all accepted are written one after another. -/
theorem text_writerows {records : List (Dict String (Option ν))}
    (accepted : (writerows str fieldnames records).refused = .none) :
    (writerows str fieldnames records).text = writeRows
      (records.map fun record => fieldnames.map fun name => (cellText str record name).toList) := by
  induction records with
  | nil => rfl
  | cons record rest ih =>
    rw [writerows] at accepted ⊢
    cases listed : dictToList str fieldnames record with
    | error wrong =>
      rw [listed] at accepted
      cases accepted
    | ok row =>
      rw [listed] at accepted
      dsimp only at accepted ⊢
      rw [dictToList_eq_ok listed, ih accepted, List.map_map]
      rfl

theorem text_write {first : Dict String (Option ν)} {rest : List (Dict String (Option ν))}
    (accepted : (write str (first :: rest)).refused = .none) :
    (write str (first :: rest)).text = writeRows (first.keys.map String.toList ::
      (first :: rest).map fun record =>
        first.keys.map fun name => (cellText str record name).toList) := by
  have rows : (writerows str first.keys (first :: rest)).refused = .none := accepted
  rw [write]
  dsimp only
  rw [text_writerows rows]
  rfl

/-- A row of as many fields as there are columns gives each column its field. -/
theorem entries_dictRow {names : List String} {column value : String → String}
    (distinct : (names.map column).Nodup) :
    (dictRow (names.map column) (names.map value)).entries =
      names.map fun name => (some (column name), .text (value name)) := by
  have same : (names.map column).length = (names.map value).length := by
    rw [List.length_map, List.length_map]
  have pairs : (names.map column).zip (names.map value) =
      names.map fun name => (column name, value name) := by
    rw [List.zip_map']
  have keys : ((names.map fun name => (column name, value name)).map
      fun pair => some pair.1).Nodup := by
    rw [List.map_map]
    have injected := distinct.map (Option.some_injective String)
    rwa [List.map_map] at injected
  have short : ¬ (names.map column).length < (names.map value).length := by
    rw [same]
    exact lt_irrefl _
  have nothing : (names.map column).drop (names.map value).length = [] := by
    rw [← same]
    exact List.drop_length
  rw [dictRow, if_neg short, nothing, List.foldl_nil, pairs, Dict.entries_collect _ keys,
    List.map_map]
  rfl

/-- Rows with fields are all read. -/
theorem dictReader_of_rows {rows : List (List String)} (filled : ∀ row ∈ rows, row ≠ []) :
    dictReader (fieldnames :: rows) = rows.map (dictRow fieldnames) := by
  have kept : rows.filter (· ≠ []) = rows :=
    List.filter_eq_self.mpr fun row member => decide_eq_true (filled row member)
  rw [dictReader, kept]

/-- A table that was written in full is read back record by record, each with the columns of the
first one, unless a name or a value is over the field limit; a missing key comes back as an empty
text and a line break as a line feed. -/
theorem read_write {first : Dict String (Option ν)} {rest : List (Dict String (Option ν))}
    (accepted : (write str (first :: rest)).refused = .none) (named : first.keys ≠ [])
    (distinct : (first.keys.map translateBreaks).Nodup) :
    (read (some (write str (first :: rest)).text)).map (List.map Dict.entries) =
      if (∀ name ∈ first.keys, (translateBreaks name).length ≤ fieldSizeLimit) ∧
        ∀ record ∈ first :: rest, ∀ name ∈ first.keys,
          (translateBreaks (cellText str record name)).length ≤ fieldSizeLimit
      then some ((first :: rest).map fun record => first.keys.map fun name =>
        (some (translateBreaks name), .text (translateBreaks (cellText str record name))))
      else .none := by
  have length (text : String) :
      (universalNewlines text.toList).length = (translateBreaks text).length := by
    rw [translateBreaks, String.length_ofList]
  rw [text_write accepted, read, readRows_writeRows]
  simp only [List.forall_mem_cons (a := first.keys.map String.toList), List.forall_mem_map, length]
  split
  · have texts (value : String → String) :
        ((first.keys.map fun name => (value name).toList).map universalNewlines).map String.ofList =
          first.keys.map fun name => translateBreaks (value name) := by
      rw [List.map_map, List.map_map]
      rfl
    have columns : ((first.keys.map String.toList).map universalNewlines).map String.ofList =
        first.keys.map translateBreaks := texts id
    have rows : ((((first :: rest).map fun record => first.keys.map fun name =>
        (cellText str record name).toList).map fun row => row.map universalNewlines).map
          fun row => row.map String.ofList) =
        (first :: rest).map fun record => first.keys.map fun name =>
          translateBreaks (cellText str record name) := by
      rw [List.map_map, List.map_map]
      exact List.map_congr_left fun record _ => texts (cellText str record)
    have filled : ∀ row ∈ (first :: rest).map fun record => first.keys.map fun name =>
        translateBreaks (cellText str record name), row ≠ [] := by
      rw [List.forall_mem_map]
      intro record _ empty
      exact named (List.map_eq_nil_iff.mp empty)
    rw [Option.map_some, Option.map_some, List.map_cons, List.map_cons, columns, rows,
      dictReader_of_rows filled, List.map_map, List.map_map]
    exact congrArg some (List.map_congr_left fun record _ => entries_dictRow distinct)
  · rfl

/-- A note with a quote, a comma and a break, and an order without a note. -/
theorem read_write_notes :
    (read (some (write id
      [Dict.collect Prod.fst Prod.snd [("task", some "T1"), ("note", some "a \"b\",\r\nc")],
        Dict.collect Prod.fst Prod.snd [("task", some "T2")]]).text)).map (List.map Dict.entries) =
      some [[(some "task", .text "T1"), (some "note", .text "a \"b\",\nc")],
        [(some "task", .text "T2"), (some "note", .text "")]] :=
  (read_write (by decide) (by decide) (by decide)).trans (by decide)

end RoundTrip

end CsvCodec

end FlOp.Formats
