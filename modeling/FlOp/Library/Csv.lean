import Mathlib.Data.List.Basic

/-! # Comma-separated rows

A writer that quotes a field only where it has to and a reader that works one character at a time,
line by line. A field that holds a line break, a comma or a quote is read back as it was written,
but for the translation of line breaks that a text file opened without saying so makes.
-/

namespace FlOp.Library.Csv

def lineFeed : Char := Char.ofNat 10

def carriageReturn : Char := Char.ofNat 13

def quote : Char := Char.ofNat 34

def comma : Char := Char.ofNat 44

/-- The characters that a field cannot hold unquoted. -/
def isSpecial (c : Char) : Bool := c = comma || c = quote || c = lineFeed || c = carriageReturn

/-! ## Writing -/

/-- Quotes within a quoted field are doubled. -/
def escape (field : List Char) : List Char :=
  field.flatMap fun c => if c = quote then [quote, quote] else [c]

def quoted (field : List Char) : List Char := quote :: escape field ++ [quote]

def writeField (field : List Char) : List Char :=
  if field.any isSpecial then quoted field else field

def writeFields : List (List Char) → List Char
  | [] => []
  | [field] => writeField field
  | field :: next :: rest => writeField field ++ comma :: writeFields (next :: rest)

/-- The text of a row before its line break; an only field that is empty is quoted. -/
def writeCells (row : List (List Char)) : List Char :=
  if row = [[]] then quoted [] else writeFields row

def writeRow (row : List (List Char)) : List Char := writeCells row ++ [carriageReturn, lineFeed]

def writeRows (rows : List (List (List Char))) : List Char := rows.flatMap writeRow

/-! ## Reading -/

/-- Every line break becomes a line feed; one right after a carriage return belongs to it. -/
def translate (afterReturn : Bool) : List Char → List Char
  | [] => []
  | c :: rest =>
    if c = carriageReturn then lineFeed :: translate true rest
    else if c = lineFeed ∧ afterReturn = true then translate false rest
    else c :: translate false rest

/-- Universal newlines. -/
def universalNewlines (text : List Char) : List Char := translate false text

inductive Mode where
  | startRecord
  | startField
  | inField
  | inQuotedField
  | quoteInQuotedField
  | eatNewline
deriving DecidableEq

structure ReaderState where
  mode : Mode := .startRecord
  field : List Char := []
  fields : List (List Char) := []
  rows : List (List (List Char)) := []
deriving DecidableEq

namespace ReaderState

/-- Add a character to the field, unless it is full. -/
def addChar (limit : ℕ) (s : ReaderState) (c : Char) (mode : Mode) : Option ReaderState :=
  if s.field.length < limit then some { s with field := s.field ++ [c], mode := mode } else none

def saveField (s : ReaderState) (mode : Mode) : ReaderState :=
  { s with mode := mode, field := [], fields := s.fields ++ [s.field] }

def isNewline (c : Char) : Bool := c = lineFeed || c = carriageReturn

/-- A character at the start of a field. -/
def startChar (limit : ℕ) (s : ReaderState) (c : Char) : Option ReaderState :=
  if isNewline c then some (s.saveField .eatNewline)
  else if c = quote then some { s with mode := .inQuotedField }
  else if c = comma then some (s.saveField .startField)
  else s.addChar limit c .inField

/-- One character of a line. -/
def stepChar (limit : ℕ) (s : ReaderState) (c : Char) : Option ReaderState :=
  match s.mode with
  | .startRecord =>
    if isNewline c then some { s with mode := .eatNewline } else s.startChar limit c
  | .startField => s.startChar limit c
  | .inField =>
    if isNewline c then some (s.saveField .eatNewline)
    else if c = comma then some (s.saveField .startField)
    else s.addChar limit c .inField
  | .inQuotedField =>
    if c = quote then some { s with mode := .quoteInQuotedField }
    else s.addChar limit c .inQuotedField
  | .quoteInQuotedField =>
    if c = quote then s.addChar limit c .inQuotedField
    else if c = comma then some (s.saveField .startField)
    else if isNewline c then some (s.saveField .eatNewline)
    else s.addChar limit c .inField
  | .eatNewline => if isNewline c then some s else none

/-- The end of a line. -/
def stepEnd (s : ReaderState) : ReaderState :=
  match s.mode with
  | .startRecord | .eatNewline => { s with mode := .startRecord }
  | .startField | .inField | .quoteInQuotedField => s.saveField .startRecord
  | .inQuotedField => s

/-- A record is complete at the end of a line, unless a quoted field goes on. -/
def endLine (s : ReaderState) : ReaderState :=
  let s := s.stepEnd
  if s.mode = .startRecord then { s with fields := [], rows := s.rows ++ [s.fields] } else s

/-- A character of the text; a line feed ends its line. -/
def feedChar (limit : ℕ) (s : ReaderState) (c : Char) : Option ReaderState :=
  (s.stepChar limit c).map fun s => if c = lineFeed then s.endLine else s

def feed (limit : ℕ) (s : ReaderState) (text : List Char) : Option ReaderState :=
  text.foldlM (feedChar limit) s

/-- The rows at the end of the text, with a last line that is not ended and a field that is not
closed. -/
def finish (s : ReaderState) (text : List Char) : List (List (List Char)) :=
  let s := if text = [] ∨ text.getLast? = some lineFeed then s else s.endLine
  if s.mode = .inQuotedField ∨ s.field ≠ [] then s.rows ++ [s.fields ++ [s.field]] else s.rows

end ReaderState

/-- The rows of a text that is read with universal newlines; a field over the limit is an error. -/
def readRows (limit : ℕ) (text : List Char) : Option (List (List (List Char))) :=
  let text := universalNewlines text
  (ReaderState.feed limit { } text).map fun s => s.finish text

/-! ## Translating what was written -/

section Translation

variable {flag : Bool} {text more field : List Char}

/-- Whether a text ends with a carriage return. -/
def endsReturn (flag : Bool) : List Char → Bool
  | [] => flag
  | c :: rest => endsReturn (c = carriageReturn) rest

theorem translate_append :
    translate flag (text ++ more) =
      translate flag text ++ translate (endsReturn flag text) more := by
  induction text generalizing flag with
  | nil => rfl
  | cons c rest ih =>
    rw [List.cons_append, translate, translate, endsReturn]
    split
    · next cr => simp [cr, ih]
    · next other =>
      split <;> simp [other, ih]

theorem translate_of_head (other : text.head? ≠ some lineFeed) :
    translate flag text = translate false text := by
  cases text with
  | nil => rfl
  | cons c rest =>
    have differ : c ≠ lineFeed := fun same => other (congrArg some same)
    simp [translate, differ]

theorem universalNewlines_append (other : more.head? ≠ some lineFeed) :
    universalNewlines (text ++ more) = universalNewlines text ++ universalNewlines more := by
  rw [universalNewlines, translate_append, translate_of_head other]
  rfl

theorem universalNewlines_eq_nil : universalNewlines field = [] ↔ field = [] := by
  cases field with
  | nil => simp [universalNewlines, translate]
  | cons c rest =>
    rw [universalNewlines, translate]
    split <;> simp

@[simp] theorem escape_nil : escape [] = [] := rfl

@[simp] theorem escape_quote : escape (quote :: field) = quote :: quote :: escape field := by
  simp [escape]

theorem escape_cons {c : Char} (other : c ≠ quote) : escape (c :: field) = c :: escape field := by
  simp [escape, other]

theorem translate_escape : translate flag (escape field) = escape (translate flag field) := by
  induction field generalizing flag with
  | nil => rfl
  | cons c rest ih =>
    by_cases isQuote : c = quote
    · subst isQuote
      have plain : quote ≠ carriageReturn ∧ quote ≠ lineFeed := by decide
      simp [translate, plain, ih]
    · rw [escape_cons isQuote, translate, translate]
      have feeds : lineFeed ≠ quote := by decide
      split
      · rw [ih, escape_cons feeds]
      · split
        · exact ih
        · rw [ih, escape_cons isQuote]

theorem any_translate :
    (flag || (translate flag field).any isSpecial) = (flag || field.any isSpecial) := by
  induction field generalizing flag with
  | nil => rfl
  | cons c rest ih =>
    have feeds : isSpecial lineFeed = true := by decide
    have returns : isSpecial carriageReturn = true := by decide
    rw [translate]
    split
    · next cr => simp [cr, feeds, returns]
    · split
      · next ended => simp [ended]
      · have later := @ih false
        rw [Bool.false_or, Bool.false_or] at later
        simp [later]

theorem universalNewlines_writeField :
    universalNewlines (writeField field) = writeField (universalNewlines field) := by
  have special : (universalNewlines field).any isSpecial = field.any isSpecial := by
    have translated := @any_translate false field
    rwa [Bool.false_or, Bool.false_or] at translated
  rw [writeField, writeField, special]
  split
  · have closing : ([quote] : List Char).head? ≠ some lineFeed := by decide
    have opening : quote ≠ carriageReturn ∧ quote ≠ lineFeed := by decide
    rw [quoted, quoted, universalNewlines_append closing]
    simp [universalNewlines, translate, opening, translate_escape]
  · rfl

theorem universalNewlines_writeFields (row : List (List Char)) :
    universalNewlines (writeFields row) = writeFields (row.map universalNewlines) := by
  induction row with
  | nil => rfl
  | cons field rest ih =>
    cases rest with
    | nil => exact universalNewlines_writeField
    | cons next rest =>
      have separates : (comma :: writeFields (next :: rest)).head? ≠ some lineFeed := by
        rw [List.head?_cons]
        decide
      have plain : comma ≠ carriageReturn ∧ comma ≠ lineFeed := by decide
      rw [writeFields, universalNewlines_append separates, universalNewlines_writeField]
      have translated : universalNewlines (comma :: writeFields (next :: rest)) =
          comma :: universalNewlines (writeFields (next :: rest)) := by
        simp [universalNewlines, translate, plain]
      rw [translated, ih]
      rfl

theorem universalNewlines_writeCells (row : List (List Char)) :
    universalNewlines (writeCells row) = writeCells (row.map universalNewlines) := by
  have single : row.map universalNewlines = [[]] ↔ row = [[]] := by
    rw [List.map_eq_singleton_iff]
    constructor
    · rintro ⟨field, rfl, empty⟩
      rw [universalNewlines_eq_nil.mp empty]
    · rintro rfl
      exact ⟨[], rfl, rfl⟩
  rw [writeCells, writeCells]
  simp only [single]
  split
  · decide
  · exact universalNewlines_writeFields row

/-- The text that the reader gets for some rows. -/
theorem universalNewlines_writeRows (rows : List (List (List Char))) :
    universalNewlines (writeRows rows) =
      rows.flatMap fun row => writeCells (row.map universalNewlines) ++ [lineFeed] := by
  induction rows with
  | nil => rfl
  | cons row rest ih =>
    have returns : ([carriageReturn, lineFeed] ++ writeRows rest).head? ≠ some lineFeed := by
      rw [List.cons_append, List.head?_cons]
      decide
    have ended : universalNewlines ([carriageReturn, lineFeed] ++ writeRows rest) =
        lineFeed :: universalNewlines (writeRows rest) := by
      have differ : lineFeed ≠ carriageReturn := by decide
      simp [universalNewlines, translate, differ]
    rw [writeRows, List.flatMap_cons, ← writeRows, writeRow, List.append_assoc,
      universalNewlines_append returns, ended, universalNewlines_writeCells, ih]
    simp

end Translation

/-! ## Reading what was written -/

namespace ReaderState

variable {limit : ℕ} {s : ReaderState} {field text more : List Char} {c : Char}

@[simp] theorem feed_nil : feed limit s [] = some s := rfl

@[simp] theorem feed_cons :
    feed limit s (c :: text) = (feedChar limit s c).bind fun s => feed limit s text := rfl

theorem feed_append :
    feed limit s (text ++ more) = (feed limit s text).bind fun s => feed limit s more :=
  List.foldlM_append

/-- A state in which the next character opens a field. -/
structure Ready (s : ReaderState) : Prop where
  mode : s.mode = .startRecord ∨ s.mode = .startField
  field : s.field = []

theorem saveField_ready : (s.saveField .startField).Ready := ⟨.inr rfl, rfl⟩

theorem feedChar_plain (plain : c ≠ lineFeed) : feedChar limit s c = stepChar limit s c := by
  rw [feedChar]
  simp [plain]

/-- Adding characters one after another, which is what the reader does within a field. -/
def addChars (limit : ℕ) (mode : Mode) (s : ReaderState) (field : List Char) :
    Option ReaderState :=
  field.foldlM (fun s c => s.addChar limit c mode) s

theorem addChars_eq {mode : Mode} (field : List Char) (within : s.mode = mode)
    (room : s.field.length ≤ limit) :
    addChars limit mode s field =
      if s.field.length + field.length ≤ limit then some { s with field := s.field ++ field }
      else none := by
  induction field generalizing s with
  | nil => simp [addChars, room]
  | cons c rest ih =>
    have added : addChars limit mode s (c :: rest) =
        (s.addChar limit c mode).bind fun s => addChars limit mode s rest := rfl
    rw [added, addChar]
    by_cases more : s.field.length < limit
    · have length : (s.field ++ [c]).length = s.field.length + 1 := List.length_append
      rw [if_pos more, Option.bind_some, ih rfl (by rw [length]; omega), length]
      have fits : s.field.length + 1 + rest.length ≤ limit ↔
          s.field.length + (c :: rest).length ≤ limit := by
        rw [List.length_cons]
        omega
      simp only [fits, within, List.append_assoc, List.singleton_append]
    · have tooLong : ¬ s.field.length + (c :: rest).length ≤ limit := by
        rw [List.length_cons]
        omega
      rw [if_neg more, if_neg tooLong]
      rfl

/-- A quoted field goes on to the end of what was escaped, also over line breaks. -/
theorem feed_escape (within : s.mode = .inQuotedField) :
    feed limit s (escape field) = addChars limit .inQuotedField s field := by
  induction field generalizing s with
  | nil => rfl
  | cons c rest ih =>
    have read : feed limit s (escape (c :: rest)) =
        (s.addChar limit c .inQuotedField).bind fun s => feed limit s (escape rest) := by
      by_cases isQuote : c = quote
      · subst isQuote
        have plain : quote ≠ lineFeed := by decide
        simp [feedChar_plain plain, stepChar, within, addChar]
      · rw [escape_cons isQuote, feed_cons, feedChar, stepChar, within]
        simp only [if_neg isQuote]
        by_cases room : s.field.length < limit
        · simp [addChar, room, endLine, stepEnd]
        · simp [addChar, room]
    rw [read, addChar]
    by_cases room : s.field.length < limit
    · rw [if_pos room, Option.bind_some, ih rfl]
      simp [addChars, addChar, room]
    · simp [addChars, addChar, room]

theorem isSpecial_eq_false :
    isSpecial c = false ↔ c ≠ comma ∧ c ≠ quote ∧ c ≠ lineFeed ∧ c ≠ carriageReturn := by
  simp [isSpecial, and_assoc]

/-- An unquoted field goes on to the end of what has no special character. -/
theorem feed_unquoted (within : s.mode = .inField) (plain : field.any isSpecial = false) :
    feed limit s field = addChars limit .inField s field := by
  induction field generalizing s with
  | nil => rfl
  | cons c rest ih =>
    rw [List.any_cons, Bool.or_eq_false_iff] at plain
    obtain ⟨here, later⟩ := plain
    obtain ⟨noComma, -, noFeed, noReturn⟩ := isSpecial_eq_false.mp here
    have read : feedChar limit s c = s.addChar limit c .inField := by
      rw [feedChar_plain noFeed, stepChar, within]
      simp [isNewline, noComma, noFeed, noReturn]
    rw [feed_cons, read, addChar]
    by_cases room : s.field.length < limit
    · rw [if_pos room, Option.bind_some, ih rfl later]
      simp [addChars, addChar, room]
    · simp [addChars, addChar, room]

/-- The mode after a written field, before what ends it. -/
def writtenMode (mode : Mode) (field : List Char) : Mode :=
  if field.any isSpecial then .quoteInQuotedField else if field = [] then mode else .inField

theorem feed_quoted (ready : s.Ready) :
    feed limit s (quoted field) =
      if field.length ≤ limit then some { s with mode := .quoteInQuotedField, field := field }
      else none := by
  have plain : quote ≠ lineFeed := by decide
  have opened : feedChar limit s quote = some { s with mode := .inQuotedField } := by
    have starts : s.startChar limit quote = some { s with mode := .inQuotedField } := rfl
    rw [feedChar_plain plain, stepChar]
    obtain mode | mode := ready.mode <;> rw [mode]
    · exact starts
    · exact starts
  have closed (s : ReaderState) (within : s.mode = .inQuotedField) :
      feed limit s [quote] = some { s with mode := .quoteInQuotedField } := by
    rw [feed_cons, feedChar_plain plain, stepChar, within]
    rfl
  have room : ([] : List Char).length ≤ limit := Nat.zero_le limit
  have within : ({ s with mode := .inQuotedField } : ReaderState).field.length ≤ limit := by
    rw [ready.field]
    exact room
  have read := addChars_eq field rfl within
  simp only [ready.field, List.length_nil, Nat.zero_add, List.nil_append] at read
  rw [quoted, List.cons_append, feed_cons, opened, Option.bind_some, feed_append, feed_escape rfl,
    ready.field, read]
  split
  · rw [Option.bind_some, closed _ rfl]
  · rfl

theorem feed_writeField (ready : s.Ready) :
    feed limit s (writeField field) =
      if field.length ≤ limit then some { s with mode := writtenMode s.mode field, field := field }
      else none := by
  rw [writeField, writtenMode]
  by_cases special : field.any isSpecial = true
  · rw [if_pos special, if_pos special, feed_quoted ready]
  · rw [if_neg special, if_neg special]
    cases field with
    | nil =>
      have fits : ([] : List Char).length ≤ limit := Nat.zero_le limit
      rw [if_pos rfl, feed_nil, if_pos fits, ← ready.field]
    | cons c rest =>
      rw [if_neg (List.cons_ne_nil c rest)]
      rw [Bool.not_eq_true, List.any_cons, Bool.or_eq_false_iff] at special
      obtain ⟨here, later⟩ := special
      obtain ⟨noComma, noQuote, noFeed, noReturn⟩ := isSpecial_eq_false.mp here
      have starts : s.startChar limit c = s.addChar limit c .inField := by
        simp [startChar, isNewline, noComma, noQuote, noFeed, noReturn]
      have read : feedChar limit s c = s.addChar limit c .inField := by
        rw [feedChar_plain noFeed, stepChar]
        obtain mode | mode := ready.mode <;> simp [mode, starts, isNewline, noFeed, noReturn]
      rw [feed_cons, read, addChar, ready.field]
      by_cases room : 0 < limit
      · have first :
            ({ s with mode := .inField, field := [c] } : ReaderState).field.length ≤ limit :=
          room
        have added := addChars_eq rest rfl first
        have length : ([c] : List Char).length + rest.length = (c :: rest).length :=
          Nat.add_comm 1 rest.length
        rw [List.length_nil, if_pos room, Option.bind_some, feed_unquoted rfl later,
          List.nil_append, added, length]
        rfl
      · have tooLong : ¬ (c :: rest).length ≤ limit := by
          rw [List.length_cons]
          omega
        rw [List.length_nil, if_neg room, if_neg tooLong]
        rfl

theorem feedChar_comma (ended : s.mode ≠ .inQuotedField) (open_ : s.mode ≠ .eatNewline) :
    feedChar limit s comma = some (s.saveField .startField) := by
  have plain : comma ≠ lineFeed := by decide
  rw [feedChar_plain plain, stepChar]
  cases mode : s.mode with
  | startRecord | startField | inField | quoteInQuotedField => rfl
  | inQuotedField => exact (ended mode).elim
  | eatNewline => exact (open_ mode).elim

/-- A line feed after a field completes the record. -/
theorem feedChar_lineFeed
    (ends : s.mode = .startField ∨ s.mode = .inField ∨ s.mode = .quoteInQuotedField) :
    feedChar limit s lineFeed = some { rows := s.rows ++ [s.fields ++ [s.field]] } := by
  obtain mode | mode | mode := ends <;> rw [feedChar, stepChar, mode] <;> rfl

theorem writtenMode_cases (mode : Mode) (field : List Char) :
    writtenMode mode field = .quoteInQuotedField ∨ writtenMode mode field = .inField ∨
      field = [] ∧ writtenMode mode field = mode := by
  rw [writtenMode]
  split
  · exact .inl rfl
  · split
    · next empty => exact .inr (.inr ⟨empty, rfl⟩)
    · exact .inr (.inl rfl)

/-- The cells of a row and the line feed after them are read as the row, unless a field is too
long. An empty field is told from an empty line by the comma before it. -/
theorem feed_writeFields {row : List (List Char)} (ready : s.Ready) (some_ : row ≠ [])
    (told : row = [[]] → s.mode = .startField) :
    feed limit s (writeFields row ++ [lineFeed]) =
      if ∀ field ∈ row, field.length ≤ limit then some { rows := s.rows ++ [s.fields ++ row] }
      else none := by
  induction row generalizing s with
  | nil => exact (some_ rfl).elim
  | cons field rest ih =>
    cases rest with
    | nil =>
      rw [writeFields, feed_append, feed_writeField ready]
      simp only [List.forall_mem_cons, List.not_mem_nil, false_imp_iff, implies_true, and_true]
      by_cases fits : field.length ≤ limit
      · rw [if_pos fits, if_pos fits, Option.bind_some, feed_cons]
        have ends : writtenMode s.mode field = .startField ∨
            writtenMode s.mode field = .inField ∨
            writtenMode s.mode field = .quoteInQuotedField := by
          obtain mode | mode | ⟨empty, mode⟩ := writtenMode_cases s.mode field
          · exact .inr (.inr mode)
          · exact .inr (.inl mode)
          · exact .inl (mode.trans (told (by rw [empty])))
        rw [feedChar_lineFeed ends]
        rfl
      · rw [if_neg fits, if_neg fits]
        rfl
    | cons next rest =>
      rw [writeFields, List.append_assoc, feed_append, feed_writeField ready]
      simp only [List.forall_mem_cons (a := field)]
      by_cases fits : field.length ≤ limit
      · have notQuoted : writtenMode s.mode field ≠ .inQuotedField ∧
            writtenMode s.mode field ≠ .eatNewline := by
          obtain mode | mode | ⟨-, mode⟩ := writtenMode_cases s.mode field
          · rw [mode]
            decide
          · rw [mode]
            decide
          · rw [mode]
            obtain start | start := ready.mode <;> rw [start] <;> decide
        rw [if_pos fits, Option.bind_some, List.cons_append, feed_cons,
          feedChar_comma notQuoted.1 notQuoted.2, Option.bind_some,
          ih saveField_ready (List.cons_ne_nil next rest) fun _ => rfl]
        simp only [saveField, fits, true_and, List.append_assoc, List.singleton_append]
      · rw [if_neg fits, if_neg fun all => fits all.1]
        rfl

/-- A written row and the line feed after it are read as the row. -/
theorem feed_writeCells (row : List (List Char)) (rows : List (List (List Char))) :
    feed limit { rows := rows } (writeCells row ++ [lineFeed]) =
      if ∀ field ∈ row, field.length ≤ limit then some { rows := rows ++ [row] } else none := by
  have ready : ({ rows := rows } : ReaderState).Ready := ⟨.inl rfl, rfl⟩
  rw [writeCells]
  by_cases single : row = [[]]
  · have fits : ∀ field ∈ ([[]] : List (List Char)), field.length ≤ limit := by simp
    have fit : ([] : List Char).length ≤ limit := Nat.zero_le limit
    rw [if_pos single, single, if_pos fits, feed_append, feed_quoted ready, if_pos fit,
      Option.bind_some, feed_cons, feedChar_lineFeed (.inr (.inr rfl))]
    rfl
  · rw [if_neg single]
    cases row with
    | nil => rfl
    | cons field rest =>
      exact feed_writeFields ready (List.cons_ne_nil field rest) fun same => (single same).elim

theorem feed_rows (written rows : List (List (List Char))) :
    feed limit { rows := rows } (written.flatMap fun row => writeCells row ++ [lineFeed]) =
      if ∀ row ∈ written, ∀ field ∈ row, field.length ≤ limit
      then some { rows := rows ++ written } else none := by
  induction written generalizing rows with
  | nil => simp
  | cons row rest ih =>
    rw [List.flatMap_cons, feed_append, feed_writeCells]
    by_cases fits : ∀ field ∈ row, field.length ≤ limit
    · have all : (∀ other ∈ row :: rest, ∀ field ∈ other, field.length ≤ limit) ↔
          ∀ other ∈ rest, ∀ field ∈ other, field.length ≤ limit :=
        List.forall_mem_cons.trans (and_iff_right fits)
      rw [if_pos fits, Option.bind_some, ih]
      simp only [all, List.append_assoc, List.singleton_append]
    · rw [if_neg fits, if_neg fun all => fits (all row List.mem_cons_self)]
      rfl

theorem finish_rows (rows : List (List (List Char)))
    (ended : text = [] ∨ text.getLast? = some lineFeed) :
    ({ rows := rows } : ReaderState).finish text = rows := by
  rw [finish]
  simp [ended]

end ReaderState

/-- What was written is read back, but for the translation of line breaks. -/
theorem readRows_writeRows (limit : ℕ) (rows : List (List (List Char))) :
    readRows limit (writeRows rows) =
      if ∀ row ∈ rows, ∀ field ∈ row, (universalNewlines field).length ≤ limit
      then some (rows.map fun row => row.map universalNewlines) else none := by
  have flat : universalNewlines (writeRows rows) =
      (rows.map fun row => row.map universalNewlines).flatMap
        fun row => writeCells row ++ [lineFeed] := by
    rw [universalNewlines_writeRows, List.flatMap_map]
  have ended : universalNewlines (writeRows rows) = [] ∨
      (universalNewlines (writeRows rows)).getLast? = some lineFeed := by
    rw [flat]
    cases (rows.map fun row => row.map universalNewlines).eq_nil_or_concat with
    | inl none_ => exact .inl (by rw [none_]; rfl)
    | inr last =>
      obtain ⟨before, row, split⟩ := last
      right
      rw [split, List.concat_eq_append, List.flatMap_append]
      simp
  have read := @ReaderState.feed_rows limit (rows.map fun row => row.map universalNewlines) []
  have fields : (∀ row ∈ rows.map fun row => row.map universalNewlines,
      ∀ field ∈ row, field.length ≤ limit) ↔
        ∀ row ∈ rows, ∀ field ∈ row, (universalNewlines field).length ≤ limit := by
    simp only [List.forall_mem_map]
  rw [← flat] at read
  rw [readRows, read]
  simp only [fields]
  split
  · rw [Option.map_some, ReaderState.finish_rows _ ended]
    rfl
  · rfl

end FlOp.Library.Csv
