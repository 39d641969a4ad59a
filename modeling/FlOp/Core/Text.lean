import Mathlib.Data.List.Basic
import Mathlib.Data.List.DropRight

/-! # Relative paths

A file is addressed by the names on its way; its text joins them with slashes. A text read as a
path may name the same file in several ways, and may lead out of the directory it starts from.
-/

namespace FlOp.Core

/-- A name that stands for itself in a path. -/
def plainName (name : String) : Bool :=
  name ≠ "" ∧ name ≠ "." ∧ name ≠ ".." ∧ '/' ∉ name.toList

/-- `path.as_posix()`. -/
def asPosix (path : List String) : String :=
  String.ofList (['/'].intercalate (path.map String.toList))

/-- The names of a text read as a path; empty ones and single dots are skipped. -/
def pathParts (text : String) : List String :=
  ((text.toList.splitOn '/').map String.ofList).filter fun name => name ≠ "" ∧ name ≠ "."

/-- The text is absolute or climbs, so it may lead out of a directory. -/
def leavesDirectory (text : String) : Bool :=
  text.toList.head? = some '/' ∨ ".." ∈ pathParts text

/-- A path of plain names is read back from its text. -/
theorem pathParts_asPosix {path : List String} (nonempty : path ≠ [])
    (plain : ∀ name ∈ path, plainName name = true) : pathParts (asPosix path) = path := by
  have unsplit : ∀ name ∈ path.map String.toList, '/' ∉ name := by
    intro name member
    obtain ⟨part, listed, rfl⟩ := List.mem_map.mp member
    exact (of_decide_eq_true (plain part listed)).2.2.2
  rw [pathParts, asPosix, String.toList_ofList,
    List.splitOn_intercalate '/' unsplit (by simpa using nonempty), List.map_map]
  have identity : path.map (String.ofList ∘ String.toList) = path := by
    rw [show (String.ofList ∘ String.toList) = id from funext fun _ => String.ofList_toList,
      List.map_id]
  rw [identity, List.filter_eq_self]
  intro name member
  obtain ⟨filled, undotted, -⟩ := of_decide_eq_true (plain name member)
  exact decide_eq_true ⟨filled, undotted⟩

/-- Paths of plain names stay inside. -/
theorem leavesDirectory_asPosix {path : List String} (nonempty : path ≠ [])
    (plain : ∀ name ∈ path, plainName name = true) : leavesDirectory (asPosix path) = false := by
  refine decide_eq_false ?_
  rintro (absolute | climbs)
  · obtain ⟨name, rest, rfl⟩ := List.exists_cons_of_ne_nil nonempty
    obtain ⟨filled, -, -, unsplit⟩ := of_decide_eq_true (plain name List.mem_cons_self)
    have letters : name.toList ≠ [] := fun none => filled (String.toList_eq_nil_iff.mp none)
    obtain ⟨c, letters, spelled⟩ := List.exists_cons_of_ne_nil letters
    rw [asPosix, String.toList_ofList, List.map_cons, spelled] at absolute
    have first : c = '/' := by
      cases rest with
      | nil => simpa using absolute
      | cons => simpa using absolute
    exact unsplit (spelled ▸ first ▸ List.mem_cons_self)
  · rw [pathParts_asPosix nonempty plain] at climbs
    exact (of_decide_eq_true (plain ".." climbs)).2.2.1 rfl

end FlOp.Core

/-! # Text operations

Prefix, substring, line and quoting operations of the source language, on lists of characters
so that they evaluate.
-/

namespace FlOp.Core

/-- `text.startswith(head)`. -/
def startsWith (head text : String) : Bool := head.toList.isPrefixOf text.toList

/-- `text.endswith(tail)`. -/
def endsWith (tail text : String) : Bool := tail.toList.isSuffixOf text.toList

/-- `part in text`. -/
def containsText (part text : String) : Bool :=
  text.toList.tails.any fun rest => part.toList.isPrefixOf rest

/-- `text[len(head):]`. -/
def dropHead (head text : String) : String := String.ofList (text.toList.drop head.toList.length)

/-- `text[:n]`. -/
def takeHead (n : ℕ) (text : String) : String := String.ofList (text.toList.take n)

/-- `text[:-n]`. -/
def dropEnd (n : ℕ) (text : String) : String := String.ofList (text.toList.rdrop n)

/-- Replacing, with the number of characters still to be skipped. -/
private def replaceFrom (old new : List Char) : ℕ → List Char → List Char
  | _, [] => []
  | skipped + 1, _ :: rest => replaceFrom old new skipped rest
  | 0, c :: rest =>
    if old.isPrefixOf (c :: rest) then new ++ replaceFrom old new (old.length - 1) rest
    else c :: replaceFrom old new 0 rest

/-- `text.replace(old, new)`, of an old text that is not empty. -/
def replaceText (old new text : String) : String :=
  String.ofList (replaceFrom old.toList new.toList 0 text.toList)

/-- A character at which a text is split into lines. -/
def isLineBreak (c : Char) : Bool :=
  c.toNat ∈ [0x0A, 0x0B, 0x0C, 0x0D, 0x1C, 0x1D, 0x1E, 0x85, 0x2028, 0x2029]

/-- A character stripped from the ends of a text. -/
def isSpace (c : Char) : Bool :=
  isLineBreak c ||
    c.toNat ∈ [0x09, 0x1F, 0x20, 0xA0, 0x1680, 0x2000, 0x2001, 0x2002, 0x2003, 0x2004, 0x2005,
      0x2006, 0x2007, 0x2008, 0x2009, 0x200A, 0x202F, 0x205F, 0x3000]

/-- `text.splitlines()`, up to the empty line between a carriage return and a line feed. -/
def splitLines (text : List Char) : List (List Char) :=
  let parts := text.splitOnP isLineBreak
  if parts.getLast? = some [] then parts.dropLast else parts

/-- `text.strip()`. -/
def strip (text : List Char) : List Char := (text.dropWhile isSpace).rdropWhile isSpace

/-- Every line followed by a line feed. -/
def joinLines (lines : List (List Char)) : List Char :=
  lines.flatMap fun line => line ++ [Char.ofNat 10]

/-- Lines without breaks are read back as they were written. -/
theorem splitLines_joinLines {lines : List (List Char)}
    (unbroken : ∀ line ∈ lines, ∀ c ∈ line, isLineBreak c = false) :
    splitLines (joinLines lines) = lines := by
  have parts : (joinLines lines).splitOnP isLineBreak = lines ++ [[]] := by
    induction lines with
    | nil => simp [joinLines]
    | cons line rest ih =>
      have first := unbroken line List.mem_cons_self
      have later := ih fun other member => unbroken other (List.mem_cons_of_mem _ member)
      rw [joinLines, List.flatMap_cons, List.append_assoc, List.singleton_append,
        List.splitOnP_append_cons_of_forall_mem first _ (by decide)]
      exact congrArg (line :: ·) later
  simp [splitLines, parts]

private def singleQuote : Char := Char.ofNat 39

private def doubleQuote : Char := Char.ofNat 34

private def hexDigits (n : ℕ) : List Char :=
  let digits := Nat.toDigits 16 n
  if digits.length < 2 then Char.ofNat 48 :: digits else digits

/-- One character of a quoted string; control characters are escaped. -/
private def reprChar (quote c : Char) : List Char :=
  let backslash := Char.ofNat 92
  if c = quote || c = backslash then [backslash, c]
  else if c = Char.ofNat 10 then [backslash, 'n']
  else if c = Char.ofNat 13 then [backslash, 'r']
  else if c = Char.ofNat 9 then [backslash, 't']
  else if c.toNat < 32 || c.toNat = 127 then backslash :: 'x' :: hexDigits c.toNat
  else [c]

/-- `repr(text)`: single quotes unless the text holds one and no double quote. -/
def reprText (text : String) : String :=
  let chars := text.toList
  let quote := if singleQuote ∈ chars ∧ doubleQuote ∉ chars then doubleQuote else singleQuote
  String.ofList (quote :: chars.flatMap (reprChar quote) ++ [quote])

/-- The formatted form of a list of strings. -/
def reprTexts (texts : List String) : String :=
  "[" ++ ", ".intercalate (texts.map reprText) ++ "]"

example : replaceText "_lat" "_lon" "depot_lat" = "depot_lon" := by decide

example : reprTexts ["drone-1", "it's"] = "['drone-1', \"it's\"]" := by decide

end FlOp.Core
