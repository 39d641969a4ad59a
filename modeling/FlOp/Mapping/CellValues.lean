import FlOp.Core.Numbers
import FlOp.Library.NestedDict
import FlOp.Mapping.Records

/-! # Texts of source rows as values

A physical row holds texts. What a text is coerced to is told here with every way the conversions of
the language fail: a number may be `nan` or infinite, an integer may be too large for a `float`, and
a literal that is malformed is handled where one that raises another error is not.
-/

namespace FlOp.Mapping

open Library FlOp.Core

/-- A conversion gives a value, is refused with an error its callers know of, or raises another. -/
inductive Attempt (α : Type) where
  | value (result : α)
  | refused
  | raised
deriving DecidableEq, Repr

/-- A conversion without a handler: both errors leave the caller. -/
def Attempt.get? {α : Type} : Attempt α → Option α
  | value result => some result
  | _ => none

/-- The values of literals; `other` stands for bytes, complex numbers, sets and the ellipsis. -/
inductive Literal where
  | null
  | bool (value : Bool)
  | int (value : ℤ)
  | float (value : PyFloat)
  | text (value : String)
  | sequence (items : List Literal)
  | dict (entries : List (Literal × Literal))
  | other (shown : String)

/-- A coerced value over a type of timestamps; the keys of its dictionaries are texts. -/
inductive CellValue (T : Type) where
  | literal (value : Literal)
  | time (value : T)
  | dict (entries : List (String × CellValue T))

/-- What the language and the record models make of texts: `float`, `int`, `ast.literal_eval`,
`datetime.fromisoformat` and `str`, and the values they accept for a float and a timestamp. -/
structure Builtins (T : Type) where
  parseFloat : String → Option PyFloat
  parseInt : String → Option ℤ
  literalEval : String → Attempt Literal
  fromIsoformat : String → Option T
  reprLiteral : Literal → Option String
  repr : CellValue T → Option String
  validFloat : CellValue T → Option PyFloat
  validTime : CellValue T → Option T

/-- `int(x)` of a float: `nan` and the infinities raise. -/
def intOfFloat : PyFloat → Option ℤ
  | .of (some (some value)) => some (Instant.truncated value)
  | _ => none

/-- `float(n)`; an integer that rounds to two to the power of 1024 or more raises. -/
def floatOfInt (n : ℤ) : Attempt PyFloat :=
  if |n| < 2 ^ 1024 - 2 ^ 970 then .value (.number n) else .raised

namespace Literal

/-- `if value`. -/
def truthy : Literal → Bool
  | null => false
  | bool value => value
  | int value => value ≠ 0
  | float value => value ≠ .number 0
  | text value => value ≠ ""
  | sequence items => !items.isEmpty
  | dict entries => !entries.isEmpty
  | other _ => true

end Literal

namespace CellValue

variable {T : Type}

/-- A text. -/
def text (value : String) : CellValue T := .literal (.text value)

/-- A float. -/
def float (value : PyFloat) : CellValue T := .literal (.float value)

/-- An integer. -/
def int (value : ℤ) : CellValue T := .literal (.int value)

/-- `if value`. -/
def truthy : CellValue T → Bool
  | literal value => value.truthy
  | time _ => true
  | dict entries => !entries.isEmpty

/-- The items of a loop over the value. -/
def iterate : CellValue T → Option (List Literal)
  | literal (.text value) => some (value.toList.map fun c => .text (String.singleton c))
  | literal (.sequence items) => some items
  | literal (.dict entries) => some (entries.map (·.1))
  | dict entries => some (entries.map fun entry => .text entry.1)
  | _ => none

/-- Dictionaries within attributes. -/
def nesting (T : Type) : Nesting String (CellValue T) where
  node := .dict
  entries?
    | .dict entries => some entries
    | _ => none
  entries?_node _ := rfl

end CellValue

namespace Builtins

variable {T : Type} (py : Builtins T)

/-- `str(value)` of a literal; a very long integer raises. -/
def textOfLiteral : Literal → Option String
  | .text value => some value
  | value => py.reprLiteral value

/-- `str(value)`. -/
def toText : CellValue T → Option String
  | .literal value => py.textOfLiteral value
  | value => py.repr value

/-- `float(value)` of a literal: a wrong type or text is refused, an overflow raises. -/
def floatOfLiteral : Literal → Attempt PyFloat
  | .bool value => .value (.number (if value then 1 else 0))
  | .int value => floatOfInt value
  | .float value => .value value
  | .text value =>
    match py.parseFloat value with
    | some x => .value x
    | none => .refused
  | _ => .refused

/-- `float(value)`. -/
def toFloat : CellValue T → Option PyFloat
  | .literal value => (py.floatOfLiteral value).get?
  | _ => none

/-- `int(value)`. -/
def toInt : CellValue T → Option ℤ
  | .literal (.bool value) => some (if value then 1 else 0)
  | .literal (.int value) => some value
  | .literal (.float value) => intOfFloat value
  | .literal (.text value) => py.parseInt value
  | _ => none

/-- A categorical-set value that may arrive as a stringified list. -/
def parseList : Literal → Option (CellValue T)
  | .sequence items => some (.literal (.sequence items))
  | .text value =>
    match py.literalEval value with
    | .value (.sequence items) => some (.literal (.sequence items))
    | .value _ | .refused => some (.literal (.sequence [.text value]))
    | .raised => none
  | value => some (.literal (.sequence [value]))

/-- The rates of a dictionary by the texts of its units: a rate that is refused or that is no
positive number is skipped, one that raises is not handled. -/
def rates : List (Literal × Literal) → List (String × CellValue T) →
    Option (List (String × CellValue T))
  | [], found => some found
  | (unit, rate) :: rest, found =>
    match py.floatOfLiteral rate with
    | .raised => none
    | .refused => rates rest found
    | .value x =>
      if (PyFloat.number 0).lt x then
        (py.textOfLiteral unit).bind fun key => rates rest (Dict.setEntries key (.float x) found)
      else rates rest found

/-- A unit-to-rate map that may arrive as a stringified dict. -/
def parseRateMap (raw : Literal) : Option (CellValue T) :=
  let evaluated : Attempt Literal := match raw with
    | .text value => py.literalEval value
    | value => .value value
  match evaluated with
  | .value (.dict entries) => (py.rates entries []).map .dict
  | .value _ | .refused => some (.dict [])
  | .raised => none

/-- An ISO-8601 timestamp with a trailing zone letter. -/
def parseTimestamp (raw : Literal) : Option T :=
  (py.textOfLiteral raw).bind fun text => py.fromIsoformat (Readers.replaceZulu text)

/-- Coerce a raw value to the type of its quantity kind. -/
def coerceValue (quantityKind : Option String) (raw : Literal) : Option (CellValue T) :=
  match quantityKind with
  | none => some (.literal raw)
  | some kind =>
    if kind = "categorical-set" then py.parseList raw
    else if kind = "interval-set" then py.parseList raw
    else if kind = "rate-map" then py.parseRateMap raw
    else if kind = "timestamp" then (py.parseTimestamp raw).map .time
    else if kind = "time" then
      ((py.floatOfLiteral raw).get?.bind intOfFloat).map .int
    else if kind ∈ Readers.numericKinds then (py.floatOfLiteral raw).get?.map .float
    else some (.literal raw)

end Builtins

/-- `_CONVERSION_FACTORS`. -/
def conversionFactors : List ((String × String) × ℚ) := [
  (("W", "kW"), 1 / 1000), (("kW", "W"), 1000), (("g", "kg"), 1 / 1000), (("kg", "g"), 1000),
  (("mL", "L"), 1 / 1000), (("L", "mL"), 1000), (("m2", "ha"), 1 / 10000), (("ha", "m2"), 10000)]

/-- A float times a factor, up to its rounding. -/
def scaleFloat (factor : ℚ) : PyFloat → PyFloat
  | .of (some (some value)) => .number (value * factor)
  | value => value

/-- Convert into the canonical unit; units without a factor between them raise. -/
def convertToCanonical (value : PyFloat) (canonicalUnit sourceUnit : Option String) :
    Option PyFloat :=
  match canonicalUnit, sourceUnit with
  | some canonical, some source =>
    if source = canonical then some value
    else (conversionFactors.lookup (source, canonical)).map fun factor =>
      scaleFloat factor value
  | _, _ => some value

/-- A float is read in the canonical unit of its binding; no binding declares a source unit. -/
def inCanonicalUnit {T : Type} (canonicalUnit : Option String) (value : CellValue T) :
    Option (CellValue T) :=
  match value, canonicalUnit with
  | .literal (.float x), some unit =>
    if unit = "" then some value else (convertToCanonical x (some unit) none).map .float
  | _, _ => some value

@[simp] theorem inCanonicalUnit_eq {T : Type} (canonicalUnit : Option String)
    (value : CellValue T) : inCanonicalUnit canonicalUnit value = some value := by
  unfold inCanonicalUnit
  split
  · split
    · rfl
    · rfl
  · rfl

end FlOp.Mapping
