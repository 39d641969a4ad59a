import FlOp.Core.Constants
import FlOp.Core.Text
import Mathlib.Algebra.Order.Ring.Rat

/-! # Source values

A cell of a source record holds a dynamic value. The declared quantity kind of its binding says
what it is coerced to; a value that cannot be coerced raises, and so does a record model that is
given a value of the wrong type.
-/

namespace FlOp.Mapping

open FlOp.Core

/-- A dynamic value over a type of timestamps; tuples count as lists, and keys are texts. -/
inductive PyValue (D : Type) where
  | null
  | bool (value : Bool)
  | int (value : ℤ)
  | float (value : ℚ)
  | text (value : String)
  | time (value : D)
  | interval (start : D) (stop : Option D)
  | list (items : List (PyValue D))
  | dict (entries : List (String × PyValue D))

/-- How texts are read and written, and what the record models accept for a float and for a
timestamp. -/
structure Readers (D : Type) where
  parseFloat : String → Option ℚ
  parseInt : String → Option ℤ
  literalEval : String → Option (PyValue D)
  fromIsoformat : String → Option D
  isoformat : D → String
  repr : PyValue D → String
  validFloat : PyValue D → Option ℚ
  validTime : PyValue D → Option D

namespace PyValue

variable {D : Type}

/-- `if value`. -/
def truthy : PyValue D → Bool
  | null => false
  | bool value => value
  | int value => value ≠ 0
  | float value => value ≠ 0
  | text value => value ≠ ""
  | time _ => true
  | interval _ _ => true
  | list items => !items.isEmpty
  | dict entries => !entries.isEmpty

/-- The items of a loop over the value. -/
def iterate : PyValue D → Option (List (PyValue D))
  | text value => some (value.toList.map fun c => text (String.singleton c))
  | list items => some items
  | dict entries => some (entries.map fun entry => text entry.1)
  | _ => none

/-- Absent, or a text of spaces. -/
def isMissing : PyValue D → Bool
  | null => true
  | text value => (strip value.toList).isEmpty
  | _ => false

/-- A value of an optional attribute. -/
def ofOption : Option (PyValue D) → PyValue D
  | none => null
  | some value => value

end PyValue

namespace Readers

variable {D : Type} (readers : Readers D)

/-- `str(value)`. -/
def toText : PyValue D → String
  | .text value => value
  | value => readers.repr value

/-- `float(value)`. -/
def toFloat : PyValue D → Option ℚ
  | .bool value => some (if value then 1 else 0)
  | .int value => some value
  | .float value => some value
  | .text value => readers.parseFloat value
  | _ => none

/-- `int(value)`. -/
def toInt : PyValue D → Option ℤ
  | .bool value => some (if value then 1 else 0)
  | .int value => some value
  | .float value => some (Instant.truncated value)
  | .text value => readers.parseInt value
  | _ => none

/-- A categorical-set value that may arrive as a stringified list. -/
def parseList : PyValue D → List (PyValue D)
  | .list items => items
  | .text value =>
    match readers.literalEval value with
    | some (.list items) => items
    | _ => [.text value]
  | value => [value]

/-- A unit-to-rate map that may arrive as a stringified dict; rates that are no positive numbers
are dropped. -/
def parseRateMap (raw : PyValue D) : List (String × PyValue D) :=
  let value := match raw with
    | .text value => (readers.literalEval value).getD .null
    | value => value
  match value with
  | .dict entries => entries.filterMap fun entry =>
      ((readers.toFloat entry.2).filter (0 < ·)).map fun rate => (entry.1, .float rate)
  | _ => []

/-- `text.replace("Z", "+00:00")`. -/
def replaceZulu (text : String) : String :=
  String.ofList (text.toList.flatMap fun c => if c = 'Z' then "+00:00".toList else [c])

/-- An ISO-8601 timestamp with a trailing zone letter. -/
def parseTimestamp : PyValue D → Option D
  | .time value => some value
  | value => readers.fromIsoformat (replaceZulu (readers.toText value))

/-- `_NUMERIC_KINDS`. -/
def numericKinds : List String :=
  ["power", "mass", "volume", "money", "area", "speed", "length", "flow-rate", "angle", "ratio",
    "work", "duration"]

/-- Coerce a raw value to the type of its quantity kind. -/
def coerceValue (quantityKind : Option String) (raw : PyValue D) : Option (PyValue D) :=
  match quantityKind with
  | none => some raw
  | some kind =>
    if kind = "categorical-set" then some (.list (readers.parseList raw))
    else if kind = "interval-set" then some (.list (readers.parseList raw))
    else if kind = "rate-map" then some (.dict (readers.parseRateMap raw))
    else if kind = "timestamp" then (readers.parseTimestamp raw).map .time
    else if kind = "time" then (readers.toFloat raw).map fun x => .int (Instant.truncated x)
    else if kind ∈ numericKinds then (readers.toFloat raw).map .float
    else some raw

end Readers

end FlOp.Mapping
