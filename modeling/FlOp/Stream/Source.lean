import FlOp.Library.Dict
import Mathlib.Algebra.Order.Ring.Rat

/-! # Execution events and source rows

Events carry a payload of raw values; the planner's working data are physical source rows of
the same values, kept by contract. Texts and numbers stay as they were written, so a value also
knows how it is shown.
-/

namespace FlOp.Stream

open Library

/-- A raw value. A composite stands for a list or an object and is known by its text. -/
inductive Value where
  | null
  | boolean (value : Bool)
  | number (value : ℚ) (shown : String)
  | text (value : String)
  | composite (shown : String)
deriving DecidableEq, Repr

namespace Value

/-- `str(value)`. -/
def shown : Value → String
  | null => "None"
  | boolean value => if value then "True" else "False"
  | number _ shown => shown
  | text value => value
  | composite shown => shown

/-- `bool(value)`. -/
def truthy : Value → Bool
  | null => false
  | boolean value => value
  | number value _ => value ≠ 0
  | text value => value ≠ ""
  | composite shown => shown ≠ "[]" && shown ≠ "\x7b\x7d"

end Value

/-- A physical row or a payload: values by column. -/
abbrev Row := Dict String Value

/-- `row.get(column)`. -/
def Row.value (row : Row) (column : String) : Value := Dict.getD row column .null

/-- Source rows by contract id. -/
abbrev Sources := Dict String (List Row)

/-- The replanning triggers the stream supports. -/
inductive EventType where
  | taskStarted
  | taskProgress
  | taskCompleted
  | orderCreated
  | orderCancelled
  | assetUnavailable
  | forecastUpdated
  | observationRecorded
  | entityCorrected
  | inventoryAdjusted
deriving DecidableEq, Repr

structure ExecutionEvent where
  eventId : String
  eventType : EventType
  observedAt : String := ""
  entityRef : String := ""
  payload : Row := .empty
  ingestedAt : String := ""
deriving DecidableEq

/-- A parsed time; times with and without an offset cannot be compared. -/
structure Timestamp where
  instant : ℚ
  aware : Bool
deriving DecidableEq, Repr

/-- Why applying an event can fail. -/
inductive Raised where
  | valueError
  | typeError
deriving DecidableEq, Repr

/-- A polygon ring. -/
abbrev Ring := List (ℚ × ℚ)

/-- Number, time and geometry operations supplied from outside the stream layer. -/
structure Primitives where
  parseFloat : String → Option ℚ
  showFloat : ℚ → String
  parseTime : String → Option Timestamp
  parsePolygon : Value → Except Raised Ring
  pathLatLon : Value → Ring
  sweptPolygon : Ring → ℚ → Ring
  ringsAreaKm2 : List Ring → ℚ

namespace Primitives

variable (primitives : Primitives)

/-- `float(value)`, absent where it cannot be read as a number. -/
def toFloat : Value → Option ℚ
  | .null => none
  | .boolean value => some (if value then 1 else 0)
  | .number value _ => some value
  | .text value => primitives.parseFloat value
  | .composite _ => none

/-- A computed number as a value. -/
def ofFloat (x : ℚ) : Value := .number x (primitives.showFloat x)

end Primitives

end FlOp.Stream
