import Mathlib.Data.Rat.Defs
import Mathlib.Algebra.Order.Ring.Rat

/-! # Engine constants

Every constant below is read from the environment at start-up, so the model takes them as
settings whose default values are the source's own. A setting the engine cannot run with is
excluded by a field.
-/

namespace FlOp.Core

/-- A point in time as exact seconds since the epoch. -/
abbrev Instant := ℚ

/-- A whole-second epoch value, `int(instant.timestamp())`: the fraction is cut towards zero. -/
def Instant.truncated (t : Instant) : ℤ :=
  if 0 ≤ t then t.floor else t.ceil

/-- Rolling-dispatch constants. -/
structure RollingSettings where
  freezeWindowMinutes : ℤ := 60
  defaultChangePenalty : ℤ := 1000

/-- Airspace constants; an empty corridor range would leave no corridor to fall back to. -/
structure AirspaceSettings where
  corridorCount : ℕ := 4
  corridorCount_pos : 0 < corridorCount := by decide
  baseAltitudeM : ℚ := 60
  verticalSeparationM : ℚ := 30
  horizontalSeparationM : ℚ := 150
  timeBufferS : ℚ := 60

/-- The constants a rolling revision is built under. -/
structure Settings where
  rolling : RollingSettings := {}
  airspace : AirspaceSettings := {}

/-- How many seconds ahead routing looks. -/
def routingHorizonS : ℤ := 30 * 24 * 3600

/-- Version stamped into bundle identities. -/
def mappingVersion : String := "1.0.0"

end FlOp.Core
