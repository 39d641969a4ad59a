import FlOp.Core.Numbers
import FlOp.Stream.Source

/-! # Per-pass coverage geometry

A progress report may carry the ground covered in one pass, as a polygon or as a path swept by
an implement. The covered share of a task is the area of the union of its passes.
-/

namespace FlOp.Stream

open FlOp.Core Library

def payloadCoveredPolygon : String := "covered_polygon"

def payloadCoveredPath : String := "covered_path"

def payloadSwathWidthM : String := "swath_width_m"

def hectaresPerSquareKm : ℚ := 100

/-- The payload carries per-pass coverage geometry. -/
def hasCoveragePayload (payload : Row) : Bool :=
  (payload.value payloadCoveredPolygon).truthy || (payload.value payloadCoveredPath).truthy

section Geometry

variable (primitives : Primitives)

/-- The ring of one pass, if the payload has a usable one; an explicit polygon wins. -/
def passRingFromPayload (payload : Row) : Except Raised (Option Ring) :=
  let usable (ring : Ring) : Option Ring := if ring = [] then none else some ring
  let polygon := payload.value payloadCoveredPolygon
  let path := payload.value payloadCoveredPath
  if polygon.truthy then (primitives.parsePolygon polygon).map usable
  else if path.truthy then
    match primitives.toFloat (payload.value payloadSwathWidthM) with
    | none => .ok none
    | some widthM =>
      let latLon := primitives.pathLatLon path
      .ok (if latLon = [] then none else usable (primitives.sweptPolygon latLon widthM))
  else .ok none

/-- Area in hectares of a work-area polygon, zero when it is unusable. -/
def workAreaAreaHa (workAreaGeometry : Value) : Except Raised ℚ :=
  (primitives.parsePolygon workAreaGeometry).map fun ring =>
    if ring.length < 3 then 0 else primitives.ringsAreaKm2 [ring] * hectaresPerSquareKm

structure CoverageState where
  coveredFraction : ℚ
  coveredAreaHa : ℚ
  remainingAreaHa : ℚ
deriving DecidableEq, Repr

/-- Overlap-corrected covered share of the original work area. -/
def coverageState (accumulatedRings : List Ring) (originalAreaHa : ℚ) : CoverageState :=
  let coveredHa := primitives.ringsAreaKm2 accumulatedRings * hectaresPerSquareKm
  let measurable := 0 < originalAreaHa
  { coveredFraction := roundTo 6 (if measurable then min 1 (coveredHa / originalAreaHa) else 0)
    coveredAreaHa := roundTo 4 coveredHa
    remainingAreaHa := roundTo 4 (if measurable then max 0 (originalAreaHa - coveredHa) else 0) }

end Geometry

end FlOp.Stream
