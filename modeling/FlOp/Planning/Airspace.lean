import FlOp.Canonical.Plan
import FlOp.Canonical.Snapshot
import FlOp.Core.Numbers
import FlOp.Library.Calendar
import FlOp.Library.ListSchedule
import FlOp.Library.Ordering
import Mathlib.Algebra.Order.Monoid.WithTop
import Mathlib.Algebra.Order.Ring.Rat
import Mathlib.Data.Finset.Card
import Mathlib.Data.Fintype.Basic
import Mathlib.Data.List.FinRange
import Mathlib.Data.List.MinMax
import Mathlib.Data.Prod.Lex
import Mathlib.Data.String.Basic

/-! # Aerial flights of a plan

A flight is reconstructed from canonical geometry: the serving asset's hub, the pickup and the
drop give its lateral path, the travel time over that path its airborne window. Distances are
parameters; a flight carries the fact that its slack is never negative.
-/

namespace FlOp.Planning

open Canonical FlOp.Core Library

def uavOperation : String := "UAV_DELIVERY"

def travelSpeedTerm : String := "urn:xopt:capability:travel-speed"

/-- Geodesic distances and number parsing, supplied from outside the planner. -/
structure Geometry where
  haversineKm : Point → Point → ℚ
  segmentMinDistanceM : Point × Point → Point × Point → ℚ
  parseNumber : String → Option ℚ

/-- One aerial flight: its lateral path and its airborne window before any hold. -/
structure Flight where
  taskId : String
  assetId : String
  path : List Point
  entryS : ℚ
  exitS : ℚ
  slackS : WithTop ℚ
  slackS_nonneg : 0 ≤ slackS

/-- Consecutive waypoints; a single point is a segment of length zero. -/
def pathSegments (path : List Point) : List (Point × Point) :=
  if path.length < 2 then (path.head?.map fun p => (p, p)).toList else path.zip path.tail

/-- The least distance between two paths, unbounded when one has no segment. -/
def lateralMinDistance (geometry : Geometry) (a b : List Point) : WithTop ℚ :=
  ((pathSegments a).flatMap fun s => (pathSegments b).map fun t =>
    ((geometry.segmentMinDistanceM s t : ℚ) : WithTop ℚ)).foldl min ⊤

/-- Two paths lack lateral separation. -/
def lateralNear (settings : AirspaceSettings) (geometry : Geometry) (a b : List Point) : Bool :=
  lateralMinDistance geometry a b < (settings.horizontalSeparationM : WithTop ℚ)

private theorem foldl_min_lt_iff (l : List (WithTop ℚ)) (least bound : WithTop ℚ) :
    l.foldl min least < bound ↔ least < bound ∨ ∃ x ∈ l, x < bound := by
  induction l generalizing least with
  | nil => simp
  | cons x rest ih =>
    rw [List.foldl_cons, ih, min_lt_iff, or_assoc]
    simp only [List.mem_cons, exists_eq_or_imp]

/-- Two paths lack lateral separation when two of their segments are too close. -/
theorem lateralNear_iff {settings : AirspaceSettings} {geometry : Geometry} {a b : List Point} :
    lateralNear settings geometry a b = true ↔
      ∃ s ∈ pathSegments a, ∃ t ∈ pathSegments b,
        geometry.segmentMinDistanceM s t < settings.horizontalSeparationM := by
  rw [lateralNear, decide_eq_true_iff, lateralMinDistance, foldl_min_lt_iff]
  simp only [not_top_lt, false_or, List.mem_flatMap, List.mem_map]
  constructor
  · rintro ⟨_, ⟨s, hs, t, ht, rfl⟩, close⟩
    exact ⟨s, hs, t, ht, WithTop.coe_lt_coe.mp close⟩
  · rintro ⟨s, hs, t, ht, close⟩
    exact ⟨_, ⟨s, hs, t, ht, rfl⟩, WithTop.coe_lt_coe.mpr close⟩

/-- Lateral separation is symmetric when the distance of segments is. -/
theorem lateralNear_comm {settings : AirspaceSettings} {geometry : Geometry}
    (symmetric : ∀ s t, geometry.segmentMinDistanceM s t = geometry.segmentMinDistanceM t s)
    (a b : List Point) : lateralNear settings geometry a b = lateralNear settings geometry b a := by
  rw [Bool.eq_iff_iff, lateralNear_iff, lateralNear_iff]
  constructor
  · rintro ⟨s, hs, t, ht, close⟩
    exact ⟨t, ht, s, hs, symmetric t s ▸ close⟩
  · rintro ⟨s, hs, t, ht, close⟩
    exact ⟨t, ht, s, hs, symmetric t s ▸ close⟩

def capabilityFloat (geometry : Geometry) (asset : Asset) (semanticTerm : String) : ℚ :=
  match asset.capabilityValue semanticTerm with
  | some (.number value) => value
  | some (.boolean value) => if value then 1 else 0
  | some (.text value) => (geometry.parseNumber value).getD 0
  | some .composite => 0
  | none => 0

/-- Drop a waypoint equal to the one before it. -/
def dedupeConsecutive (waypoints : List Point) : List Point :=
  waypoints.foldl (fun deduped p => if deduped.getLast? = some p then deduped else deduped ++ [p]) []

/-- The waypoints of a flight: origin, pickup and drop, as far as their locations are known. -/
def flightPath (snapshot : PlanningSnapshot) (task : Task) (assetId : String) : List Point :=
  let locationCoords := Dict.collect Location.locationId (fun l => (l.lat, l.lon)) snapshot.locations
  let assetCoords := Dict.collect Prod.fst Prod.snd <| snapshot.assets.filterMap fun asset =>
    asset.location.map fun point => (asset.assetId, point)
  let assetHome := Dict.collect Asset.assetId Asset.homeDepotRef snapshot.assets
  let lookup (ref : Option String) : Option Point :=
    ref.bind fun id => if id = "" then none else locationCoords.get? id
  let origin := (lookup ((assetHome.get? assetId).bind id)).or (assetCoords.get? assetId)
  dedupeConsecutive <|
    origin.toList ++ (lookup task.pickupLocationRef).toList ++
      (locationCoords.get? task.locationRef).toList

/-- Airborne transit seconds over a path at a speed in kilometres per hour. -/
def inboundTravelS (geometry : Geometry) (path : List Point) (speedKmh : ℚ) : ℚ :=
  if speedKmh ≤ 0 ∨ path.length < 2 then 0
  else ((path.zip path.tail).map fun leg => geometry.haversineKm leg.1 leg.2).sum / speedKmh * 3600

/-- Seconds a flight may be held before it misses its deadline; committed flights have none. -/
def deadlineSlackS (task : Task) (exitS : ℚ) (frozen : Bool) : WithTop ℚ :=
  if frozen then 0
  else match task.deadline with
    | none => ⊤
    | some deadline => ((max 0 (deadline - exitS) : ℚ) : WithTop ℚ)

theorem deadlineSlackS_nonneg (task : Task) (exitS : ℚ) (frozen : Bool) :
    0 ≤ deadlineSlackS task exitS frozen := by
  unfold deadlineSlackS
  split_ifs
  · exact le_rfl
  · cases task.deadline with
    | none => exact le_top
    | some deadline => exact WithTop.coe_nonneg.mpr (le_max_left _ _)

/-- The flight of one assignment, if its task is an aerial one with a known path. -/
def flightOf (geometry : Geometry) (snapshot : PlanningSnapshot) (a : Assignment) : Option Flight :=
  let assetSpeed := Dict.collect Asset.assetId
    (fun asset => capabilityFloat geometry asset travelSpeedTerm) snapshot.assets
  (snapshot.taskIndex.get? a.taskId).bind fun task =>
    let assetId := a.assetIds.headD ""
    let path := flightPath snapshot task assetId
    if task.operationType ≠ uavOperation ∨ path.length < 1 then none
    else some
      { taskId := a.taskId
        assetId := assetId
        path := path
        entryS := a.plannedStart - inboundTravelS geometry path (assetSpeed.getD assetId 0)
        exitS := a.plannedFinish
        slackS := deadlineSlackS task a.plannedFinish a.committed
        slackS_nonneg := deadlineSlackS_nonneg task a.plannedFinish a.committed }

/-- The aerial flights of a plan, in assignment order. -/
def aerialFlights (geometry : Geometry) (snapshot : PlanningSnapshot)
    (assignments : List Assignment) : List Flight :=
  assignments.filterMap (flightOf geometry snapshot)

end FlOp.Planning

/-! # Airspace deconfliction

Flights that come close in space and time are first spread over altitude corridors; those that
still share one are held until the corridor clears, as far as their deadlines allow. Lateral
separation is a parameter of the pass. Flights are named by their position in the plan.
-/

namespace FlOp.Planning

open Canonical FlOp.Core Library

/-- A pair of flights laterally close during overlapping planned windows. -/
def Conflicting (settings : AirspaceSettings) (near : List Point → List Point → Bool)
    (a b : Flight) : Prop :=
  Overlap settings.timeBufferS a.entryS a.exitS b.entryS b.exitS ∧ near a.path b.path

instance (settings : AirspaceSettings) (near : List Point → List Point → Bool) (a b : Flight) :
    Decidable (Conflicting settings near a b) :=
  inferInstanceAs (Decidable (_ ∧ _))

section Pass

variable (settings : AirspaceSettings) (near : List Point → List Point → Bool)
  (flights : List Flight)

/-- Positions of the flights of a plan. -/
abbrev Index := Fin flights.length

/-- Conflicting pairs at the planned, un-shifted windows. -/
def conflictPairs : List (Index flights × Index flights) :=
  (List.finRange flights.length).flatMap fun i =>
    ((List.finRange flights.length).filter fun j =>
      i < j ∧ Conflicting settings near (flights.get i) (flights.get j)).map fun j => (i, j)

variable {flights}

/-- The other flights of the pairs that name a flight. -/
def neighbors (pairs : List (Index flights × Index flights)) (i : Index flights) :
    Finset (Index flights) :=
  ((pairs.filter fun pair => pair.1 = i).map (·.2) ++
    (pairs.filter fun pair => pair.2 = i).map (·.1)).toFinset

/-- The corridor stored for each flight, in flight order; none is assigned yet at first. -/
abbrev Corridors := List (Option ℕ)

/-- The corridor of one flight. -/
def Corridors.at (corridors : Corridors) (i : Index flights) : Option ℕ := corridors[i.val]?.join

/-- How many neighbours already use a corridor. -/
def usedByNeighbor (corridors : Corridors) (nearby : Finset (Index flights)) (corridor : ℕ) : ℕ :=
  (nearby.filter fun k => corridors.at k = some corridor).card

/-- The lowest free corridor, else the least contended one. -/
def chooseCorridor (used : ℕ → ℕ) : ℕ :=
  match (List.range settings.corridorCount).find? fun c => used c = 0 with
  | some corridor => corridor
  | none => ((List.range settings.corridorCount).argmin used).getD 0

/-- Colouring order: most contended first, then by entry and task id. -/
def colouringKey (pairs : List (Index flights × Index flights)) (i : Index flights) :
    ℤ ×ₗ ℚ ×ₗ String :=
  toLex (-((neighbors pairs i).card : ℤ), toLex ((flights.get i).entryS, (flights.get i).taskId))

/-- Greedy degree-ordered corridor colouring with a bounded number of corridors. -/
def assignCorridors (pairs : List (Index flights × Index flights)) : Corridors :=
  (sortBy (colouringKey pairs) (List.finRange flights.length)).foldl
    (fun corridors i => corridors.set i.val <| some <|
      chooseCorridor settings (usedByNeighbor corridors (neighbors pairs i)))
    (List.replicate flights.length none)

/-- Placement order inside a corridor. Sorting is stable, so positions break ties. -/
def departureKey (i : Index flights) : ℚ ×ₗ String ×ₗ Index flights :=
  toLex ((flights.get i).entryS, toLex ((flights.get i).taskId, i))

/-- Conflicting pairs left in one corridor. -/
def sameCorridorPairs (pairs : List (Index flights × Index flights))
    (corridors : Corridors) : List (Index flights × Index flights) :=
  pairs.filter fun pair => corridors.at pair.1 = corridors.at pair.2

/-- Flights as jobs to be placed in time; rivals conflict within one corridor. -/
def corridorJobs (same : List (Index flights × Index flights)) : Jobs (Index flights) ℚ where
  entry i := (flights.get i).entryS
  exit i := (flights.get i).exitS
  slack i := (flights.get i).slackS
  slack_nonneg i := (flights.get i).slackS_nonneg
  buffer := settings.timeBufferS
  Rival i j := (i, j) ∈ same ∨ (j, i) ∈ same

instance (same : List (Index flights × Index flights)) :
    DecidableRel (corridorJobs settings same).Rival :=
  fun _ _ => inferInstanceAs (Decidable (_ ∨ _))

/-- The members of each corridor in placement order. -/
def corridorGroups (flights : List Flight) (corridors : Corridors) : List (List (Index flights)) :=
  let groups := Dict.groupBy (fun i : Index flights => corridors.at i) id
    (List.finRange flights.length)
  groups.values.map (sortBy departureKey)

/-- Hold same-corridor conflicting flights apart in time, bounded by slack. -/
def applyTemporalSeparation (pairs : List (Index flights × Index flights))
    (corridors : Corridors) : Index flights → ℚ :=
  let same := sameCorridorPairs pairs corridors
  if same = [] then fun _ => 0
  else (corridorJobs settings same).scheduleGroups (fun _ => 0) (corridorGroups flights corridors)

variable (flights)

def corridorsOf : Corridors := assignCorridors settings (conflictPairs settings near flights)

def corridorOf (i : Index flights) : Option ℕ := (corridorsOf settings near flights).at i

def delayOf : Index flights → ℚ :=
  applyTemporalSeparation settings (conflictPairs settings near flights)
    (corridorsOf settings near flights)

/-- The airborne windows of a pair still meet after the flights' delays. -/
def StillOverlaps (i j : Index flights) : Prop :=
  let delay := delayOf settings near flights
  Overlap settings.timeBufferS ((flights.get i).entryS + delay i) ((flights.get i).exitS + delay i)
    ((flights.get j).entryS + delay j) ((flights.get j).exitS + delay j)

instance (i j : Index flights) : Decidable (StillOverlaps settings near flights i j) :=
  inferInstanceAs (Decidable (Overlap ..))

/-- Conflicting pairs that share a corridor and still meet after the delays. -/
def residualPairs : List (Index flights × Index flights) :=
  (sameCorridorPairs (conflictPairs settings near flights) (corridorsOf settings near flights)).filter
    fun pair => StillOverlaps settings near flights pair.1 pair.2

/-- Delays of the held flights by task id; a repeated id keeps its last one. -/
def airspaceHolds : Dict String ℚ :=
  Dict.collect (fun i => (flights.get i).taskId) (delayOf settings near flights)
    ((List.finRange flights.length).filter fun i => 0 < delayOf settings near flights i)

/-- Peak number of simultaneously airborne flights; an end precedes a start at the same time. -/
def maxConcurrent (windows : List (ℚ × ℚ)) : ℤ :=
  let events : List (ℚ ×ₗ ℤ) := windows.flatMap fun w => [toLex (w.1, 1), toLex (w.2, -1)]
  ((sortBy id events).foldl (fun (state : ℤ × ℤ) event =>
    let current := state.1 + (ofLex event).2
    (current, max state.2 current)) (0, 0)).2

/-- The integer a flight stores for its corridor, `-1` before one is assigned. -/
def corridorNumber : Option ℕ → ℤ
  | some corridor => corridor
  | none => -1

def corridorAltitude (corridor : ℤ) : ℚ :=
  roundTo 1 (settings.baseAltitudeM + max 0 corridor * settings.verticalSeparationM)

/-- One flight's line of the report. -/
structure FlightReport where
  taskId : String
  assetId : String
  corridor : ℤ
  altitudeM : ℚ
  deconflictionDelayS : ℚ
deriving DecidableEq, Repr

structure AirspaceReport where
  nAerialFlights : ℕ
  corridorsAvailable : ℕ
  corridorsUsed : ℕ
  verticalSeparationM : ℚ
  horizontalSeparationM : ℚ
  nConflictPairs : ℕ
  nCorridorSeparatedPairs : ℕ
  nTimeSeparatedPairs : ℕ
  nDeconflictedPairs : ℕ
  nResidualConflictPairs : ℕ
  nFlightsHeld : ℕ
  totalDeconflictionDelayS : ℚ
  maxDeconflictionDelayS : ℚ
  maxConcurrentFlights : ℤ
  fullyDeconflicted : Bool
  holdsAppliedToDispatch : Bool
  corridorAltitudesM : List (ℤ × ℚ)
  flights : List FlightReport
deriving DecidableEq, Repr

/-- The report of a plan that has aerial flights. -/
def airspaceReport : AirspaceReport :=
  let pairs := conflictPairs settings near flights
  let corridor := fun i => corridorNumber (corridorOf settings near flights i)
  let delay := delayOf settings near flights
  let indices := List.finRange flights.length
  let residual := (residualPairs settings near flights).length
  let timeSeparated := ((sameCorridorPairs pairs (corridorsOf settings near flights)).filter
    fun pair => ¬ StillOverlaps settings near flights pair.1 pair.2).length
  let corridorSeparated := (pairs.filter fun pair =>
    corridorOf settings near flights pair.1 ≠ corridorOf settings near flights pair.2).length
  let used := sorted (indices.map corridor).toFinset
  { nAerialFlights := flights.length
    corridorsAvailable := settings.corridorCount
    corridorsUsed := used.length
    verticalSeparationM := settings.verticalSeparationM
    horizontalSeparationM := settings.horizontalSeparationM
    nConflictPairs := pairs.length
    nCorridorSeparatedPairs := corridorSeparated
    nTimeSeparatedPairs := timeSeparated
    nDeconflictedPairs := corridorSeparated + timeSeparated
    nResidualConflictPairs := residual
    nFlightsHeld := (indices.filter fun i => 0 < delay i).length
    totalDeconflictionDelayS := roundTo 1 (indices.map delay).sum
    maxDeconflictionDelayS := roundTo 1 ((indices.map delay).foldl max 0)
    maxConcurrentFlights := maxConcurrent <| indices.map fun i =>
      ((flights.get i).entryS + delay i, (flights.get i).exitS + delay i)
    fullyDeconflicted := residual = 0
    holdsAppliedToDispatch := true
    corridorAltitudesM := used.map fun c => (c, corridorAltitude settings c)
    flights := indices.map fun i =>
      { taskId := (flights.get i).taskId
        assetId := (flights.get i).assetId
        corridor := corridor i
        altitudeM := corridorAltitude settings (corridor i)
        deconflictionDelayS := roundTo 1 (delay i) } }

end Pass

/-- The report plus the dispatch holds to apply; without aerial flights there is neither. -/
structure AirspaceDeconfliction where
  report : Option AirspaceReport
  holds : Dict String ℚ := .empty

/-- Deconflict the plan's aerial flights in altitude and, where they still share one, in time. -/
def deconflictAirspace (settings : AirspaceSettings) (near : List Point → List Point → Bool)
    (geometry : Geometry) (snapshot : PlanningSnapshot) (assignments : List Assignment) :
    AirspaceDeconfliction :=
  let flights := aerialFlights geometry snapshot assignments
  if flights = [] then { report := none }
  else
    { report := some (airspaceReport settings near flights)
      holds := airspaceHolds settings near flights }

/-- Shift one held assignment; committed work stays where it is. -/
def holdAssignment (holds : Dict String ℚ) (a : Assignment) : Assignment :=
  let delay := holds.getD a.taskId 0
  if 0 < delay ∧ a.committed = false then
    { a with plannedStart := a.plannedStart + delay, plannedFinish := a.plannedFinish + delay }
  else a

/-- Re-time held flights by their deconfliction delay. -/
def applyAirspaceHolds (assignments : List Assignment) (holds : Dict String ℚ) : List Assignment :=
  if holds.entries = [] then assignments else assignments.map (holdAssignment holds)

end FlOp.Planning
