import FlOp.Library.Dict
import FlOp.Solver.AllowedStarts
import FlOp.Solver.RoutingModel
import FlOp.Solver.Rows
import Mathlib.Algebra.Order.Floor.Semiring
import Mathlib.Data.Rat.Floor

/-! # The routing model of a fleet

What the routing model of a cluster posts for the tasks of any number of vehicles: the range and
the domain of each start, the occupancy of blocked time, the fit into workable windows, and the
order of chained tasks. Service takes as long as the implement of the serving vehicle needs.
-/

namespace FlOp.Solver

open FlOp.Core Library

/-- A task as the routing model reads it; its deadline is the declared text. -/
structure FleetOrder extends TaskRow where
  locationRef : String := ""
  deadline : String := ""
  timeWindows : RawWindows := .missing
  pickupLocationRef : String := ""
  serviceDurationMin : ℚ := 0
  area : ℚ := 0
  workQuantity : ℚ := 0
  workQuantityUnit : String := ""
deriving DecidableEq, Repr

/-- The implement of a routing vehicle: declared work rates by unit, width and speed. -/
structure Implement where
  workRates : Dict String ℚ := .empty
  workingWidth : ℚ := 0
  maxSpeed : ℚ := 0

/-! ## Service times -/

def opHoursMin : ℚ := 1 / 2

def opHoursMax : ℚ := 24

def opHoursFallback : ℚ := 1

/-- Canonical area unit; an empty work-quantity unit is its legacy alias. -/
def areaUnit : String := "ha"

/-- Declared work rate for a unit; 0 when absent. -/
def Implement.workRateFor (implement : Implement) (unit : String) : ℚ :=
  max 0 (implement.workRates.getD (if unit = "" then areaUnit else unit) 0)

/-- Whole seconds of an effort within its bounds. -/
def boundedSeconds (opHours : ℚ) : ℕ := ⌊max opHoursMin (min opHours opHoursMax) * 3600⌋₊

/-- Estimate service duration for one order and implement. -/
def estimateOperationSeconds (order : FleetOrder) (implement : Implement) : ℕ :=
  let explicitMinutes := max 0 order.serviceDurationMin
  let declared := max 0 order.workQuantity
  let quantity := if declared ≤ 0 then max 0 order.area else declared
  let unit := if declared ≤ 0 then "" else
    String.ofList (strip order.workQuantityUnit.toList)
  let rate := implement.workRateFor unit
  let workingWidth := max 0 implement.workingWidth
  let opSpeed := max 0 implement.maxSpeed
  if 0 < explicitMinutes then ⌊explicitMinutes * 60⌋₊
  else if 0 < quantity ∧ 0 < rate then boundedSeconds (quantity / rate)
  else if unit ≠ "" ∧ unit ≠ areaUnit then ⌊opHoursFallback * 3600⌋₊
  else if 0 < workingWidth ∧ 0 < opSpeed then
    boundedSeconds (quantity / (workingWidth / 1000 * opSpeed * 10))
  else ⌊opHoursFallback * 3600⌋₊

/-- A prepared cluster: its orders, the implements of its vehicles, the restriction windows of each
known site and the weather to keep out of for each task. -/
structure FleetCluster where
  orders : List FleetOrder
  implements : List Implement
  fieldMap : Dict String RawWindows := .empty
  weatherBlocked : Dict String (List Interval) := .empty
  nReloadNodes : ℕ := 0
  depotReloadServiceS : ℕ := 900
  nowEpoch : ℤ

/-- What the search decides: the time at each node and the vehicle that serves it. A dropped node
has no vehicle. -/
structure FleetAssignment where
  cumul : ℕ → ℤ
  vehicle : ℕ → Option ℕ

/-- The node is served. -/
def FleetAssignment.Active (assignment : FleetAssignment) (node : ℕ) : Prop :=
  (assignment.vehicle node).isSome

instance (assignment : FleetAssignment) (node : ℕ) : Decidable (assignment.Active node) :=
  inferInstanceAs (Decidable (_ = true))

namespace FleetCluster

variable (cluster : FleetCluster)

def nodes : List RoutingNode :=
  buildNodeTable (cluster.orders.map (·.pickupLocationRef)) cluster.nReloadNodes

/-- The node is the task node of an order. -/
def IsTask (node order : ℕ) (row : FleetOrder) : Prop :=
  cluster.nodes[node]? = some (.task order) ∧ cluster.orders[order]? = some row

instance (node order : ℕ) (row : FleetOrder) : Decidable (cluster.IsTask node order row) :=
  inferInstanceAs (Decidable (_ ∧ _))

def nodeServiceS (implement : Implement) : RoutingNode → ℕ
  | .task order => (cluster.orders[order]?).elim 0 (estimateOperationSeconds · implement)
  | .reload _ => cluster.depotReloadServiceS
  | _ => 0

/-- Per-vehicle node service durations. -/
def vehicleServiceTimes : List (List ℕ) :=
  cluster.implements.map fun implement => cluster.nodes.map (cluster.nodeServiceS implement)

/-- The service durations of a node, vehicle by vehicle. -/
def serviceByVehicle (node : ℕ) : List ℕ :=
  cluster.vehicleServiceTimes.map (·.getD node 0)

/-- Service duration of the node on the serving vehicle; for a dropped node the first vehicle
stands in. -/
def vehicleServiceS (assignment : FleetAssignment) (node : ℕ) : ℕ :=
  (cluster.serviceByVehicle node).getD ((assignment.vehicle node).getD 0) 0

/-- The least service duration of the node over the vehicles. -/
def minServiceS (node : ℕ) : ℕ := (cluster.serviceByVehicle node).min?.getD 0

/-! ## Posted constraints -/

section Posted

variable (reader : WindowReader)

/-- Seconds to the deadline, the horizon if it cannot be read. -/
def deadlineFromNowS (order : FleetOrder) : ℤ :=
  match reader.fromIsoformat order.deadline with
  | some deadline => max 0 (deadline.truncated - cluster.nowEpoch)
  | none => routingHorizonS

/-- The last second for which intervals are read. -/
def clampEnd (order : FleetOrder) : ℤ := cluster.nowEpoch + cluster.deadlineFromNowS reader order

/-- Merged offsets that execution must stay out of, up to the deadline. -/
def blockedOccupancyOffsets (order : FleetOrder) : List Interval :=
  let site := (cluster.fieldMap.get? order.locationRef).elim [] fun raw =>
    reader.windowIntervals raw cluster.nowEpoch (cluster.clampEnd reader order)
  let weather := ((cluster.weatherBlocked.getD order.taskId []).map fun window =>
    (max window.1 cluster.nowEpoch, min window.2 (cluster.clampEnd reader order))).filter
      fun interval => interval.1 ≤ interval.2
  (mergeIntervals (site ++ weather)).map fun interval =>
    (interval.1 - cluster.nowEpoch, interval.2 - cluster.nowEpoch)

/-- The workable windows as offsets up to the deadline. -/
def windowOffsets (order : FleetOrder) : List Interval :=
  (reader.windowIntervals order.timeWindows cluster.nowEpoch (cluster.clampEnd reader order)).map
    fun interval => (interval.1 - cluster.nowEpoch, interval.2 - cluster.nowEpoch)

def HasWindows (order : FleetOrder) : Prop := reader.parseTimeWindows order.timeWindows ≠ []

instance (order : FleetOrder) : Decidable (HasWindows reader order) :=
  inferInstanceAs (Decidable (_ ≠ _))

/-- The offsets at which execution may start. -/
def startOffsets (order : FleetOrder) : List Interval :=
  let base := if HasWindows reader order then cluster.windowOffsets reader order
    else [(0, cluster.deadlineFromNowS reader order)]
  subtractIntervals base (cluster.blockedOccupancyOffsets reader order)

variable (assignment : FleetAssignment) (node : ℕ) (order : FleetOrder)

/-- When nothing admissible survives, the node is forced inactive. -/
def RestrictsStart : Prop :=
  HasWindows reader order ∨ cluster.blockedOccupancyOffsets reader order ≠ [] →
    if cluster.startOffsets reader order = [] then ¬ assignment.Active node
    else InIntervals (cluster.startOffsets reader order) (assignment.cumul node)

/-- Execution ends by the start of each blocked interval or begins after its end. An interval that
is blocked already at the origin is left to the domain of the start. -/
def OccupiesFreeTime : Prop :=
  cluster.vehicleServiceTimes ≠ [] → ∀ block ∈ cluster.blockedOccupancyOffsets reader order,
    0 < block.1 →
      assignment.cumul node + cluster.vehicleServiceS assignment node ≤ block.1 ∨
        block.2 + 1 ≤ assignment.cumul node ∨ ¬ assignment.Active node

/-- Both start and finish land inside one workable window. -/
def FinishesWithinWindow : Prop :=
  cluster.vehicleServiceTimes ≠ [] → HasWindows reader order →
    cluster.windowOffsets reader order ≠ [] →
      (∃ window ∈ cluster.windowOffsets reader order, window.1 ≤ assignment.cumul node ∧
        assignment.cumul node + cluster.vehicleServiceS assignment node ≤ window.2) ∨
      ¬ assignment.Active node

/-- The constraints posted for a task node, and the range of its vehicle. -/
structure TaskNodePosted : Prop where
  inFleet : ∀ vehicle ∈ assignment.vehicle node, vehicle < cluster.implements.length
  startRange : 0 ≤ assignment.cumul node ∧
    assignment.cumul node ≤ cluster.deadlineFromNowS reader order
  restrictsStart : cluster.RestrictsStart reader assignment node order
  occupiesFreeTime : cluster.OccupiesFreeTime reader assignment node order
  finishesWithinWindow : cluster.FinishesWithinWindow reader assignment node order

end Posted

/-- The position of a task's order; of two orders with its id the last one counts. -/
def indexOf : Dict String ℕ := Dict.collect (·.1.taskId) (·.2) cluster.orders.zipIdx

/-- The order names another order of the cluster as its predecessor. -/
def Follows (order predecessor : ℕ) : Prop :=
  ∃ row ∈ cluster.orders[order]?, row.dependsOnTaskRef ≠ "" ∧
    cluster.indexOf.get? row.dependsOnTaskRef = some predecessor ∧ predecessor ≠ order

instance (order predecessor : ℕ) : Decidable (cluster.Follows order predecessor) :=
  inferInstanceAs (Decidable (∃ row ∈ cluster.orders[order]?, _))

/-- Large enough to disable the time ordering of a dropped dependent. -/
def bigM : ℤ := 2 * routingHorizonS

/-- A dependent is served only when its predecessor is, and starts after the fastest vehicle could
have finished it. -/
structure PrecedencePosted (assignment : FleetAssignment) (succ pred : ℕ) : Prop where
  activeTogether : assignment.Active succ → assignment.Active pred
  startsAfter : assignment.cumul pred + cluster.minServiceS pred ≤
    assignment.cumul succ + if assignment.Active succ then 0 else bigM

/-- The precedence constraints of all chained tasks. -/
def AllPrecedencePosted (assignment : FleetAssignment) : Prop :=
  ∀ order predecessor, cluster.Follows order predecessor → ∀ succ pred,
    cluster.nodes[succ]? = some (.task order) → cluster.nodes[pred]? = some (.task predecessor) →
      cluster.PrecedencePosted assignment succ pred

end FleetCluster

end FlOp.Solver
