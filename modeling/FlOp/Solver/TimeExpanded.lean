import FlOp.Library.Dict
import FlOp.Solver.LoadDimension
import FlOp.Solver.Restrictions
import FlOp.Solver.Rows
import FlOp.Solver.TimedRestrictions
import Mathlib.Data.List.GetD
import Mathlib.Data.List.Pairwise

/-! # Time-expanded routing

A cluster with one vehicle may be routed over copies of its tasks, one for each segment of the
horizon between edges of restriction windows. The model with the copies posts fewer constraints
than the default one, and its arcs are priced in the segment in which the service begins.
-/

namespace FlOp.Solver

open FlOp.Core Library

/-- A task as routing reads it. Its deadline is an epoch second, if it can be read, and its
windows are the declared text. -/
structure RoutedOrder extends TaskRow where
  locationRef : String := ""
  deadline : Option ℤ := none
  loadDemand : ℚ := 0
  pickupLocationRef : String := ""
  timeWindows : String := ""
deriving DecidableEq, Repr

/-- A location with the windows in which work there is restricted. -/
structure LocationRow where
  locationId : String
  restrictionWindows : List (ℤ × Option ℤ) := []
deriving DecidableEq, Repr

/-- A prepared cluster. The restrictions and the durations are those of its first vehicle; the
geometry of routes between nodes is given. -/
structure RoutedCluster (Polygon : Type) where
  orders : List RoutedOrder
  nVehicles : ℕ := 1
  fieldMap : Dict String LocationRow := .empty
  pickupLocationMap : Dict String LocationRow := .empty
  weatherBlocked : Dict String (List Interval) := .empty
  taskOperators : Dict String String := .empty
  operatorRef : String := ""
  restrictions : List (RouteRestriction Polygon)
  arcRoute : ℕ → ℕ → List Polygon → ArcRoute
  operationSeconds : ℕ → ℕ
  nowEpoch : ℤ

/-- A route of the only vehicle: when it leaves the depot, its stops, and when it is back. -/
structure RoutePlan where
  departed : ℕ := 0
  stops : List Visit
  returned : ℕ
deriving DecidableEq, Repr

def RoutePlan.route (plan : RoutePlan) : List Visit :=
  ⟨0, plan.departed⟩ :: (plan.stops ++ [⟨0, plan.returned⟩])

/-- The steps of a plan from each visit to the next. -/
def RoutePlan.steps (plan : RoutePlan) : List (Visit × Visit) := plan.route.zip plan.route.tail

namespace RoutedCluster

variable {Polygon : Type} (cluster : RoutedCluster Polygon)

def nodes : List RoutingNode := buildNodeTable (cluster.orders.map (·.pickupLocationRef)) 0

/-- The order whose task a node is. -/
def taskAt (node : ℕ) : Option ℕ :=
  match cluster.nodes[node]? with
  | some (.task order) => some order
  | _ => none

/-- Time on task at a node. -/
def serviceS (node : ℕ) : ℕ := (cluster.taskAt node).elim 0 cluster.operationSeconds

/-- Time between two nodes around some polygons. -/
def travelS (origin target : ℕ) (polygons : List Polygon) : ℕ :=
  if origin = target then 0 else (cluster.arcRoute origin target polygons).seconds

/-- Seconds to the deadline, the horizon if there is none. -/
def deadlineFromNowS (order : RoutedOrder) : ℤ :=
  match order.deadline with
  | some epoch => max 0 (epoch - cluster.nowEpoch)
  | none => routingHorizonS

/-- Seconds to the deadline within the horizon. -/
def deadlineOffset (order : RoutedOrder) : ℤ :=
  match order.deadline with
  | some epoch => max 0 (min routingHorizonS (epoch - cluster.nowEpoch))
  | none => routingHorizonS

theorem deadlineOffset_le (order : RoutedOrder) :
    cluster.deadlineOffset order ≤ cluster.deadlineFromNowS order := by
  unfold deadlineOffset deadlineFromNowS
  cases order.deadline with
  | none => exact le_rfl
  | some epoch => exact max_le_max le_rfl (min_le_right _ _)

/-! ## The default model

Its constraints on a cluster of one vehicle without loads, pickups, held windows and workable
windows. -/

/-- Where execution may not be: restriction windows of the site and weather the task cannot be
done in, as offsets up to the deadline. -/
def blockedOccupancyOffsets (order : RoutedOrder) : List Interval :=
  let clampEnd := cluster.nowEpoch + cluster.deadlineFromNowS order
  let site := (cluster.fieldMap.get? order.locationRef).elim [] fun site =>
    epochIntervals site.restrictionWindows cluster.nowEpoch clampEnd
  let weather := ((cluster.weatherBlocked.getD order.taskId []).map fun window =>
    (max window.1 cluster.nowEpoch, min window.2 clampEnd)).filter fun interval =>
      interval.1 ≤ interval.2
  (mergeIntervals (site ++ weather)).map fun interval =>
    (interval.1 - cluster.nowEpoch, interval.2 - cluster.nowEpoch)

/-- The domain of a start is cut to what is not blocked. -/
def StartAdmitted (order : RoutedOrder) (start : ℕ) : Prop :=
  cluster.blockedOccupancyOffsets order = [] ∨
    InIntervals (subtractIntervals [(0, cluster.deadlineFromNowS order)]
      (cluster.blockedOccupancyOffsets order)) start

/-- Execution ends by the start of each blocked interval or begins after its end. An interval
that is blocked already at the origin is left to the domain of the start. -/
def OccupancyAdmitted (order : RoutedOrder) (serviceS start : ℕ) : Prop :=
  ∀ block ∈ cluster.blockedOccupancyOffsets order, 0 < block.1 →
    (start : ℤ) + serviceS ≤ block.1 ∨ block.2 + 1 ≤ start

/-- The operator resolved for a task; the empty name stands for none. -/
def operatorOf (order : RoutedOrder) : String :=
  let named := cluster.taskOperators.getD order.taskId ""
  if named = "" then cluster.operatorRef else named

/-- The position of a task's order. -/
def indexOf : Dict String ℕ := Dict.collect (·.1.taskId) (·.2) cluster.orders.zipIdx

section Families

variable (plan : RoutePlan)

/-- The plan serves an order, from a time on. -/
def Serves (order start : ℕ) : Prop :=
  ∃ stop ∈ plan.stops, cluster.taskAt stop.node = some order ∧ stop.cumul = start

/-- Each stop is at a task, and no task has two. -/
def VisitsTasksOnce : Prop :=
  (∀ stop ∈ plan.stops, (cluster.taskAt stop.node).isSome) ∧ (plan.stops.map (·.node)).Nodup

def DeadlinesHold : Prop :=
  ∀ (order : ℕ) (row : RoutedOrder) (start : ℕ), cluster.orders[order]? = some row →
    cluster.Serves plan order start → (start : ℤ) ≤ cluster.deadlineFromNowS row

def StartsOutsideBlocked : Prop :=
  ∀ (order : ℕ) (row : RoutedOrder) (start : ℕ), cluster.orders[order]? = some row →
    cluster.Serves plan order start → cluster.StartAdmitted row start

def ExecutionOutsideBlocked : Prop :=
  ∀ (order : ℕ) (row : RoutedOrder) (start : ℕ), cluster.orders[order]? = some row →
    cluster.Serves plan order start →
      cluster.OccupancyAdmitted row (cluster.operationSeconds order) start

/-- A dependent is served only when its predecessor is, and after it. -/
def PrecedenceHolds : Prop :=
  ∀ (order : ℕ) (row : RoutedOrder) (predecessor : ℕ), cluster.orders[order]? = some row →
    row.dependsOnTaskRef ≠ "" → cluster.indexOf.get? row.dependsOnTaskRef = some predecessor →
    predecessor ≠ order → ∀ start, cluster.Serves plan order start →
      ∃ earlier, cluster.Serves plan predecessor earlier ∧
        earlier + cluster.operationSeconds predecessor ≤ start

/-- At most one member of a group is served. -/
def AlternativesExclusive : Prop :=
  ∀ (order other : ℕ) (row otherRow : RoutedOrder) (start otherStart : ℕ),
    cluster.orders[order]? = some row → cluster.orders[other]? = some otherRow →
    row.alternativeGroupRef ≠ "" → row.alternativeGroupRef = otherRow.alternativeGroupRef →
    cluster.Serves plan order start → cluster.Serves plan other otherStart → order = other

/-- Two tasks of one operator do not overlap. -/
def OperatorsSerialized : Prop :=
  ∀ (order other : ℕ) (row otherRow : RoutedOrder) (start otherStart : ℕ),
    cluster.orders[order]? = some row → cluster.orders[other]? = some otherRow → order ≠ other →
    cluster.operatorOf row ≠ "" → cluster.operatorOf row = cluster.operatorOf otherRow →
    cluster.Serves plan order start → cluster.Serves plan other otherStart →
      start + cluster.operationSeconds order ≤ otherStart ∨
        otherStart + cluster.operationSeconds other ≤ start

/-- The step takes the service and the travel around the polygons active while it is traversed. -/
def StepLongEnough (step : Visit × Visit) : Prop :=
  step.1.cumul + cluster.serviceS step.1.node + cluster.travelS step.1.node step.2.node
    (activePolygons cluster.restrictions
      (cluster.nowEpoch + step.1.cumul + cluster.serviceS step.1.node)
      (cluster.nowEpoch + step.2.cumul)) ≤ step.2.cumul

/-- The constraints of the default model. -/
structure DefaultAdmits : Prop where
  visitsTasksOnce : cluster.VisitsTasksOnce plan
  withinHorizon : ∀ visit ∈ plan.route, (visit.cumul : ℤ) ≤ routingHorizonS
  deadlinesHold : cluster.DeadlinesHold plan
  startsOutsideBlocked : cluster.StartsOutsideBlocked plan
  executionOutsideBlocked : cluster.ExecutionOutsideBlocked plan
  precedenceHolds : cluster.PrecedenceHolds plan
  alternativesExclusive : cluster.AlternativesExclusive plan
  operatorsSerialized : cluster.OperatorsSerialized plan
  stepsLongEnough : ∀ step ∈ plan.steps, cluster.StepLongEnough step

end Families

end RoutedCluster

/-! ## The expanded model -/

structure TimeExpandedSettings where
  routeTimeExpandedEnabled : Bool := false
  routeTimeExpandedMaxOrders : ℕ := 30
  routeTimeExpandedMaxSegments : ℕ := 8

/-- A copy of a routing node in a segment, and the bounds of its time; the depot has none. -/
structure ExpandedNode where
  base : ℕ
  segment : ℕ
  bounds : Option (ℤ × ℤ)
deriving DecidableEq, Repr

/-- The depot stays one node, in the first segment. -/
def ExpandedNode.depot : ExpandedNode := ⟨0, 0, none⟩

namespace RoutedCluster

variable {Polygon : Type} (cluster : RoutedCluster Polygon)

/-- The syntactic test for what the expanded model handles. -/
def subsetSupported (settings : TimeExpandedSettings) (heldWindows : Dict String (List Interval)) :
    Bool :=
  cluster.nVehicles = 1 ∧ cluster.orders ≠ [] ∧
    cluster.orders.length ≤ settings.routeTimeExpandedMaxOrders ∧ heldWindows.entries = [] ∧
    cluster.pickupLocationMap.entries = [] ∧
    ∀ order ∈ cluster.orders,
      ¬ 0 < loadKg order.loadDemand ∧ order.pickupLocationRef = "" ∧ order.timeWindows = ""

def segments : List (RestrictionSegment Polygon) :=
  horizonRestrictionSegments cluster.restrictions cluster.nowEpoch

/-- One copy for each segment that begins by the deadline. -/
def copiesOf (base : ℕ) (order : RoutedOrder) : List ExpandedNode :=
  cluster.segments.zipIdx.filterMap fun segment =>
    let lo := segment.1.startOffsetS
    let hi := min (segment.1.endOffsetS - 1) (cluster.deadlineOffset order)
    if hi < lo then none else some ⟨base, segment.2, some (lo, hi)⟩

/-- The copies of each task. -/
def taskCopies : List (List ExpandedNode) :=
  cluster.nodes.zipIdx.filterMap fun node =>
    match node.1 with
    | .task order => cluster.orders[order]?.map (cluster.copiesOf node.2)
    | _ => none

/-- The depot and the copies of all tasks, unless a task has none. -/
def expandNodes : Option (List ExpandedNode) :=
  if cluster.taskCopies.any (·.isEmpty) then none else some (.depot :: cluster.taskCopies.flatten)

/-- The expanded model of a cluster the path takes. -/
def maybeSolveTimeExpanded (settings : TimeExpandedSettings)
    (heldWindows : Dict String (List Interval)) : Option (List ExpandedNode) :=
  if ¬ settings.routeTimeExpandedEnabled then none
  else if ¬ cluster.subsetSupported settings heldWindows then none
  else if cluster.segments.length < 2 ∨
      settings.routeTimeExpandedMaxSegments < cluster.segments.length then none
  else cluster.expandNodes

/-- Travel between copies, priced by the polygons of the segment of the first one. -/
def expandedMatrix (origin target : ExpandedNode) : ℕ :=
  (cluster.segments[origin.segment]?).elim 0 fun segment =>
    cluster.travelS origin.base target.base segment.polygons

end RoutedCluster

/-- The copy that a node of an expanded plan is. -/
def copyAt (copies : List ExpandedNode) (node : ℕ) : ExpandedNode := copies.getD node .depot

/-- A plan over copies as a plan over nodes. -/
def RoutePlan.collapse (copies : List ExpandedNode) (plan : RoutePlan) : RoutePlan :=
  { plan with stops := plan.stops.map fun stop => ⟨(copyAt copies stop.node).base, stop.cumul⟩ }

/-- The constraints of the expanded model: the route leaves at once, each copy is visited inside
its bounds, and at most one copy of a task. -/
structure ExpandedAdmits {Polygon : Type} (cluster : RoutedCluster Polygon)
    (copies : List ExpandedNode) (plan : RoutePlan) : Prop where
  departsAtOnce : plan.departed = 0
  visitsCopies : ∀ stop ∈ plan.stops, stop.node ≠ 0 ∧ stop.node < copies.length
  visitsOnce : (plan.stops.map (·.node)).Nodup
  withinHorizon : ∀ visit ∈ plan.route, (visit.cumul : ℤ) ≤ routingHorizonS
  withinBounds : ∀ stop ∈ plan.stops, ∀ bounds ∈ (copyAt copies stop.node).bounds,
    bounds.1 ≤ stop.cumul ∧ (stop.cumul : ℤ) ≤ bounds.2
  oneCopy : ∀ stop ∈ plan.stops, ∀ other ∈ plan.stops,
    (copyAt copies stop.node).base = (copyAt copies other.node).base → stop.node = other.node
  transits : ∀ step ∈ plan.steps,
    step.1.cumul + (cluster.expandedMatrix (copyAt copies step.1.node) (copyAt copies step.2.node) +
      cluster.serviceS (copyAt copies step.1.node).base) ≤ step.2.cumul

/-- The step arrives after the segment in which it is priced. -/
def ArrivesLate {Polygon : Type} (cluster : RoutedCluster Polygon) (copies : List ExpandedNode)
    (step : Visit × Visit) : Prop :=
  ∃ segment ∈ cluster.segments[(copyAt copies step.1.node).segment]?,
    segment.endOffsetS ≤ step.2.cumul

/-- What neither the test excludes nor the copies imply: blocked time, precedence, alternatives,
and travel that outlasts the segment in which it is priced. -/
structure ResidualHolds {Polygon : Type} (cluster : RoutedCluster Polygon)
    (copies : List ExpandedNode) (plan : RoutePlan) : Prop where
  startsOutsideBlocked : cluster.StartsOutsideBlocked (plan.collapse copies)
  executionOutsideBlocked : cluster.ExecutionOutsideBlocked (plan.collapse copies)
  precedenceHolds : cluster.PrecedenceHolds (plan.collapse copies)
  alternativesExclusive : cluster.AlternativesExclusive (plan.collapse copies)
  lateStepsLongEnough : ∀ step ∈ plan.steps, ArrivesLate cluster copies step →
    cluster.StepLongEnough (⟨(copyAt copies step.1.node).base, step.1.cumul⟩,
      ⟨(copyAt copies step.2.node).base, step.2.cumul⟩)

section Expansion

variable {Polygon : Type} {settings : TimeExpandedSettings} {cluster : RoutedCluster Polygon}
  {heldWindows : Dict String (List Interval)} {copies : List ExpandedNode} {plan : RoutePlan}

theorem expanded_of_accepted
    (accepted : cluster.maybeSolveTimeExpanded settings heldWindows = some copies) :
    copies = .depot :: cluster.taskCopies.flatten := by
  unfold RoutedCluster.maybeSolveTimeExpanded at accepted
  split_ifs at accepted
  unfold RoutedCluster.expandNodes at accepted
  split_ifs at accepted
  exact (Option.some.inj accepted).symm

theorem length_segments_of_accepted
    (accepted : cluster.maybeSolveTimeExpanded settings heldWindows = some copies) :
    2 ≤ cluster.segments.length := by
  unfold RoutedCluster.maybeSolveTimeExpanded at accepted
  split_ifs at accepted with _ _ few
  omega

/-- Each copy is of a task, in a segment, and bounded by the segment and the deadline. -/
theorem taskCopy_spec {copy : ExpandedNode} (member : copy ∈ cluster.taskCopies.flatten) :
    ∃ order row segment, cluster.taskAt copy.base = some order ∧
      cluster.orders[order]? = some row ∧ cluster.segments[copy.segment]? = some segment ∧
      copy.bounds = some (segment.startOffsetS,
        min (segment.endOffsetS - 1) (cluster.deadlineOffset row)) := by
  obtain ⟨group, listed, inside⟩ := List.mem_flatten.mp member
  obtain ⟨⟨node, base⟩, indexed, produced⟩ := List.mem_filterMap.mp listed
  have atBase : cluster.nodes[base]? = some node := List.mem_zipIdx_iff_getElem?.mp indexed
  dsimp only at produced
  split at produced
  · next order =>
    obtain ⟨row, found, rfl⟩ := Option.map_eq_some_iff.mp produced
    obtain ⟨⟨segment, index⟩, placed, copied⟩ := List.mem_filterMap.mp inside
    have atIndex : cluster.segments[index]? = some segment :=
      List.mem_zipIdx_iff_getElem?.mp placed
    dsimp only at copied
    split_ifs at copied
    cases copied
    refine ⟨order, row, segment, ?_, found, atIndex, rfl⟩
    rw [RoutedCluster.taskAt, atBase]
  · cases produced

/-- A stop of an expanded plan is at a copy of a task. -/
theorem stopCopy_spec
    (accepted : cluster.maybeSolveTimeExpanded settings heldWindows = some copies)
    (admitted : ExpandedAdmits cluster copies plan) {stop : Visit} (member : stop ∈ plan.stops) :
    ∃ order row segment, cluster.taskAt (copyAt copies stop.node).base = some order ∧
      cluster.orders[order]? = some row ∧
      cluster.segments[(copyAt copies stop.node).segment]? = some segment ∧
      segment.startOffsetS ≤ stop.cumul ∧ (stop.cumul : ℤ) ≤ cluster.deadlineOffset row := by
  obtain ⟨notDepot, inside⟩ := admitted.visitsCopies stop member
  have bounded := admitted.withinBounds stop member
  have copyMember : copyAt copies stop.node ∈ cluster.taskCopies.flatten := by
    rw [expanded_of_accepted accepted] at inside ⊢
    cases index : stop.node with
    | zero => exact absurd index notDepot
    | succ before =>
      rw [index, List.length_cons] at inside
      have inTail : before < cluster.taskCopies.flatten.length := by omega
      rw [copyAt, List.getD_cons_succ, List.getD_eq_getElem _ _ inTail]
      exact List.getElem_mem inTail
  obtain ⟨order, row, segment, atBase, found, atIndex, bounds⟩ := taskCopy_spec copyMember
  obtain ⟨after, before⟩ := bounded _ bounds
  exact ⟨order, row, segment, atBase, found, atIndex, after, before.trans (min_le_right _ _)⟩

theorem copyAt_zero
    (accepted : cluster.maybeSolveTimeExpanded settings heldWindows = some copies) :
    copyAt copies 0 = .depot := by
  rw [expanded_of_accepted accepted]
  rfl

/-- The first segment begins at the origin. -/
theorem startOffset_of_first {segment : RestrictionSegment Polygon}
    (first : cluster.segments[0]? = some segment) : segment.startOffsetS ≤ 0 := by
  rw [RoutedCluster.segments, horizonRestrictionSegments, List.getElem?_map] at first
  obtain ⟨cut, leading, rfl⟩ := Option.map_eq_some_iff.mp first
  have increasing := pairwise_sorted
    (horizonCuts cluster.restrictions cluster.nowEpoch routingHorizonS)
  have zero : (0 : ℤ) ∈ sorted (horizonCuts cluster.restrictions cluster.nowEpoch routingHorizonS) :=
    mem_sorted.mpr (Finset.mem_insert_self _ _)
  revert leading increasing zero
  generalize sorted (horizonCuts cluster.restrictions cluster.nowEpoch routingHorizonS) = cuts
  intro leading increasing zero
  cases cuts with
  | nil => cases zero
  | cons start rest =>
    cases rest with
    | nil => cases leading
    | cons stop rest =>
      cases leading
      rcases List.mem_cons.mp zero with same | later
      · exact same.ge
      · exact le_of_lt ((List.pairwise_cons.mp increasing).1 0 later)

/-- The visits of the collapsed plan. -/
theorem route_collapse
    (accepted : cluster.maybeSolveTimeExpanded settings heldWindows = some copies) :
    (plan.collapse copies).route =
      plan.route.map fun visit => ⟨(copyAt copies visit.node).base, visit.cumul⟩ := by
  simp only [RoutePlan.route, RoutePlan.collapse, List.map_cons, List.map_append, List.map_nil,
    copyAt_zero accepted, ExpandedNode.depot]

/-- The steps of the collapsed plan. -/
theorem steps_collapse
    (accepted : cluster.maybeSolveTimeExpanded settings heldWindows = some copies) :
    (plan.collapse copies).steps = plan.steps.map fun step =>
      (⟨(copyAt copies step.1.node).base, step.1.cumul⟩,
        ⟨(copyAt copies step.2.node).base, step.2.cumul⟩) := by
  rw [RoutePlan.steps, route_collapse accepted, ← List.map_tail, List.zip_map]
  rfl

/-- Each visit is in the segment of its copy or later. -/
theorem segment_of_visit
    (accepted : cluster.maybeSolveTimeExpanded settings heldWindows = some copies)
    (admitted : ExpandedAdmits cluster copies plan) {visit : Visit}
    (member : visit ∈ plan.route) : ∃ segment,
      cluster.segments[(copyAt copies visit.node).segment]? = some segment ∧
        segment.startOffsetS ≤ visit.cumul := by
  have atDepot : visit.node = 0 → ∃ segment,
      cluster.segments[(copyAt copies visit.node).segment]? = some segment ∧
        segment.startOffsetS ≤ visit.cumul := by
    intro depot
    have first : 0 < cluster.segments.length := by
      have several := length_segments_of_accepted accepted
      omega
    refine ⟨cluster.segments[0], ?_, ?_⟩
    · rw [depot, copyAt_zero accepted]
      exact List.getElem?_eq_getElem first
    · exact (startOffset_of_first (List.getElem?_eq_getElem first)).trans (Int.natCast_nonneg _)
  rcases List.mem_cons.mp member with rfl | later
  · exact atDepot rfl
  · rcases List.mem_append.mp later with inside | last
    · obtain ⟨-, -, segment, -, -, found, after, -⟩ := stopCopy_spec accepted admitted inside
      exact ⟨segment, found, after⟩
    · obtain rfl := List.mem_singleton.mp last
      exact atDepot rfl

/-- A step that arrives in time takes the travel around the polygons then active. -/
theorem stepLongEnough_of_not_late
    (accepted : cluster.maybeSolveTimeExpanded settings heldWindows = some copies)
    (admitted : ExpandedAdmits cluster copies plan) {step : Visit × Visit}
    (member : step ∈ plan.steps) (inTime : ¬ ArrivesLate cluster copies step) :
    cluster.StepLongEnough (⟨(copyAt copies step.1.node).base, step.1.cumul⟩,
      ⟨(copyAt copies step.2.node).base, step.2.cumul⟩) := by
  have transit := admitted.transits step member
  obtain ⟨segment, found, after⟩ :=
    segment_of_visit accepted admitted (List.of_mem_zip member).1
  have before : (step.2.cumul : ℤ) < segment.endOffsetS := by
    by_contra late
    exact inTime ⟨segment, found, not_lt.mp late⟩
  rw [RoutedCluster.expandedMatrix, found, Option.elim_some] at transit
  have active : activePolygons cluster.restrictions
      (cluster.nowEpoch +
        (step.1.cumul + cluster.serviceS (copyAt copies step.1.node).base : ℤ))
      (cluster.nowEpoch + step.2.cumul) = segment.polygons :=
    activePolygons_of_segment (by decide) (List.mem_of_getElem? found) (by omega) (by omega) before
  unfold RoutedCluster.StepLongEnough
  dsimp only
  rw [add_assoc cluster.nowEpoch, active]
  omega

/-- Service and travel keep the visits of a plan apart. -/
theorem pairwise_route
    (accepted : cluster.maybeSolveTimeExpanded settings heldWindows = some copies)
    (admitted : ExpandedAdmits cluster copies plan) :
    (plan.collapse copies).route.Pairwise fun first second =>
      first.cumul + cluster.serviceS first.node ≤ second.cumul := by
  apply pairwise_of_neighbours
  · intro a b c before after
    omega
  · intro step member
    rw [← RoutePlan.steps, steps_collapse accepted] at member
    obtain ⟨copied, listed, rfl⟩ := List.mem_map.mp member
    have transit := admitted.transits copied listed
    dsimp only
    omega

theorem operatorsSerialized_of_expanded
    (accepted : cluster.maybeSolveTimeExpanded settings heldWindows = some copies)
    (admitted : ExpandedAdmits cluster copies plan) :
    cluster.OperatorsSerialized (plan.collapse copies) := by
  intro order other row otherRow start otherStart _ _ apart _ _ served otherServed
  obtain ⟨stop, member, atTask, rfl⟩ := served
  obtain ⟨otherStop, otherMember, atOther, rfl⟩ := otherServed
  have stops : (plan.collapse copies).stops.Pairwise fun first second =>
      first.cumul + cluster.serviceS first.node ≤ second.cumul ∨
        second.cumul + cluster.serviceS second.node ≤ first.cumul := by
    have routed := (List.pairwise_cons.mp (pairwise_route accepted admitted)).2
    exact (List.pairwise_append.mp routed).1.imp Or.inl
  have symmetric : Std.Symm fun first second : Visit =>
      first.cumul + cluster.serviceS first.node ≤ second.cumul ∨
        second.cumul + cluster.serviceS second.node ≤ first.cumul := ⟨fun _ _ => Or.symm⟩
  have different : stop ≠ otherStop := by
    rintro rfl
    rw [atTask] at atOther
    exact apart (Option.some.inj atOther)
  have serialized := stops.forall member otherMember different
  simpa only [RoutedCluster.serviceS, atTask, atOther, Option.elim_some] using serialized

/-- What the copies imply of the default model. -/
theorem implied_of_expanded
    (accepted : cluster.maybeSolveTimeExpanded settings heldWindows = some copies)
    (admitted : ExpandedAdmits cluster copies plan) :
    cluster.VisitsTasksOnce (plan.collapse copies) ∧
      cluster.DeadlinesHold (plan.collapse copies) := by
  refine ⟨⟨?_, ?_⟩, ?_⟩
  · intro stop member
    obtain ⟨copied, listed, rfl⟩ := List.mem_map.mp member
    obtain ⟨order, -, -, atTask, -⟩ := stopCopy_spec accepted admitted listed
    exact Option.isSome_iff_exists.mpr ⟨order, atTask⟩
  · have bases : (plan.collapse copies).stops.map (·.node) =
        (plan.stops.map (·.node)).map fun node => (copyAt copies node).base := by
      simp only [RoutePlan.collapse, List.map_map, Function.comp_def]
    rw [bases]
    apply admitted.visitsOnce.map_on
    intro node member otherNode otherMember same
    obtain ⟨stop, listed, rfl⟩ := List.mem_map.mp member
    obtain ⟨other, otherListed, rfl⟩ := List.mem_map.mp otherMember
    exact admitted.oneCopy stop listed other otherListed same
  · intro order row start found served
    obtain ⟨stop, member, atTask, rfl⟩ := served
    obtain ⟨copied, listed, rfl⟩ := List.mem_map.mp member
    obtain ⟨copyOrder, copyRow, -, atCopy, copyFound, -, -, before⟩ :=
      stopCopy_spec accepted admitted listed
    obtain rfl : copyOrder = order := Option.some.inj (atCopy.symm.trans atTask)
    obtain rfl : copyRow = row := Option.some.inj (copyFound.symm.trans found)
    exact before.trans (cluster.deadlineOffset_le copyRow)

end Expansion

section Dependent

/-- Harrowing after ploughing, near a zone that closes from the second thousand of seconds on. -/
def harrowCluster : RoutedCluster Unit where
  orders := [{ taskId := "plough" }, { taskId := "harrow", dependsOnTaskRef := "plough" }]
  restrictions := [{ polygon := (), windows := [(1000, 1999)] }]
  arcRoute _ _ _ := { seconds := 100 }
  operationSeconds _ := 600
  nowEpoch := 0

/-- Each task in the three segments that the zone leaves. -/
def harrowCopies : List ExpandedNode :=
  [.depot, ⟨1, 0, some (0, 999)⟩, ⟨1, 1, some (1000, 1999)⟩, ⟨1, 2, some (2000, 2591999)⟩,
    ⟨2, 0, some (0, 999)⟩, ⟨2, 1, some (1000, 1999)⟩, ⟨2, 2, some (2000, 2591999)⟩]

theorem harrowCluster_accepted :
    harrowCluster.maybeSolveTimeExpanded { routeTimeExpandedEnabled := true } .empty =
      some harrowCopies := by
  decide +kernel

/-- A round that harrows what is not ploughed. -/
def harrowPlan : RoutePlan where
  stops := [⟨4, 100⟩]
  returned := 800

theorem harrowPlan_admitted : ExpandedAdmits harrowCluster harrowCopies harrowPlan where
  departsAtOnce := rfl
  visitsCopies := by decide
  visitsOnce := by decide
  withinHorizon := by decide
  withinBounds := by decide
  oneCopy := by decide
  transits := by decide +kernel

end Dependent

end FlOp.Solver
