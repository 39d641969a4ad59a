import FlOp.Solver.ChainResources
import FlOp.Solver.FleetModel
import FlOp.Solver.HeldWindows
import Mathlib

/-! # Calendars in the routing model

An operator can back tasks on several vehicles of a cluster, and a vehicle, an implement or an
operator can be held by an assignment made before. The routing model keeps tasks of one operator
apart, and all tasks out of the held windows of their operator, vehicle and implement. A group of
clusters that share operators is solved in order: what a cluster commits its shared operators to is
held in the clusters after it.
-/

namespace FlOp.Solver

open Canonical FlOp.Core Library

/-! ## Posted constraints -/

def depotReloadServiceS : ℕ := 900

namespace SolveInputs

variable (inputs : SolveInputs) (cluster : ClusterSpec) (context : ClusterContext)

/-- Seconds that a vehicle spends at a node. -/
def nodeServiceS (bundle : RoutingVehicle) : RoutingNode → ℕ
  | .task order => (context.orders[order]?).elim 0 (inputs.operationSeconds · bundle.related)
  | .reload _ => depotReloadServiceS
  | _ => 0

/-- Per-vehicle node service durations. -/
def vehicleServiceTimes : List (List ℕ) :=
  context.vehicles.map fun bundle =>
    (inputs.nodes cluster context).map (inputs.nodeServiceS context bundle)

/-- The service duration of a node on one vehicle. -/
def serviceS (vehicle node : ℕ) : ℕ :=
  ((inputs.vehicleServiceTimes cluster context).getD vehicle []).getD node 0

/-- Service ends on the serving vehicle; for a dropped node the first vehicle stands in. -/
def endExpr (assignment : FleetAssignment) (node : ℕ) : ℤ :=
  assignment.cumul node + inputs.serviceS cluster context ((assignment.vehicle node).getD 0) node

/-- The task nodes whose task has an operator. -/
def operatorNodes : List (String × ℕ) :=
  ((inputs.nodes cluster context).zipIdx.filterMap fun entry =>
    match entry.1 with
    | .task order => (context.orders[order]?).map fun row =>
        (cluster.servingOperator row.taskId, entry.2)
    | _ => none).filter fun entry => entry.1 ≠ ""

/-- The nodes of each operator. -/
def byOperator : Dict String (List ℕ) :=
  Dict.groupBy Prod.fst Prod.snd (inputs.operatorNodes cluster context)

variable (held : Dict String (List Interval)) (assignment : FleetAssignment)

/-- Tasks that share an operator are serialized, and kept out of its held windows. Dropped tasks are
exempt. -/
structure OperatorNoOverlap : Prop where
  serialized : ∀ entry ∈ (inputs.byOperator cluster context).entries, entry.2.Pairwise fun a b =>
    inputs.endExpr cluster context assignment a ≤ assignment.cumul b ∨
      inputs.endExpr cluster context assignment b ≤ assignment.cumul a ∨
      ¬ assignment.Active a ∨ ¬ assignment.Active b
  heldOut : ∀ entry ∈ (inputs.byOperator cluster context).entries,
    ∀ offsets ∈ heldWindowOffsets (held.getD entry.1 []) inputs.nowEpoch, ∀ node ∈ entry.2,
      Clears (assignment.cumul node) (inputs.endExpr cluster context assignment node) offsets ∨
        ¬ assignment.Active node

/-- The held windows of a vehicle and its implement are breaks, and a break does not fall into a
visit. -/
def HeldVehicleBreaks : Prop :=
  ∀ vehicle bundle, context.vehicles[vehicle]? = some bundle →
    ∀ offsets ∈ heldWindowOffsets (held.getD bundle.prime.assetId [] ++
        held.getD bundle.related.assetId []) inputs.nowEpoch,
      ∀ node, assignment.vehicle node = some vehicle →
        Clears (assignment.cumul node) (inputs.endExpr cluster context assignment node) offsets

/-- The time dimension on the routes: from one stop to the next a vehicle serves and travels, within
the horizon, and its route ends at the depot. -/
structure RoutesTimed (travel : Leg → ℕ) (routes : RoutingSolution) : Prop where
  legs : ∀ leg ∈ routes.legs,
    leg.origin.cumul + inputs.serviceS cluster context leg.vehicle leg.origin.node + travel leg ≤
      leg.target.cumul ∧ (leg.target.cumul : ℤ) ≤ routingHorizonS
  ends : ∀ route ∈ routes, ∀ last ∈ route.getLast?, last.node = 0

end SolveInputs

/-- The routes are those of the assignment. -/
def FleetAssignment.Reads (assignment : FleetAssignment) (routes : RoutingSolution) : Prop :=
  ∀ vehicle route, routes[vehicle]? = some route → ∀ visit ∈ route, visit.node ≠ 0 →
    assignment.vehicle visit.node = some vehicle ∧ assignment.cumul visit.node = visit.cumul

/-- What a routed cluster keeps. The time-expanded model posts no calendars; it takes over only a
cluster with a single vehicle, and nothing may be held. -/
structure SolveInputs.CalendarsPosted (inputs : SolveInputs) (cluster : ClusterSpec)
    (context : ClusterContext) (held : Dict String (List Interval)) (routes : RoutingSolution) :
    Prop where
  timed : ∃ travel, inputs.RoutesTimed cluster context travel routes
  calendars : (context.vehicles.length = 1 ∧ held.entries = []) ∨
    ∃ assignment : FleetAssignment, assignment.Reads routes ∧
      inputs.OperatorNoOverlap cluster context held assignment ∧
      inputs.HeldVehicleBreaks cluster context held assignment

/-! ## Packages -/

/-- Consecutive items of a list are neighbours in it. -/
theorem neighbours_append {α : Type*} (before : List α) (a b : α) (after : List α) :
    (a, b) ∈ (before ++ a :: b :: after).zip (before ++ a :: b :: after).tail := by
  induction before with
  | nil => exact List.mem_cons_self
  | cons first rest ih =>
    cases rest with
    | nil => exact List.mem_cons_of_mem _ List.mem_cons_self
    | cons second rest => exact List.mem_cons_of_mem _ ih

/-- The time from the start to the end of a package. -/
def DispatchPackage.busy (package : DispatchPackage) : Set Instant :=
  Set.Ico package.scheduledStart package.scheduledEnd

/-- The time of a held window. -/
def windowTime (window : Interval) : Set Instant :=
  Set.Ico (window.1 : Instant) (window.2 : Instant)

/-- The package needs the asset: its vehicle, its implement, or its operator if it has one. -/
def DispatchPackage.Needs (package : DispatchPackage) (assetId : String) : Prop :=
  assetId = package.primeAssetId ∨ assetId = package.relatedAssetId ∨
    assetId = package.operatorAssetId ∧ assetId ≠ ""

/-- No vehicle and no operator has two of the packages at once, and none of them falls into a held
window of an asset it needs. -/
structure CalendarsKept (held : Dict String (List Interval)) (dispatch : List DispatchPackage) :
    Prop where
  vehicles : dispatch.Pairwise fun a b =>
    a.primeAssetId = b.primeAssetId → Disjoint a.busy b.busy
  operators : dispatch.Pairwise fun a b =>
    a.operatorAssetId = b.operatorAssetId → a.operatorAssetId ≠ "" → Disjoint a.busy b.busy
  heldOut : ∀ package ∈ dispatch, ∀ assetId, package.Needs assetId →
    ∀ window ∈ held.getD assetId [], Disjoint package.busy (windowTime window)

namespace SolveInputs

section Execution

variable {inputs : SolveInputs} {cluster : ClusterSpec} {context : ClusterContext}
  {held : Dict String (List Interval)} {routes : RoutingSolution} {travel : Leg → ℕ}
  {assignment : FleetAssignment} {vehicle other : ℕ} {bundle : RoutingVehicle}
  {visit next : Visit} {order : OrderRow} {route : List Visit}

/-- A visited order takes as long as it takes with the implement of its vehicle. -/
theorem serviceS_of_visited (serves : context.vehicles[vehicle]? = some bundle)
    (visited : visitedOrder (inputs.nodes cluster context) context.orders visit = some order) :
    inputs.serviceS cluster context vehicle visit.node =
      inputs.operationSeconds order bundle.related := by
  obtain ⟨index, node, listed⟩ := visitedOrder_eq_some visited
  simp only [serviceS, vehicleServiceTimes, List.getD_eq_getElem?_getD, List.getElem?_map, serves,
    Option.map_some, Option.getD_some, node, nodeServiceS, listed, Option.elim_some]

/-- A visited order is no depot. -/
theorem node_ne_zero
    (visited : visitedOrder (inputs.nodes cluster context) context.orders visit = some order) :
    visit.node ≠ 0 := by
  obtain ⟨index, node, -⟩ := visitedOrder_eq_some visited
  intro zero
  rw [zero] at node
  cases node

/-- The node of a visited order is listed for its operator. -/
theorem mem_byOperator
    (visited : visitedOrder (inputs.nodes cluster context) context.orders visit = some order)
    (named : cluster.servingOperator order.taskId ≠ "") :
    ∃ entry ∈ (inputs.byOperator cluster context).entries,
      entry.1 = cluster.servingOperator order.taskId ∧
      ∀ next other, visitedOrder (inputs.nodes cluster context) context.orders next = some other →
        cluster.servingOperator other.taskId = entry.1 → next.node ∈ entry.2 := by
  have stamped : ∀ next other,
      visitedOrder (inputs.nodes cluster context) context.orders next = some other →
        cluster.servingOperator other.taskId = cluster.servingOperator order.taskId →
          (cluster.servingOperator order.taskId, next.node) ∈
            inputs.operatorNodes cluster context := by
    intro next other visitedNext same
    obtain ⟨index, node, listed⟩ := visitedOrder_eq_some visitedNext
    refine List.mem_filter.mpr ⟨List.mem_filterMap.mpr ?_, decide_eq_true named⟩
    refine ⟨(.task index, next.node), List.mem_zipIdx_iff_getElem?.mpr node, ?_⟩
    simp only [listed, Option.map_some, same]
  have keyed : cluster.servingOperator order.taskId ∈ (inputs.byOperator cluster context).keys :=
    (Dict.mem_keys_groupBy _ _ _ _).mpr ⟨_, stamped visit order visited rfl, rfl⟩
  obtain ⟨⟨_, nodes⟩, entry, rfl⟩ := List.mem_map.mp keyed
  refine ⟨(_, nodes), entry, rfl, fun next other visitedNext same => ?_⟩
  rw [Dict.mem_entries_groupBy entry]
  exact List.mem_map.mpr ⟨_, List.mem_filter.mpr
    ⟨stamped next other visitedNext same, decide_eq_true rfl⟩, rfl⟩

/-- Stops of one route follow one another, each after the service at the one before. -/
theorem pairwise_route (timed : inputs.RoutesTimed cluster context travel routes)
    (driven : routes[vehicle]? = some route) :
    route.Pairwise fun a b =>
      a.cumul + inputs.serviceS cluster context vehicle a.node ≤ b.cumul := by
  apply pairwise_of_neighbours
  · intro a b c first second
    omega
  · intro step neighbours
    have leg : (⟨vehicle, step.1, step.2⟩ : Leg) ∈ routes.legs := List.mem_flatMap.mpr
      ⟨(route, vehicle), List.mem_zipIdx_iff_getElem?.mpr driven,
        List.mem_map.mpr ⟨step, neighbours, rfl⟩⟩
    have passed := (timed.legs _ leg).1
    dsimp only at passed
    omega

/-- A stop but for the last is followed by another, which is within the horizon. -/
theorem ends_within (timed : inputs.RoutesTimed cluster context travel routes)
    (driven : routes[vehicle]? = some route) (stop : visit ∈ route) (onWay : visit.node ≠ 0) :
    ((visit.cumul + inputs.serviceS cluster context vehicle visit.node : ℕ) : ℤ) ≤
      routingHorizonS := by
  obtain ⟨before, after, rfl⟩ := List.append_of_mem stop
  cases after with
  | nil =>
    refine absurd (timed.ends _ (List.mem_of_getElem? driven) visit ?_) onWay
    rw [List.getLast?_append]
    rfl
  | cons next rest =>
    have leg : (⟨vehicle, visit, next⟩ : Leg) ∈ routes.legs := List.mem_flatMap.mpr
      ⟨(_, vehicle), List.mem_zipIdx_iff_getElem?.mpr driven,
        List.mem_map.mpr ⟨(visit, next), neighbours_append before visit next rest, rfl⟩⟩
    obtain ⟨passed, within⟩ := timed.legs _ leg
    dsimp only at passed within
    omega

/-- Two tasks of one operator on different vehicles do not overlap. -/
theorem apart_of_operator (reads : assignment.Reads routes)
    (posted : inputs.OperatorNoOverlap cluster context held assignment)
    {otherOrder : OrderRow} {otherRoute : List Visit} (differ : vehicle ≠ other)
    (driven : routes[vehicle]? = some route) (stop : visit ∈ route)
    (visited : visitedOrder (inputs.nodes cluster context) context.orders visit = some order)
    (drivenOther : routes[other]? = some otherRoute) (stopOther : next ∈ otherRoute)
    (visitedOther : visitedOrder (inputs.nodes cluster context) context.orders next =
      some otherOrder)
    (same : cluster.servingOperator order.taskId = cluster.servingOperator otherOrder.taskId)
    (named : cluster.servingOperator order.taskId ≠ "") :
    visit.cumul + inputs.serviceS cluster context vehicle visit.node ≤ next.cumul ∨
      next.cumul + inputs.serviceS cluster context other next.node ≤ visit.cumul := by
  obtain ⟨serves, time⟩ := reads vehicle route driven visit stop (node_ne_zero visited)
  obtain ⟨servesOther, timeOther⟩ :=
    reads other otherRoute drivenOther next stopOther (node_ne_zero visitedOther)
  have nodes : visit.node ≠ next.node := by
    intro equal
    rw [equal, servesOther] at serves
    exact differ (Option.some.inj serves).symm
  obtain ⟨entry, listed, operator, members⟩ := mem_byOperator visited named
  have serial := posted.serialized entry listed
  have symmetric : Std.Symm fun a b : ℕ =>
      inputs.endExpr cluster context assignment a ≤ assignment.cumul b ∨
        inputs.endExpr cluster context assignment b ≤ assignment.cumul a ∨
        ¬ assignment.Active a ∨ ¬ assignment.Active b := ⟨by intro a b apart; tauto⟩
  have apart := serial.forall (members visit order visited operator.symm)
    (members next otherOrder visitedOther (same.symm.trans operator.symm)) nodes
  have active : assignment.Active visit.node := by rw [FleetAssignment.Active, serves]; rfl
  have activeOther : assignment.Active next.node := by
    rw [FleetAssignment.Active, servesOther]
    rfl
  simp only [active, activeOther, not_true_eq_false, or_false] at apart
  rw [endExpr, endExpr, serves, servesOther, time, timeOther, Option.getD_some,
    Option.getD_some] at apart
  exact_mod_cast apart

end Execution

section Packages

variable {inputs : SolveInputs} {cluster : ClusterSpec} {context : ClusterContext}
  {held : Dict String (List Interval)} {found : RoutesFound} {vehicle : ℕ} {bundle : RoutingVehicle}
  {route : List Visit} {visit : Visit} {order : OrderRow}

/-- A package is busy from its stop on, as long as the service takes. -/
theorem busy_dispatchPackage (serves : context.vehicles[vehicle]? = some bundle)
    (visited : visitedOrder (inputs.nodes cluster context) context.orders visit = some order) :
    (inputs.dispatchPackage cluster found bundle visit order).busy =
      windowTime (inputs.nowEpoch + visit.cumul, inputs.nowEpoch +
        (visit.cumul + inputs.serviceS cluster context vehicle visit.node : ℕ)) := by
  rw [DispatchPackage.busy, windowTime, dispatchPackage, serviceS_of_visited serves visited]
  push_cast
  rw [add_assoc]

/-- Times that clear each other have no moment in common. -/
theorem disjoint_windowTime {first second : Interval} (clear : Clears first.1 first.2 second) :
    Disjoint (windowTime first) (windowTime second) := by
  rw [windowTime, windowTime, Set.Ico_disjoint_Ico]
  rcases clear with before | after
  · exact (min_le_left _ _).trans ((Int.cast_le.mpr before).trans (le_max_right _ _))
  · exact (min_le_right _ _).trans ((Int.cast_le.mpr after).trans (le_max_left _ _))

/-- Every vehicle is allocated once. -/
theorem nodup_primes (inputs : SolveInputs) (allocated : Dict String (List String)) :
    ((inputs.routingVehicles allocated).map (·.prime.assetId)).Nodup := by
  have keyed : ((inputs.routingVehicles allocated).map (·.prime.assetId)).Sublist
      (allocated.entries.map Prod.fst) := by
    rw [routingVehicles]
    induction allocated.entries with
    | nil => exact List.Sublist.slnil
    | cons entry rest ih =>
      rw [List.filterMap_cons]
      split
      · exact ih.cons _
      · next made =>
        simp only [bind, Option.bind_eq_some_iff] at made
        obtain ⟨prime, listed, id, -, related, -, same⟩ := made
        obtain rfl := (Option.some.inj same).symm
        obtain ⟨row, -, named, rfl⟩ := Dict.exists_of_get?_collect listed
        rw [List.map_cons, List.map_cons]
        change (row.assetId :: _).Sublist _
        rw [named]
        exact ih.cons_cons _
  exact keyed.nodup allocated.nodupKeys

/-- The packages of one route follow one another. -/
theorem pairwise_routePackages {travel : Leg → ℕ}
    (timed : inputs.RoutesTimed cluster context travel found.routes)
    (serves : context.vehicles[vehicle]? = some bundle)
    (driven : found.routes[vehicle]? = some route) :
    (route.filterMap fun visit => (visitedOrder (inputs.nodes cluster context) context.orders
      visit).map (inputs.dispatchPackage cluster found bundle visit)).Pairwise
        fun a b => Disjoint a.busy b.busy := by
  refine List.pairwise_filterMap.mpr ((pairwise_route timed driven).imp ?_)
  intro a b follows first firstPackage second secondPackage
  obtain ⟨order, visited, rfl⟩ := Option.map_eq_some_iff.mp firstPackage
  obtain ⟨other, visitedOther, rfl⟩ := Option.map_eq_some_iff.mp secondPackage
  rw [busy_dispatchPackage serves visited, busy_dispatchPackage serves visitedOther]
  apply disjoint_windowTime
  exact .inl (by dsimp only; omega)

/-- A package stays out of the held windows of what it needs. -/
theorem heldOut_package (posted : inputs.CalendarsPosted cluster context held found.routes)
    (serves : context.vehicles[vehicle]? = some bundle)
    (driven : found.routes[vehicle]? = some route) (stop : visit ∈ route)
    (visited : visitedOrder (inputs.nodes cluster context) context.orders visit = some order)
    {assetId : String}
    (needs : (inputs.dispatchPackage cluster found bundle visit order).Needs assetId)
    {window : Interval} (member : window ∈ held.getD assetId []) :
    Disjoint (inputs.dispatchPackage cluster found bundle visit order).busy
      (windowTime window) := by
  obtain ⟨travel, timed⟩ := posted.timed
  have ends := ends_within timed driven stop (node_ne_zero visited)
  rw [busy_dispatchPackage serves visited]
  rcases posted.calendars with ⟨-, none⟩ | ⟨assignment, reads, operators, breaks⟩
  · rw [Dict.getD, Dict.get?, none] at member
    cases member
  obtain ⟨assigned, time⟩ := reads vehicle route driven visit stop (node_ne_zero visited)
  have finish : inputs.endExpr cluster context assignment visit.node =
      (visit.cumul + inputs.serviceS cluster context vehicle visit.node : ℕ) := by
    rw [endExpr, assigned, time, Option.getD_some]
    push_cast
    rfl
  -- The windows of the vehicle and of its implement are breaks, those of the operator constraints.
  have clear : ∃ raw, window ∈ raw ∧ ∀ offsets ∈ heldWindowOffsets raw inputs.nowEpoch,
      Clears (visit.cumul : ℤ)
        (visit.cumul + inputs.serviceS cluster context vehicle visit.node : ℕ) offsets := by
    rw [← time, ← finish]
    rcases needs with rfl | rfl | ⟨rfl, named⟩
    · exact ⟨_, List.mem_append_left _ member,
        fun offsets listed => breaks vehicle bundle serves offsets listed visit.node assigned⟩
    · exact ⟨_, List.mem_append_right _ member,
        fun offsets listed => breaks vehicle bundle serves offsets listed visit.node assigned⟩
    · obtain ⟨entry, listed, operator, members⟩ := mem_byOperator visited named
      refine ⟨_, member, fun offsets clipped => ?_⟩
      have node := members visit order visited operator.symm
      rcases operators.heldOut entry listed offsets (operator ▸ clipped) visit.node node with
        clear | dropped
      · exact clear
      · rw [FleetAssignment.Active, assigned] at dropped
        exact absurd rfl dropped
  obtain ⟨raw, listed, clear⟩ := clear
  by_cases empty : window.2 ≤ window.1 ∨
      inputs.serviceS cluster context vehicle visit.node = 0
  · rcases empty with empty | none
    · have nothing : windowTime window = ∅ := Set.Ico_eq_empty (by exact_mod_cast not_lt.mpr empty)
      rw [nothing]
      exact Set.disjoint_empty _
    · rw [none]
      have nothing : windowTime (inputs.nowEpoch + visit.cumul,
          inputs.nowEpoch + (visit.cumul + 0 : ℕ)) = ∅ := Set.Ico_eq_empty (by simp)
      rw [nothing]
      exact Set.empty_disjoint _
  · obtain ⟨lasts, runs⟩ := not_or.mp empty
    apply disjoint_windowTime
    exact clears_of_offsets clear (Int.natCast_nonneg _) (by omega) ends listed (by omega)

/-- The packages made on one route. -/
def routePackages (inputs : SolveInputs) (cluster : ClusterSpec) (context : ClusterContext)
    (found : RoutesFound) (route : RoutingVehicle × List Visit) : List DispatchPackage :=
  route.2.filterMap fun visit => (visitedOrder (inputs.nodes cluster context) context.orders
    visit).map (inputs.dispatchPackage cluster found route.1 visit)

/-- Packages of different routes have different vehicles, and their operators are kept apart. -/
theorem apart_routePackages (posted : inputs.CalendarsPosted cluster context held found.routes)
    (primes : (context.vehicles.map (·.prime.assetId)).Nodup) {first second : ℕ}
    (differ : first ≠ second) {firstRoute secondRoute : RoutingVehicle × List Visit}
    (serves : context.vehicles[first]? = some firstRoute.1)
    (driven : found.routes[first]? = some firstRoute.2)
    (servesToo : context.vehicles[second]? = some secondRoute.1)
    (drivenToo : found.routes[second]? = some secondRoute.2) {a b : DispatchPackage}
    (made : a ∈ inputs.routePackages cluster context found firstRoute)
    (madeToo : b ∈ inputs.routePackages cluster context found secondRoute) :
    a.primeAssetId ≠ b.primeAssetId ∧
      (a.operatorAssetId = b.operatorAssetId → a.operatorAssetId ≠ "" →
        Disjoint a.busy b.busy) := by
  obtain ⟨visit, stop, packed⟩ := List.mem_filterMap.mp made
  obtain ⟨order, visited, rfl⟩ := Option.map_eq_some_iff.mp packed
  obtain ⟨next, stopToo, packedToo⟩ := List.mem_filterMap.mp madeToo
  obtain ⟨other, visitedToo, rfl⟩ := Option.map_eq_some_iff.mp packedToo
  constructor
  · intro same
    apply differ
    refine (List.getElem?_inj ?_ primes).mp ?_
    · rw [List.length_map]
      exact (List.getElem?_eq_some_iff.mp serves).1
    · rw [List.getElem?_map, List.getElem?_map, serves, servesToo]
      exact congrArg some same
  · intro same named
    rw [busy_dispatchPackage serves visited, busy_dispatchPackage servesToo visitedToo]
    apply disjoint_windowTime
    rcases posted.calendars with ⟨single, -⟩ | ⟨assignment, reads, operators, -⟩
    · have firstIn := (List.getElem?_eq_some_iff.mp serves).1
      have secondIn := (List.getElem?_eq_some_iff.mp servesToo).1
      omega
    · rcases apart_of_operator reads operators differ driven stop visited drivenToo stopToo
        visitedToo same named with before | after
      · exact .inl (by dsimp only; omega)
      · exact .inr (by dsimp only; omega)

/-- The packages of a routed cluster keep all calendars. -/
theorem calendarsKept_extract (posted : inputs.CalendarsPosted cluster context held found.routes)
    (primes : (context.vehicles.map (·.prime.assetId)).Nodup) :
    CalendarsKept held (inputs.extractDispatchPackages cluster context found) := by
  obtain ⟨travel, timed⟩ := posted.timed
  have driven : ∀ route ∈ context.vehicles.zip found.routes, ∃ vehicle : ℕ,
      context.vehicles[vehicle]? = some route.1 ∧ found.routes[vehicle]? = some route.2 := by
    intro route member
    obtain ⟨vehicle, same⟩ := List.getElem?_of_mem member
    exact ⟨vehicle, List.getElem?_zip_eq_some.mp same⟩
  have along : ∀ route ∈ context.vehicles.zip found.routes,
      (inputs.routePackages cluster context found route).Pairwise
        fun a b => Disjoint a.busy b.busy := by
    intro route member
    obtain ⟨vehicle, serves, onRoute⟩ := driven route member
    exact pairwise_routePackages timed serves onRoute
  have across : (context.vehicles.zip found.routes).Pairwise fun first second =>
      ∀ a ∈ inputs.routePackages cluster context found first,
        ∀ b ∈ inputs.routePackages cluster context found second,
          a.primeAssetId ≠ b.primeAssetId ∧
            (a.operatorAssetId = b.operatorAssetId → a.operatorAssetId ≠ "" →
              Disjoint a.busy b.busy) := by
    rw [List.pairwise_iff_getElem]
    intro first second firstIn secondIn before a made b madeToo
    obtain ⟨serves, onRoute⟩ :=
      List.getElem?_zip_eq_some.mp (List.getElem?_eq_getElem firstIn)
    obtain ⟨servesToo, onRouteToo⟩ :=
      List.getElem?_zip_eq_some.mp (List.getElem?_eq_getElem secondIn)
    exact apart_routePackages posted primes before.ne serves onRoute servesToo onRouteToo made
      madeToo
  refine ⟨List.pairwise_flatMap.mpr ⟨fun route member => ?_, ?_⟩,
    List.pairwise_flatMap.mpr ⟨fun route member => ?_, ?_⟩, ?_⟩
  · refine List.Pairwise.imp ?_ (along route member)
    exact fun apart _ => apart
  · refine List.Pairwise.imp ?_ across
    intro first second apart a made b madeToo same
    exact absurd same (apart a made b madeToo).1
  · refine List.Pairwise.imp ?_ (along route member)
    exact fun apart _ _ => apart
  · refine List.Pairwise.imp ?_ across
    intro first second apart a made b madeToo
    exact (apart a made b madeToo).2
  · intro package member assetId needs window listed
    obtain ⟨route, onRoute, made⟩ := List.mem_flatMap.mp member
    obtain ⟨vehicle, serves, way⟩ := driven route onRoute
    obtain ⟨visit, stop, packed⟩ := List.mem_filterMap.mp made
    obtain ⟨order, visited, rfl⟩ := Option.map_eq_some_iff.mp packed
    exact heldOut_package posted serves way stop visited needs listed

end Packages

/-! ## Solving in order -/

/-- The routes an answer brings keep the calendars posted for the cluster. -/
def KeepsCalendars (inputs : SolveInputs) (cluster : ClusterSpec)
    (held : Dict String (List Interval)) (answer : Except String RoutingAnswer) : Prop :=
  ∀ context, inputs.prepareClusterContext cluster = .ok context →
    ∀ routed, answer = .ok routed → ∀ found ∈ routed.found,
      inputs.CalendarsPosted cluster context held found.routes

/-- Solve the clusters of a group with what the run holds and what is fed forward. -/
def groupWorker (inputs : SolveInputs) (baseHeld : Dict String (List Interval))
    (search : ClusterSpec → Dict String (List Interval) → Except String RoutingAnswer) :
    ClusterWorker :=
  fun cluster operatorHeld => .ok (inputs.solveClusterInstrumented cluster
    (search cluster (mergeHeldWindows baseHeld operatorHeld)))

section Solved

variable {inputs : SolveInputs} {cluster : ClusterSpec} {held : Dict String (List Interval)}
  {answer : Except String RoutingAnswer} {package : DispatchPackage}

/-- A solved cluster keeps all calendars. -/
theorem calendarsKept_solveCluster (posted : inputs.KeepsCalendars cluster held answer) :
    CalendarsKept held (inputs.solveClusterInstrumented cluster answer).dispatch := by
  have none : CalendarsKept held [] :=
    ⟨List.Pairwise.nil, List.Pairwise.nil, fun _ member => absurd member List.not_mem_nil⟩
  cases answer with
  | error detail => exact none
  | ok answer =>
    simp only [solveClusterInstrumented, solveClusterInner]
    cases ready : inputs.prepareClusterContext cluster with
    | error records => exact none
    | ok context =>
      cases solved : answer.found with
      | none =>
        simp only [routeContext, solved]
        exact none
      | some found =>
        simp only [routeContext, solved]
        apply calendarsKept_extract (posted context ready answer rfl found solved)
        rw [vehicles_of_prepared ready]
        exact nodup_primes inputs _

/-- A package of a cluster names a task of it, and its times are whole seconds. -/
theorem of_mem_dispatch
    (member : package ∈ (inputs.solveClusterInstrumented cluster answer).dispatch) :
    package.taskId ∈ cluster.taskIds ∧
      ∃ start stop : ℤ, package.scheduledStart = start ∧ package.scheduledEnd = stop := by
  obtain ⟨context, found, route, visit, order, ready, -, -, visited, rfl⟩ := dispatch_cases member
  obtain ⟨index, -, listed⟩ := visitedOrder_eq_some visited
  constructor
  · unfold prepareClusterContext at ready
    dsimp only at ready
    split_ifs at ready
    cases ready
    have kept := (List.mem_filter.mp (List.mem_of_getElem? listed)).1
    obtain ⟨id, task, known⟩ := List.mem_filterMap.mp kept
    change order.taskId ∈ cluster.taskIds
    rwa [(of_get?_orderMap known).2]
  · refine ⟨inputs.nowEpoch + visit.cumul, inputs.nowEpoch + visit.cumul +
      inputs.operationSeconds order route.1.related, ?_, ?_⟩
    · rw [dispatchPackage]
      push_cast
      rfl
    · rw [dispatchPackage]
      push_cast
      rfl

end Solved

end SolveInputs

/-- Some task of the cluster is served by the operator. -/
def ClusterSpec.UsesOperator (cluster : ClusterSpec) (operator : String) : Prop :=
  operator ≠ "" ∧ ∃ taskId ∈ cluster.taskIds, cluster.servingOperator taskId = operator

section Feeding

variable {shared : List String} {held base : Dict String (List Interval)}
  {dispatch : List DispatchPackage} {operator : String}

/-- What is held after a cluster: the windows of before, and for the shared operators what the
cluster committed them to. -/
theorem getD_feedForward :
    (feedForward shared held dispatch).getD operator [] = held.getD operator [] ++
      if operator ∈ shared then (operatorIntervals dispatch).getD operator [] else [] :=
  Dict.getD_foldl_append (· ∈ shared) held (operatorIntervals dispatch) operator

theorem getD_mergeHeldWindows : (mergeHeldWindows base held).getD operator [] =
    base.getD operator [] ++ held.getD operator [] := by
  rw [mergeHeldWindows]
  split_ifs with none
  · rw [Dict.getD.eq_1 held, Dict.get?, none]
    exact (List.append_nil _).symm
  · exact Dict.getD_foldl_append (fun _ => True) base held operator

/-- The time a package commits its operator to is among the intervals fed forward. -/
theorem mem_operatorIntervals {package : DispatchPackage} (member : package ∈ dispatch)
    (named : package.operatorAssetId ≠ "") {start stop : ℤ}
    (starts : package.scheduledStart = start)
    (stops : package.scheduledEnd = stop) (lasts : start < stop) :
    (start, stop) ∈ (operatorIntervals dispatch).getD package.operatorAssetId [] := by
  have truncated : ∀ n : ℤ, Instant.truncated (n : ℚ) = n := by
    intro n
    rw [Instant.truncated, Rat.floor_intCast, Rat.ceil_intCast, ite_self]
  rw [operatorIntervals, Dict.getD_groupBy]
  refine List.mem_map.mpr ⟨package, List.mem_filter.mpr ⟨List.mem_filter.mpr ⟨member, ?_⟩, ?_⟩, ?_⟩
  · rw [decide_eq_true_eq, starts, stops, truncated, truncated]
    exact ⟨named, lasts⟩
  · exact decide_eq_true rfl
  · rw [starts, stops, truncated, truncated]

end Feeding

/-- Clusters of a group have vehicles of their own, and an operator that two of them use is stamped
as shared. -/
structure SharesOperators (ordered : List ClusterSpec) : Prop where
  vehicles : ordered.Pairwise fun earlier later =>
    ∀ id ∈ earlier.allocatedPrimeRelated.keys, id ∉ later.allocatedPrimeRelated.keys
  stamped : ordered.Pairwise fun earlier later => ∀ operator, earlier.UsesOperator operator →
    later.UsesOperator operator → operator ∈ earlier.sharedBackupOperators

namespace CalendarsKept

variable {held more : Dict String (List Interval)} {dispatch others : List DispatchPackage}

/-- Less is held. -/
theorem mono (kept : CalendarsKept more dispatch)
    (less : ∀ assetId, held.getD assetId [] ⊆ more.getD assetId []) :
    CalendarsKept held dispatch where
  vehicles := kept.vehicles
  operators := kept.operators
  heldOut package member assetId needs window listed :=
    kept.heldOut package member assetId needs window (less assetId listed)

/-- Two dispatches, one after the other. -/
theorem append (kept : CalendarsKept held dispatch) (keptOthers : CalendarsKept held others)
    (vehicles : ∀ a ∈ dispatch, ∀ b ∈ others, a.primeAssetId ≠ b.primeAssetId)
    (operators : ∀ a ∈ dispatch, ∀ b ∈ others, a.operatorAssetId = b.operatorAssetId →
      a.operatorAssetId ≠ "" → Disjoint a.busy b.busy) :
    CalendarsKept held (dispatch ++ others) where
  vehicles := List.pairwise_append.mpr ⟨kept.vehicles, keptOthers.vehicles,
    fun a member b memberToo same => absurd same (vehicles a member b memberToo)⟩
  operators := List.pairwise_append.mpr ⟨kept.operators, keptOthers.operators, operators⟩
  heldOut package member := (List.mem_append.mp member).elim (kept.heldOut package)
    (keptOthers.heldOut package)

end CalendarsKept

section Group

variable {inputs : SolveInputs} {base : Dict String (List Interval)}
  {search : ClusterSpec → Dict String (List Interval) → Except String RoutingAnswer}

/-- The packages of a cluster use its vehicles and its operators. -/
theorem uses_of_mem_dispatch {cluster : ClusterSpec} {answer : Except String RoutingAnswer}
    {package : DispatchPackage}
    (member : package ∈ (inputs.solveClusterInstrumented cluster answer).dispatch) :
    package.primeAssetId ∈ cluster.allocatedPrimeRelated.keys ∧
      (package.operatorAssetId ≠ "" → cluster.UsesOperator package.operatorAssetId) := by
  obtain ⟨prime, -, operator⟩ := SolveInputs.dispatch_resources member
  exact ⟨prime, fun named =>
    ⟨named, package.taskId, (SolveInputs.of_mem_dispatch member).1, operator.symm⟩⟩

/-- What a cluster commits a shared operator to is held in the clusters after it. -/
theorem disjoint_of_fed {cluster : ClusterSpec} {answer : Except String RoutingAnswer}
    {held : Dict String (List Interval)} {others : List DispatchPackage}
    (kept : CalendarsKept (mergeHeldWindows base (feedForward cluster.sharedBackupOperators held
      (inputs.solveClusterInstrumented cluster answer).dispatch)) others)
    {a b : DispatchPackage}
    (member : a ∈ (inputs.solveClusterInstrumented cluster answer).dispatch) (later : b ∈ others)
    (same : a.operatorAssetId = b.operatorAssetId) (named : a.operatorAssetId ≠ "")
    (stamped : a.operatorAssetId ∈ cluster.sharedBackupOperators) : Disjoint a.busy b.busy := by
  obtain ⟨-, start, stop, starts, stops⟩ := SolveInputs.of_mem_dispatch member
  have time : a.busy = windowTime (start, stop) := by
    rw [DispatchPackage.busy, windowTime, starts, stops]
  rcases le_or_gt stop start with empty | lasts
  · have nothing : windowTime (start, stop) = ∅ :=
      Set.Ico_eq_empty (by exact_mod_cast not_lt.mpr empty)
    rw [time, nothing]
    exact Set.empty_disjoint _
  · have fed : (start, stop) ∈ (mergeHeldWindows base (feedForward cluster.sharedBackupOperators
        held (inputs.solveClusterInstrumented cluster answer).dispatch)).getD a.operatorAssetId
          [] := by
      rw [getD_mergeHeldWindows, getD_feedForward, if_pos stamped]
      exact List.mem_append_right _ (List.mem_append_right _
        (mem_operatorIntervals member named starts stops lasts))
    rw [time]
    exact (kept.heldOut b later a.operatorAssetId (.inr (.inr ⟨same, named⟩)) _ fed).symm

/-- A group solved from any held windows on keeps all calendars, with what was held before. -/
theorem calendarsKept_solveGroup {ordered : List ClusterSpec} (shares : SharesOperators ordered)
    (posted : ∀ cluster ∈ ordered, ∀ held,
      inputs.KeepsCalendars cluster held (search cluster held))
    (held : Dict String (List Interval)) :
    ∃ result, solveGroup (inputs.groupWorker base search) held ordered = .ok result ∧
      CalendarsKept (mergeHeldWindows base held) result.dispatch ∧
      ∀ package ∈ result.dispatch, ∃ cluster ∈ ordered,
        package.primeAssetId ∈ cluster.allocatedPrimeRelated.keys ∧
        (package.operatorAssetId ≠ "" → cluster.UsesOperator package.operatorAssetId) := by
  induction ordered generalizing held with
  | nil =>
    exact ⟨_, rfl, ⟨List.Pairwise.nil, List.Pairwise.nil,
      fun _ member => absurd member List.not_mem_nil⟩,
      fun _ member => absurd member List.not_mem_nil⟩
  | cons cluster rest ih =>
    obtain ⟨vehicles, laterVehicles⟩ := List.pairwise_cons.mp shares.vehicles
    obtain ⟨stamped, laterStamped⟩ := List.pairwise_cons.mp shares.stamped
    obtain ⟨first, solved, firstDispatch⟩ :
        ∃ first, inputs.groupWorker base search cluster held = .ok first ∧
          first = inputs.solveClusterInstrumented cluster
            (search cluster (mergeHeldWindows base held)) := ⟨_, rfl, rfl⟩
    obtain ⟨others, solvedRest, keptRest, usedRest⟩ := ih ⟨laterVehicles, laterStamped⟩
      (fun later member => posted later (List.mem_cons_of_mem _ member))
      (feedForward cluster.sharedBackupOperators held first.dispatch)
    have keptFirst : CalendarsKept (mergeHeldWindows base held) first.dispatch :=
      firstDispatch ▸ SolveInputs.calendarsKept_solveCluster
        (posted cluster List.mem_cons_self (mergeHeldWindows base held))
    have usedFirst : ∀ package ∈ first.dispatch,
        package.primeAssetId ∈ cluster.allocatedPrimeRelated.keys ∧
          (package.operatorAssetId ≠ "" → cluster.UsesOperator package.operatorAssetId) := by
      rw [firstDispatch]
      exact fun package member => uses_of_mem_dispatch member
    refine ⟨first.append others, ?_, ?_, ?_⟩
    · unfold solveGroup
      rw [solved]
      dsimp only
      rw [solvedRest]
    · refine keptFirst.append (keptRest.mono fun assetId => ?_) ?_ ?_
      · rw [getD_mergeHeldWindows, getD_mergeHeldWindows, getD_feedForward, ← List.append_assoc]
        exact List.subset_append_left _ _
      · intro a member b later same
        obtain ⟨other, listed, prime, -⟩ := usedRest b later
        exact vehicles other listed _ (usedFirst a member).1 (same ▸ prime)
      · intro a member b later same named
        obtain ⟨other, listed, -, uses⟩ := usedRest b later
        have shared := stamped other listed _ ((usedFirst a member).2 named)
          (same ▸ uses (same ▸ named))
        rw [firstDispatch] at member keptRest
        exact disjoint_of_fed keptRest member later same named shared
    · intro package member
      rcases List.mem_append.mp member with here | there
      · exact ⟨cluster, List.mem_cons_self, usedFirst package here⟩
      · obtain ⟨other, listed, used⟩ := usedRest package there
        exact ⟨other, List.mem_cons_of_mem _ listed, used⟩

end Group

/-! Two clusters with one task and one vehicle each share an operator. The second is solved with the
hour held to which the first committed the operator. -/

def pairedInputs : SolveInputs where
  orders := [{ taskId := "t1" }, { taskId := "t2" }]
  vehicles := [{ assetId := "v1" }, { assetId := "v2" }]
  implements := [{ assetId := "i1" }, { assetId := "i2" }]
  depots := [{ locationId := "d" }]
  nowEpoch := 0
  upper := id
  operationSeconds _ _ := 3600
  nReloadNodes _ := 0

def pairedCluster (clusterId taskId vehicle implement : String) : ClusterSpec where
  clusterId := clusterId
  depotRef := "d"
  taskIds := [taskId]
  allocatedPrimeRelated := Dict.empty.set vehicle [implement]
  operatorRef := "op"
  sharedBackupOperators := ["op"]

def pairedClusters : List ClusterSpec :=
  [pairedCluster "c1" "t1" "v1" "i1", pairedCluster "c2" "t2" "v2" "i2"]

/-- A vehicle drives to its task, works for an hour and drives back. -/
def pairedRoutes (start : ℕ) : RoutingSolution := [[⟨0, 0⟩, ⟨1, start⟩, ⟨0, start + 3600⟩]]

def pairedSearch (_ : ClusterSpec) (held : Dict String (List Interval)) :
    Except String RoutingAnswer :=
  .ok { found :=
    if held = .empty then
      some ⟨pairedRoutes 0, fun _ => "", fun _ => 0⟩
    else if held = Dict.empty.set "op" [(0, 3600)] then
      some ⟨pairedRoutes 3600, fun _ => "", fun _ => 0⟩
    else none }

def pairedContext (taskId vehicle implement : String) : ClusterContext where
  orders := [{ taskId := taskId }]
  vehicles := [⟨{ assetId := vehicle }, { assetId := implement }⟩]
  setAside := []

section Paired

variable {clusterId taskId vehicle implement : String}

theorem routesTimed_paired (start : ℕ) (soon : start ≤ 3600) :
    pairedInputs.RoutesTimed (pairedCluster clusterId taskId vehicle implement)
      (pairedContext taskId vehicle implement) (fun _ => 0) (pairedRoutes start) where
  legs leg member := by
    have horizon : routingHorizonS = 2592000 := by decide
    have legs : (pairedRoutes start).legs =
      [⟨0, ⟨0, 0⟩, ⟨1, start⟩⟩, ⟨0, ⟨1, start⟩, ⟨0, start + 3600⟩⟩] := rfl
    rw [legs] at member
    simp only [List.mem_cons, List.not_mem_nil, or_false] at member
    rcases member with rfl | rfl
    · exact ⟨Nat.zero_le _, by dsimp only; omega⟩
    · exact ⟨le_rfl, by dsimp only; omega⟩
  ends route member last ends := by
    obtain rfl := List.mem_singleton.mp member
    cases ends
    rfl

theorem keepsCalendars_paired
    (ready : pairedInputs.prepareClusterContext
      (pairedCluster clusterId taskId vehicle implement) =
        .ok (pairedContext taskId vehicle implement))
    (unheld : vehicle ≠ "op" ∧ implement ≠ "op") (held : Dict String (List Interval)) :
    pairedInputs.KeepsCalendars (pairedCluster clusterId taskId vehicle implement) held
      (pairedSearch (pairedCluster clusterId taskId vehicle implement) held) := by
  intro context prepared routed answered found some
  obtain rfl := Except.ok.inj (ready.symm.trans prepared)
  have operators : (pairedInputs.byOperator (pairedCluster clusterId taskId vehicle implement)
      (pairedContext taskId vehicle implement)).entries = [("op", [1])] := rfl
  cases answered
  dsimp only at some
  split_ifs at some with free busy
  · cases some
    exact ⟨⟨_, routesTimed_paired 0 (by decide)⟩, .inl ⟨rfl, by rw [free]; rfl⟩⟩
  · cases some
    refine ⟨⟨_, routesTimed_paired 3600 le_rfl⟩, .inr ?_⟩
    refine ⟨⟨fun node => if node = 1 then 3600 else 0,
      fun node => if node = 1 then Option.some 0 else none⟩, ?_, ⟨?_, ?_⟩, ?_⟩
    · intro served route driven visit member onWay
      cases served with
      | zero =>
        cases driven
        simp only [List.mem_cons, List.not_mem_nil, or_false] at member
        rcases member with rfl | rfl | rfl
        · exact absurd rfl onWay
        · exact ⟨rfl, rfl⟩
        · exact absurd rfl onWay
      | succ later => cases driven
    · intro entry member
      rw [operators] at member
      obtain rfl := List.mem_singleton.mp member
      exact List.pairwise_singleton _ _
    · intro entry member offsets clipped node task
      rw [operators] at member
      obtain rfl := List.mem_singleton.mp member
      obtain rfl := List.mem_singleton.mp task
      have window : offsets ∈ heldWindowOffsets [(0, 3600)] 0 := by
        rw [busy] at clipped
        exact clipped
      rw [show heldWindowOffsets [(0, 3600)] 0 = [(0, 3600)] by decide +kernel] at window
      obtain rfl := List.mem_singleton.mp window
      exact .inl (.inr le_rfl)
    · intro served bundle serves offsets clipped
      cases served with
      | zero =>
        cases serves
        rw [busy, Dict.getD_set, Dict.getD_set, if_neg unheld.1, if_neg unheld.2] at clipped
        cases clipped
      | succ later => cases serves
  · cases some

end Paired

end FlOp.Solver
