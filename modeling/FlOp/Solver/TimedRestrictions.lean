import FlOp.Library.Dict
import FlOp.Solver.RestrictionSegments
import Mathlib.Data.List.Basic

/-! # Solving under timed restrictions

A cluster is solved, the arcs of the solution are compared with the polygons active while they
are traversed, and the cluster is solved again with the detours found. When the refinements are
used up, one last pass prices all windows at once and is not compared again; and a local search
may replace the solution after it was compared.
-/

namespace FlOp.Solver

open FlOp.Core Library

/-- A vehicle and the two nodes it drives between. -/
abbrev ArcKey := ℕ × ℕ × ℕ

abbrev ArcTimeOverrides := Dict ArcKey ℕ

/-- A node on a route and the time since the planning origin at which it is reached. -/
structure Visit where
  node : ℕ
  cumul : ℕ
deriving DecidableEq, Repr

/-- The routes of all vehicles, each with its start and its end. -/
abbrev RoutingSolution := List (List Visit)

/-- One step of a vehicle from a node to the next. -/
structure Leg where
  vehicle : ℕ
  origin : Visit
  target : Visit
deriving DecidableEq, Repr

def Leg.arc (leg : Leg) : ArcKey := (leg.vehicle, leg.origin.node, leg.target.node)

/-- The legs of a solution, vehicle by vehicle. -/
def RoutingSolution.legs (solution : RoutingSolution) : List Leg :=
  solution.zipIdx.flatMap fun route =>
    (route.1.zip route.1.tail).map fun step => ⟨route.2, step.1, step.2⟩

/-- Limits of the refinement and of the local search. -/
structure RefinementSettings where
  routeRestrictionMaxRefinements : ℕ := 3
  clusterLnsEnabled : Bool := false
  clusterLnsMinPenaltyEurPerDay : ℚ := 1000

/-- What timed restrictions have to do with in a cluster. The geometry of detours is given. -/
structure TimedCluster (Polygon : Type) where
  nVehicles : ℕ
  nNodes : ℕ
  restrictions : ℕ → List (RouteRestriction Polygon)
  arcRoute : ArcKey → List Polygon → ArcRoute
  serviceTimes : ℕ → ℕ → ℕ
  nowEpoch : ℤ
  lnsTimeLimitS : ℤ := 0
  totalPenaltyPerDay : ℚ := 0

namespace TimedCluster

variable {Polygon : Type} (cluster : TimedCluster Polygon)

/-- The time of an arc before any timed polygon is looked at. -/
def baseSeconds (arc : ArcKey) : ℕ :=
  (cluster.arcRoute arc (unconditionalPolygons (cluster.restrictions arc.1))).seconds

/-- The time of an arc in the model of one pass. -/
def timeMatrix (overrides : ArcTimeOverrides) (arc : ArcKey) : ℕ :=
  overrides.getD arc (cluster.baseSeconds arc)

/-- Polygons active while a leg is traversed, between service and the next arrival. -/
def legPolygons (leg : Leg) : List Polygon :=
  activePolygons (cluster.restrictions leg.vehicle)
    (cluster.nowEpoch + leg.origin.cumul + cluster.serviceTimes leg.vehicle leg.origin.node)
    (cluster.nowEpoch + leg.target.cumul)

/-- The route of a leg around the polygons active while it is traversed. -/
def legRoute (leg : Leg) : ArcRoute := cluster.arcRoute leg.arc (cluster.legPolygons leg)

/-- The route around all polygons of a vehicle, whenever they are active. -/
def allWindowRoute (arc : ArcKey) : ArcRoute :=
  cluster.arcRoute arc ((cluster.restrictions arc.1).map (·.polygon))

/-- Detours of solved legs that the model of the pass undercuts. -/
def activatedTimedArcOverrides (overrides : ArcTimeOverrides) (solution : RoutingSolution) :
    ArcTimeOverrides :=
  Dict.collect Leg.arc (fun leg => (cluster.legRoute leg).seconds)
    (solution.legs.filter fun leg => (cluster.legRoute leg).detoured ∧
      cluster.timeMatrix overrides leg.arc < (cluster.legRoute leg).seconds)

/-- Detours around all polygons, between any two nodes. -/
def allTimedArcOverrides (overrides : ArcTimeOverrides) : ArcTimeOverrides :=
  Dict.collect id (fun arc => (cluster.allWindowRoute arc).seconds)
    (((List.range cluster.nVehicles).product
      ((List.range cluster.nNodes).product (List.range cluster.nNodes))).filter fun arc =>
        arc.2.1 ≠ arc.2.2 ∧ (cluster.allWindowRoute arc).detoured ∧
          cluster.timeMatrix overrides arc < (cluster.allWindowRoute arc).seconds)

/-- The activated detours that are longer than an override already in place. -/
def newActivations (overrides : ArcTimeOverrides) (solution : RoutingSolution) :
    ArcTimeOverrides :=
  (cluster.activatedTimedArcOverrides overrides solution).filter fun entry =>
    overrides.getD entry.1 0 < entry.2

/-- Overrides with the new activations written over them. -/
def refine (overrides : ArcTimeOverrides) (solution : RoutingSolution) : ArcTimeOverrides :=
  overrides.update (cluster.newActivations overrides solution)

/-- A solution of the posted time dimension: all vehicles are routed over known nodes, and each
leg takes at least its service and its modelled time. -/
def Feasible (overrides : ArcTimeOverrides) (solution : RoutingSolution) : Prop :=
  solution.length = cluster.nVehicles ∧
    ∀ leg ∈ solution.legs, leg.origin.node < cluster.nNodes ∧ leg.target.node < cluster.nNodes ∧
      leg.origin.cumul + cluster.serviceTimes leg.vehicle leg.origin.node +
        cluster.timeMatrix overrides leg.arc ≤ leg.target.cumul ∧
      (leg.target.cumul : ℤ) ≤ routingHorizonS

/-- The modelled time of a leg covers its detour, if it has one. -/
def Covers (overrides : ArcTimeOverrides) (leg : Leg) : Prop :=
  (cluster.legRoute leg).detoured = true →
    (cluster.legRoute leg).seconds ≤ cluster.timeMatrix overrides leg.arc

end TimedCluster

/-- What the search makes of the model of each pass: any solution of it, or none, and any other
one as an improvement. Whether the time-expanded path takes the cluster is decided before. -/
structure RoutingSearch {Polygon : Type} (cluster : TimedCluster Polygon) where
  expands : Bool := false
  solve : ℕ → ArcTimeOverrides → Option RoutingSolution
  improve : ℕ → ArcTimeOverrides → RoutingSolution → Option RoutingSolution
  objective : ArcTimeOverrides → RoutingSolution → ℤ
  solve_feasible : ∀ pass overrides, ∀ solution ∈ solve pass overrides,
    cluster.Feasible overrides solution
  improve_feasible : ∀ pass overrides first, ∀ solution ∈ improve pass overrides first,
    cluster.Feasible overrides solution

/-- The extracted solution, the overrides of the model it solves, and what became of the check:
the solution it passed, or nothing after the final pass. -/
structure Extraction where
  overrides : ArcTimeOverrides
  checked : Option RoutingSolution
  solution : RoutingSolution
deriving DecidableEq

inductive RoutingOutcome where
  | expanded
  | unsolved
  | extracted (extraction : Extraction)
deriving DecidableEq

section Refinement

variable {Polygon : Type} (settings : RefinementSettings) (cluster : TimedCluster Polygon)
  (search : RoutingSearch cluster)

/-- The local search runs for clusters of high value with a budget. -/
def attemptsLns : Bool :=
  (0 < cluster.lnsTimeLimitS ∨ settings.clusterLnsEnabled) ∧
    settings.clusterLnsMinPenaltyEurPerDay ≤ cluster.totalPenaltyPerDay

/-- The improved solution if the local search finds a strictly better one. -/
def maybeImproveWithLns (pass : ℕ) (overrides : ArcTimeOverrides) (solution : RoutingSolution) :
    RoutingSolution :=
  if attemptsLns settings cluster then
    match search.improve pass overrides solution with
    | some improved =>
      if search.objective overrides improved < search.objective overrides solution then improved
      else solution
    | none => solution
  else solution

/-- The last pass: its solution is extracted as it is. -/
def finalPass (pass : ℕ) (overrides : ArcTimeOverrides) : RoutingOutcome :=
  match search.solve pass overrides with
  | none => .unsolved
  | some solution => .extracted
      { overrides := overrides
        checked := none
        solution := maybeImproveWithLns settings cluster search pass overrides solution }

/-- Solve, compare with the active polygons, and solve again while detours are missing. The first
argument counts the refinements left. -/
def refinementPass : ℕ → ArcTimeOverrides → RoutingOutcome
  | left, overrides =>
    let pass := settings.routeRestrictionMaxRefinements - left
    match search.solve pass overrides with
    | none => .unsolved
    | some solution =>
      if (cluster.newActivations overrides solution).entries.isEmpty then .extracted
        { overrides := overrides
          checked := some solution
          solution := maybeImproveWithLns settings cluster search pass overrides solution }
      else
        match left with
        | 0 => finalPass settings cluster search (pass + 1)
            ((cluster.refine overrides solution).update (cluster.allTimedArcOverrides overrides))
        | left + 1 => refinementPass left (cluster.refine overrides solution)

/-- Build, solve and extract one routing model. -/
def solveRoutingContext : RoutingOutcome :=
  if search.expands then .expanded
  else refinementPass settings cluster search settings.routeRestrictionMaxRefinements .empty

end Refinement

/-- Every leg of an extracted solution takes at least the detour around the polygons active while
it is traversed. -/
def RestrictionsHold {Polygon : Type} (cluster : TimedCluster Polygon) : RoutingOutcome → Prop
  | .extracted e => ∀ leg ∈ e.solution.legs, cluster.Covers e.overrides leg
  | _ => True

/-- Neither the check nor the final pass covers the leg: the checked solution has no such leg
under the same polygons, or the detour around all windows is missing or shorter. -/
def Exposed {Polygon : Type} (cluster : TimedCluster Polygon) (e : Extraction) (leg : Leg) :
    Prop :=
  match e.checked with
  | some first => ∀ checkedLeg ∈ first.legs,
      ¬ (checkedLeg.arc = leg.arc ∧ cluster.legPolygons checkedLeg = cluster.legPolygons leg)
  | none => leg.origin.node = leg.target.node ∨
      ¬ ((cluster.allWindowRoute leg.arc).detoured = true ∧
        (cluster.legRoute leg).seconds ≤ (cluster.allWindowRoute leg.arc).seconds)

/-- The exposed legs take at least their detours. -/
def ExposedLegsHold {Polygon : Type} (cluster : TimedCluster Polygon) : RoutingOutcome → Prop
  | .extracted e => ∀ leg ∈ e.solution.legs, Exposed cluster e leg → cluster.Covers e.overrides leg
  | _ => True

section Passes

variable {Polygon : Type} {settings : RefinementSettings} {cluster : TimedCluster Polygon}
  {search : RoutingSearch cluster} {overrides : ArcTimeOverrides}
  {solution solution' : RoutingSolution}

/-- A new activation is longer than the model of the pass. -/
theorem lt_of_newActivation {arc : ArcKey} {seconds : ℕ}
    (activated : (cluster.newActivations overrides solution).get? arc = some seconds) :
    cluster.timeMatrix overrides arc < seconds := by
  obtain ⟨found, -⟩ := (Dict.get?_filter_eq_some_iff _ _ _ _).mp activated
  obtain ⟨leg, member, rfl, rfl⟩ := Dict.exists_of_get?_collect found
  exact (of_decide_eq_true (List.mem_filter.mp member).2).2

/-- Without new activations the check has found every leg covered. -/
theorem covers_of_no_activation
    (none : (cluster.newActivations overrides solution).entries.isEmpty = true) {leg : Leg}
    (member : leg ∈ solution.legs) : cluster.Covers overrides leg := by
  intro detoured
  by_contra short
  have longer : cluster.timeMatrix overrides leg.arc < (cluster.legRoute leg).seconds :=
    not_le.mp short
  have kept : leg ∈ solution.legs.filter fun leg => (cluster.legRoute leg).detoured ∧
      cluster.timeMatrix overrides leg.arc < (cluster.legRoute leg).seconds :=
    List.mem_filter.mpr ⟨member, decide_eq_true ⟨detoured, longer⟩⟩
  have keyed := (Dict.isSome_get?_collect Leg.arc (fun leg => (cluster.legRoute leg).seconds)
    _ leg.arc).mpr ⟨leg, kept, rfl⟩
  obtain ⟨seconds, found⟩ := Option.isSome_iff_exists.mp keyed
  obtain ⟨other, otherKept, same, rfl⟩ := Dict.exists_of_get?_collect found
  have above := (of_decide_eq_true (List.mem_filter.mp otherKept).2).2
  have atLeast : overrides.getD leg.arc 0 ≤ cluster.timeMatrix overrides leg.arc := by
    unfold TimedCluster.timeMatrix Dict.getD
    cases overrides.get? leg.arc with
    | none => exact Nat.zero_le _
    | some seconds => exact le_rfl
  have activated : (cluster.newActivations overrides solution).get? leg.arc =
      some (cluster.legRoute other).seconds := by
    refine (Dict.get?_filter_eq_some_iff _ _ _ _).mpr ⟨found, decide_eq_true ?_⟩
    rw [same] at above
    exact lt_of_le_of_lt atLeast above
  rw [Dict.eq_empty_of_isEmpty none] at activated
  cases activated

/-- Refining never shortens an arc. -/
theorem timeMatrix_le_refine (cluster : TimedCluster Polygon) (overrides : ArcTimeOverrides)
    (solution : RoutingSolution) (arc : ArcKey) :
    cluster.timeMatrix overrides arc ≤
      cluster.timeMatrix (cluster.refine overrides solution) arc := by
  unfold TimedCluster.refine
  cases activated : (cluster.newActivations overrides solution).get? arc with
  | none => rw [TimedCluster.timeMatrix, TimedCluster.timeMatrix, Dict.getD, Dict.getD,
      Dict.get?_update, activated, Option.none_or]
  | some seconds =>
    have longer := lt_of_newActivation activated
    rw [TimedCluster.timeMatrix, TimedCluster.timeMatrix, Dict.getD, Dict.getD,
      Dict.get?_update, activated] at *
    exact le_of_lt longer

/-- The final pass prices every arc between two nodes with its detour around all windows. -/
theorem allWindow_le_final {arc : ArcKey} (vehicle : arc.1 < cluster.nVehicles)
    (origin : arc.2.1 < cluster.nNodes) (target : arc.2.2 < cluster.nNodes)
    (apart : arc.2.1 ≠ arc.2.2) (detoured : (cluster.allWindowRoute arc).detoured = true) :
    (cluster.allWindowRoute arc).seconds ≤ cluster.timeMatrix
      ((cluster.refine overrides solution).update (cluster.allTimedArcOverrides overrides))
      arc := by
  cases found : (cluster.allTimedArcOverrides overrides).get? arc with
  | some seconds =>
    obtain ⟨same, -, rfl, rfl⟩ := Dict.exists_of_get?_collect found
    rw [TimedCluster.timeMatrix, Dict.getD, Dict.get?_update, found]
    exact le_rfl
  | none =>
    have unlisted : ¬ cluster.timeMatrix overrides arc < (cluster.allWindowRoute arc).seconds := by
      intro longer
      have inRange : arc ∈ (List.range cluster.nVehicles).product
          ((List.range cluster.nNodes).product (List.range cluster.nNodes)) := by
        obtain ⟨v, i, j⟩ := arc
        rw [List.pair_mem_product, List.pair_mem_product]
        exact ⟨List.mem_range.mpr vehicle, List.mem_range.mpr origin, List.mem_range.mpr target⟩
      have listed : ((cluster.allTimedArcOverrides overrides).get? arc).isSome := by
        rw [TimedCluster.allTimedArcOverrides, Dict.isSome_get?_collect]
        exact ⟨arc, List.mem_filter.mpr ⟨inRange, decide_eq_true ⟨apart, detoured, longer⟩⟩, rfl⟩
      rw [found] at listed
      cases listed
    have refined := timeMatrix_le_refine cluster overrides solution arc
    have kept : cluster.timeMatrix
        ((cluster.refine overrides solution).update (cluster.allTimedArcOverrides overrides)) arc =
          cluster.timeMatrix (cluster.refine overrides solution) arc := by
      rw [TimedCluster.timeMatrix, Dict.getD, Dict.get?_update, found, Option.none_or]
      rfl
    rw [kept]
    exact (not_lt.mp unlisted).trans refined

theorem vehicle_of_mem_legs {leg : Leg} (member : leg ∈ solution.legs) :
    leg.vehicle < solution.length := by
  obtain ⟨route, listed, inside⟩ := List.mem_flatMap.mp member
  obtain ⟨step, -, rfl⟩ := List.mem_map.mp inside
  exact List.snd_lt_of_mem_zipIdx listed

/-- The local search returns the solution it was given or another one of the same model. -/
theorem feasible_maybeImproveWithLns {pass : ℕ}
    (feasible : cluster.Feasible overrides solution) :
    cluster.Feasible overrides
      (maybeImproveWithLns settings cluster search pass overrides solution) := by
  unfold maybeImproveWithLns
  split
  · split
    · next improved found =>
      split
      · exact search.improve_feasible pass overrides solution improved found
      · exact feasible
    · exact feasible
  · exact feasible

/-- What the final pass extracts: any leg whose detour is no longer than the one around all
windows is covered. -/
theorem covers_final {before : ArcTimeOverrides} {leg : Leg}
    (feasible : cluster.Feasible
      ((cluster.refine before solution).update (cluster.allTimedArcOverrides before)) solution')
    (member : leg ∈ solution'.legs) (apart : leg.origin.node ≠ leg.target.node)
    (detoured : (cluster.allWindowRoute leg.arc).detoured = true)
    (dominated : (cluster.legRoute leg).seconds ≤ (cluster.allWindowRoute leg.arc).seconds) :
    cluster.Covers
      ((cluster.refine before solution).update (cluster.allTimedArcOverrides before)) leg := by
  obtain ⟨vehicles, legs⟩ := feasible
  obtain ⟨origin, target, -⟩ := legs leg member
  have vehicle := vehicle_of_mem_legs member
  rw [vehicles] at vehicle
  intro _
  exact dominated.trans (allWindow_le_final vehicle origin target apart detoured)

/-- How a refinement ends: the check passed a solution, which the search may have replaced, or the
final pass solved the model with all detours. -/
theorem refinementPass_spec {left : ℕ} {e : Extraction}
    (extracted : refinementPass settings cluster search left overrides = .extracted e) :
    (∃ first, e.checked = some first ∧
        (cluster.newActivations e.overrides first).entries.isEmpty = true) ∨
      (e.checked = none ∧ ∃ before solved, cluster.Feasible e.overrides e.solution ∧
        e.overrides =
          (cluster.refine before solved).update (cluster.allTimedArcOverrides before)) := by
  induction left generalizing overrides with
  | zero =>
    unfold refinementPass at extracted
    dsimp only at extracted
    split at extracted
    · cases extracted
    · next first solved =>
      split at extracted
      · next passed =>
        cases extracted
        exact .inl ⟨first, rfl, passed⟩
      · unfold finalPass at extracted
        split at extracted
        · cases extracted
        · next last lastSolved =>
          cases extracted
          refine .inr ⟨rfl, overrides, first, ?_, rfl⟩
          exact feasible_maybeImproveWithLns (search.solve_feasible _ _ last lastSolved)
  | succ left ih =>
    unfold refinementPass at extracted
    dsimp only at extracted
    split at extracted
    · cases extracted
    · next first solved =>
      split at extracted
      · next passed =>
        cases extracted
        exact .inl ⟨first, rfl, passed⟩
      · exact ih extracted

/-- A leg that is not exposed is covered. -/
theorem covers_of_not_exposed {e : Extraction}
    (extracted : solveRoutingContext settings cluster search = .extracted e) {leg : Leg}
    (member : leg ∈ e.solution.legs) (covered : ¬ Exposed cluster e leg) :
    cluster.Covers e.overrides leg := by
  unfold solveRoutingContext at extracted
  split at extracted
  · cases extracted
  · rcases refinementPass_spec extracted with
      ⟨first, checked, passed⟩ | ⟨unchecked, before, solved, feasible, overrides⟩
    · simp only [Exposed, checked, not_forall, not_not] at covered
      obtain ⟨checkedLeg, listed, sameArc, samePolygons⟩ := covered
      have covers := covers_of_no_activation passed listed
      simp only [TimedCluster.Covers, TimedCluster.legRoute, sameArc, samePolygons] at covers ⊢
      exact covers
    · simp only [Exposed, unchecked, not_or, not_not] at covered
      obtain ⟨apart, detoured, dominated⟩ := covered
      rw [overrides] at feasible ⊢
      exact covers_final feasible member apart detoured dominated

end Passes

/-- Whatever the search returns, the extracted legs respect the timed restrictions exactly when
those do that neither the check nor the final pass covers. -/
theorem restrictionsHold_iff {Polygon : Type} (settings : RefinementSettings)
    (cluster : TimedCluster Polygon) (search : RoutingSearch cluster) :
    RestrictionsHold cluster (solveRoutingContext settings cluster search) ↔
      ExposedLegsHold cluster (solveRoutingContext settings cluster search) := by
  cases outcome : solveRoutingContext settings cluster search with
  | expanded => exact .rfl
  | unsolved => exact .rfl
  | extracted e =>
    constructor
    · intro hold leg member _
      exact hold leg member
    · intro hold leg member
      by_cases exposed : Exposed cluster e leg
      · exact hold leg member exposed
      · exact covers_of_not_exposed outcome member exposed

section Crossing

/-- Travel times between a depot and two sites; the second site is far from the depot. -/
def crossingSeconds : ArcKey → ℕ
  | (_, 0, 1) => 100
  | (_, 0, 2) => 400
  | (_, 1, 0) => 100
  | (_, 1, 2) => 100
  | (_, 2, 0) => 300
  | (_, 2, 1) => 100
  | _ => 0

/-- One vehicle of high value, and a zone on the way to the first site that closes for two
hundred seconds. -/
def crossingCluster : TimedCluster Unit where
  nVehicles := 1
  nNodes := 3
  restrictions _ := [{ polygon := (), windows := [(0, 200)] }]
  arcRoute arc polygons :=
    if arc = (0, 0, 1) ∧ polygons ≠ [] then { seconds := 250, detoured := true }
    else { seconds := crossingSeconds arc }
  serviceTimes _ _ := 0
  nowEpoch := 0
  lnsTimeLimitS := 10
  totalPenaltyPerDay := 1000

instance (overrides : ArcTimeOverrides) (solution : RoutingSolution) :
    Decidable (crossingCluster.Feasible overrides solution) :=
  inferInstanceAs (Decidable (_ ∧ ∀ leg ∈ solution.legs, _))

/-- The search visits the far site first, and improves that to the shorter round. -/
def crossingSearch : RoutingSearch crossingCluster where
  solve _ overrides :=
    if overrides = .empty then some [[⟨0, 0⟩, ⟨2, 400⟩, ⟨1, 500⟩, ⟨0, 600⟩]] else none
  improve _ overrides _ :=
    if overrides = .empty then some [[⟨0, 0⟩, ⟨1, 100⟩, ⟨2, 200⟩, ⟨0, 500⟩]] else none
  objective overrides solution :=
    (solution.legs.map fun leg => (crossingCluster.timeMatrix overrides leg.arc : ℤ)).sum
  solve_feasible := by
    intro pass overrides solution found
    rw [Option.mem_def] at found
    split_ifs at found with empty
    cases found
    rw [empty]
    decide +kernel
  improve_feasible := by
    intro pass overrides first solution found
    rw [Option.mem_def] at found
    split_ifs at found with empty
    cases found
    rw [empty]
    decide +kernel

/-- The improved round crosses the zone while it is closed. -/
theorem improved_route_crosses_zone :
    ¬ ∀ (Polygon : Type) (settings : RefinementSettings) (cluster : TimedCluster Polygon)
      (search : RoutingSearch cluster),
        RestrictionsHold cluster (solveRoutingContext settings cluster search) := by
  intro always
  have held := always Unit {} crossingCluster crossingSearch
  have extracted : solveRoutingContext {} crossingCluster crossingSearch = .extracted
      { overrides := .empty
        checked := some [[⟨0, 0⟩, ⟨2, 400⟩, ⟨1, 500⟩, ⟨0, 600⟩]]
        solution := [[⟨0, 0⟩, ⟨1, 100⟩, ⟨2, 200⟩, ⟨0, 500⟩]] } := by
    decide +kernel
  rw [extracted] at held
  have crossing := held ⟨0, ⟨0, 0⟩, ⟨1, 100⟩⟩ (by decide)
  exact absurd crossing (by unfold TimedCluster.Covers; decide +kernel)

end Crossing

end FlOp.Solver
