import FlOp.Solver.FleetModel

/-! # Starts along a chain of tasks

The finish of a predecessor is bounded with the service time of the fastest vehicle; which vehicle
serves it is left to the search.
-/

namespace FlOp.Solver

open FlOp.Core Library

namespace FleetCluster

variable (cluster : FleetCluster)

/-- A task node and the node of the task that follows it. -/
def Link (pred succ : ℕ) : Prop :=
  ∃ order predecessor, cluster.Follows order predecessor ∧
    cluster.nodes[pred]? = some (.task predecessor) ∧ cluster.nodes[succ]? = some (.task order)

/-- Task nodes that follow one another, and the least service of all but the last. -/
inductive Chain : ℕ → ℕ → ℤ → Prop where
  | link {pred succ : ℕ} (link : cluster.Link pred succ) :
      Chain pred succ (cluster.minServiceS pred)
  | extend {first pred succ : ℕ} {work : ℤ} (before : Chain first pred work)
      (link : cluster.Link pred succ) : Chain first succ (work + cluster.minServiceS pred)

variable {cluster} {assignment : FleetAssignment}

theorem starts_after_link (posted : cluster.AllPrecedencePosted assignment) {pred succ : ℕ}
    (link : cluster.Link pred succ) (active : assignment.Active succ) :
    assignment.Active pred ∧
      assignment.cumul pred + cluster.minServiceS pred ≤ assignment.cumul succ := by
  obtain ⟨order, predecessor, follows, predNode, succNode⟩ := link
  have pair := posted order predecessor follows succ pred succNode predNode
  have starts := pair.startsAfter
  rw [if_pos active, add_zero] at starts
  exact ⟨pair.activeTogether active, starts⟩

theorem starts_after_chain (posted : cluster.AllPrecedencePosted assignment) {first last : ℕ}
    {work : ℤ} (chain : cluster.Chain first last work) (active : assignment.Active last) :
    assignment.Active first ∧ assignment.cumul first + work ≤ assignment.cumul last := by
  induction chain with
  | link link => exact starts_after_link posted link active
  | extend before link ih =>
    obtain ⟨served, starts⟩ := starts_after_link posted link active
    obtain ⟨first, earlier⟩ := ih served
    exact ⟨first, by omega⟩

/-- The service time of a vehicle that no other one undercuts is the least one. -/
theorem vehicleServiceS_le_minServiceS {node : ℕ}
    (fastest : ∀ service ∈ cluster.serviceByVehicle node,
      cluster.vehicleServiceS assignment node ≤ service) :
    cluster.vehicleServiceS assignment node ≤ cluster.minServiceS node := by
  unfold minServiceS
  cases least : (cluster.serviceByVehicle node).min? with
  | none =>
    rw [List.min?_eq_none_iff] at least
    simp [vehicleServiceS, least]
  | some service => exact fastest service (List.min?_mem least)

section TwoPloughs

/-- Four hectares to plough and then to harrow, with a slow and a fast implement. -/
def ploughCluster : FleetCluster where
  orders := [{ taskId := "plough", workQuantity := 4 },
    { taskId := "harrow", dependsOnTaskRef := "plough", workQuantity := 4 }]
  implements := [{ workRates := Dict.empty.set "ha" 1 }, { workRates := Dict.empty.set "ha" 4 }]
  nowEpoch := 0

/-- The slow implement ploughs, and the fast one harrows an hour later. -/
def ploughAssignment : FleetAssignment where
  cumul node := if node = 2 then 3600 else 0
  vehicle node := if node = 1 then some 0 else if node = 2 then some 1 else none

theorem nodes_plough : ploughCluster.nodes = [.depot, .task 0, .task 1] := by decide

theorem ploughAssignment_posted : ploughCluster.AllPrecedencePosted ploughAssignment := by
  rintro order predecessor ⟨row, listed, named, located, other⟩ succ pred succNode predNode
  have inside : order < 2 := (List.getElem?_eq_some_iff.mp listed).1
  rw [nodes_plough] at succNode predNode
  have unique : [RoutingNode.depot, .task 0, .task 1].Nodup := by decide
  obtain rfl | rfl : order = 0 ∨ order = 1 := by omega
  · obtain rfl := Option.some.inj listed
    exact absurd rfl named
  · obtain rfl := Option.some.inj listed
    have first : ploughCluster.indexOf.get? "plough" = some 0 := by decide +kernel
    obtain rfl := Option.some.inj (first.symm.trans located)
    have succInside := (List.getElem?_eq_some_iff.mp succNode).1
    have predInside := (List.getElem?_eq_some_iff.mp predNode).1
    obtain rfl : succ = 2 := (List.getElem?_inj succInside unique).mp (succNode.trans rfl)
    obtain rfl : pred = 1 := (List.getElem?_inj predInside unique).mp (predNode.trans rfl)
    constructor
    · decide
    · decide +kernel

end TwoPloughs

end FleetCluster

end FlOp.Solver
