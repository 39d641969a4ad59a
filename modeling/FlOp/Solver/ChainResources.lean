import FlOp.Solver.AllocationSources
import FlOp.Solver.ChainAccounting

/-! # What a dispatched task is served with

A package names the bundle and the operator its cluster was allocated. Where the chain enforces no
profile constraint, the clusters reach the pool as the allocation left them, so that every resource
of a package can serve an order of the call or is one of its operators.
-/

namespace FlOp.Solver

open Canonical FlOp.Core Library

/-- The vehicle, the implement and the operator of a package; no operator is the empty reference. -/
def DispatchPackage.resourceIds (package : DispatchPackage) : List String :=
  [package.primeAssetId, package.relatedAssetId, package.operatorAssetId].filter (· ≠ "")

namespace SolveInputs

variable {inputs : SolveInputs} {cluster : ClusterSpec}

/-- A bundle is made up of an allocated vehicle and an implement allocated with it. -/
theorem mem_of_routingVehicles {allocated : Dict String (List String)} {bundle : RoutingVehicle}
    (member : bundle ∈ inputs.routingVehicles allocated) :
    bundle.prime.assetId ∈ allocated.keys ∧ bundle.related.assetId ∈ allocated.values.flatten := by
  obtain ⟨entry, listed, made⟩ := List.mem_filterMap.mp member
  obtain ⟨prime, drives, made⟩ := Option.bind_eq_some_iff.mp made
  obtain ⟨id, first, made⟩ := Option.bind_eq_some_iff.mp made
  obtain ⟨related, found, made⟩ := Option.bind_eq_some_iff.mp made
  obtain rfl := Option.some.inj made
  obtain ⟨vehicle, -, driven, rfl⟩ := Dict.exists_of_get?_collect drives
  obtain ⟨implement, -, carried, rfl⟩ := Dict.exists_of_get?_collect found
  refine ⟨driven ▸ List.mem_map_of_mem listed, List.mem_flatten.mpr ⟨entry.2, ?_, ?_⟩⟩
  · exact List.mem_map_of_mem listed
  · exact carried ▸ List.mem_of_mem_head? first

theorem vehicles_of_prepared {context : ClusterContext}
    (ready : inputs.prepareClusterContext cluster = .ok context) :
    context.vehicles = inputs.routingVehicles cluster.allocatedPrimeRelated := by
  unfold prepareClusterContext at ready
  dsimp only at ready
  split_ifs at ready
  cases ready
  rfl

/-- A package of a cluster is served with what the cluster was allocated. -/
theorem dispatch_resources {answer : Except String RoutingAnswer} {package : DispatchPackage}
    (member : package ∈ (inputs.solveClusterInstrumented cluster answer).dispatch) :
    package.primeAssetId ∈ cluster.allocatedPrimeRelated.keys ∧
      package.relatedAssetId ∈ cluster.allocatedPrimeRelated.values.flatten ∧
      package.operatorAssetId = cluster.servingOperator package.taskId := by
  obtain ⟨context, found, route, visit, order, ready, onRoute, -, -, rfl⟩ := dispatch_cases member
  have bundle := (List.of_mem_zip onRoute).1
  rw [vehicles_of_prepared ready] at bundle
  obtain ⟨prime, related⟩ := mem_of_routingVehicles bundle
  exact ⟨prime, related, rfl⟩

end SolveInputs

/-- Without backups the packages of a cluster use its resources only. -/
theorem SolveInputs.resourceIds_subset {inputs : SolveInputs} {cluster : ClusterSpec}
    (unqualified : cluster.taskOperators = .empty) {answer : Except String RoutingAnswer}
    {package : DispatchPackage}
    (member : package ∈ (inputs.solveClusterInstrumented cluster answer).dispatch) :
    package.resourceIds ⊆ cluster.resources := by
  obtain ⟨prime, related, operator⟩ := dispatch_resources member
  have leads : package.operatorAssetId = cluster.operatorRef := by
    rw [operator, ClusterSpec.servingOperator, unqualified]
    rfl
  intro id used
  obtain ⟨listed, named⟩ := List.mem_filter.mp used
  simp only [List.mem_cons, List.not_mem_nil, or_false] at listed
  rcases listed with rfl | rfl | rfl
  · exact List.mem_append_left _ (List.mem_append_left _ prime)
  · exact List.mem_append_left _ (List.mem_append_right _ related)
  · refine List.mem_append_right _ (List.mem_filter.mpr ⟨?_, named⟩)
    exact List.mem_singleton.mpr leads

namespace ChainInputs

/-- The call enforces neither operator qualification nor material limits. -/
def Unenforced (inputs : ChainInputs) : Prop :=
  inputs.operatorQualification = false ∧ inputs.materialDemand.entries = []

variable {inputs : ChainInputs} (unenforced : inputs.Unenforced) (assignment : inputs.Assignment)
  (order : SetOrder String)

include unenforced in
/-- Without constraints the pool is given the clusters of the allocation. -/
theorem clusters_batch :
    (inputs.batch assignment order).clusters = (inputs.allocated assignment).clusters := by
  have qualified : (inputs.qualified assignment order).clusters =
      (inputs.allocated assignment).clusters := by
    rw [ChainInputs.qualified, unenforced.1]
    rfl
  have charged : (inputs.charged assignment order).2 =
      (inputs.qualified assignment order).clusters := by
    have free : inputs.materialInputs.materialDemand.entries.isEmpty := by
      rw [materialInputs, unenforced.2]
      rfl
    rw [ChainInputs.charged, applyMaterialLimits]
    simp only [free, if_true]
  exact charged.trans qualified

end ChainInputs

namespace ChainRun

variable {inputs : ChainInputs} (run : ChainRun inputs)

/-- A dispatched task comes from the solve of a cluster of the batch. -/
theorem exists_cluster {result : SolverChainResult} (outcome : run.outcome = some result)
    {package : DispatchPackage} (member : package ∈ result.dispatch) :
    ∃ cluster ∈ run.batch.clusters, package ∈
      (inputs.solveInputs.solveClusterInstrumented cluster (run.search cluster)).dispatch := by
  obtain ⟨finds, result', solved⟩ := run.exists_solved outcome
  rw [run.outcome_of_solved finds solved] at outcome
  obtain rfl := Option.some.inj outcome
  have dispatched := (runSolverChain_dispatch_sublist _).subset member
  obtain ⟨seen, missed, parts, -, reports⟩ := PoolExecution.reports_poolSolve solved
  obtain ⟨cluster, listed, _, rfl, kept⟩ := reports.exists_of_dispatch dispatched
  exact ⟨cluster, parts.subset (List.mem_append_left _ listed), kept⟩

/-- A dispatched task is that of an order that went on, and starts from the planning origin on. -/
theorem exists_order {result : SolverChainResult} (outcome : run.outcome = some result)
    {package : DispatchPackage} (member : package ∈ result.dispatch) :
    (∃ order ∈ inputs.solvable, order.taskId = package.taskId) ∧
      (inputs.now.truncated : ℚ) ≤ package.scheduledStart := by
  obtain ⟨cluster, listed, kept⟩ := run.exists_cluster outcome member
  exact SolveInputs.dispatch_given (run.known listed) kept

/-- Without constraints every resource of a dispatched task is offered to the allocation. -/
theorem offers_of_dispatch (unenforced : inputs.Unenforced) {result : SolverChainResult}
    (outcome : run.outcome = some result) {package : DispatchPackage}
    (member : package ∈ result.dispatch) :
    ∀ id ∈ package.resourceIds, inputs.allocationInputs.Offers id := by
  obtain ⟨cluster, listed, kept⟩ := run.exists_cluster outcome member
  rw [batch, ChainInputs.clusters_batch unenforced] at listed
  have own := SolveInputs.resourceIds_subset
    ((inputs.allocated run.assignment).unqualified cluster listed) kept
  intro id used
  exact AllocationInputs.offers_allocateResources _ _ _ _ cluster listed id (own used)

end ChainRun

end FlOp.Solver
