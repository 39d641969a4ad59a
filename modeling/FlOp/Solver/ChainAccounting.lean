import FlOp.Solver.ChainRun

/-! # Chain accounting

A run of the chain accounts for every task and every group of alternatives, but for what is lost on
the way: the orders whose site is not known, which the clustering leaves out, and the clusters whose
futures were done when a timeout fired but had not been handed out. It records an order twice that
was set aside in a cluster for which no routes are found.
-/

namespace FlOp.Solver

open Canonical FlOp.Core Library

/-- A task that has the name of a group is one of it. -/
def ChainInputs.NamesGroupsAfterMembers (inputs : ChainInputs) : Prop :=
  ∀ row ∈ inputs.tasks, row.alternativeGroupRef ≠ "" → ∀ other ∈ inputs.tasks,
    other.taskId = row.alternativeGroupRef → other.alternativeGroupRef = row.alternativeGroupRef

instance (inputs : ChainInputs) : Decidable inputs.NamesGroupsAfterMembers :=
  inferInstanceAs (Decidable (∀ row ∈ inputs.tasks, _))

namespace ChainRun

variable {inputs : ChainInputs} (run : ChainRun inputs)

/-- The tasks that get neither a package nor a record of their own. -/
def lost : List String := inputs.unlocated.map (·.taskId) ++ run.execution.unseen

/-- There are depots to assign orders to, and the pool returns. -/
def Returns : Prop := inputs.FindsDepots ∧ run.execution.Returns

/-- Only alternatives are lost, and of no group all of them. -/
def LosesAlternativesOnly : Prop := LosesAlternatives inputs.tasks run.lost

/-- In a cluster whose solve is taken and found no routes, only alternatives were set aside. -/
def SetsAsideAlternatives : Prop :=
  ∀ cluster ∈ run.execution.taken,
    inputs.solveInputs.SetsAsideAlternatives cluster (run.search cluster)

/-- The orders that the pool records twice. -/
def recordedTwice : List String :=
  run.execution.taken.flatMap fun cluster =>
    (inputs.solveInputs.recordedTwice cluster (run.search cluster)).map (·.taskId)

/-- The chain returns and accounts for its tasks. -/
def Accounts : Prop :=
  ∃ result, run.outcome = some result ∧ ChainAccounts inputs.tasks
    (result.dispatch.map (·.taskId)) (result.infeasible.map (·.taskId))

variable {run}

theorem nameMembers (naming : inputs.NamesGroupsAfterMembers) :
    GroupsNameMembers (groupOf inputs.tasks) (inputs.tasks.map (·.taskId)) := by
  intro task member grouped named
  obtain ⟨row, given, rfl⟩ := List.mem_map.mp member
  obtain ⟨other, otherGiven, same⟩ := List.mem_map.mp named
  rw [groupOf_of_mem inputs.unique_tasks given] at grouped same ⊢
  rw [← same, groupOf_of_mem inputs.unique_tasks otherGiven]
  exact (naming row given grouped other otherGiven same).trans same.symm

theorem outcome_of_solved (finds : inputs.FindsDepots) {result : ClusterResult}
    (solved : run.execution.poolSolve = some result) :
    run.outcome = some (runSolverChain inputs.call (run.stages solved)) := by
  unfold outcome
  rw [if_pos finds]
  split
  · next unsolved =>
    rw [solved] at unsolved
    cases unsolved
  · next other otherSolved =>
    obtain rfl : result = other := Option.some.inj (solved.symm.trans otherSolved)
    rfl

theorem exists_solved {result : SolverChainResult} (outcome : run.outcome = some result) :
    inputs.FindsDepots ∧ ∃ solved, run.execution.poolSolve = some solved := by
  unfold ChainRun.outcome at outcome
  split at outcome
  · next finds =>
    split at outcome
    · cases outcome
    · next solved found => exact ⟨finds, solved, found⟩
  · cases outcome

/-- The tasks recorded before the pool. -/
def recordedBefore (run : ChainRun inputs) : List String :=
  inputs.excluded.map (·.taskId) ++ inputs.cascade.2.map (·.taskId) ++
    run.unresourced.map (·.taskId)

/-- Every task is recorded before the pool, in a cluster that is reported on, or lost. -/
theorem perm_tasks (finds : inputs.FindsDepots) {seen missed : List ClusterSpec}
    (parts : (seen ++ missed).Perm run.batch.clusters)
    (unseen : clusterTasks missed = run.execution.unseen) :
    ((run.recordedBefore ++ clusterTasks seen) ++ run.lost).Perm
      (inputs.tasks.map (·.taskId)) := by
  have filtered := inputs.perm_excluded
  have cascaded : (inputs.cascade.1.map (·.taskId) ++ inputs.cascade.2.map (·.taskId)).Perm
      (inputs.admitted.map (·.taskId)) := by
    have all := perm_applyDependencyFilter (inputs.admitted.map (·.toTaskRow))
      (inputs.excluded.map (·.taskId)).toFinset
    rwa [List.map_map] at all
  have solvable := inputs.perm_solvable
  have clustered := inputs.perm_depotClusters finds
  have allocated := inputs.perm_allocated run.assignment
  have charged : (clusterTasks run.batch.clusters ++ run.unresourced.map (·.taskId)).Perm
      (clusterTasks (inputs.allocated run.assignment).clusters) := by
    rw [unresourced, List.map_append]
    exact (inputs.excludes_charged run.assignment run.order).perm
  have pooled := parts.flatMap_right ClusterSpec.taskIds
  rw [List.flatMap_append] at pooled
  refine List.perm_iff_count.mpr fun id => ?_
  have filtered := filtered.count_eq id
  have cascaded := cascaded.count_eq id
  have solvable := solvable.count_eq id
  have clustered := clustered.count_eq id
  have allocated := allocated.count_eq id
  have charged := charged.count_eq id
  have pooled : (clusterTasks seen ++ clusterTasks missed).count id =
      (clusterTasks run.batch.clusters).count id := pooled.count_eq id
  simp only [recordedBefore, lost, ← unseen, List.count_append] at *
  omega

/-- What the chain dispatches and records before the collapse settles the tasks that are not lost,
up to the records made twice. -/
theorem settles_outcomes (naming : inputs.NamesGroupsAfterMembers) (finds : inputs.FindsDepots)
    {result : ClusterResult} (solved : run.execution.poolSolve = some result) :
    let outcomes := enforceDependencyOutcomes result.dispatch
      (inputs.excluded ++ inputs.cascade.2 ++ (run.unresourced ++ result.infeasible))
      inputs.cascade.1
    ∃ kept recorded, (kept ++ run.lost).Perm (inputs.tasks.map (·.taskId)) ∧
      run.recordedTwice ⊆ kept ∧
      (outcomes.2.map (·.taskId)).Perm (run.recordedTwice ++ recorded) ∧
      Settles (groupOf inputs.tasks) kept (outcomes.1.map (·.taskId)) recorded := by
  intro outcomes
  obtain ⟨seen, missed, parts, unseen, reports⟩ := PoolExecution.reports_poolSolve solved
  have whole := perm_tasks finds parts unseen
  have distinct : (run.recordedBefore ++ clusterTasks seen).Nodup :=
    (List.nodup_append'.mp (whole.nodup_iff.mpr inputs.unique_tasks)).1
  obtain ⟨nodupBefore, nodupSeen, disjoint⟩ := List.nodup_append'.mp distinct
  have named : GroupsNameMembers (groupOf inputs.tasks)
      (run.recordedBefore ++ clusterTasks seen) :=
    (nameMembers naming).subset fun id member => whole.subset (List.mem_append_left _ member)
  have listed : ∀ cluster ∈ seen, cluster ∈ run.batch.clusters :=
    fun cluster member => parts.subset (List.mem_append_left _ member)
  have separate : seen.Pairwise fun a b =>
      SeparateGroups (groupOf inputs.tasks) a.taskIds b.taskIds := by
    have batch : run.batch.clusters.Pairwise fun a b =>
        SeparateGroups (groupOf inputs.tasks) a.taskIds b.taskIds :=
      (inputs.excludes_charged run.assignment run.order).whole
        (inputs.separate_allocated run.assignment)
    exact (List.pairwise_append.mp
      ((parts.pairwise_iff fun separate => separate.symm).mpr batch)).1
  obtain ⟨recorded, repeated, pooled⟩ : ∃ recorded,
      (result.infeasible.map (·.taskId)).Perm (run.recordedTwice ++ recorded) ∧
        Settles (groupOf inputs.tasks) (clusterTasks seen) (result.dispatch.map (·.taskId))
          recorded := by
    refine reports.settles ?_ nodupSeen
      (named.subset (List.subset_append_right _ _)) separate
    rintro cluster member _ rfl
    exact SolveInputs.settles_solveCluster (fun order given => inputs.groupOf_solvable given)
      ((List.nodup_flatMap.mp nodupSeen).1 cluster member) (run.known (listed cluster member))
      (named.subset fun id inside => List.mem_append_right _
        (List.mem_flatMap.mpr ⟨cluster, member, inside⟩))
      (run.posted cluster)
  have before := (Settles.ofRecorded nodupBefore).append pooled disjoint named
    fun id none => absurd none List.not_mem_nil
  obtain ⟨withdrawn, records, dispatches⟩ := perm_enforceDependencyOutcomes result.dispatch
    (inputs.excluded ++ inputs.cascade.2 ++ (run.unresourced ++ result.infeasible))
    inputs.cascade.1
  refine ⟨_, _, whole, ?_, ?_, before.withdraw dispatches⟩
  · intro id twice
    obtain ⟨cluster, taken, aside⟩ := List.mem_flatMap.mp twice
    obtain ⟨order, again, rfl⟩ := List.mem_map.mp aside
    have member := reports.taken_subset taken
    have inside := (SolveInputs.recordedTwice_given (run.known (listed cluster member)) again).2
    exact List.mem_append_right _ (List.mem_flatMap.mpr ⟨cluster, member, inside⟩)
  · refine List.perm_iff_count.mpr fun id => ?_
    have counts := repeated.count_eq id
    simp only [outcomes, records, recordedBefore, List.map_append, List.count_append] at counts ⊢
    omega

/-- The orders recorded twice are alternatives exactly if those set aside are. -/
theorem grouped_recordedTwice_iff
    (listed : ∀ cluster ∈ run.execution.taken, cluster ∈ run.batch.clusters) :
    (∀ id ∈ run.recordedTwice, groupOf inputs.tasks id ≠ "") ↔ run.SetsAsideAlternatives := by
  simp only [recordedTwice, SetsAsideAlternatives, List.forall_mem_flatMap, List.forall_mem_map,
    SolveInputs.setsAsideAlternatives_iff]
  refine forall₂_congr fun cluster taken => forall₂_congr fun order again => ?_
  rw [inputs.groupOf_solvable
    (SolveInputs.recordedTwice_given (run.known (listed cluster taken)) again).1]

end ChainRun

/-- An order of its own and two alternatives at one field, and one bundle for them. -/
def fieldInputs : ChainInputs where
  orders := [{ taskId := "mow-1", locationRef := "field-1", operationType := "MOWING" },
    { taskId := "drop-van", alternativeGroupRef := "drop", locationRef := "field-1" },
    { taskId := "drop-drone", alternativeGroupRef := "drop", locationRef := "field-1" }]
  sites := ["field-1"]
  depots := [{ locationId := "depot-1" }]
  vehicles := [{ assetId := "tractor-1" }]
  implements := [{ assetId := "mower-1" }]
  now := 0
  feasiblePairs _ := Dict.empty.set "mow-1" [(0, 0)]
  upper := id
  allocation := { globalAssignmentEnabled := false }
  unique := by decide

/-- The one cluster of the orders. -/
def fieldCluster : ClusterSpec where
  clusterId := "cluster_000000"
  depotRef := "depot-1"
  taskIds := ["mow-1", "drop-van", "drop-drone"]
  allocatedPrimeRelated := Dict.empty.set "tractor-1" ["mower-1"]

/-- The bundle mows and then drops off the second alternative. -/
def fieldRoutes : RoutesFound where
  routes := [[⟨0, 0⟩, ⟨1, 600⟩, ⟨3, 1200⟩, ⟨0, 1800⟩]]
  dispatchId _ := "dispatch-1"
  marginEur _ := 0

/-- The worker of the cluster returns in time. -/
def fieldRun : ChainRun fieldInputs where
  assignment := none
  order := .increasing
  search cluster := if cluster = fieldCluster then .ok { found := some fieldRoutes } else .error ""
  posted cluster context ready routed answered found solved := by
    split at answered
    · next same =>
      subst same
      cases answered
      cases solved
      have routable : fieldInputs.solveInputs.prepareClusterContext fieldCluster =
          .ok ⟨fieldInputs.orders, [⟨{ assetId := "tractor-1" }, { assetId := "mower-1" }⟩], []⟩ := by
        decide +kernel
      cases routable.symm.trans ready
      exact ⟨by decide +kernel, by decide +kernel⟩
    · cases answered
  execution :=
    { parallel :=
        { submitted := true
          arrivals := [(fieldCluster, .returned (fieldInputs.solveInputs.solveClusterInstrumented
            fieldCluster (.ok { found := some fieldRoutes })))]
          stragglers := []
          accounts := by decide +kernel
          honest := by
            intro cluster result listed
            obtain ⟨rfl, rfl⟩ := by simpa using listed
            rfl }
      grouped := .none (by decide +kernel)
      timeoutS := 120
      groupTimeoutS := 0 }

/-- One order at a site that is not in the site table. -/
def strayInputs : ChainInputs where
  orders := [{ taskId := "mow-1", locationRef := "field-9", operationType := "MOWING" }]
  sites := ["field-1"]
  depots := [{ locationId := "depot-1" }]
  now := 0
  upper := id
  unique := by decide

/-- No cluster holds the order, and the pool has nothing to do. -/
def strayRun : ChainRun strayInputs where
  assignment := none
  order := .increasing
  search _ := .error ""
  posted _ _ _ _ answered := nomatch answered
  execution :=
    { parallel :=
        { submitted := true
          arrivals := []
          stragglers := []
          accounts := by decide +kernel
          honest := nofun }
      grouped := .none (by decide +kernel)
      timeoutS := 120
      groupTimeoutS := 0 }

end FlOp.Solver
