import FlOp.Rolling.Disposition

/-! # What a compile accounts for

A snapshot task is preserved or handed to the solve exactly once, unless it is under way
without an assignment to preserve; and preserved work occupies live assets only, unless the
missing one is an operator.
-/

namespace FlOp.Rolling

open Canonical FlOp.Core Library Solver

section Accounting

variable (settings : RollingSettings) (order : SetOrder String) (solver : Solver)
  (snapshot : PlanningSnapshot) (config : RollingConfig)

/-- How often a compile accounts for a task id: its frozen and its carried-forward assignments,
and whether it is handed to the re-solve. -/
def timesAccounted (id : String) : ℕ :=
  let result := compileRollingState settings order solver snapshot config
  let handed := (rollingPartition settings order snapshot config).tasksToResolve
  (result.frozenAssignments.map (·.taskId)).count id +
    (result.carriedForward.map (·.taskId)).count id + if id ∈ handed then 1 else 0

/-- Preserved assignments of current tasks name only assets of the snapshot. -/
def PreservedLive : Prop :=
  let result := compileRollingState settings order solver snapshot config
  ∀ a ∈ result.frozenAssignments ++ result.carriedForward, a.taskId ∈ snapshot.taskIds →
    ∀ id ∈ a.resourceIds, id ∈ snapshot.assetIds

/-- The task of a previous assignment that lost a resource is handed to the re-solve, or is
covered by another preserved assignment whose resources are all live. -/
def LossReleased : Prop :=
  let result := compileRollingState settings order solver snapshot config
  let handed := (rollingPartition settings order snapshot config).tasksToResolve
  ∀ prev ∈ config.previousAssignments, prev.taskId ∈ snapshot.taskIds →
    (∃ id ∈ prev.resourceIds, id ∉ snapshot.assetIds) →
      prev.taskId ∈ handed ∨
        ∃ a ∈ result.frozenAssignments ++ result.carriedForward, a.taskId = prev.taskId ∧
          ∀ id ∈ a.resourceIds, id ∈ snapshot.assetIds

end Accounting

section Partition

variable {settings : RollingSettings} {order : SetOrder String} {snapshot : PlanningSnapshot}
  {config : RollingConfig}

/-- Frozen ids with a previous assignment, once each. -/
private theorem frozenAssignments_taskIds :
    ((rollingPartition settings order snapshot config).frozenAssignments.map (·.taskId)) =
      (order.toList (rollingPartition settings order snapshot config).frozenIds).filter fun id =>
        (config.previousByTask.get? id).isSome := by
  simp only [rollingPartition, List.map_filterMap]
  induction order.toList _ with
  | nil => rfl
  | cons id rest ih =>
    cases found : config.previousByTask.get? id with
    | none =>
      simpa only [List.filterMap_cons, List.filter_cons, found, Option.map_none,
        Option.isSome_none, Bool.false_eq_true, if_false] using ih
    | some prev =>
      obtain ⟨-, same⟩ := previousByTask_spec found
      simp only [List.filterMap_cons, List.filter_cons, found, Option.map_some,
        Option.isSome_some, if_true, same, ih]

open scoped Classical in
private theorem count_frozenAssignments (id : String) :
    ((rollingPartition settings order snapshot config).frozenAssignments.map (·.taskId)).count id =
      if Freezes settings snapshot config id ∧ (config.previousByTask.get? id).isSome
        then 1 else 0 := by
  rw [frozenAssignments_taskIds, ((order.nodup _).filter _).count]
  simp only [List.mem_filter, SetOrder.mem, mem_frozenIds]

private theorem nodup_carriedForward
    (unique : (config.previousAssignments.map (·.taskId)).Nodup) :
    ((rollingPartition settings order snapshot config).carriedForward.map (·.taskId)).Nodup := by
  simp only [rollingPartition, carriedForwardAssignments, List.map_map]
  exact unique.sublist (List.filter_sublist.map _)

/-- The ids carried forward are the kept ids that are not frozen. -/
private theorem mem_carriedForward_taskIds {id : String} :
    id ∈ (rollingPartition settings order snapshot config).carriedForward.map (·.taskId) ↔
      ¬ Freezes settings snapshot config id ∧ KeepsTask settings snapshot config id := by
  simp only [List.mem_map, mem_carriedForward]
  constructor
  · rintro ⟨_, ⟨prev, member, loose, current, calm, intact, rfl⟩, rfl⟩
    exact ⟨loose, prev, .carried member loose current calm intact, rfl⟩
  · rintro ⟨loose, prev, kept, rfl⟩
    cases kept with
    | frozen _ freezes => exact absurd freezes loose
    | carried member _ current calm intact =>
      exact ⟨_, ⟨prev, member, loose, current, calm, intact, rfl⟩, rfl⟩

/-- A current task is accounted for once unless it is frozen without an assignment. -/
private theorem timesAccounted_eq_one (solver : Solver)
    (unique : (config.previousAssignments.map (·.taskId)).Nodup) {id : String}
    (current : id ∈ snapshot.taskIds) :
    timesAccounted settings order solver snapshot config id = 1 ↔
      (Freezes settings snapshot config id → (config.previousByTask.get? id).isSome) := by
  classical
  simp only [timesAccounted, compileRollingState, count_frozenAssignments,
    (nodup_carriedForward unique).count, mem_tasksToResolve, mem_carriedForward_taskIds, Resolves]
  by_cases freezes : Freezes settings snapshot config id
  · simp [freezes, Option.isSome_iff_ne_none]
  · by_cases kept : KeepsTask settings snapshot config id
    · simp [freezes, kept]
    · simp [freezes, kept, current, -PlanningSnapshot.mem_taskIds]

/-- A compile accounts for every snapshot task exactly once if and only if every started task
has a previous assignment. -/
theorem timesAccounted_eq_one_iff (settings : RollingSettings) (order : SetOrder String)
    (solver : Solver) (snapshot : PlanningSnapshot) (config : RollingConfig)
    (unique : (config.previousAssignments.map (·.taskId)).Nodup) :
    (∀ task ∈ snapshot.tasks,
        timesAccounted settings order solver snapshot config task.taskId = 1) ↔
      ∀ task ∈ snapshot.tasks, task.status = startedStatus →
        ∃ prev ∈ config.previousAssignments, prev.taskId = task.taskId := by
  have accounted : ∀ task ∈ snapshot.tasks,
      (timesAccounted settings order solver snapshot config task.taskId = 1 ↔
        (Freezes settings snapshot config task.taskId →
          (config.previousByTask.get? task.taskId).isSome)) := fun task member =>
    timesAccounted_eq_one solver unique (PlanningSnapshot.mem_taskIds.mpr ⟨task, member, rfl⟩)
  constructor
  · intro once task member started
    rw [← isSome_previousByTask]
    by_contra missing
    have freezes : Freezes settings snapshot config task.taskId := by
      refine ⟨.inl ⟨task, member, started, rfl⟩, fun prev found => ?_⟩
      exact absurd (Option.isSome_iff_exists.mpr ⟨prev, found⟩) missing
    exact missing ((accounted task member).mp (once task member) freezes)
  · intro assigned task member
    refine (accounted task member).mpr fun freezes => ?_
    rcases freezes.1 with ⟨other, otherMember, started, same⟩ | ⟨prev, found, -⟩
    · exact isSome_previousByTask.mpr (same ▸ assigned other otherMember started)
    · exact Option.isSome_iff_exists.mpr ⟨prev, found⟩

/-- One task, planned two hours ahead, in a plan of its own. -/
def mowingPlan : Plan where
  planId := "plan-rolling-1"
  revisionId := "rev-1"
  originPlanId := "plan-rolling-1"
  snapshotId := "snapshot-1"
  generatedAt := 0
  effectiveFrom := 0
  assignments := [{
    assignmentId := "assign-mow-1"
    taskId := "mow-1"
    bundleId := "bundle-1"
    assetIds := ["tractor-1", "mower-1"]
    operatorIds := ["operator-1"]
    plannedStart := 7200
    plannedFinish := 10800 }]

/-- The mowing task is under way; its equipment is known, its operator is not. -/
def mowingSnapshot (status : String) : PlanningSnapshot where
  snapshotId := "snapshot-2"
  effectiveAt := 0
  assets := [{ assetId := "tractor-1" }, { assetId := "mower-1" }]
  tasks := [{ taskId := "mow-1", status := status }]

theorem timesAccounted_eq_one_iff_mowing :
    (∀ task ∈ (mowingSnapshot "started").tasks,
        timesAccounted {} .increasing SolverStages.unserved (mowingSnapshot "started")
          { previousPlan := some mowingPlan } task.taskId = 1) ↔
      ∀ task ∈ (mowingSnapshot "started").tasks, task.status = startedStatus →
        ∃ prev ∈ mowingPlan.assignments, prev.taskId = task.taskId :=
  timesAccounted_eq_one_iff {} .increasing SolverStages.unserved (mowingSnapshot "started")
    { previousPlan := some mowingPlan } (by decide)

/-- A baseline build drops a task that is already started: nothing preserves or re-solves it. -/
theorem baseline_loses_started_task :
    (({} : RollingConfig).previousAssignments.map (·.taskId)).Nodup ∧
      ¬ ∀ task ∈ (mowingSnapshot "started").tasks,
        timesAccounted {} .increasing SolverStages.unserved (mowingSnapshot "started") {}
          task.taskId = 1 := by
  decide +kernel

/-- Preserved work is live and losses are released if and only if no kept assignment of a
current task names a missing operator. -/
theorem preserved_live_iff (settings : RollingSettings) (order : SetOrder String) (solver : Solver)
    (snapshot : PlanningSnapshot) (config : RollingConfig) :
    (PreservedLive settings order solver snapshot config ∧
        LossReleased settings order solver snapshot config) ↔
      ∀ prev, Keeps settings snapshot config prev → prev.taskId ∈ snapshot.taskIds →
        ∀ id ∈ prev.operatorIds, id ∈ snapshot.assetIds := by
  constructor
  · rintro ⟨live, -⟩ prev kept current id operator
    obtain ⟨a, held, same⟩ := kept.exists_mem_held order
    refine live a held (same.taskId ▸ current) id ?_
    exact List.mem_append_right _ (same.operatorIds ▸ operator)
  · intro staffed
    have keptLive : ∀ prev, Keeps settings snapshot config prev → prev.taskId ∈ snapshot.taskIds →
        ∀ id ∈ prev.resourceIds, id ∈ snapshot.assetIds := by
      intro prev kept current id resource
      rcases List.mem_append.mp resource with asset | operator
      · exact kept.intact current id asset
      · exact staffed prev kept current id operator
    refine ⟨?_, ?_⟩
    · intro a held current
      obtain ⟨prev, kept, same⟩ := exists_keeps_of_mem_held held
      rw [same.resourceIds]
      exact keptLive prev kept (same.taskId ▸ current)
    · intro prev member current lost
      refine or_iff_not_imp_left.mpr fun unresolved => ?_
      rw [mem_tasksToResolve] at unresolved
      -- the task is not re-solved, so one of its previous assignments is kept
      have keepsTask : KeepsTask settings snapshot config prev.taskId := by
        by_contra notKept
        refine unresolved ⟨current, fun freezes => notKept ?_, notKept⟩
        obtain ⟨last, found⟩ :=
          Option.isSome_iff_exists.mp (isSome_previousByTask.mpr ⟨prev, member, rfl⟩)
        have sameId := (previousByTask_spec found).2
        exact ⟨last, .frozen (sameId.symm ▸ found) (sameId.symm ▸ freezes), sameId⟩
      obtain ⟨other, kept, sameId⟩ := keepsTask
      obtain ⟨a, held, same⟩ := kept.exists_mem_held order
      refine ⟨a, held, same.taskId.trans sameId, ?_⟩
      rw [same.resourceIds]
      exact keptLive other kept (sameId ▸ current)

/-- A carried-forward assignment keeps an operator that left the snapshot. -/
theorem carried_keeps_lost_operator :
    ¬ (PreservedLive {} .increasing SolverStages.unserved (mowingSnapshot "pending")
          { previousPlan := some mowingPlan } ∧
        LossReleased {} .increasing SolverStages.unserved (mowingSnapshot "pending")
          { previousPlan := some mowingPlan }) := by
  rintro ⟨live, -⟩
  have missing : "operator-1" ∉ (mowingSnapshot "pending").assetIds := by decide
  refine missing (live { (mowingPlan.assignments.head (by decide)) with isFrozen := false } ?_ ?_ _ ?_)
  · decide +kernel
  · decide
  · decide

end Partition

end FlOp.Rolling
