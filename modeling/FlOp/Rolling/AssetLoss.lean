import FlOp.Library.KeyedRows
import FlOp.Rolling.Accounting
import FlOp.Rolling.Continuity

/-! # The asset-loss ledger of a revision

A revision records the tasks it repaired because their assets disappeared. Two passes write the
record: one releases frozen work, the other looks at everything that is not frozen any more, and
so meets the released work again.
-/

namespace FlOp.Rolling

open Adapters Canonical FlOp.Core Library Planning Solver

instance (snapshot : PlanningSnapshot) (prev : Assignment) : Decidable (Intact snapshot prev) :=
  inferInstanceAs (Decidable (∀ id ∈ prev.assetIds, id ∈ snapshot.assetIds))

/-- Tasks still in the snapshot whose previous assignment lost an asset. -/
def lossTasks (snapshot : PlanningSnapshot) (config : RollingConfig) : Finset String :=
  ((config.previousAssignments.filter fun prev =>
    prev.taskId ∈ snapshot.taskIds ∧ ¬ Intact snapshot prev).map (·.taskId)).toFinset

/-- The tasks of the repairs after an asset loss that a list of actions records, in order. -/
def assetLossRecords (actions : List CorrectiveAction) : List String :=
  (actions.filter fun action => action.action = .reassignedAfterAssetLoss).map (·.taskId)

/-- A plan records each given task once, no other task, and counts the given tasks. -/
def LedgerOf (plan : Plan) (tasks : Finset String) : Prop :=
  (∀ id, (assetLossRecords plan.correctiveActions).count id = if id ∈ tasks then 1 else 0) ∧
    plan.score.nRepairedAfterAssetLoss = tasks.card

section Records

variable {settings : RollingSettings} {order : SetOrder String} {snapshot : PlanningSnapshot}
  {config : RollingConfig}

@[simp] theorem mem_lossTasks {id : String} :
    id ∈ lossTasks snapshot config ↔
      ∃ prev ∈ config.previousAssignments,
        prev.taskId = id ∧ id ∈ snapshot.taskIds ∧ ¬ Intact snapshot prev := by
  simp only [lossTasks, List.mem_toFinset, List.mem_map, List.mem_filter, decide_eq_true_eq]
  constructor
  · rintro ⟨prev, ⟨member, current, lost⟩, rfl⟩
    exact ⟨prev, member, rfl, current, lost⟩
  · rintro ⟨prev, member, rfl, current, lost⟩
    exact ⟨prev, ⟨member, current, lost⟩, rfl⟩

@[simp] theorem assetLossRecords_append (first second : List CorrectiveAction) :
    assetLossRecords (first ++ second) = assetLossRecords first ++ assetLossRecords second := by
  rw [assetLossRecords, List.filter_append, List.map_append]
  rfl

/-- Actions of another type record no repair. -/
private theorem assetLossRecords_eq_nil {actions : List CorrectiveAction}
    (others : ∀ action ∈ actions, action.action ≠ .reassignedAfterAssetLoss) :
    assetLossRecords actions = [] := by
  rw [assetLossRecords, List.map_eq_nil_iff, List.filter_eq_nil_iff]
  intro action member repair
  exact others action member (of_decide_eq_true repair)

/-- Lists of repairs record their tasks. -/
private theorem assetLossRecords_of_repairs {actions : List CorrectiveAction}
    (repairs : ∀ action ∈ actions, action.action = .reassignedAfterAssetLoss) :
    assetLossRecords actions = actions.map (·.taskId) := by
  rw [assetLossRecords, List.filter_eq_self.mpr fun action member =>
    decide_eq_true (repairs action member)]

/-- The release of frozen work records each released task, once. -/
theorem assetLossRecords_released (frozenIds available current : Finset String)
    (previousByTask : Dict String Assignment) :
    assetLossRecords
        (releaseLostAssetAssignments frozenIds previousByTask available current).2 =
      (sorted frozenIds).filter fun id =>
        (releaseAction previousByTask available current id).isSome := by
  rw [releaseLostAssetAssignments, assetLossRecords_of_repairs]
  · rw [map_filterMap_of_keeps fun id _ action released => (releaseAction_spec released).1,
      List.map_id']
  · intro action member
    obtain ⟨id, -, released⟩ := List.mem_filterMap.mp member
    exact (releaseAction_spec released).2

/-- The pass over the remaining work records each previous assignment that is not frozen, is
still current and lost an asset. -/
theorem assetLossRecords_carried (frozenIds : Finset String) :
    assetLossRecords (carriedAssetLossActions config.previousAssignments frozenIds
        snapshot.taskIds snapshot.assetIds) =
      (config.previousAssignments.filter fun prev => prev.taskId ∉ frozenIds ∧
        prev.taskId ∈ snapshot.taskIds ∧ ¬ Intact snapshot prev).map (·.taskId) := by
  rw [carriedAssetLossActions, assetLossRecords_of_repairs]
  · refine (map_filterMap_of_keeps fun prev _ action recorded => ?_).trans
      (congrArg _ (List.filter_congr fun prev _ => ?_))
    · dsimp only at recorded
      split_ifs at recorded
      rw [← Option.some.inj recorded]
      rfl
    · rw [Bool.eq_iff_iff, decide_eq_true_eq]
      dsimp only
      split_ifs with skipped kept
      · simp only [Option.isSome_none, Bool.false_eq_true, false_iff]
        tauto
      · have intact : Intact snapshot prev := (lostAssets_eq_nil _ _).mp kept
        simp [intact]
      · simp only [Option.isSome_some, true_iff]
        rw [lostAssets_eq_nil] at kept
        tauto
  · intro action member
    obtain ⟨prev, -, recorded⟩ := List.mem_filterMap.mp member
    dsimp only at recorded
    split_ifs at recorded
    rw [← Option.some.inj recorded]
    rfl

/-- A compile records the repairs of the two passes and no others. -/
private theorem assetLossRecords_compile (settings : RollingSettings) (order : SetOrder String)
    (snapshot : PlanningSnapshot) (config : RollingConfig) :
    assetLossRecords (rollingPartition settings order snapshot config).correctiveActions =
      ((sorted (frozenTaskIds settings snapshot config.previousByTask
          (config.nowFor snapshot))).filter fun id =>
        (releaseAction config.previousByTask snapshot.assetIds snapshot.taskIds id).isSome) ++
      (config.previousAssignments.filter fun prev =>
        prev.taskId ∉ (rollingPartition settings order snapshot config).frozenIds ∧
          prev.taskId ∈ snapshot.taskIds ∧ ¬ Intact snapshot prev).map (·.taskId) := by
  have escalations : assetLossRecords (escalatedServiceTasks snapshot
      config.previousServiceReasons config.previousByTask).2 = [] := by
    refine assetLossRecords_eq_nil fun action member => ?_
    obtain ⟨task, -, recorded⟩ := List.mem_filterMap.mp member
    cases reason : config.previousServiceReasons.get? task.taskId with
    | none => simp [reason] at recorded
    | some previousReason =>
      simp only [reason] at recorded
      split_ifs at recorded
      rw [← Option.some.inj recorded]
      exact fun repaired => by cases repaired
  have withdrawals : assetLossRecords (withdrawnServiceActions config.previousPlan
      snapshot.taskIds snapshot config.previousServiceReasons) = [] := by
    refine assetLossRecords_eq_nil fun action member => ?_
    unfold withdrawnServiceActions at member
    cases parent : config.previousPlan with
    | none => simp [parent] at member
    | some plan =>
      simp only [parent, List.mem_map] at member
      obtain ⟨taskId, -, rfl⟩ := member
      exact fun repaired => by cases repaired
  simp only [rollingPartition, assetLossRecords_append, escalations, withdrawals,
    List.append_nil, assetLossRecords_released, assetLossRecords_carried]
  rfl

variable (unique : (config.previousAssignments.map (·.taskId)).Nodup)
include unique

/-- With unique task ids the lookup finds each previous assignment. -/
private theorem get?_previousByTask {prev : Assignment}
    (member : prev ∈ config.previousAssignments) :
    config.previousByTask.get? prev.taskId = some prev := by
  obtain ⟨found, lookup⟩ := Option.isSome_iff_exists.mp
    (isSome_previousByTask.mpr ⟨prev, member, rfl⟩)
  obtain ⟨foundMember, sameId⟩ := previousByTask_spec lookup
  rw [lookup, List.inj_on_of_nodup_map unique foundMember member sameId]

/-- Work is released exactly when its task lost an asset. -/
private theorem isSome_releaseAction {id : String} :
    (releaseAction config.previousByTask snapshot.assetIds snapshot.taskIds id).isSome ↔
      id ∈ lossTasks snapshot config := by
  rw [← not_iff_not, Bool.not_eq_true, Option.isSome_eq_false_iff, Option.isNone_iff_eq_none,
    releaseAction_eq_none, mem_lossTasks]
  constructor
  · rintro intact ⟨prev, member, rfl, current, lost⟩
    exact lost (intact prev (get?_previousByTask unique member) current)
  · intro kept prev found current
    by_contra lost
    obtain ⟨member, sameId⟩ := previousByTask_spec found
    exact kept ⟨prev, member, sameId, current, lost⟩

/-- Nothing that lost an asset stays frozen, so the second pass meets every loss. -/
private theorem carried_eq_losses :
    (config.previousAssignments.filter fun prev =>
        prev.taskId ∉ (rollingPartition settings order snapshot config).frozenIds ∧
          prev.taskId ∈ snapshot.taskIds ∧ ¬ Intact snapshot prev).map (·.taskId) =
      (config.previousAssignments.filter fun prev =>
        prev.taskId ∈ snapshot.taskIds ∧ ¬ Intact snapshot prev).map (·.taskId) := by
  refine congrArg _ (List.filter_congr fun prev member => ?_)
  rw [decide_eq_decide, and_iff_right_iff_imp]
  rintro ⟨current, lost⟩ frozen
  exact lost ((mem_frozenIds.mp frozen).2 prev (get?_previousByTask unique member) current)

/-- The two passes record a loss once each, the first one only for protected work. -/
theorem perm_assetLossRecords :
    (assetLossRecords (rollingPartition settings order snapshot config).correctiveActions).Perm
      ((frozenTaskIds settings snapshot config.previousByTask (config.nowFor snapshot) ∩
          lossTasks snapshot config).toList ++ (lossTasks snapshot config).toList) := by
  rw [assetLossRecords_compile, carried_eq_losses unique]
  refine List.Perm.append ?_ ?_
  · rw [List.perm_ext_iff_of_nodup ((nodup_sorted _).filter _) (Finset.nodup_toList _)]
    simp [isSome_releaseAction unique]
  · have nodup := unique.sublist ((List.filter_sublist (p := fun prev : Assignment =>
      decide (prev.taskId ∈ snapshot.taskIds ∧ ¬ Intact snapshot prev))).map (·.taskId))
    rw [List.perm_ext_iff_of_nodup nodup (Finset.nodup_toList _)]
    simp [lossTasks]

end Records

/-- What a revision publishes of the repairs is what its compile recorded. -/
private theorem plan_records (deployment : Deployment) (solver : Solver)
    (snapshot : PlanningSnapshot) (config : RollingConfig) (stamp : Stamp) :
    let actions := (rollingPartition deployment.settings.rolling deployment.order snapshot
      config).correctiveActions
    let plan := deployment.plan solver snapshot config stamp
    plan.correctiveActions = actions ∧
      plan.score.nRepairedAfterAssetLoss = (assetLossRecords actions).length := by
  intro actions plan
  rw [assetLossRecords, List.length_map]
  unfold plan Deployment.plan
  cases config.previousPlan with
  | none => exact ⟨rfl, rfl⟩
  | some previous => exact ⟨rfl, rfl⟩

/-- The published ledger is right if and only if no protected task lost an asset: neither a
started one nor one that is planned inside the freeze window. -/
theorem ledgerOf_lossTasks_iff (deployment : Deployment) (solver : Solver)
    (snapshot : PlanningSnapshot) (config : RollingConfig) (stamp : Stamp)
    (unique : (config.previousAssignments.map (·.taskId)).Nodup) :
    LedgerOf (deployment.plan solver snapshot config stamp) (lossTasks snapshot config) ↔
      ∀ id ∈ lossTasks snapshot config, ¬ Started snapshot id ∧
        ¬ Imminent deployment.settings.rolling snapshot config id := by
  obtain ⟨actions, repaired⟩ := plan_records deployment solver snapshot config stamp
  have recorded : (assetLossRecords (rollingPartition deployment.settings.rolling
      deployment.order snapshot config).correctiveActions).Perm _ := perm_assetLossRecords unique
  rw [LedgerOf, actions, repaired, recorded.length_eq]
  simp only [recorded.count_eq, List.count_append, List.length_append, Finset.length_toList]
  set losses := lossTasks snapshot config
  set released := frozenTaskIds deployment.settings.rolling snapshot config.previousByTask
    (config.nowFor snapshot) ∩ losses with released_eq
  have once (tasks : Finset String) (id : String) :
      tasks.toList.count id = if id ∈ tasks then 1 else 0 := by
    rw [(Finset.nodup_toList tasks).count]
    simp only [Finset.mem_toList]
  have unprotected : (∀ id ∈ losses, ¬ Started snapshot id ∧
      ¬ Imminent deployment.settings.rolling snapshot config id) ↔ released = ∅ := by
    rw [released_eq, Finset.eq_empty_iff_forall_notMem]
    simp only [Finset.mem_inter, mem_frozenTaskIds]
    exact ⟨fun safe id both => (both.1.elim (safe id both.2).1 (safe id both.2).2),
      fun none id loss => ⟨fun started => none id ⟨.inl started, loss⟩,
        fun imminent => none id ⟨.inr imminent, loss⟩⟩⟩
  rw [unprotected]
  constructor
  · rintro ⟨-, counted⟩
    exact Finset.card_eq_zero.mp (by omega)
  · intro empty
    simp [empty, once]

/-- The mowing task is under way and its mower has disappeared from the snapshot. -/
def mowerLostSnapshot (status : String) : PlanningSnapshot where
  snapshotId := "snapshot-2"
  effectiveAt := 0
  assets := [{ assetId := "tractor-1" }]
  tasks := [{ taskId := "mow-1", status := status }]

/-- The mowing plan is the parent of the next revision. -/
def mowingConfig : RollingConfig where
  previousPlan := some mowingPlan

/-- A loss in work planned after the freeze window is recorded once. -/
theorem ledgerOf_lossTasks_iff_mowing :
    LedgerOf (padDeployment.plan SolverStages.unserved (mowerLostSnapshot "pending")
        mowingConfig ⟨"rev-2", 0⟩)
      (lossTasks (mowerLostSnapshot "pending") mowingConfig) := by
  refine (ledgerOf_lossTasks_iff padDeployment SolverStages.unserved (mowerLostSnapshot "pending")
    mowingConfig ⟨"rev-2", 0⟩ (by decide)).mpr fun id loss => ?_
  have loose : ∀ id ∈ lossTasks (mowerLostSnapshot "pending") mowingConfig,
      id ∉ frozenTaskIds padDeployment.settings.rolling (mowerLostSnapshot "pending")
        mowingConfig.previousByTask (mowingConfig.nowFor (mowerLostSnapshot "pending")) := by
    decide +kernel
  exact not_or.mp (mem_frozenTaskIds.not.mp (loose id loss))

/-- A started task that loses its mower is recorded as repaired twice. -/
theorem released_task_is_recorded_twice :
    (mowingConfig.previousAssignments.map (·.taskId)).Nodup ∧
      ¬ LedgerOf (padDeployment.plan SolverStages.unserved (mowerLostSnapshot "started")
          mowingConfig ⟨"rev-2", 0⟩)
        (lossTasks (mowerLostSnapshot "started") mowingConfig) := by
  refine ⟨by decide, fun ledger => absurd (ledger.1 "mow-1") ?_⟩
  decide +kernel

end FlOp.Rolling
