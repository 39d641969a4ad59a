import FlOp.Rolling.Session

/-! # Service tasks across revisions

A revision records which service tasks of its predecessor are no longer derived and which ones
were overtaken by reality. Every published revision is reconciled so with the last one.
-/

namespace FlOp.Rolling

open Canonical FlOp.Core Library

/-- Service tasks a plan lists, assigned or not. -/
def serviceTaskIds (plan : Plan) : Finset String :=
  ((plan.assignments.map (·.taskId)).filter fun id => isServiceTaskId id).toFinset ∪
    ((plan.unassignedTasks.map (·.taskId)).filter fun id => isServiceTaskId id).toFinset

/-- Recorded actions of one kind. -/
def actionsOf (plan : Plan) (action : CorrectiveActionType) : List CorrectiveAction :=
  plan.correctiveActions.filter fun recorded => recorded.action = action

def actionTaskIds (plan : Plan) (action : CorrectiveActionType) : List String :=
  (actionsOf plan action).map (·.taskId)

/-- The revision records the withdrawals and escalations found against its predecessor. -/
structure Reconciled (prev rev : Revision) : Prop where
  withdrawals : actionsOf rev.plan .serviceWithdrawn =
    withdrawnServiceActions (some prev.plan) rev.snapshot.taskIds rev.snapshot
      (serviceTaskReasons prev.snapshot)
  escalations : actionsOf rev.plan .serviceEscalated =
    (escalatedServiceTasks rev.snapshot (serviceTaskReasons prev.snapshot)
      (Dict.collect (·.taskId) id prev.plan.assignments)).2

/-- Filtering by kind keeps a list of that kind and drops every other. -/
private theorem filter_kind {actions : List CorrectiveAction} {kind : CorrectiveActionType}
    (all : ∀ recorded ∈ actions, recorded.action = kind) (action : CorrectiveActionType) :
    (actions.filter fun recorded => recorded.action = action) =
      if kind = action then actions else [] := by
  split_ifs with same
  · exact List.filter_eq_self.mpr fun recorded member =>
      decide_eq_true ((all recorded member).trans same)
  · exact List.filter_eq_nil_iff.mpr fun recorded member =>
      by rw [decide_eq_true_eq, all recorded member]; exact same

private theorem action_of_withdrawn {previousPlan : Option Plan} {current : Finset String}
    {snapshot : PlanningSnapshot} {reasons : Dict String String} {recorded : CorrectiveAction}
    (member : recorded ∈ withdrawnServiceActions previousPlan current snapshot reasons) :
    recorded.action = .serviceWithdrawn := by
  cases previousPlan with
  | none => cases member
  | some plan =>
    obtain ⟨_, -, rfl⟩ := List.mem_map.mp member
    rfl

private theorem action_of_escalated {snapshot : PlanningSnapshot} {reasons : Dict String String}
    {previousByTask : Dict String Assignment} {recorded : CorrectiveAction}
    (member : recorded ∈ (escalatedServiceTasks snapshot reasons previousByTask).2) :
    recorded.action = .serviceEscalated := by
  obtain ⟨task, -, found⟩ := List.mem_filterMap.mp member
  cases known : reasons.get? task.taskId with
  | none => simp [known] at found
  | some reason =>
    simp only [known] at found
    split_ifs at found
    rw [← Option.some.inj found]

private theorem action_of_released {frozenIds available current : Finset String}
    {previousByTask : Dict String Assignment} {recorded : CorrectiveAction}
    (member : recorded ∈
      (releaseLostAssetAssignments frozenIds previousByTask available current).2) :
    recorded.action = .reassignedAfterAssetLoss := by
  obtain ⟨_, -, released⟩ := List.mem_filterMap.mp member
  exact (releaseAction_spec released).2

private theorem action_of_carried {previousAssignments : List Assignment}
    {frozenIds current available : Finset String} {recorded : CorrectiveAction}
    (member : recorded ∈
      carriedAssetLossActions previousAssignments frozenIds current available) :
    recorded.action = .reassignedAfterAssetLoss := by
  obtain ⟨_, -, found⟩ := List.mem_filterMap.mp member
  simp only at found
  split_ifs at found
  rw [← Option.some.inj found]
  rfl

/-- Every rebuild reconciles its revision with the last one. -/
theorem publish_reconciled (deployment : Deployment) (prev : Revision) (replan : Replan) :
    Reconciled prev (deployment.publish (some prev) replan) := by
  have recorded : (deployment.publish (some prev) replan).plan.correctiveActions =
      (rollingPartition deployment.settings.rolling deployment.order replan.snapshot
        (sessionConfig (some prev) replan.now)).correctiveActions := rfl
  -- Each list of actions has a kind of its own, so one of the four remains.
  constructor <;>
    rw [actionsOf, recorded, rollingPartition, List.filter_append, List.filter_append,
      List.filter_append, filter_kind (fun _ => action_of_released),
      filter_kind (fun _ => action_of_carried), filter_kind (fun _ => action_of_escalated),
      filter_kind (fun _ => action_of_withdrawn)]
  · rfl
  · exact List.append_nil _

namespace Reconciled

variable {prev rev : Revision}

/-- The withdrawn tasks are the listed service tasks of the predecessor that are gone. -/
theorem mem_withdrawn (reconciled : Reconciled prev rev) {id : String} :
    id ∈ actionTaskIds rev.plan .serviceWithdrawn ↔
      id ∈ serviceTaskIds prev.plan ∧ id ∉ rev.snapshot.taskIds := by
  rw [actionTaskIds, reconciled.withdrawals, withdrawnServiceActions, List.map_map,
    ← Finset.mem_sdiff]
  change id ∈ (sorted (serviceTaskIds prev.plan \ rev.snapshot.taskIds)).map _ ↔ _
  rw [← mem_sorted (s := serviceTaskIds prev.plan \ rev.snapshot.taskIds)]
  exact Iff.of_eq (congrArg _ (List.map_id _))

/-- The escalated tasks were derived before without escalation. -/
theorem mem_escalated (reconciled : Reconciled prev rev) {id : String} :
    id ∈ actionTaskIds rev.plan .serviceEscalated ↔
      ∃ task ∈ rev.snapshot.tasks, escalated task = true ∧ task.taskId = id ∧
        ∃ reason, (serviceTaskReasons prev.snapshot).get? id = some reason ∧
          containsText escalatedReasonPrefix reason = false := by
  rw [actionTaskIds, reconciled.escalations, escalatedServiceTasks]
  simp only [List.mem_map, List.mem_filterMap, List.mem_filter]
  constructor
  · rintro ⟨action, ⟨task, ⟨listed, risen⟩, found⟩, rfl⟩
    cases known : (serviceTaskReasons prev.snapshot).get? task.taskId with
    | none => simp [known] at found
    | some reason =>
      simp only [known] at found
      split_ifs at found with before
      rw [← Option.some.inj found]
      exact ⟨task, listed, risen, rfl, reason, known, Bool.not_eq_true _ ▸ before⟩
  · rintro ⟨task, listed, risen, rfl, reason, known, fresh⟩
    refine ⟨{
      action := .serviceEscalated
      taskId := task.taskId
      detail := "was: " ++ reason ++ "; now: " ++ task.sourceRef
      evidence := currentReadings rev.snapshot (serviceAssetId task.taskId) },
      ⟨task, ⟨listed, risen⟩, ?_⟩, rfl⟩
    rw [known]
    exact if_neg (by rw [fresh]; exact Bool.false_ne_true)

end Reconciled

end FlOp.Rolling
