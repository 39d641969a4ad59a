import FlOp.Canonical.Plan
import FlOp.Canonical.Snapshot
import FlOp.Core.Text
import FlOp.Library.Ordering
import Mathlib.Data.String.Basic
import Mathlib.Order.WithBot

/-! # Corrective-rescheduling detection

Pure helpers of the rolling compiler: release assignments whose assets disappeared, notice
withdrawn service tasks and force escalated ones back into the solve.
-/

namespace FlOp.Rolling

open Canonical FlOp.Core Library

def serviceTaskPrefix : String := "service-"

def monitoringSourcePrefix : String := "monitoring:"

def escalatedReasonPrefix : String := "escalated:"

def metricBatteryLevel : String := "battery-level"

def metricHealthStatus : String := "health-status"

def isServiceTaskId (taskId : String) : Bool := startsWith serviceTaskPrefix taskId

/-- Monitoring-derived task reasons, kept for the next revision's reconciliation. -/
def serviceTaskReasons (snapshot : PlanningSnapshot) : Dict String String :=
  Dict.collect (·.taskId) (·.sourceRef)
    (snapshot.tasks.filter fun task => startsWith "monitoring-" task.orderId)

def serviceAssetId (taskId : String) : String := dropHead serviceTaskPrefix taskId

/-- Readings without a time sort before every dated one. -/
def observedTs (obs : Observation) : WithBot Instant :=
  match obs.observedAt with
  | none => ⊥
  | some t => (t : WithBot Instant)

/-- The most recent observation of one entity and metric. -/
def latestObservation (observations : List Observation) (entityRef metric : String) :
    Option Observation :=
  (sortBy observedTs
    (observations.filter fun obs => obs.entityRef = entityRef ∧ obs.metric = metric)).getLast?

/-- Latest battery and health evidence for one asset. -/
def currentReadings (snapshot : PlanningSnapshot) (assetId : String) : List (String × Evidence) :=
  let battery := latestObservation snapshot.observations assetId metricBatteryLevel
  let health := latestObservation snapshot.observations assetId metricHealthStatus
  (match battery.bind (·.value) with
    | some level => [("battery_level_pct", .number level)]
    | none => []) ++
  (match health.map (·.stateValue) with
    | some state => if state = "" then [] else [("health_status", .text state)]
    | none => [])

/-- Assets of an assignment that are no longer available, in increasing order. -/
def lostAssets (prev : Assignment) (available : Finset String) : List String :=
  sorted (prev.assetIds.toFinset \ available)

/-- The record of one assignment bound to lost assets. -/
def assetLossAction (prev : Assignment) (taskId : String) (lost : List String) (detail : String) :
    CorrectiveAction where
  action := .reassignedAfterAssetLoss
  taskId := taskId
  detail := detail
  evidence := [("lost_assets", .texts lost), ("bundle_id", .text prev.bundleId)]

/-- The action that releases one frozen task, when its looked-up assignment lost an asset. -/
def releaseAction (previousByTask : Dict String Assignment) (available current : Finset String)
    (taskId : String) : Option CorrectiveAction :=
  match previousByTask.get? taskId with
  | none => none
  | some prev =>
    if taskId ∉ current then none
    else
      let lost := lostAssets prev available
      if lost = [] then none
      else some <| assetLossAction prev taskId lost <|
        "frozen assignment lost assets " ++ reprTexts lost ++ "; released for re-solve"

/-- Release frozen assignments whose assets disappeared: the ids that stay frozen, and one
action for each released task. -/
def releaseLostAssetAssignments (frozenIds : Finset String)
    (previousByTask : Dict String Assignment) (available current : Finset String) :
    Finset String × List CorrectiveAction :=
  let actions := (sorted frozenIds).filterMap (releaseAction previousByTask available current)
  (frozenIds \ (actions.map (·.taskId)).toFinset, actions)

/-- Record asset loss of prior assignments that are not frozen. -/
def carriedAssetLossActions (previousAssignments : List Assignment)
    (frozenIds current available : Finset String) : List CorrectiveAction :=
  previousAssignments.filterMap fun prev =>
    if prev.taskId ∈ frozenIds ∨ prev.taskId ∉ current then none
    else
      let lost := lostAssets prev available
      if lost = [] then none
      else some <| assetLossAction prev prev.taskId lost <|
        "assignment lost assets " ++ reprTexts lost ++ "; task re-solved"

/-- Service tasks the previous plan knew that are no longer derived. -/
def withdrawnServiceActions (previousPlan : Option Plan) (current : Finset String)
    (snapshot : PlanningSnapshot) (previousServiceReasons : Dict String String) :
    List CorrectiveAction :=
  match previousPlan with
  | none => []
  | some plan =>
    let previousServiceIds :=
      ((plan.assignments.map (·.taskId)).filter fun id => isServiceTaskId id).toFinset ∪
        ((plan.unassignedTasks.map (·.taskId)).filter fun id => isServiceTaskId id).toFinset
    (sorted (previousServiceIds \ current)).map fun taskId =>
      { action := .serviceWithdrawn
        taskId := taskId
        detail := previousServiceReasons.getD taskId "derived in a previous revision"
        evidence := currentReadings snapshot (serviceAssetId taskId) }

/-- A monitoring-derived task whose reason says the asset degraded faster than forecast. -/
def escalated (task : Task) : Bool :=
  startsWith monitoringSourcePrefix task.sourceRef &&
    containsText escalatedReasonPrefix task.sourceRef

/-- Task ids whose assignments must be re-solved because their service was escalated, and one
action for each task the previous revision derived without escalation. -/
def escalatedServiceTasks (snapshot : PlanningSnapshot)
    (previousServiceReasons : Dict String String) (previousByTask : Dict String Assignment) :
    Finset String × List CorrectiveAction :=
  let escalations := snapshot.tasks.filter fun task => escalated task
  (((escalations.map (·.taskId)).filter fun id => (previousByTask.get? id).isSome).toFinset,
    escalations.filterMap fun task =>
      match previousServiceReasons.get? task.taskId with
      | none => none
      | some previousReason =>
        if containsText escalatedReasonPrefix previousReason then none
        else some
          { action := .serviceEscalated
            taskId := task.taskId
            detail := "was: " ++ previousReason ++ "; now: " ++ task.sourceRef
            evidence := currentReadings snapshot (serviceAssetId task.taskId) })

/-- Nothing of an assignment is lost exactly when all its assets are available. -/
theorem lostAssets_eq_nil (prev : Assignment) (available : Finset String) :
    lostAssets prev available = [] ↔ ∀ id ∈ prev.assetIds, id ∈ available := by
  rw [lostAssets, sorted_eq_nil, Finset.sdiff_eq_empty_iff_subset]
  exact ⟨fun subset id member => subset (List.mem_toFinset.mpr member),
    fun all id member => all id (List.mem_toFinset.mp member)⟩

/-- No release of a task without a lost asset. -/
theorem releaseAction_eq_none {previousByTask : Dict String Assignment}
    {available current : Finset String} {taskId : String} :
    releaseAction previousByTask available current taskId = none ↔
      ∀ prev, previousByTask.get? taskId = some prev → taskId ∈ current →
        ∀ id ∈ prev.assetIds, id ∈ available := by
  unfold releaseAction
  cases previousByTask.get? taskId with
  | none => simp
  | some prev =>
    by_cases present : taskId ∈ current
    · simp [present, lostAssets_eq_nil]
    · simp [present]

/-- A release reassigns the task it is made for. -/
theorem releaseAction_spec {previousByTask : Dict String Assignment}
    {available current : Finset String} {taskId : String} {action : CorrectiveAction}
    (released : releaseAction previousByTask available current taskId = some action) :
    action.taskId = taskId ∧ action.action = .reassignedAfterAssetLoss := by
  cases found : previousByTask.get? taskId with
  | none => simp [releaseAction, found] at released
  | some prev =>
    simp only [releaseAction, found] at released
    split_ifs at released
    rw [← Option.some.inj released]
    exact ⟨rfl, rfl⟩

/-- A frozen id stays frozen unless its task is current and its looked-up assignment lost an asset. -/
theorem mem_releaseLostAssetAssignments {frozenIds available current : Finset String}
    {previousByTask : Dict String Assignment} {taskId : String} :
    taskId ∈ (releaseLostAssetAssignments frozenIds previousByTask available current).1 ↔
      taskId ∈ frozenIds ∧
        ∀ prev, previousByTask.get? taskId = some prev → taskId ∈ current →
          ∀ id ∈ prev.assetIds, id ∈ available := by
  simp only [releaseLostAssetAssignments, Finset.mem_sdiff, List.mem_toFinset, List.mem_map,
    List.mem_filterMap, mem_sorted]
  refine and_congr_right fun frozen => ?_
  rw [← releaseAction_eq_none, Option.eq_none_iff_forall_not_mem]
  constructor
  · intro unreleased action released
    exact unreleased ⟨action, ⟨taskId, frozen, released⟩, (releaseAction_spec released).1⟩
  · rintro unreleased ⟨action, ⟨id, -, released⟩, sameId⟩
    obtain rfl : id = taskId := (releaseAction_spec released).1.symm.trans sameId
    exact unreleased action released

/-- Only tasks with a previous assignment are forced back into the solve. -/
theorem mem_escalatedServiceTasks {snapshot : PlanningSnapshot}
    {previousServiceReasons : Dict String String} {previousByTask : Dict String Assignment}
    {taskId : String} :
    taskId ∈ (escalatedServiceTasks snapshot previousServiceReasons previousByTask).1 ↔
      (∃ task ∈ snapshot.tasks, escalated task ∧ task.taskId = taskId) ∧
        (previousByTask.get? taskId).isSome := by
  simp [escalatedServiceTasks, and_assoc]

end FlOp.Rolling
