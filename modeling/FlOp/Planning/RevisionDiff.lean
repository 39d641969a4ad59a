import FlOp.Core.Numbers
import FlOp.Core.Text
import FlOp.Library.Dict
import FlOp.Library.KeyedRows
import FlOp.Library.Ordering
import Mathlib.Data.String.Basic

/-! # Comparing consecutive revisions

For each task assigned in one of two revisions, or unassigned in the new one, the comparison
decides whether its assignment moved and explains the move from the artifacts of the revisions.
An assignment counts as carried forward if its bundle and planned start are the same; its planned
finish is not looked at.
-/

namespace FlOp.Planning

open FlOp.Core Library

/-- An assignment as a plan file holds it, up to the fields the comparison leaves aside. -/
structure AssignmentEntry where
  taskId : String
  bundleId : Option String := none
  plannedStart : Option String := none
  plannedFinish : Option String := none
  isFrozen : Bool := false
  changePenalty : ℤ := 0
deriving DecidableEq, Repr

structure UnassignedEntry where
  taskId : String
  reasonCode : String := "UNKNOWN"
deriving DecidableEq, Repr

structure CorrectiveEntry where
  taskId : String
  action : String
  detail : String
deriving DecidableEq, Repr

/-- A task dropped in the same cluster. -/
structure ConflictEntry where
  taskId : String := ""
  reasonCode : String := ""
deriving DecidableEq, Repr

/-- The routing dimension running tightest. -/
structure ResourceConflict where
  bindingResource : String := ""
  bindingUtilization : Option ℚ := none
deriving DecidableEq, Repr

/-- What the solver recorded about one task. -/
structure Attribution where
  clusterId : String := ""
  routingStatus : String := ""
  solverStatus : String := ""
  objectiveValue : Option ℤ := none
  firstSolutionObjective : Option ℤ := none
  lnsObjectiveDelta : ℤ := 0
  hitTimeLimit : Bool := false
  bindingResource : String := ""
  resourceConflict : ResourceConflict := {}
  conflicts : List ConflictEntry := []
  detail : String := ""
deriving DecidableEq, Repr

/-- The file of one revision; a task is assigned at most once. -/
structure PlanDocument where
  revisionId : Option String := none
  assignments : List AssignmentEntry := []
  unassignedTasks : List UnassignedEntry := []
  correctiveActions : List CorrectiveEntry := []
  assignmentAttribution : Dict String Attribution := .empty
  unassignedAttribution : Dict String Attribution := .empty
  distinct : (assignments.map (·.taskId)).Nodup

/-- The summary entry of the event that led to a revision. -/
structure Trigger where
  revision : Option ℤ := none
  trigger : String := "event"
  triggerEntityRef : String := ""
  nCoalescedEvents : ℤ := 1
deriving DecidableEq, Repr

inductive Change where
  | reassigned
  | assigned
  | unassigned
  | removed
deriving DecidableEq, Repr

structure ChangeRecord where
  taskId : String
  change : Change
  explanation : String
  fromBundle : Option String
  toBundle : Option String
deriving DecidableEq, Repr

structure RevisionDiff where
  revision : Option ℤ
  revisionId : Option String
  trigger : String
  nCoalescedEvents : ℤ
  nUnchanged : ℕ
  changes : List ChangeRecord
deriving DecidableEq, Repr

namespace PlanDocument

variable (plan : PlanDocument)

def byTask : Dict String AssignmentEntry := Dict.collect (·.taskId) id plan.assignments

def unassignedByTask : Dict String UnassignedEntry :=
  Dict.collect (·.taskId) id plan.unassignedTasks

def corrective : Dict String CorrectiveEntry := Dict.collect (·.taskId) id plan.correctiveActions

/-- Every task the plan mentions. -/
def taskUniverse : Finset String :=
  (plan.assignments.map (·.taskId)).toFinset ∪ (plan.unassignedTasks.map (·.taskId)).toFinset

/-- The solver record of a task; an empty one if there is none. -/
def attribution (taskId : String) (assigned : Bool) : Attribution :=
  (if assigned then plan.assignmentAttribution else plan.unassignedAttribution).getD taskId {}

end PlanDocument

def triggerText (trigger : Trigger) : String :=
  if trigger.triggerEntityRef = "" then trigger.trigger
  else trigger.trigger ++ ":" ++ trigger.triggerEntityRef

/-- The first text that is not empty. -/
def firstText (text other : String) : String := if text = "" then other else text

/-- The resource that ran tightest, with its utilization in percent if that is positive. -/
def bindingPart (attribution : Attribution) : List String :=
  let binding := firstText attribution.bindingResource attribution.resourceConflict.bindingResource
  if binding = "" ∨ binding = "none" then []
  else
    match attribution.resourceConflict.bindingUtilization with
    | some utilization =>
      if 0 < utilization then
        let percent := roundHalfEven (utilization * 100)
        [s!"binding resource {binding} at {percent}%"]
      else [s!"binding resource {binding}"]
    | none => [s!"binding resource {binding}"]

/-- Everything the solver records say about an assignment that is new or moved. -/
def solverExplanation (taskId : String) (new : AssignmentEntry) (old : Option AssignmentEntry)
    (newAttr oldAttr : Attribution) (cause : String) : String :=
  let clusterId := firstText newAttr.clusterId oldAttr.clusterId
  let routingStatus := firstText newAttr.routingStatus newAttr.solverStatus
  let lnsDelta := newAttr.lnsObjectiveDelta
  let changePenalty := new.changePenalty
  let conflicts := (newAttr.conflicts.filter (·.taskId ≠ "")).map fun conflict =>
    conflict.taskId ++ ":" ++ conflict.reasonCode
  let details :=
    (if clusterId = "" then [] else [s!"cluster {clusterId}"]) ++
    (if routingStatus = "" then [] else [s!"solver status {routingStatus}"]) ++
    newAttr.objectiveValue.toList.map (fun objective => s!"objective {objective}") ++
    (match newAttr.firstSolutionObjective, newAttr.objectiveValue with
      | some first, some objective =>
        if first ≠ objective then [s!"first solution objective {first}"] else []
      | _, _ => []) ++
    (if lnsDelta = 0 then [] else [s!"LNS delta {lnsDelta}"]) ++
    (if newAttr.hitTimeLimit then ["cluster hit the time limit"] else []) ++
    bindingPart newAttr ++
    (if changePenalty = 0 then [] else [s!"change penalty {changePenalty}"]) ++
    (if conflicts = [] then [] else ["same-cluster conflicts " ++ ", ".intercalate conflicts]) ++
    (if old.isSome then
      oldAttr.objectiveValue.toList.map fun objective => s!"previous objective {objective}"
    else [])
  "; ".intercalate <| [s!"re-solved after {cause}", "optimization tradeoff"] ++
    if details = [] then [s!"resources were reallocated for {taskId}"] else details

/-- Bundle and planned start are those of the parent revision. -/
def carriedForward (old cur : AssignmentEntry) : Bool :=
  cur.bundleId = old.bundleId && cur.plannedStart = old.plannedStart

section Pair

variable (prev new : PlanDocument) (cause : String)

/-- Why a task assigned in both revisions moved. -/
def reassignedExplanation (taskId : String) (old cur : AssignmentEntry) : String :=
  match new.corrective.get? taskId with
  | some action => action.action ++ ": " ++ action.detail
  | none =>
    if cur.isFrozen then "frozen (started or inside freeze window); start shifted only"
    else
      solverExplanation taskId cur (some old) (new.attribution taskId true)
        (prev.attribution taskId true) cause

/-- Why a task is assigned that was not. -/
def assignedExplanation (taskId : String) (cur : AssignmentEntry) : String :=
  let explained := solverExplanation taskId cur none (new.attribution taskId true) {} cause
  if taskId ∈ prev.unassignedByTask.keys then
    s!"previously unassigned; became feasible after {cause}; " ++ explained
  else if taskId ∉ prev.taskUniverse then
    if startsWith "service-" taskId then "new task: monitoring-derived service task"
    else s!"new task: entered planning via {cause}"
  else explained

/-- Why a task is unassigned that was assigned. -/
def unassignedExplanation (taskId : String) (record : UnassignedEntry) : String :=
  let attribution := new.attribution taskId false
  let reason := record.reasonCode
  let detail := firstText attribution.detail reason
  let clusterId := attribution.clusterId
  let suffix := if clusterId = "" then "" else s!" in cluster {clusterId}"
  s!"became unassignable after {cause}: {reason}{suffix}; {detail}"

/-- Why a task left the plan. -/
def removedExplanation (taskId : String) : String :=
  match new.corrective.get? taskId with
  | some action => action.action ++ ": " ++ action.detail
  | none => s!"left planning after {cause} (cancelled or completed)"

/-- The record of one task, if its assignment moved. -/
def diffTask (taskId : String) : Option ChangeRecord :=
  match prev.byTask.get? taskId, new.byTask.get? taskId with
  | some old, some cur =>
    if carriedForward old cur then none
    else some ⟨taskId, .reassigned, reassignedExplanation prev new cause taskId old cur,
      old.bundleId, cur.bundleId⟩
  | none, some cur =>
    some ⟨taskId, .assigned, assignedExplanation prev new cause taskId cur, none, cur.bundleId⟩
  | some old, none =>
    match new.unassignedByTask.get? taskId with
    | some record =>
      some ⟨taskId, .unassigned, unassignedExplanation new cause taskId record, old.bundleId, none⟩
    | none =>
      some ⟨taskId, .removed, removedExplanation new cause taskId, old.bundleId, none⟩
  | none, none => none

end Pair

/-- The tasks the comparison walks through. -/
def comparedTasks (prev new : PlanDocument) : List String :=
  sorted (prev.byTask.keys.toFinset ∪ new.byTask.keys.toFinset ∪
    new.unassignedByTask.keys.toFinset)

/-- Explain every task whose assignment differs between two revisions. -/
def diffRevisionPair (prev new : PlanDocument) (trigger : Trigger) : RevisionDiff where
  revision := trigger.revision
  revisionId := new.revisionId
  trigger := triggerText trigger
  nCoalescedEvents := trigger.nCoalescedEvents
  nUnchanged := new.byTask.entries.countP fun entry =>
    (prev.byTask.get? entry.1).any (carriedForward · entry.2)
  changes := (comparedTasks prev new).filterMap (diffTask prev new (triggerText trigger))

/-- Two assignments of a task, or the lack of one, differ. -/
def AssignmentsDiffer : Option AssignmentEntry → Option AssignmentEntry → Prop
  | some old, some cur => old.bundleId ≠ cur.bundleId ∨ old.plannedStart ≠ cur.plannedStart ∨
      old.plannedFinish ≠ cur.plannedFinish
  | none, none => False
  | _, _ => True

instance : DecidableRel AssignmentsDiffer
  | some _, some _ => inferInstanceAs (Decidable (_ ∨ _ ∨ _))
  | none, none => inferInstanceAs (Decidable False)
  | some _, none => inferInstanceAs (Decidable True)
  | none, some _ => inferInstanceAs (Decidable True)

/-- Tasks assigned in both plans. -/
def assignedInBoth (prev new : PlanDocument) : List String :=
  new.byTask.keys.filter (· ∈ prev.byTask.keys)

/-- One record for every task whose assignment differs and none for any other, and unchanged and
recorded tasks add up to those assigned in both plans. -/
structure RevisionDiff.Complete (prev new : PlanDocument) (diff : RevisionDiff) : Prop where
  records : ∀ taskId, (diff.changes.map (·.taskId)).count taskId =
    if AssignmentsDiffer (prev.byTask.get? taskId) (new.byTask.get? taskId) then 1 else 0
  adds_up : diff.nUnchanged +
      ((assignedInBoth prev new).filter (· ∈ diff.changes.map (·.taskId))).length =
    (assignedInBoth prev new).length

section Complete

variable {prev new : PlanDocument} {cause taskId : String} {trigger : Trigger}

theorem taskId_of_diffTask {record : ChangeRecord}
    (made : diffTask prev new cause taskId = some record) : record.taskId = taskId := by
  unfold diffTask at made
  split at made
  · split at made
    · cases made
    · cases made
      rfl
  · cases made
    rfl
  · split at made <;> cases made <;> rfl
  · cases made

/-- A task is recorded unless it is assigned in neither plan or carried forward. -/
theorem isSome_diffTask : (diffTask prev new cause taskId).isSome =
    match prev.byTask.get? taskId, new.byTask.get? taskId with
    | some old, some cur => !carriedForward old cur
    | none, none => false
    | _, _ => true := by
  rw [diffTask]
  cases old : prev.byTask.get? taskId with
  | none => cases cur : new.byTask.get? taskId <;> rfl
  | some a =>
    cases cur : new.byTask.get? taskId with
    | none => cases new.unassignedByTask.get? taskId <;> rfl
    | some b => cases same : carriedForward a b <;> simp [same]

/-- Only tasks that are walked through would be recorded. -/
theorem mem_comparedTasks_of_diffTask (recorded : (diffTask prev new cause taskId).isSome) :
    taskId ∈ comparedTasks prev new := by
  rw [comparedTasks, mem_sorted]
  simp only [Finset.mem_union, List.mem_toFinset, Dict.mem_keys_iff]
  rw [isSome_diffTask] at recorded
  cases old : prev.byTask.get? taskId with
  | some _ => exact .inl (.inl rfl)
  | none =>
    cases cur : new.byTask.get? taskId with
    | some _ => exact .inl (.inr rfl)
    | none => simp [old, cur] at recorded

/-- The recorded tasks, each once. -/
theorem map_taskId_changes (trigger : Trigger) :
    (diffRevisionPair prev new trigger).changes.map (·.taskId) =
      (comparedTasks prev new).filter fun taskId =>
        (diffTask prev new (triggerText trigger) taskId).isSome := by
  have keys : (diffRevisionPair prev new trigger).changes.map (·.taskId) =
      ((comparedTasks prev new).filter fun taskId =>
        (diffTask prev new (triggerText trigger) taskId).isSome).map id :=
    map_filterMap_of_keeps fun _ _ _ made => taskId_of_diffTask made
  rw [keys, List.map_id]

theorem mem_changes_iff : taskId ∈ (diffRevisionPair prev new trigger).changes.map (·.taskId) ↔
    (diffTask prev new (triggerText trigger) taskId).isSome := by
  rw [map_taskId_changes, List.mem_filter]
  exact and_iff_right_of_imp mem_comparedTasks_of_diffTask

theorem count_changes : ((diffRevisionPair prev new trigger).changes.map (·.taskId)).count taskId =
    if (diffTask prev new (triggerText trigger) taskId).isSome then 1 else 0 := by
  have nodup : ((diffRevisionPair prev new trigger).changes.map (·.taskId)).Nodup := by
    rw [map_taskId_changes]
    exact (nodup_sorted _).filter _
  rw [nodup.count]
  simp only [mem_changes_iff]

/-- The carried-forward tasks and the recorded ones are the tasks assigned in both plans. -/
theorem unchanged_add_recorded :
    (diffRevisionPair prev new trigger).nUnchanged + ((assignedInBoth prev new).filter
      (· ∈ (diffRevisionPair prev new trigger).changes.map (·.taskId))).length =
        (assignedInBoth prev new).length := by
  have kept : ∀ entry ∈ new.byTask.entries, ((prev.byTask.get? entry.1).any
      (carriedForward · entry.2) : Prop) ↔ entry.1 ∈ prev.byTask.keys ∧
        entry.1 ∉ (diffRevisionPair prev new trigger).changes.map (·.taskId) := by
    intro entry listed
    have cur := (new.byTask.get?_eq_some_iff entry.1 entry.2).mpr listed
    rw [mem_changes_iff, isSome_diffTask, cur, Dict.mem_keys_iff]
    cases prev.byTask.get? entry.1 <;> simp
  have counted : (diffRevisionPair prev new trigger).nUnchanged =
      ((assignedInBoth prev new).filter
        (· ∉ (diffRevisionPair prev new trigger).changes.map (·.taskId))).length := by
    change new.byTask.entries.countP _ = _
    have keys : new.byTask.keys = new.byTask.entries.map Prod.fst := rfl
    rw [assignedInBoth, List.filter_filter, keys, List.filter_map, List.length_map,
      ← List.countP_eq_length_filter]
    apply List.countP_congr
    intro entry listed
    rw [kept entry listed]
    simp [and_comm]
  rw [counted, Nat.add_comm, List.length_eq_length_filter_add (l := assignedInBoth prev new)
    fun taskId => decide (taskId ∈ (diffRevisionPair prev new trigger).changes.map (·.taskId))]
  simp only [decide_not]

theorem PlanDocument.get?_byTask_iff {plan : PlanDocument} {entry : AssignmentEntry} :
    plan.byTask.get? taskId = some entry ↔ entry ∈ plan.assignments ∧ entry.taskId = taskId := by
  constructor
  · intro found
    obtain ⟨_, listed, rfl, rfl⟩ := Dict.exists_of_get?_collect found
    exact ⟨listed, rfl⟩
  · rintro ⟨listed, rfl⟩
    apply (Dict.get?_eq_some_iff _ _ _).mpr
    rw [byTask, Dict.entries_collect id plan.distinct]
    exact List.mem_map_of_mem listed

/-- The comparison is complete exactly if no assignment moves in its planned finish alone. -/
theorem diffRevisionPair_complete_iff (prev new : PlanDocument) (trigger : Trigger) :
    (diffRevisionPair prev new trigger).Complete prev new ↔
      ∀ old ∈ prev.assignments, ∀ cur ∈ new.assignments, old.taskId = cur.taskId →
        old.bundleId = cur.bundleId → old.plannedStart = cur.plannedStart →
          old.plannedFinish = cur.plannedFinish := by
  constructor
  · intro complete old listed cur listedToo task bundle start
    have before := PlanDocument.get?_byTask_iff.mpr ⟨listed, rfl⟩
    have after := PlanDocument.get?_byTask_iff.mpr ⟨listedToo, task.symm⟩
    have counted := complete.records old.taskId
    have carried : carriedForward old cur = true := by
      simp [carriedForward, bundle, start]
    have unrecorded : (diffTask prev new (triggerText trigger) old.taskId).isSome = false := by
      rw [isSome_diffTask, before, after]
      simp [carried]
    by_contra moved
    have differ : AssignmentsDiffer (some old) (some cur) := .inr (.inr moved)
    rw [count_changes, unrecorded, before, after, if_pos differ] at counted
    exact absurd counted (by decide)
  · intro retimed
    refine ⟨fun taskId => ?_, unchanged_add_recorded⟩
    rw [count_changes, isSome_diffTask]
    cases before : prev.byTask.get? taskId with
    | none => cases new.byTask.get? taskId <;> rfl
    | some old =>
      cases after : new.byTask.get? taskId with
      | none => rfl
      | some cur =>
        obtain ⟨listed, rfl⟩ := PlanDocument.get?_byTask_iff.mp before
        obtain ⟨listedToo, task⟩ := PlanDocument.get?_byTask_iff.mp after
        have finish := retimed old listed cur listedToo task.symm
        apply if_congr _ rfl rfl
        simp only [carriedForward, AssignmentsDiffer, Bool.not_eq_true', Bool.and_eq_false_iff,
          decide_eq_false_iff_not]
        constructor
        · rintro (bundle | start)
          · exact .inl (Ne.symm bundle)
          · exact .inr (.inl (Ne.symm start))
        · rintro (bundle | start | moved)
          · exact .inl (Ne.symm bundle)
          · exact .inr (Ne.symm start)
          · by_contra same
            push Not at same
            exact moved (finish same.1.symm same.2.symm)

end Complete

/-- A plan that mows one field from eight o'clock. -/
def mowingUntil (finish : String) : PlanDocument where
  assignments :=
    [{ taskId := "mow-1", bundleId := some "bundle-a", plannedStart := some "2026-06-05T08:00:00Z"
       plannedFinish := some finish }]
  distinct := List.nodup_singleton _

/-- Mowing that takes an hour longer is recorded nowhere. -/
theorem longer_mowing_is_unrecorded :
    ¬ ∀ (prev new : PlanDocument) (trigger : Trigger),
      (diffRevisionPair prev new trigger).Complete prev new := by
  intro complete
  have counted := (complete (mowingUntil "2026-06-05T10:00:00Z")
    (mowingUntil "2026-06-05T11:00:00Z") {}).records "mow-1"
  revert counted
  decide +kernel

end FlOp.Planning
