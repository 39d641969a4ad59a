import FlOp.Rolling.Compiler
import Mathlib.Data.List.Count

/-! # What a compile decides for each task

The decisions are restated over the inputs alone: which ids are protected, which previous
assignments are kept and which tasks are re-solved. The sets and lists the compiler builds are
then characterized by these predicates, also when a previous plan repeats a task id.
-/

namespace FlOp.Rolling

open Canonical FlOp.Core Library Solver

section Decisions

variable (settings : RollingSettings) (snapshot : PlanningSnapshot) (config : RollingConfig)

/-- A task of the snapshot has this id and is under way. -/
def Started (id : String) : Prop :=
  ∃ task ∈ snapshot.tasks, task.status = startedStatus ∧ task.taskId = id

/-- The looked-up previous assignment starts inside the freeze window. -/
def Imminent (id : String) : Prop :=
  ∃ prev, config.previousByTask.get? id = some prev ∧
    prev.plannedStart ≤ freezeCutoff settings (config.nowFor snapshot)

/-- Every asset of the assignment still exists; operators are not looked at. -/
def Intact (prev : Assignment) : Prop := ∀ id ∈ prev.assetIds, id ∈ snapshot.assetIds

/-- Protected, and not released because a current task lost an asset. -/
def Freezes (id : String) : Prop :=
  (Started snapshot id ∨ Imminent settings snapshot config id) ∧
    ∀ prev, config.previousByTask.get? id = some prev → id ∈ snapshot.taskIds → Intact snapshot prev

/-- The service task of this id was derived with an escalated reason. -/
def Escalates (id : String) : Prop :=
  ∃ task ∈ snapshot.tasks, escalated task ∧ task.taskId = id

/-- A previous assignment that the next revision publishes again. -/
inductive Keeps (prev : Assignment) : Prop
  | frozen (found : config.previousByTask.get? prev.taskId = some prev)
      (freezes : Freezes settings snapshot config prev.taskId)
  | carried (member : prev ∈ config.previousAssignments)
      (loose : ¬ Freezes settings snapshot config prev.taskId)
      (current : prev.taskId ∈ snapshot.taskIds)
      (calm : ¬ Escalates snapshot prev.taskId)
      (intact : Intact snapshot prev)

/-- A task with a kept assignment. -/
def KeepsTask (id : String) : Prop :=
  ∃ prev, Keeps settings snapshot config prev ∧ prev.taskId = id

/-- A current task handed to the solver chain. -/
def Resolves (id : String) : Prop :=
  id ∈ snapshot.taskIds ∧ ¬ Freezes settings snapshot config id ∧
    ¬ KeepsTask settings snapshot config id

end Decisions

section PreviousPlan

variable {config : RollingConfig}

/-- A lookup finds an assignment of the previous plan with the id asked for. -/
theorem previousByTask_spec {id : String} {prev : Assignment}
    (found : config.previousByTask.get? id = some prev) :
    prev ∈ config.previousAssignments ∧ prev.taskId = id := by
  obtain ⟨item, member, same, rfl⟩ := Dict.exists_of_get?_collect found
  exact ⟨member, same⟩

theorem isSome_previousByTask {id : String} :
    (config.previousByTask.get? id).isSome ↔ ∃ prev ∈ config.previousAssignments, prev.taskId = id :=
  Dict.isSome_get?_collect _ _ _ _

end PreviousPlan

section Partition

variable {settings : RollingSettings} {order : SetOrder String} {snapshot : PlanningSnapshot}
  {config : RollingConfig}

/-- Protected ids, before any is released. -/
theorem mem_frozenTaskIds {id : String} :
    id ∈ frozenTaskIds settings snapshot config.previousByTask (config.nowFor snapshot) ↔
      Started snapshot id ∨ Imminent settings snapshot config id := by
  simp only [frozenTaskIds, Finset.mem_union, List.mem_toFinset, List.mem_map, List.mem_filter,
    decide_eq_true_eq, Prod.exists, exists_and_right, exists_eq_right]
  refine or_congr ?_ ?_
  · simp only [Started, and_assoc]
  · simp only [Imminent, ← Dict.get?_eq_some_iff]

theorem mem_frozenIds {id : String} :
    id ∈ (rollingPartition settings order snapshot config).frozenIds ↔
      Freezes settings snapshot config id := by
  rw [rollingPartition, mem_releaseLostAssetAssignments, mem_frozenTaskIds]
  rfl

/-- Frozen assignments are the looked-up assignments of frozen ids, marked frozen. -/
theorem mem_frozenAssignments {a : Assignment} :
    a ∈ (rollingPartition settings order snapshot config).frozenAssignments ↔
      ∃ prev, config.previousByTask.get? prev.taskId = some prev ∧
        Freezes settings snapshot config prev.taskId ∧ a = { prev with isFrozen := true } := by
  have frozen := @mem_frozenIds settings order snapshot config
  simp only [rollingPartition] at frozen ⊢
  simp only [List.mem_filterMap, SetOrder.mem, frozen, Option.map_eq_some_iff]
  constructor
  · rintro ⟨id, freezes, prev, found, rfl⟩
    obtain ⟨-, rfl⟩ := previousByTask_spec found
    exact ⟨prev, found, freezes, rfl⟩
  · rintro ⟨prev, found, freezes, rfl⟩
    exact ⟨prev.taskId, freezes, prev, found, rfl⟩

/-- Carried-forward assignments are kept previous assignments whose id is not frozen. -/
theorem mem_carriedForward {a : Assignment} :
    a ∈ (rollingPartition settings order snapshot config).carriedForward ↔
      ∃ prev ∈ config.previousAssignments, ¬ Freezes settings snapshot config prev.taskId ∧
        prev.taskId ∈ snapshot.taskIds ∧ ¬ Escalates snapshot prev.taskId ∧ Intact snapshot prev ∧
          a = { prev with isFrozen := false } := by
  have frozen := @mem_frozenIds settings order snapshot config
  simp only [rollingPartition] at frozen ⊢
  simp only [carriedForwardAssignments, List.mem_map, List.mem_filter, decide_eq_true_eq, frozen,
    mem_escalatedServiceTasks, isSome_previousByTask]
  constructor
  · rintro ⟨prev, ⟨member, loose, current, calm, intact⟩, rfl⟩
    refine ⟨prev, member, loose, current, fun escalates => calm ⟨escalates, ?_⟩, intact, rfl⟩
    exact ⟨prev, member, rfl⟩
  · rintro ⟨prev, member, loose, current, calm, intact, rfl⟩
    exact ⟨prev, ⟨member, loose, current, fun forced => calm forced.1, intact⟩, rfl⟩

/-- The preserved list holds exactly the kept assignments, up to their frozen mark. -/
theorem mem_held {a : Assignment} :
    a ∈ (rollingPartition settings order snapshot config).held ↔
      ∃ prev, Keeps settings snapshot config prev ∧
        ((Freezes settings snapshot config prev.taskId ∧ a = { prev with isFrozen := true }) ∨
          ¬ Freezes settings snapshot config prev.taskId ∧ a = { prev with isFrozen := false }) := by
  rw [RollingPartition.held, List.mem_append, mem_frozenAssignments, mem_carriedForward]
  constructor
  · rintro (⟨prev, found, freezes, same⟩ | ⟨prev, member, loose, current, calm, intact, same⟩)
    · exact ⟨prev, .frozen found freezes, .inl ⟨freezes, same⟩⟩
    · exact ⟨prev, .carried member loose current calm intact, .inr ⟨loose, same⟩⟩
  · rintro ⟨prev, kept, ⟨freezes, same⟩ | ⟨loose, same⟩⟩
    · cases kept with
      | frozen found _ => exact .inl ⟨prev, found, freezes, same⟩
      | carried _ loose _ _ _ => exact absurd freezes loose
    · cases kept with
      | frozen _ freezes => exact absurd freezes loose
      | carried member _ current calm intact =>
        exact .inr ⟨prev, member, loose, current, calm, intact, same⟩

/-- A preserved assignment repeats the work of a kept one. -/
theorem exists_keeps_of_mem_held {a : Assignment}
    (held : a ∈ (rollingPartition settings order snapshot config).held) :
    ∃ prev, Keeps settings snapshot config prev ∧ prev.SameWork a := by
  obtain ⟨prev, kept, ⟨-, rfl⟩ | ⟨-, rfl⟩⟩ := mem_held.mp held
  · exact ⟨prev, kept, ⟨rfl, rfl, rfl, rfl, rfl⟩⟩
  · exact ⟨prev, kept, ⟨rfl, rfl, rfl, rfl, rfl⟩⟩

/-- Every kept assignment is published again. -/
theorem Keeps.exists_mem_held {prev : Assignment} (kept : Keeps settings snapshot config prev)
    (order : SetOrder String) :
    ∃ a ∈ (rollingPartition settings order snapshot config).held, prev.SameWork a := by
  by_cases freezes : Freezes settings snapshot config prev.taskId
  · exact ⟨_, mem_held.mpr ⟨prev, kept, .inl ⟨freezes, rfl⟩⟩, ⟨rfl, rfl, rfl, rfl, rfl⟩⟩
  · exact ⟨_, mem_held.mpr ⟨prev, kept, .inr ⟨freezes, rfl⟩⟩, ⟨rfl, rfl, rfl, rfl, rfl⟩⟩

theorem Keeps.mem_previousAssignments {prev : Assignment}
    (kept : Keeps settings snapshot config prev) : prev ∈ config.previousAssignments := by
  cases kept with
  | frozen found _ => exact (previousByTask_spec found).1
  | carried member _ _ _ _ => exact member

/-- A kept assignment of a current task still has all its assets. -/
theorem Keeps.intact {prev : Assignment} (kept : Keeps settings snapshot config prev)
    (current : prev.taskId ∈ snapshot.taskIds) : Intact snapshot prev := by
  cases kept with
  | frozen found freezes => exact freezes.2 prev found current
  | carried _ _ _ _ intact => exact intact

/-- The solver chain is given exactly the tasks to re-solve. -/
theorem mem_tasksToResolve {id : String} :
    id ∈ (rollingPartition settings order snapshot config).tasksToResolve ↔
      Resolves settings snapshot config id := by
  have frozen := @mem_frozenIds settings order snapshot config id
  have carried := @mem_carriedForward settings order snapshot config
  simp only [rollingPartition] at frozen carried ⊢
  simp only [Finset.mem_filter, Finset.mem_union, not_or, frozen, List.mem_toFinset, List.mem_map,
    carried, Resolves]
  refine and_congr_right fun current => and_congr_right fun loose => not_congr ?_
  constructor
  · rintro ⟨_, ⟨prev, member, loose, current, calm, intact, rfl⟩, same⟩
    exact ⟨prev, .carried member loose current calm intact, same⟩
  · rintro ⟨prev, kept, rfl⟩
    cases kept with
    | frozen _ freezes => exact absurd freezes loose
    | carried member _ current calm intact =>
      exact ⟨_, ⟨prev, member, loose, current, calm, intact, rfl⟩, rfl⟩

/-- A task with a kept assignment is never handed to the solver chain. -/
theorem Resolves.not_keepsTask {id : String} (resolves : Resolves settings snapshot config id) :
    ¬ KeepsTask settings snapshot config id :=
  resolves.2.2

end Partition

end FlOp.Rolling
