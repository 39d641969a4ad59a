import FlOp.Library.LabeledSystem
import FlOp.Rolling.Disposition
import FlOp.Rolling.Normalizer

/-! # Rolling sessions

A session publishes a baseline and then one revision for each rebuild, every revision inheriting
from the last one. Its runs are arbitrary sequences of snapshots, planning times and solver
answers. What a revision assigns is kept work of its parent or dispatch of its own solve.
-/

namespace FlOp.Rolling

open Adapters Canonical FlOp.Core Library Planning Solver

/-- A published revision and the snapshot it was built from. -/
structure Revision where
  snapshot : PlanningSnapshot
  plan : Plan

/-- The inputs of one rebuild. -/
structure Replan where
  snapshot : PlanningSnapshot
  now : Instant
  solver : Solver
  stamp : Stamp

/-- The continuity a rebuild inherits: the last plan and why its service tasks were derived. -/
def sessionConfig (last : Option Revision) (now : Instant) : RollingConfig where
  now := some now
  previousPlan := last.map (·.plan)
  previousServiceReasons := (last.map fun rev => serviceTaskReasons rev.snapshot).getD .empty

@[simp] theorem sessionConfig_nowFor (last : Option Revision) (now : Instant)
    (snapshot : PlanningSnapshot) : (sessionConfig last now).nowFor snapshot = now :=
  rfl

/-- Build the next revision; without a last one it is the baseline. -/
def Deployment.publish (deployment : Deployment) (last : Option Revision) (replan : Replan) :
    Revision where
  snapshot := replan.snapshot
  plan := deployment.plan replan.solver replan.snapshot (sessionConfig last replan.now) replan.stamp

/-- Sessions start without a revision; every rebuild replaces the last revision. -/
def Deployment.session (deployment : Deployment) : LabeledSystem (Option Revision) Replan :=
  .ofStep (· = none) fun last replan => some (some (deployment.publish last replan))

/-- The task has an assignment in the plan. -/
def AssignedIn (plan : Plan) (id : String) : Prop := ∃ a ∈ plan.assignments, a.taskId = id

instance (plan : Plan) (id : String) : Decidable (AssignedIn plan id) :=
  inferInstanceAs (Decidable (∃ a ∈ plan.assignments, a.taskId = id))

/-- A baseline has nothing to keep. -/
theorem not_keepsTask_baseline {settings : RollingSettings} {snapshot : PlanningSnapshot}
    {now : Instant} {id : String} : ¬ KeepsTask settings snapshot (sessionConfig none now) id := by
  rintro ⟨prev, kept, -⟩
  exact List.not_mem_nil kept.mem_previousAssignments

/-- Work kept from a parent was assigned in it. -/
theorem assignedIn_parent {settings : RollingSettings} {snapshot : PlanningSnapshot}
    {now : Instant} {id : String} {rev : Revision}
    (kept : KeepsTask settings snapshot (sessionConfig (some rev) now) id) :
    AssignedIn rev.plan id := by
  obtain ⟨prev, keeps, same⟩ := kept
  exact ⟨prev, keeps.mem_previousAssignments, same⟩

section Plan

variable (deployment : Deployment) (solver : Solver) (snapshot : PlanningSnapshot)
  (config : RollingConfig)

/-- The solve of one compile: its call and what the chain made of it. -/
def solveCall : SolverCall :=
  let partition := rollingPartition deployment.settings.rolling deployment.order snapshot config
  resolveCall snapshot partition.tasksToResolve partition.held (config.nowFor snapshot)

/-- The packages of one compile; nothing is dispatched when nothing is to be re-solved. -/
def solveDispatch : List DispatchPackage :=
  let raw := compileRollingState deployment.settings.rolling deployment.order solver snapshot config
  (raw.chainResult.map (·.dispatch)).getD []

/-- Everything the revision publishes, before the airspace holds. -/
def assembled : List Assignment :=
  assembledAssignments deployment.digest
    (compileRollingState deployment.settings.rolling deployment.order solver snapshot config)

/-- The holds the airspace pass applies to the assembled list. -/
def assembledHolds : Dict String ℚ :=
  airspaceHolds deployment.settings.airspace
    (lateralNear deployment.settings.airspace deployment.geometry)
    (aerialFlights deployment.geometry snapshot (assembled deployment solver snapshot config))

/-- Some package dispatches the task. -/
def DispatchedIn (dispatch : List DispatchPackage) (id : String) : Prop :=
  ∃ package ∈ dispatch, package.taskId = id

instance (dispatch : List DispatchPackage) (id : String) : Decidable (DispatchedIn dispatch id) :=
  inferInstanceAs (Decidable (∃ package ∈ dispatch, package.taskId = id))

/-- A rebuild publishes the parent's assignment again. -/
abbrev Deployment.WorkKept (deployment : Deployment) (last : Option Revision) (replan : Replan) :
    Assignment → Prop :=
  Keeps deployment.settings.rolling replan.snapshot (sessionConfig last replan.now)

/-- A rebuild keeps work of the task. -/
abbrev Deployment.TaskKept (deployment : Deployment) (last : Option Revision) (replan : Replan) :
    String → Prop :=
  KeepsTask deployment.settings.rolling replan.snapshot (sessionConfig last replan.now)

/-- A rebuild hands the task to its solver. -/
abbrev Deployment.TaskResolved (deployment : Deployment) (last : Option Revision)
    (replan : Replan) : String → Prop :=
  Resolves deployment.settings.rolling replan.snapshot (sessionConfig last replan.now)

/-- Everything a rebuild publishes, before the airspace holds. -/
abbrev Deployment.assembledFor (deployment : Deployment) (last : Option Revision)
    (replan : Replan) : List Assignment :=
  assembled deployment replan.solver replan.snapshot (sessionConfig last replan.now)

/-- The tasks and the dispatch of a rebuild's solve meet a relation. -/
def Deployment.Solves (deployment : Deployment)
    (relation : List TaskRow → List DispatchPackage → Prop) (last : Option Revision)
    (replan : Replan) : Prop :=
  relation (solveCall deployment replan.snapshot (sessionConfig last replan.now)).tasks
    (solveDispatch deployment replan.solver replan.snapshot (sessionConfig last replan.now))

instance (deployment : Deployment) (relation : List TaskRow → List DispatchPackage → Prop)
    [∀ tasks dispatch, Decidable (relation tasks dispatch)] (last : Option Revision)
    (replan : Replan) : Decidable (deployment.Solves relation last replan) :=
  inferInstanceAs (Decidable (relation _ _))

variable {deployment solver snapshot config}

/-- The published assignments are the assembled ones, each moved by its own hold. -/
theorem plan_assignments (stamp : Stamp) :
    (deployment.plan solver snapshot config stamp).assignments =
      (assembled deployment solver snapshot config).map
        (holdAssignment (assembledHolds deployment solver snapshot config)) := by
  have held : (normalizeRollingResult deployment (compileRollingState deployment.settings.rolling
      deployment.order solver snapshot config) snapshot stamp).assignments =
        (assembled deployment solver snapshot config).map
          (holdAssignment (assembledHolds deployment solver snapshot config)) :=
    heldPlan_eq_map ..
  rw [Deployment.plan]
  cases config.previousPlan with
  | none => exact held
  | some previous => exact held

/-- The chain is given the tasks to re-solve. -/
theorem mem_solveCall_tasks {row : TaskRow} :
    row ∈ (solveCall deployment snapshot config).tasks ↔
      ∃ task ∈ snapshot.tasks, TaskRow.ofTask task = row ∧
        Resolves deployment.settings.rolling snapshot config task.taskId := by
  simp only [solveCall, resolveCall, List.mem_filter, List.mem_map, decide_eq_true_eq,
    mem_tasksToResolve]
  constructor
  · rintro ⟨⟨task, member, rfl⟩, resolves⟩
    exact ⟨task, member, rfl, resolves⟩
  · rintro ⟨task, member, rfl, resolves⟩
    exact ⟨⟨task, member, rfl⟩, resolves⟩

/-- A compile either re-solves nothing or runs the chain once. -/
theorem chainResult_cases (deployment : Deployment) (solver : Solver) (snapshot : PlanningSnapshot)
    (config : RollingConfig) :
    (compileRollingState deployment.settings.rolling deployment.order solver snapshot
        config).chainResult = none ∨
      (compileRollingState deployment.settings.rolling deployment.order solver snapshot
        config).chainResult = some (runSolverChain (solveCall deployment snapshot config)
          (solver (solveCall deployment snapshot config))) := by
  simp only [compileRollingState, resolveTasks]
  split_ifs
  · exact .inl rfl
  · exact .inr rfl

/-- What is dispatched comes out of the chain run of the compile. -/
theorem mem_dispatch_of_mem_solveDispatch {package : DispatchPackage}
    (member : package ∈ solveDispatch deployment solver snapshot config) :
    package ∈ (runSolverChain (solveCall deployment snapshot config)
      (solver (solveCall deployment snapshot config))).dispatch := by
  rcases chainResult_cases deployment solver snapshot config with unsolved | solved
  · simp only [solveDispatch, unsolved] at member
    exact absurd member List.not_mem_nil
  · simpa only [solveDispatch, solved, Option.map_some, Option.getD_some] using member

/-- Dispatched tasks were handed to the solver. -/
theorem resolves_of_mem_solveDispatch {package : DispatchPackage}
    (member : package ∈ solveDispatch deployment solver snapshot config) :
    Resolves deployment.settings.rolling snapshot config package.taskId := by
  obtain ⟨row, given, same⟩ :=
    runSolverChain_dispatch_given _ (mem_dispatch_of_mem_solveDispatch member)
  obtain ⟨task, -, rfl, resolves⟩ := mem_solveCall_tasks.mp given
  exact same ▸ resolves

/-- Dispatched tasks start at or after the planning origin. -/
theorem start_of_mem_solveDispatch {package : DispatchPackage}
    (member : package ∈ solveDispatch deployment solver snapshot config) :
    ((config.nowFor snapshot).truncated : ℚ) ≤ package.scheduledStart := by
  have origin : (solveCall deployment snapshot config).now = config.nowFor snapshot := rfl
  rw [← origin]
  exact runSolverChain_dispatch_start _ (mem_dispatch_of_mem_solveDispatch member)

/-- An unassigned task comes out of the chain run of the compile. -/
theorem mem_plan_unassignedTasks {stamp : Stamp} {unassigned : UnassignedTask}
    (member : unassigned ∈ (deployment.plan solver snapshot config stamp).unassignedTasks) :
    solveDispatch deployment solver snapshot config =
        (runSolverChain (solveCall deployment snapshot config)
          (solver (solveCall deployment snapshot config))).dispatch ∧
      ∃ record ∈ (runSolverChain (solveCall deployment snapshot config)
        (solver (solveCall deployment snapshot config))).infeasible,
          record.taskId = unassigned.taskId := by
  have normalized : (deployment.plan solver snapshot config stamp).unassignedTasks =
      (normalizeChainDelta deployment.digest (compileRollingState deployment.settings.rolling
        deployment.order solver snapshot config)).2 := by
    rw [Deployment.plan]
    cases config.previousPlan with
    | none => rfl
    | some previous => rfl
  rw [normalized, normalizeChainDelta] at member
  rcases chainResult_cases deployment solver snapshot config with unsolved | solved
  · rw [unsolved] at member
    exact absurd member List.not_mem_nil
  · rw [solved] at member
    obtain ⟨record, reported, rfl⟩ := List.mem_map.mp member
    refine ⟨?_, record, reported, rfl⟩
    rw [solveDispatch, solved]
    rfl

/-- The assembled list repeats the preserved work and plans the new packages. -/
theorem assembled_eq (deployment : Deployment) (solver : Solver) (snapshot : PlanningSnapshot)
    (config : RollingConfig) :
    ∃ normalized : DispatchPackage → Assignment,
      assembled deployment solver snapshot config =
          (rollingPartition deployment.settings.rolling deployment.order snapshot config).held ++
            (solveDispatch deployment solver snapshot config).map normalized ∧
        ∀ package, (dispatchToAssignment deployment.digest package).SameWork
          (normalized package) := by
  obtain ⟨normalized, planned, same⟩ := newAssignments_eq_map deployment.digest
    (compileRollingState deployment.settings.rolling deployment.order solver snapshot config)
  refine ⟨normalized, ?_, same⟩
  rw [assembled, assembledAssignments, planned]
  rfl

/-- Every assembled assignment is kept work or new dispatch. -/
theorem mem_assembled {a : Assignment}
    (member : a ∈ assembled deployment solver snapshot config) :
    (∃ prev, Keeps deployment.settings.rolling snapshot config prev ∧ prev.SameWork a) ∨
      ∃ package ∈ solveDispatch deployment solver snapshot config,
        (dispatchToAssignment deployment.digest package).SameWork a := by
  obtain ⟨normalized, list, same⟩ := assembled_eq deployment solver snapshot config
  rw [list] at member
  rcases List.mem_append.mp member with held | dispatched
  · exact .inl (exists_keeps_of_mem_held held)
  · obtain ⟨package, packageMember, rfl⟩ := List.mem_map.mp dispatched
    exact .inr ⟨package, packageMember, same package⟩

theorem exists_assembled_of_keeps {prev : Assignment}
    (kept : Keeps deployment.settings.rolling snapshot config prev) (solver : Solver) :
    ∃ a ∈ assembled deployment solver snapshot config, prev.SameWork a := by
  obtain ⟨normalized, list, -⟩ := assembled_eq deployment solver snapshot config
  obtain ⟨a, held, same⟩ := kept.exists_mem_held deployment.order
  exact ⟨a, list ▸ List.mem_append_left _ held, same⟩

theorem exists_assembled_of_dispatch {package : DispatchPackage}
    (member : package ∈ solveDispatch deployment solver snapshot config) :
    ∃ a ∈ assembled deployment solver snapshot config,
      (dispatchToAssignment deployment.digest package).SameWork a := by
  obtain ⟨normalized, list, same⟩ := assembled_eq deployment solver snapshot config
  exact ⟨_, list ▸ List.mem_append_right _ (List.mem_map_of_mem member), same package⟩

/-- Holds move assignments, so the assigned tasks are those of the assembled list. -/
theorem assignedIn_plan_iff {stamp : Stamp} {id : String} :
    AssignedIn (deployment.plan solver snapshot config stamp) id ↔
      KeepsTask deployment.settings.rolling snapshot config id ∨
        DispatchedIn (solveDispatch deployment solver snapshot config) id := by
  have listed : AssignedIn (deployment.plan solver snapshot config stamp) id ↔
      ∃ a ∈ assembled deployment solver snapshot config, a.taskId = id := by
    simp only [AssignedIn, plan_assignments, List.mem_map, exists_exists_and_eq_and,
      holdAssignment_taskId]
  rw [listed]
  constructor
  · rintro ⟨a, member, rfl⟩
    rcases mem_assembled member with ⟨prev, kept, same⟩ | ⟨package, dispatched, same⟩
    · exact .inl ⟨prev, kept, same.taskId.symm⟩
    · exact .inr ⟨package, dispatched, same.taskId.symm⟩
  · rintro (⟨prev, kept, rfl⟩ | ⟨package, dispatched, rfl⟩)
    · obtain ⟨a, member, same⟩ := exists_assembled_of_keeps kept solver
      exact ⟨a, member, same.taskId⟩
    · obtain ⟨a, member, same⟩ := exists_assembled_of_dispatch dispatched
      exact ⟨a, member, same.taskId⟩

end Plan

end FlOp.Rolling
