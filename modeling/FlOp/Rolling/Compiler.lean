import FlOp.Rolling.Corrective
import FlOp.Solver.Chain

/-! # Incremental compile and re-solve

Each revision freezes started and imminent work, carries the rest of the previous plan
forward where it still fits, and hands the remaining tasks to the solver chain.
-/

namespace FlOp.Rolling

open Canonical FlOp.Core Library Solver

def startedStatus : String := "started"

/-- What the caller passes to a rolling compile. -/
structure RollingConfig where
  now : Option Instant := none
  rollingChangePenalty : Option ℤ := none
  previousPlan : Option Plan := none
  previousServiceReasons : Dict String String := .empty

namespace RollingConfig

/-- The planning time: the configured one, else the snapshot's own. -/
def nowFor (config : RollingConfig) (snapshot : PlanningSnapshot) : Instant :=
  config.now.getD snapshot.effectiveAt

def previousAssignments (config : RollingConfig) : List Assignment :=
  match config.previousPlan with
  | some plan => plan.assignments
  | none => []

/-- Assignment lookup; a repeated task id resolves to its last assignment. -/
def previousByTask (config : RollingConfig) : Dict String Assignment :=
  Dict.collect (·.taskId) id config.previousAssignments

/-- An absent or zero penalty means the default one. -/
def changePenalty (config : RollingConfig) (settings : RollingSettings) : ℤ :=
  match config.rollingChangePenalty with
  | some penalty => if penalty = 0 then settings.defaultChangePenalty else penalty
  | none => settings.defaultChangePenalty

end RollingConfig

/-- Planned starts up to this instant are inside the freeze window. -/
def freezeCutoff (settings : RollingSettings) (now : Instant) : Instant :=
  now + settings.freezeWindowMinutes * 60

/-- Task ids protected by started status or the freeze window. -/
def frozenTaskIds (settings : RollingSettings) (snapshot : PlanningSnapshot)
    (previousByTask : Dict String Assignment) (now : Instant) : Finset String :=
  let started := (snapshot.tasks.filter fun task => task.status = startedStatus).map (·.taskId)
  let imminent := (previousByTask.entries.filter fun entry =>
    entry.2.plannedStart ≤ freezeCutoff settings now).map Prod.fst
  started.toFinset ∪ imminent.toFinset

/-- Non-frozen prior assignments whose task and assets still exist, in plan order. -/
def carriedForwardAssignments (previousAssignments : List Assignment)
    (frozenIds current available forceResolveIds : Finset String) : List Assignment :=
  (previousAssignments.filter fun a =>
    a.taskId ∉ frozenIds ∧ a.taskId ∈ current ∧ a.taskId ∉ forceResolveIds ∧
      ∀ id ∈ a.assetIds, id ∈ available).map fun a => { a with isFrozen := false }

/-- What a compile decides before it solves. -/
structure RollingPartition where
  frozenIds : Finset String
  correctiveActions : List CorrectiveAction
  frozenAssignments : List Assignment
  carriedForward : List Assignment
  preserved : Finset String
  carriedReservations : List MaterialReservation
  tasksToResolve : Finset String

/-- The decisions of one compile. A set of frozen ids is scanned in an unspecified order. -/
def rollingPartition (settings : RollingSettings) (order : SetOrder String)
    (snapshot : PlanningSnapshot) (config : RollingConfig) : RollingPartition :=
  let now := config.nowFor snapshot
  let previousByTask := config.previousByTask
  let current := snapshot.taskIds
  let available := snapshot.assetIds
  let released := releaseLostAssetAssignments
    (frozenTaskIds settings snapshot previousByTask now) previousByTask available current
  let frozenIds := released.1
  let escalations := escalatedServiceTasks snapshot config.previousServiceReasons previousByTask
  let frozenAssignments := (order.toList frozenIds).filterMap fun id =>
    (previousByTask.get? id).map fun prev => { prev with isFrozen := true }
  let carriedForward := carriedForwardAssignments config.previousAssignments frozenIds current
    available escalations.1
  let preserved := frozenIds ∪ (carriedForward.map (·.taskId)).toFinset
  { frozenIds := frozenIds
    correctiveActions := released.2 ++
      carriedAssetLossActions config.previousAssignments frozenIds current available ++
      escalations.2 ++
      withdrawnServiceActions config.previousPlan current snapshot config.previousServiceReasons
    frozenAssignments := frozenAssignments
    carriedForward := carriedForward
    preserved := preserved
    carriedReservations :=
      ((config.previousPlan.map (·.materialReservations)).getD []).filter fun r =>
        r.taskId ∈ preserved
    tasksToResolve := current.filter fun id => id ∉ preserved }

/-- The preserved assignments, in the order in which they are published. -/
def RollingPartition.held (partition : RollingPartition) : List Assignment :=
  partition.frozenAssignments ++ partition.carriedForward

def rolePrimeMover : String := "mobile-prime-mover"

def roleRelated : String := "implement"

def roleOperator : String := "operator"

/-- Assets projected into a solver row section. -/
def assetsWithRole (snapshot : PlanningSnapshot) (role : String) : Finset String :=
  ((snapshot.assets.filter fun asset => role ∈ asset.roles).map (·.assetId)).toFinset

/-- Busy whole-second intervals of each known held asset. -/
def heldAssetWindows (held : List Assignment) (known : Finset String) :
    Dict String (List (ℤ × ℤ)) :=
  let windows := held.flatMap fun a =>
    (a.resourceIds.filter fun id => id ∈ known).map fun id =>
      (id, a.plannedStart.truncated, a.plannedFinish.truncated)
  Dict.groupBy Prod.fst Prod.snd windows

/-- The chain call of a compile: the rows of the tasks to re-solve and the held calendars. -/
def resolveCall (snapshot : PlanningSnapshot) (tasksToResolve : Finset String)
    (held : List Assignment) (now : Instant) : SolverCall where
  tasks := (snapshot.tasks.map TaskRow.ofTask).filter fun row => row.taskId ∈ tasksToResolve
  heldWindows := heldAssetWindows held
    (assetsWithRole snapshot rolePrimeMover ∪ assetsWithRole snapshot roleRelated ∪
      assetsWithRole snapshot roleOperator)
  now := now

/-- The deployed search stages: one answer for every call. -/
abbrev Solver := (call : SolverCall) → SolverStages call

/-- Re-solve the given tasks; without any the chain is not run. -/
def resolveTasks (solver : Solver) (snapshot : PlanningSnapshot) (tasksToResolve : Finset String)
    (held : List Assignment) (now : Instant) : Option SolverChainResult :=
  if tasksToResolve = ∅ then none
  else
    let call := resolveCall snapshot tasksToResolve held now
    some (runSolverChain call (solver call))

/-- Compiled-and-solved rolling state passed to normalization. -/
structure RollingSolveResult where
  chainResult : Option SolverChainResult
  frozenAssignments : List Assignment
  carriedForward : List Assignment
  previousByTask : Dict String Assignment
  now : Instant
  changePenalty : ℤ
  correctiveActions : List CorrectiveAction
  carriedReservations : List MaterialReservation

/-- Freeze or carry forward unaffected work and re-solve the remaining tasks. -/
def compileRollingState (settings : RollingSettings) (order : SetOrder String) (solver : Solver)
    (snapshot : PlanningSnapshot) (config : RollingConfig) : RollingSolveResult :=
  let now := config.nowFor snapshot
  let partition := rollingPartition settings order snapshot config
  { chainResult := resolveTasks solver snapshot partition.tasksToResolve partition.held now
    frozenAssignments := partition.frozenAssignments
    carriedForward := partition.carriedForward
    previousByTask := config.previousByTask
    now := now
    changePenalty := config.changePenalty settings
    correctiveActions := partition.correctiveActions
    carriedReservations := partition.carriedReservations }

end FlOp.Rolling
