import FlOp.Adapters.Base
import FlOp.Core.Text
import FlOp.Planning.DoubleBooking
import FlOp.Rolling.Compiler

/-! # Normalization of rolling results

A compiled and solved state becomes an immutable revision: preserved work first, then the new
dispatch, the whole list re-timed by the airspace holds.
-/

namespace FlOp.Rolling

open Adapters Canonical FlOp.Core Library Planning Solver

/-- What the deployment of the planner fixes for every revision. -/
structure Deployment where
  settings : Settings := {}
  order : SetOrder String := .increasing
  digest : String → String
  geometry : Geometry

/-- Stamps of one published revision. -/
structure Stamp where
  revisionId : String
  generatedAt : Instant

/-- A new assignment that moves a task to another bundle records what it replaces. -/
def recordChange (raw : RollingSolveResult) (a : Assignment) : Assignment :=
  match raw.previousByTask.get? a.taskId with
  | some previous =>
    if previous.bundleId ≠ a.bundleId then
      { a with
        previousBundleId := some previous.bundleId
        previousStartTime := some previous.plannedStart
        changePenalty := raw.changePenalty }
    else a
  | none => a

/-- The new assignments and the unassigned tasks of a solve. -/
def normalizeChainDelta (digest : String → String) (raw : RollingSolveResult) :
    List Assignment × List UnassignedTask :=
  match raw.chainResult with
  | none => ([], [])
  | some chain =>
    (chain.dispatch.map fun package => recordChange raw (dispatchToAssignment digest package),
      chain.infeasible.map infeasibleToUnassigned)

/-- The counts a revision reports. -/
def buildScore (raw : RollingSolveResult) (newAssignments : List Assignment)
    (unassigned : List UnassignedTask) : RollingScore :=
  let nChanged := (newAssignments.filter fun a => 0 < a.changePenalty).length
  let byAction (action : CorrectiveActionType) :=
    (raw.correctiveActions.filter fun corrective => corrective.action = action).length
  { nFrozen := raw.frozenAssignments.length
    nCarriedForward := raw.carriedForward.length
    nReplanned := newAssignments.length
    nNewTasks := (newAssignments.filter fun a => a.taskId ∉ raw.previousByTask.keys).length
    nChangedAfterFreeze := nChanged
    nRepairedAfterAssetLoss := byAction .reassignedAfterAssetLoss
    nServiceWithdrawn := byAction .serviceWithdrawn
    nServiceEscalated := byAction .serviceEscalated
    planInstabilityPenalty := nChanged * raw.changePenalty
    nUnassigned := unassigned.length
    nClusters := (raw.chainResult.map (·.nClusters)).getD 0
    nGreedyWarmStartAssignments := (raw.chainResult.map (·.nGreedyAssignments)).getD 0 }

/-- The new assignments of a revision, linked to the reservations of the same solve. -/
def newAssignments (digest : String → String) (raw : RollingSolveResult) : List Assignment :=
  linkReservationRefs (normalizeChainDelta digest raw).1
    ((raw.chainResult.map (·.materialReservations)).getD [])

/-- Everything a revision publishes, before the airspace holds. -/
def assembledAssignments (digest : String → String) (raw : RollingSolveResult) : List Assignment :=
  raw.frozenAssignments ++ raw.carriedForward ++ newAssignments digest raw

def rollingPlanId (snapshot : PlanningSnapshot) : String :=
  "plan-rolling-" ++ takeHead 8 snapshot.snapshotHash

/-- Convert a rolling solve result into a plan revision. -/
def normalizeRollingResult (deployment : Deployment) (raw : RollingSolveResult)
    (snapshot : PlanningSnapshot) (stamp : Stamp) : Plan :=
  let delta := normalizeChainDelta deployment.digest raw
  let airspace := deployment.settings.airspace
  let newReservations := (raw.chainResult.map (·.materialReservations)).getD []
  { planId := rollingPlanId snapshot
    revisionId := stamp.revisionId
    originPlanId := rollingPlanId snapshot
    snapshotId := snapshot.snapshotId
    snapshotHash := snapshot.snapshotHash
    generatedAt := stamp.generatedAt
    effectiveFrom := snapshot.effectiveAt
    effectiveTo := snapshot.horizonTo
    assignments := heldPlan airspace (lateralNear airspace deployment.geometry) deployment.geometry
      snapshot (assembledAssignments deployment.digest raw)
    unassignedTasks := delta.2
    materialReservations := raw.carriedReservations ++ newReservations
    correctiveActions := raw.correctiveActions
    score := buildScore raw (newAssignments deployment.digest raw) delta.2
    nContractDeadlinesAtRisk := delta.2.length
    sourceWatermarks := snapshot.sourceWatermarks
    lineageRef := snapshot.lineageRef }

/-- Compile, solve and normalize one revision, linked to its parent. -/
def Deployment.plan (deployment : Deployment) (solver : Solver) (snapshot : PlanningSnapshot)
    (config : RollingConfig) (stamp : Stamp) : Plan :=
  let raw := compileRollingState deployment.settings.rolling deployment.order solver snapshot config
  let plan := normalizeRollingResult deployment raw snapshot stamp
  match config.previousPlan with
  | some previous =>
    { plan with
      parentRevisionId := some previous.revisionId
      originPlanId := previous.originPlanId }
  | none => plan

section NewAssignments

/-- Recording a change leaves the planned work as it was. -/
theorem sameWork_recordChange (raw : RollingSolveResult) (a : Assignment) :
    a.SameWork (recordChange raw a) := by
  unfold recordChange
  split
  · split_ifs
    · exact ⟨rfl, rfl, rfl, rfl, rfl⟩
    · exact .refl a
  · exact .refl a

/-- New assignments plan the dispatch packages of the solve, one for each. -/
theorem newAssignments_eq_map (digest : String → String) (raw : RollingSolveResult) :
    ∃ normalized : DispatchPackage → Assignment,
      newAssignments digest raw =
          ((raw.chainResult.map (·.dispatch)).getD []).map normalized ∧
        ∀ package, (dispatchToAssignment digest package).SameWork (normalized package) := by
  obtain ⟨link, linked, same⟩ := linkReservationRefs_eq_map (normalizeChainDelta digest raw).1
    ((raw.chainResult.map (·.materialReservations)).getD [])
  refine ⟨fun package => link (recordChange raw (dispatchToAssignment digest package)), ?_,
    fun package => (sameWork_recordChange raw _).trans (same _)⟩
  rw [newAssignments, linked, normalizeChainDelta]
  cases raw.chainResult with
  | none => rfl
  | some chain => simp only [List.map_map, Option.map_some, Option.getD_some, Function.comp_def]

end NewAssignments

end FlOp.Rolling
