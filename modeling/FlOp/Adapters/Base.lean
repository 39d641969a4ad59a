import FlOp.Canonical.Bundle
import FlOp.Solver.Chain

/-! # Result normalization shared by the adapters -/

namespace FlOp.Adapters

open Canonical FlOp.Core Library Solver

/-- Convert a dispatch package into a canonical assignment. -/
def dispatchToAssignment (digest : String → String) (package : DispatchPackage) : Assignment where
  assignmentId := package.dispatchId
  taskId := package.taskId
  bundleId := computeBundleId digest [package.primeAssetId, package.relatedAssetId] [] mappingVersion
  assetIds := [package.primeAssetId, package.relatedAssetId].filter (· ≠ "")
  operatorIds := if package.operatorAssetId = "" then [] else [package.operatorAssetId]
  plannedStart := package.scheduledStart
  plannedFinish := package.scheduledEnd
  expectedMarginEur := package.estimatedMarginEur
  explanationRef := "explain://assignment/" ++ package.taskId

/-- Stamp each assignment with its task's reservation ids; other assignments are unchanged. -/
def linkReservationRefs (assignments : List Assignment) (reservations : List MaterialReservation) :
    List Assignment :=
  let refsByTask := Dict.groupBy (·.taskId) (·.reservationId) reservations
  assignments.map fun a =>
    match refsByTask.get? a.taskId with
    | some refs => { a with materialReservationRefs := refs }
    | none => a

/-- Convert an infeasibility record into a canonical unassigned task. -/
def infeasibleToUnassigned (record : InfeasibleRecord) : UnassignedTask where
  taskId := record.taskId
  reasonCode := record.reasonCode
  detail := record.detail
  clusterId := record.clusterId
  explanationRef := "explain://unassigned/" ++ record.taskId

/-- Linking reservations leaves the planned work of every assignment as it was. -/
theorem linkReservationRefs_eq_map (assignments : List Assignment)
    (reservations : List MaterialReservation) :
    ∃ link : Assignment → Assignment,
      linkReservationRefs assignments reservations = assignments.map link ∧
        ∀ a : Assignment, a.SameWork (link a) := by
  refine ⟨_, rfl, fun a => ?_⟩
  split
  · exact ⟨rfl, rfl, rfl, rfl, rfl⟩
  · exact .refl a

end FlOp.Adapters
