import FlOp.Canonical.Plan
import FlOp.Canonical.Snapshot

/-! # Solver working rows

The records that travel into and out of the solver chain, with the fields the chain's own
bookkeeping reads.
-/

namespace FlOp.Solver

open Canonical FlOp.Core

/-- A unit of work to schedule; an empty reference stands for no reference. -/
structure TaskRow where
  taskId : String
  alternativeGroupRef : String := ""
  dependsOnTaskRef : String := ""
deriving DecidableEq, Repr

/-- Projection of a canonical task into its working row. -/
def TaskRow.ofTask (task : Task) : TaskRow where
  taskId := task.taskId
  alternativeGroupRef := task.alternativeGroupRef
  dependsOnTaskRef := task.dependsOnTaskRef.getD ""

/-- A working row with the fields that clustering, enforcement and routing read. A workable window
without an end stays open; its bounds and the deadline are parsed already. -/
structure OrderRow extends TaskRow where
  locationRef : String := ""
  operationType : String := ""
  area : ℚ := 0
  workQuantity : ℚ := 0
  workQuantityUnit : String := ""
  timeWindows : List (Instant × Option Instant) := []
  deadline : Option Instant := none
  pickupLocationRef : String := ""
  penaltyPerDay : ℚ := 0
deriving DecidableEq, Repr

/-- An operator with its normalized certified operations. -/
structure OperatorRow where
  assetId : String
  homeDepotRef : String := ""
  certifiedOperations : List String := []
deriving DecidableEq, Repr

/-- A route origin and its material inventory. -/
structure DepotRow where
  locationId : String
  inventoryMaterial : ℚ := 0
deriving DecidableEq, Repr

/-- A task the chain could not serve. -/
structure InfeasibleRecord where
  taskId : String
  clusterId : String := ""
  reasonCode : ReasonCode
  detail : String := ""
deriving DecidableEq, Repr

/-- One dispatched task with the resources and the window the solver gave it. -/
structure DispatchPackage where
  dispatchId : String
  taskId : String
  clusterId : String := ""
  primeAssetId : String
  relatedAssetId : String
  operatorAssetId : String := ""
  scheduledStart : Instant
  scheduledEnd : Instant
  estimatedMarginEur : ℚ := 0
deriving DecidableEq, Repr

end FlOp.Solver
