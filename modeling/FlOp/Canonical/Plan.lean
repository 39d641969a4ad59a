import FlOp.Core.Constants
import FlOp.Library.Dict

/-! # Canonical plan contract

The output side of planning: assignments, unassigned tasks, reservations and the corrective
actions a revision records. A plan is an immutable revision envelope.
-/

namespace FlOp.Canonical

open FlOp.Core Library

/-- Why a rolling revision repaired itself. -/
inductive CorrectiveActionType where
  | reassignedAfterAssetLoss
  | serviceWithdrawn
  | serviceEscalated
deriving DecidableEq, Repr

/-- A value recorded as evidence of a corrective action. -/
inductive Evidence where
  | number (value : ℚ)
  | text (value : String)
  | texts (values : List String)
deriving DecidableEq, Repr

structure CorrectiveAction where
  action : CorrectiveActionType
  taskId : String
  detail : String := ""
  evidence : List (String × Evidence) := []
deriving DecidableEq, Repr

/-- A task assigned to a bundle. -/
structure Assignment where
  assignmentId : String
  taskId : String
  bundleId : String
  assetIds : List String := []
  operatorIds : List String := []
  plannedStart : Instant
  plannedFinish : Instant
  materialReservationRefs : List String := []
  isFrozen : Bool := false
  isPinned : Bool := false
  expectedMarginEur : ℚ := 0
  previousBundleId : Option String := none
  previousStartTime : Option Instant := none
  changePenalty : ℤ := 0
  explanationRef : String := ""
deriving DecidableEq, Repr

namespace Assignment

/-- Every asset the assignment occupies; operators are assets stored in a field of their own. -/
def resourceIds (a : Assignment) : List String := a.assetIds ++ a.operatorIds

/-- Committed work is never re-timed. -/
def committed (a : Assignment) : Bool := a.isFrozen || a.isPinned

/-- `other` repeats the schedule of `a`: its task, its window and the resources it occupies. -/
structure SameWork (a other : Assignment) : Prop where
  taskId : other.taskId = a.taskId
  plannedStart : other.plannedStart = a.plannedStart
  plannedFinish : other.plannedFinish = a.plannedFinish
  assetIds : other.assetIds = a.assetIds
  operatorIds : other.operatorIds = a.operatorIds

namespace SameWork

variable {a b c : Assignment}

theorem refl (a : Assignment) : a.SameWork a := ⟨rfl, rfl, rfl, rfl, rfl⟩

theorem symm (same : a.SameWork b) : b.SameWork a :=
  ⟨same.taskId.symm, same.plannedStart.symm, same.plannedFinish.symm, same.assetIds.symm,
    same.operatorIds.symm⟩

theorem trans (ab : a.SameWork b) (bc : b.SameWork c) : a.SameWork c :=
  ⟨bc.taskId.trans ab.taskId, bc.plannedStart.trans ab.plannedStart,
    bc.plannedFinish.trans ab.plannedFinish, bc.assetIds.trans ab.assetIds,
    bc.operatorIds.trans ab.operatorIds⟩

theorem resourceIds (same : a.SameWork b) : b.resourceIds = a.resourceIds := by
  simp only [Assignment.resourceIds, same.assetIds, same.operatorIds]

end SameWork

end Assignment

/-- Normalized reason codes for unassigned tasks. -/
inductive ReasonCode where
  | noCompatibleBundle
  | insufficientPower
  | noAvailableOperator
  | noAvailableAsset
  | noValidWeatherWindow
  | insufficientMaterial
  | contractWindowInfeasible
  | predecessorUnserved
  | restrictedZone
  | locationDataInvalid
  | fieldGeometryInvalid
  | qualityPolicyBlock
  | manualOverrideConflict
  | optimizationTradeoff
  | unknown
deriving DecidableEq, Repr

structure UnassignedTask where
  taskId : String
  reasonCode : ReasonCode
  detail : String := ""
  clusterId : String := ""
  explanationRef : String := ""
deriving DecidableEq, Repr

inductive ReservationStatus where
  | provisional
  | confirmed
  | consumed
  | released
deriving DecidableEq, Repr

structure MaterialReservation where
  reservationId : String
  taskId : String
  materialType : String
  inventoryLocationRef : String
  quantity : ℚ
  canonicalUnit : String
  reservedFrom : Option Instant := none
  reservedTo : Option Instant := none
  status : ReservationStatus := .provisional
deriving DecidableEq, Repr

/-- Counts a rolling revision reports about itself. -/
structure RollingScore where
  nFrozen : ℕ := 0
  nCarriedForward : ℕ := 0
  nReplanned : ℕ := 0
  nNewTasks : ℕ := 0
  nChangedAfterFreeze : ℕ := 0
  nRepairedAfterAssetLoss : ℕ := 0
  nServiceWithdrawn : ℕ := 0
  nServiceEscalated : ℕ := 0
  planInstabilityPenalty : ℤ := 0
  nUnassigned : ℕ := 0
  nClusters : ℕ := 0
  nGreedyWarmStartAssignments : ℕ := 0
deriving DecidableEq, Repr

/-- A normalized plan revision. -/
structure Plan where
  planId : String
  revisionId : String
  parentRevisionId : Option String := none
  originPlanId : String
  snapshotId : String
  snapshotHash : String := ""
  generatedAt : Instant
  effectiveFrom : Instant
  effectiveTo : Option Instant := none
  assignments : List Assignment := []
  unassignedTasks : List UnassignedTask := []
  materialReservations : List MaterialReservation := []
  correctiveActions : List CorrectiveAction := []
  score : RollingScore := {}
  nContractDeadlinesAtRisk : ℕ := 0
  sourceWatermarks : Dict String Instant := .empty
  lineageRef : String := ""

end FlOp.Canonical
