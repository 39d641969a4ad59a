import FlOp.Core.Constants
import FlOp.Library.Dict
import Mathlib.Data.Finset.Image

/-! # Canonical planning snapshot

The solver-neutral input of one planning step. Only what the rolling compiler, the airspace
pass and the chain bookkeeping read is kept of each entity.
-/

namespace FlOp.Canonical

open FlOp.Core Library

/-- A capability value, up to the conversions the engine applies to it. -/
inductive CapabilityValue where
  | number (value : ℚ)
  | boolean (value : Bool)
  | text (value : String)
  | composite
deriving DecidableEq, Repr

structure Capability where
  semanticTerm : String
  value : Option CapabilityValue
deriving DecidableEq, Repr

/-- A WGS-84 point: latitude and longitude. -/
abbrev Point := ℚ × ℚ

structure Asset where
  assetId : String
  roles : List String := []
  capabilities : List Capability := []
  location : Option Point := none
  homeDepotRef : Option String := none
deriving DecidableEq, Repr

/-- The first capability declared under a term. -/
def Asset.capability (asset : Asset) (semanticTerm : String) : Option Capability :=
  asset.capabilities.find? fun cap => cap.semanticTerm = semanticTerm

def Asset.capabilityValue (asset : Asset) (semanticTerm : String) : Option CapabilityValue :=
  (asset.capability semanticTerm).bind (·.value)

structure Location where
  locationId : String
  lat : ℚ
  lon : ℚ
deriving DecidableEq, Repr

structure Observation where
  entityRef : String
  metric : String
  value : Option ℚ := none
  stateValue : String := ""
  observedAt : Option Instant := none
deriving DecidableEq, Repr

/-- A unit of work. An empty `alternativeGroupRef` means the task has no alternatives. -/
structure Task where
  taskId : String
  orderId : String := ""
  alternativeGroupRef : String := ""
  operationType : String := ""
  locationRef : String := ""
  pickupLocationRef : Option String := none
  dependsOnTaskRef : Option String := none
  deadline : Option Instant := none
  status : String := "pending"
  sourceRef : String := ""
deriving DecidableEq, Repr

structure PlanningSnapshot where
  snapshotId : String
  snapshotHash : String := ""
  effectiveAt : Instant
  horizonTo : Option Instant := none
  assets : List Asset := []
  locations : List Location := []
  tasks : List Task := []
  observations : List Observation := []
  sourceWatermarks : Dict String Instant := .empty
  lineageRef : String := ""

namespace PlanningSnapshot

/-- Task lookup; a repeated id resolves to its last task. -/
def taskIndex (snapshot : PlanningSnapshot) : Dict String Task :=
  Dict.collect (·.taskId) id snapshot.tasks

def taskIds (snapshot : PlanningSnapshot) : Finset String :=
  (snapshot.tasks.map (·.taskId)).toFinset

def assetIds (snapshot : PlanningSnapshot) : Finset String :=
  (snapshot.assets.map (·.assetId)).toFinset

variable {snapshot : PlanningSnapshot}

@[simp] theorem mem_taskIds {id : String} :
    id ∈ snapshot.taskIds ↔ ∃ task ∈ snapshot.tasks, task.taskId = id := by
  simp [taskIds]

end PlanningSnapshot

end FlOp.Canonical
