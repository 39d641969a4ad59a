import FlOp.Core.Constants
import FlOp.Core.Numbers
import FlOp.Library.Ordering
import FlOp.Mapping.CanonicalRows
import FlOp.Stream.Source
import Mathlib.Data.Prod.Lex
import Mathlib.Data.String.Basic

/-! # Feasibility queries

A query ranks the vehicles that could serve one new order. The rows it reads are projected by the
mapping documents, the ranking is a function of the projected rows, and only the conflict risk of
a candidate depends on the schedule and on the time of the query.
-/

namespace FlOp.Solver

open Library Mapping FlOp.Stream FlOp.Core

/-- Number and time parsing, operation codes, and the numeric kernels of the ranking. -/
structure QueryEngine extends Primitives where
  operationCode : Value → String
  operationSet : Value → List String
  /-- Which vehicle can power which implement, by rated and required power. -/
  compatMatrix : List Value → List Value → Option (ℕ → ℕ → Bool)
  haversineKm : ℚ × ℚ → ℚ × ℚ → ℚ
  scoreWeightMargin : ℚ := 1
  scoreWeightReposition : ℚ := 1
  fuelCostEurPerL : ℚ := 29 / 20

def fallbackRevenueEurPerHa : ℚ := 200

def topCandidates : ℕ := 3

def conflictRiskHighThreshold : ℕ := 3

/-- How far ahead an order without a readable deadline is expected to end. -/
def deadlineFallbackS : ℚ := 7 * 24 * 3600

/-- The default of a row field as a raw value. -/
def ofDefault : Default → Value
  | .text value => .text value
  | .number value => .number value (toString value)
  | .null => .null
  | .emptyList => .composite "[]"
  | .emptyDict => .composite "\x7b\x7d"

/-- `schedule.json`: its dispatch packages, and its other entries, which only count for its
digest. -/
structure ScheduleDocument where
  schedule : List Row
  others : Row := .empty
deriving DecidableEq

/-- What one query reads: the rows of three sources, the schedule if there is one, and the
order. -/
structure QueryInput where
  vehicles : List Row
  implements : List Row
  fields : List Row
  schedule : Option ScheduleDocument
  order : Row

/-- The dispatch packages of the schedule. -/
def QueryInput.packages (input : QueryInput) : List Row := input.schedule.elim [] (·.schedule)

/-- The rows of a query under canonical keys. -/
structure QueryRows where
  vehicles : List Row
  implements : List Row
  fields : List Row
  order : Row
deriving DecidableEq

/-- `to_canonical_rows` of the sources and the order. -/
def translate (mappings : Dict String BindingTable) (input : QueryInput) : Option QueryRows := do
  let vehicles ← input.vehicles.mapM (toCanonicalRow ofDefault mappings "vehicles")
  let implements ← input.implements.mapM (toCanonicalRow ofDefault mappings "implements")
  let fields ← input.fields.mapM (toCanonicalRow ofDefault mappings "fields")
  let order ← toCanonicalRow ofDefault mappings "orders" input.order
  return { vehicles, implements, fields, order }

structure TimeWindow where
  start : Value
  stop : Value
  taskId : Value
deriving DecidableEq

inductive ConflictRisk where
  | low
  | medium
  | high
deriving DecidableEq, Repr

structure Candidate where
  primeAssetId : Value
  relatedAssetId : Value
  estimatedMarginEur : ℚ
  scheduleConflictRisk : ConflictRisk
deriving DecidableEq

/-- The response of a query; a reason is given where no pair of assets is compatible. -/
structure QueryAnswer where
  taskId : Value
  feasible : Bool
  reasonCode : Option String := none
  candidates : List Candidate
deriving DecidableEq

/-- A scored pair of a vehicle and an implement, by their positions. -/
structure ScoredPair where
  score : ℚ
  vehicle : ℕ
  implement : ℕ
deriving DecidableEq

section Ranking

variable (engine : QueryEngine)

/-- Row positions by id; the last row of an id counts. -/
def positions (key : String) (rows : List Row) : Dict Value ℕ :=
  Dict.collect (fun row => row.1.value key) (·.2) rows.zipIdx

/-- `filter_feasible_vehicle_implement_pairs` for the one order. -/
def feasiblePairs (rows : QueryRows) : Option (List (ℕ × ℕ)) := do
  let compat ← engine.compatMatrix (rows.vehicles.map (·.value "rated_power"))
    (rows.implements.map (·.value "required_power"))
  let operations (assets : List Row) : Dict Value (List String) :=
    Dict.collect (·.value "asset_id")
      (fun row => engine.operationSet (row.value "compatible_operations")) assets
  let vehicleIndex := positions "asset_id" rows.vehicles
  let implementIndex := positions "asset_id" rows.implements
  let operation := engine.operationCode (rows.order.value "operation_type")
  return rows.implements.flatMap fun implement =>
    let implementId := implement.value "asset_id"
    if operation ∉ (operations rows.implements).getD implementId [] then []
    else
      rows.vehicles.filterMap fun vehicle =>
        let vehicleId := vehicle.value "asset_id"
        let declared := (operations rows.vehicles).getD vehicleId []
        let pair := (vehicleIndex.getD vehicleId 0, implementIndex.getD implementId 0)
        -- a vehicle without declared operations takes any
        if declared ≠ [] ∧ operation ∉ declared then none
        else if compat pair.1 pair.2 then some pair else none

/-- `vehicle_energy_consumption_rate`. -/
def energyConsumptionRate (vehicle : Row) : ℚ :=
  let rate (value : Value) : ℚ := if value.truthy then (engine.toFloat value).getD 0 else 0
  let explicit := rate (vehicle.value "energy_consumption_rate")
  if 0 < explicit then explicit else rate (vehicle.value "fuel_consumption_rate")

/-- `_estimate_gross_margin`. -/
def estimateGrossMargin (order : Row) : Option ℚ := do
  let revenue ← engine.toFloat (order.value "revenue")
  if 0 < revenue then return revenue
  else return (← engine.toFloat (order.value "area")) * fallbackRevenueEurPerHa

def coordinates (row : Row) : Option (ℚ × ℚ) := do
  return (← engine.toFloat (row.value "lat"), ← engine.toFloat (row.value "lon"))

/-- `vectorized_score` for the one order, best first; an order without its field has no scores. -/
def vectorizedScore (rows : QueryRows) (pairs : List (ℕ × ℕ)) : Option (List ScoredPair) := do
  let places ← rows.vehicles.mapM (coordinates engine)
  let speeds ← rows.vehicles.mapM fun vehicle => engine.toFloat (vehicle.value "travel_speed")
  let fieldMap := Dict.collect (·.value "location_id") id rows.fields
  match fieldMap.get? (rows.order.value "location_ref") with
  | none => return []
  | some field =>
    let target ← coordinates engine field
    let margin ← estimateGrossMargin engine rows.order
    let score (pair : ℕ × ℕ) : ScoredPair :=
      let vehicle := rows.vehicles.getD pair.1 .empty
      let hours := engine.haversineKm (places.getD pair.1 (0, 0)) target /
        max (speeds.getD pair.1 0) 1
      let reposition := hours * (energyConsumptionRate engine vehicle * engine.fuelCostEurPerL)
      { score := engine.scoreWeightMargin * margin - engine.scoreWeightReposition * reposition
        vehicle := pair.1
        implement := pair.2 }
    return sortBy (fun pair => -pair.score) (pairs.map score)

/-- The best pair of each of the first vehicles. -/
def firstByVehicle (vehicleId : ℕ → Value) : ℕ → List Value → List ScoredPair → List ScoredPair
  | 0, _, _ => []
  | _, _, [] => []
  | n + 1, seen, pair :: rest =>
    if vehicleId pair.vehicle ∈ seen then firstByVehicle vehicleId (n + 1) seen rest
    else pair :: firstByVehicle vehicleId n (vehicleId pair.vehicle :: seen) rest

end Ranking

section Risk

variable (engine : QueryEngine)

/-- The scheduled window of a dispatch package. -/
def timeWindow (package : Row) : TimeWindow where
  start := Dict.getD package "scheduled_start" (.text "")
  stop := Dict.getD package "scheduled_end" (.text "")
  taskId := Dict.getD package "task_id" (.text "")

/-- `_build_vehicle_time_index`. -/
def buildVehicleTimeIndex (packages : List Row) : Dict Value (List TimeWindow) :=
  Dict.groupBy (fun package => Dict.getD package "prime_asset_id" (.text "")) timeWindow packages

/-- `datetime.fromisoformat`: only texts can be times. -/
def readTime : Value → Option Timestamp
  | .text text => engine.parseTime text
  | _ => none

/-- Times with and without an offset do not compare. -/
def Before (a b : Timestamp) : Prop := a.aware = b.aware ∧ a.instant < b.instant

instance (a b : Timestamp) : Decidable (Before a b) := inferInstanceAs (Decidable (_ ∧ _))

/-- `_windows_overlap` of the expected window and a scheduled one. -/
def windowsOverlap (new : Timestamp × Timestamp) (window : TimeWindow) : Bool :=
  match readTime engine window.start, readTime engine window.stop with
  | some start, some stop => Before new.1 stop ∧ Before start new.2
  | _, _ => false

/-- `_compute_conflict_risk` from the windows of the vehicle. -/
def computeConflictRisk (new : Timestamp × Timestamp) (windows : List TimeWindow) : ConflictRisk :=
  let overlapping := windows.countP (windowsOverlap engine new)
  if overlapping = 0 then .low
  else if overlapping < conflictRiskHighThreshold then .medium
  else .high

/-- `_estimate_operation_window`: from the time of the query to the deadline. -/
def estimateOperationWindow (order : Row) (now : Instant) : Timestamp × Timestamp :=
  (⟨now, true⟩, (readTime engine (order.value "deadline")).getD ⟨now + deadlineFallbackS, true⟩)

end Risk

section Evaluation

variable (engine : QueryEngine)

/-- The evaluation of a query on projected rows. -/
def evaluateRows (rows : QueryRows) (packages : List Row) (now : Instant) : Option QueryAnswer := do
  let taskId := rows.order.value "task_id"
  let pairs ← feasiblePairs engine rows
  if pairs = [] then
    return { taskId, feasible := false, reasonCode := some "NO_COMPATIBLE_BUNDLE", candidates := [] }
  else
    let scored ← vectorizedScore engine rows pairs
    let index := buildVehicleTimeIndex packages
    let new := estimateOperationWindow engine rows.order now
    let idAt (assets : List Row) (i : ℕ) : Value :=
      (assets[i]?).elim (.text "") (·.value "asset_id")
    let picked := firstByVehicle (idAt rows.vehicles) topCandidates [] scored
    let candidates := picked.map fun pair => {
      primeAssetId := idAt rows.vehicles pair.vehicle
      relatedAssetId := idAt rows.implements pair.implement
      estimatedMarginEur := roundTo 2 pair.score
      scheduleConflictRisk :=
        computeConflictRisk engine new (index.getD (idAt rows.vehicles pair.vehicle) []) }
    let ranked := sortBy (fun candidate : Candidate =>
      toLex (-candidate.estimatedMarginEur, candidate.primeAssetId.shown)) candidates
    return { taskId, feasible := ranked.length > 0, candidates := ranked }

/-- `evaluate_query` without the response cache, at a moment; `none` where it raises. -/
def evaluate (mappings : Dict String BindingTable) (input : QueryInput) (now : Instant) :
    Option QueryAnswer := do
  evaluateRows engine (← translate mappings input) input.packages now

end Evaluation

/-! ## What the answer depends on -/

/-- Two rows with the same columns, in whatever order. -/
def SameRow (row other : Row) : Prop :=
  ∀ column, Dict.get? row column = Dict.get? other column

def SameRows : List Row → List Row → Prop := List.Forall₂ SameRow

/-- Two schedule documents with the same entries. -/
def ScheduleDocument.Same (a b : ScheduleDocument) : Prop :=
  SameRows a.schedule b.schedule ∧ SameRow a.others b.others

/-- Two inputs with the same content. -/
structure QueryInput.Same (a b : QueryInput) : Prop where
  vehicles : SameRows a.vehicles b.vehicles
  implements : SameRows a.implements b.implements
  fields : SameRows a.fields b.fields
  schedule : Option.Rel ScheduleDocument.Same a.schedule b.schedule
  order : SameRow a.order b.order

namespace SameRows

variable {β : Type} {f : Row → β} {rows others : List Row}

theorem map_eq (same : SameRows rows others) (sees : ∀ a b, SameRow a b → f a = f b) :
    rows.map f = others.map f := by
  induction same with
  | nil => rfl
  | cons first _ ih => rw [List.map_cons, List.map_cons, sees _ _ first, ih]

theorem mapM_eq {f : Row → Option β} (same : SameRows rows others)
    (sees : ∀ a b, SameRow a b → f a = f b) : rows.mapM f = others.mapM f := by
  induction same with
  | nil => rfl
  | cons first _ ih => rw [List.mapM_cons, List.mapM_cons, sees _ _ first, ih]

end SameRows

/-- The projection depends on the content alone. -/
theorem translate_congr (mappings : Dict String BindingTable) {a b : QueryInput}
    (same : a.Same b) : translate mappings a = translate mappings b := by
  have project : ∀ contractId, ∀ row other, SameRow row other →
      toCanonicalRow ofDefault mappings contractId row =
        toCanonicalRow ofDefault mappings contractId other :=
    fun contractId _ _ => toCanonicalRow_congr ofDefault mappings contractId
  simp only [translate, same.vehicles.mapM_eq (project _), same.implements.mapM_eq (project _),
    same.fields.mapM_eq (project _), project _ _ _ same.order]

theorem QueryInput.Same.packages {a b : QueryInput} (same : a.Same b) :
    SameRows a.packages b.packages := by
  have schedules := same.schedule
  unfold QueryInput.packages
  revert schedules
  generalize a.schedule = left
  generalize b.schedule = right
  intro schedules
  cases schedules with
  | none => exact .nil
  | some documents => exact documents.1

/-- The time index depends on the content alone. -/
theorem buildVehicleTimeIndex_congr {packages others : List Row} (same : SameRows packages others) :
    buildVehicleTimeIndex packages = buildVehicleTimeIndex others := by
  have read : ∀ (packages : List Row), buildVehicleTimeIndex packages =
      Dict.groupBy Prod.fst Prod.snd (packages.map fun package =>
        (Dict.getD package "prime_asset_id" (.text ""), timeWindow package)) := by
    intro packages
    rw [Dict.groupBy, List.foldl_map]
    rfl
  rw [read, read]
  refine congrArg _ (same.map_eq fun a b columns => ?_)
  simp only [timeWindow, Dict.getD, columns _]

section Dependence

variable {engine : QueryEngine}

theorem computeConflictRisk_congr {new other : Timestamp × Timestamp} {windows : List TimeWindow}
    (same : ∀ window ∈ windows, windowsOverlap engine new window =
      windowsOverlap engine other window) :
    computeConflictRisk engine new windows = computeConflictRisk engine other windows := by
  have counts : windows.countP (windowsOverlap engine new) =
      windows.countP (windowsOverlap engine other) :=
    List.countP_congr fun window member => by rw [same window member]
  simp only [computeConflictRisk, counts]

/-- Two evaluations of the same rows and packages agree if no scheduled window is passed in
between. -/
theorem evaluateRows_congr {rows : QueryRows} {packages others : List Row} {now later : Instant}
    (same : SameRows packages others)
    (overlaps : ∀ package ∈ others,
      windowsOverlap engine (estimateOperationWindow engine rows.order now) (timeWindow package) =
        windowsOverlap engine (estimateOperationWindow engine rows.order later)
          (timeWindow package)) :
    evaluateRows engine rows packages now = evaluateRows engine rows others later := by
  have risk : ∀ id,
      computeConflictRisk engine (estimateOperationWindow engine rows.order now)
        ((buildVehicleTimeIndex others).getD id []) =
      computeConflictRisk engine (estimateOperationWindow engine rows.order later)
        ((buildVehicleTimeIndex others).getD id []) := by
    intro id
    refine computeConflictRisk_congr fun window member => ?_
    rw [buildVehicleTimeIndex, Dict.getD_groupBy] at member
    obtain ⟨package, inPackages, rfl⟩ := List.mem_map.mp member
    exact overlaps package (List.mem_of_mem_filter inPackages)
  simp only [evaluateRows, buildVehicleTimeIndex_congr same, risk]

/-- Evaluations of the same content agree if the mapping documents project it to the same rows and
no scheduled window is passed in between. -/
theorem evaluate_congr {mappings others : Dict String BindingTable} {a b : QueryInput}
    {now later : Instant} (same : a.Same b)
    (projected : translate mappings b = translate others b)
    (overlaps : ∀ rows, translate others b = some rows → ∀ package ∈ b.packages,
      windowsOverlap engine (estimateOperationWindow engine rows.order now) (timeWindow package) =
        windowsOverlap engine (estimateOperationWindow engine rows.order later)
          (timeWindow package)) :
    evaluate engine mappings a now = evaluate engine others b later := by
  simp only [evaluate, translate_congr _ same, projected, Option.bind_eq_bind]
  cases rows : translate others b with
  | none => rw [Option.bind_none, Option.bind_none]
  | some projectedRows =>
    rw [Option.bind_some, Option.bind_some]
    exact evaluateRows_congr same.packages (overlaps projectedRows rows)

end Dependence

end FlOp.Solver
