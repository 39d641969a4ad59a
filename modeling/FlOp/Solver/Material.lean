import FlOp.Core.Numbers
import FlOp.Core.Text
import FlOp.Library.Ordering
import FlOp.Solver.Chain
import FlOp.Solver.Clusters
import Mathlib.Algebra.BigOperators.Group.List.Basic
import Mathlib.Tactic.Linarith

/-! # Material admission

Tasks of an operation with a declared demand are charged against the inventory of the depot of
their cluster, the highest penalty first. A charge becomes a provisional reservation; a demand
beyond what is left makes the task infeasible.
-/

namespace FlOp.Solver

open Canonical FlOp.Core Library

/-- The consumable demand an operation type places on a depot. -/
structure MaterialDemandSpec where
  material : String
  perAreaHa : ℚ
deriving DecidableEq, Repr

def materialInventoryCanonicalUnit : String := "kg"

/-- A hectare-like unit; case and surrounding blanks are ignored. -/
def isHectareUnit (unit : String) : Bool :=
  String.ofList ((strip unit.toList).map Char.toLower) ∈ ["", "ha", "hectare", "hectares"]

/-- The area that a per-hectare demand is based on. -/
def areaHaForMaterial (order : OrderRow) : ℚ :=
  let area := max 0 order.area
  if 0 < area then area
  else if isHectareUnit order.workQuantityUnit then max 0 order.workQuantity
  else 0

def MaterialDemandSpec.demand (spec : MaterialDemandSpec) (order : OrderRow) : ℚ :=
  spec.perAreaHa * areaHaForMaterial order

/-- A quantity without decimals, as messages show it. -/
def formatWhole (x : ℚ) : String :=
  let n := roundHalfEven x
  if n = 0 ∧ x < 0 then "-0" else toString n

/-- The reservation of an admitted charge, its quantity rounded to hundredths. -/
def provisionalReservation (depotRef : String) (order : OrderRow) (spec : MaterialDemandSpec) :
    MaterialReservation where
  reservationId := "res-" ++ order.taskId
  taskId := order.taskId
  materialType := spec.material
  inventoryLocationRef := depotRef
  quantity := roundTo 2 (spec.demand order)
  canonicalUnit := materialInventoryCanonicalUnit

/-- The record of a demand beyond what is left. -/
def insufficientMaterial (cluster : ClusterSpec) (order : OrderRow) (spec : MaterialDemandSpec)
    (available : ℚ) : InfeasibleRecord where
  taskId := order.taskId
  clusterId := cluster.clusterId
  reasonCode := .insufficientMaterial
  detail :=
    "needs " ++ formatWhole (spec.demand order) ++ " " ++ spec.material ++ " at " ++
      cluster.depotRef ++ "; " ++ formatWhole available ++ " remaining"

/-- What is left at each depot, with the records and the reservations made so far. -/
structure MaterialBooks where
  remaining : Dict String ℚ
  infeasible : List InfeasibleRecord := []
  reservations : List MaterialReservation := []

def MaterialBooks.available (books : MaterialBooks) (depotRef : String) : ℚ :=
  books.remaining.getD depotRef 0

/-- Charge one demanding task and keep it, or record it. -/
def chargeOrder (cluster : ClusterSpec) (state : MaterialBooks × List String)
    (demanding : OrderRow × MaterialDemandSpec) : MaterialBooks × List String :=
  let demand := demanding.2.demand demanding.1
  let available := state.1.available cluster.depotRef
  if demand ≤ 0 then (state.1, state.2 ++ [demanding.1.taskId])
  else if demand ≤ available then
    ({ state.1 with
        remaining := state.1.remaining.set cluster.depotRef (available - demand)
        reservations := state.1.reservations ++
          [provisionalReservation cluster.depotRef demanding.1 demanding.2] },
      state.2 ++ [demanding.1.taskId])
  else
    ({ state.1 with
        infeasible := state.1.infeasible ++
          [insufficientMaterial cluster demanding.1 demanding.2 available] }, state.2)

/-- What admission knows of the orders. -/
structure MaterialInputs where
  orders : List OrderRow
  materialDemand : Dict String MaterialDemandSpec

namespace MaterialInputs

variable (inputs : MaterialInputs)

def orderIndex : Dict String OrderRow := Dict.collect (·.taskId) id inputs.orders

/-- The order of a task and the demand declared for its operation. -/
def demandOf (taskId : String) : Option (OrderRow × MaterialDemandSpec) :=
  (inputs.orderIndex.get? taskId).bind fun order =>
    (inputs.materialDemand.get? order.operationType).map (order, ·)

/-- The demanding tasks of a cluster, the highest penalty first. -/
def demanding (cluster : ClusterSpec) : List (OrderRow × MaterialDemandSpec) :=
  sortBy (fun demand => -demand.1.penaltyPerDay) (cluster.taskIds.filterMap inputs.demandOf)

/-- Charge the demanding tasks of a cluster; the others are kept as they are. -/
def chargeCluster (books : MaterialBooks) (cluster : ClusterSpec) : MaterialBooks × ClusterSpec :=
  let passthrough := cluster.taskIds.filter fun taskId => (inputs.demandOf taskId).isNone
  let charged := (inputs.demanding cluster).foldl (chargeOrder cluster) (books, passthrough)
  (charged.1, { cluster with taskIds := cluster.taskIds.filter fun taskId => taskId ∈ charged.2 })

/-- Charge the clusters one after the other. -/
def chargeClusters : MaterialBooks → List ClusterSpec → MaterialBooks × List ClusterSpec
  | books, [] => (books, [])
  | books, cluster :: rest =>
    let first := inputs.chargeCluster books cluster
    let later := chargeClusters first.1 rest
    (later.1, first.2 :: later.2)

end MaterialInputs

/-- The inventory of each depot; a repeated depot counts with its last row. -/
def depotInventory (depots : List DepotRow) : Dict String ℚ :=
  Dict.collect (·.locationId) (·.inventoryMaterial) depots

/-- Charge the demand of all clusters against the inventory of their depots. -/
def applyMaterialLimits (inputs : MaterialInputs) (depots : List DepotRow)
    (clusters : List ClusterSpec) : MaterialBooks × List ClusterSpec :=
  let books : MaterialBooks := { remaining := depotInventory depots }
  if inputs.materialDemand.entries.isEmpty then (books, clusters)
  else inputs.chargeClusters books clusters

/-- What the reservations hold at a depot; released ones hold nothing. -/
def reservedAt (reservations : List MaterialReservation) (depotRef : String) : ℚ :=
  ((reservations.filter fun reservation =>
    reservation.inventoryLocationRef = depotRef ∧ reservation.status ≠ .released).map
      (·.quantity)).sum

@[simp] theorem reservedAt_cons (reservation : MaterialReservation)
    (rest : List MaterialReservation) (depotRef : String) :
    reservedAt (reservation :: rest) depotRef =
      (if reservation.inventoryLocationRef = depotRef ∧ reservation.status ≠ .released
        then reservation.quantity else 0) + reservedAt rest depotRef := by
  by_cases here : reservation.inventoryLocationRef = depotRef ∧ reservation.status ≠ .released
  · simp only [reservedAt, List.filter_cons, here, decide_true, if_true, List.map_cons,
      List.sum_cons, not_false_eq_true, ne_eq, and_self]
  · simp only [reservedAt, List.filter_cons, here, decide_false, if_false, zero_add,
      Bool.false_eq_true]

@[simp] theorem reservedAt_append (first second : List MaterialReservation) (depotRef : String) :
    reservedAt (first ++ second) depotRef =
      reservedAt first depotRef + reservedAt second depotRef := by
  simp only [reservedAt, List.filter_append, List.map_append, List.sum_append]

section Charging

variable {inputs : MaterialInputs} {inventory : Dict String ℚ} {books : MaterialBooks}

/-- The reservation takes no more than the demand it was charged for. -/
def MaterialInputs.NotRoundedUp (inputs : MaterialInputs) (taskId : String) : Prop :=
  ∀ demand ∈ inputs.demandOf taskId, roundTo 2 (demand.2.demand demand.1) ≤
    demand.2.demand demand.1

instance (inputs : MaterialInputs) (taskId : String) : Decidable (inputs.NotRoundedUp taskId) :=
  inferInstanceAs (Decidable (∀ demand ∈ inputs.demandOf taskId, _))

/-- Every reservation is provisional and none is negative. Unless quantities were rounded up,
reservations and what is left stay within the inventory, and nothing is overdrawn. -/
structure MaterialBooks.Balanced (inputs : MaterialInputs) (inventory : Dict String ℚ)
    (books : MaterialBooks) : Prop where
  provisional : ∀ reservation ∈ books.reservations,
    reservation.status = .provisional ∧ 0 ≤ reservation.quantity
  within : (∀ reservation ∈ books.reservations, inputs.NotRoundedUp reservation.taskId) →
    ∀ depotRef, reservedAt books.reservations depotRef + books.available depotRef ≤
        inventory.getD depotRef 0 ∧
      (0 ≤ inventory.getD depotRef 0 → 0 ≤ books.available depotRef)

theorem MaterialBooks.Balanced.initial (inputs : MaterialInputs) (inventory : Dict String ℚ) :
    ({ remaining := inventory } : MaterialBooks).Balanced inputs inventory where
  provisional reservation member := absurd member List.not_mem_nil
  within _ depotRef := by
    simp only [reservedAt, List.filter_nil, List.map_nil, List.sum_nil, zero_add]
    exact ⟨le_rfl, fun nonneg => nonneg⟩

theorem MaterialInputs.taskId_of_demandOf {taskId : String}
    {demanding : OrderRow × MaterialDemandSpec}
    (demands : inputs.demandOf taskId = some demanding) : demanding.1.taskId = taskId := by
  obtain ⟨order, indexed, declared⟩ := Option.bind_eq_some_iff.mp demands
  obtain ⟨spec, -, rfl⟩ := Option.map_eq_some_iff.mp declared
  obtain ⟨row, -, same, rfl⟩ := Dict.exists_of_get?_collect indexed
  exact same

/-- A provisional reservation holds its quantity at its own depot. -/
theorem reservedAt_provisional (cluster : ClusterSpec) (order : OrderRow)
    (spec : MaterialDemandSpec) (depotRef : String) :
    reservedAt [provisionalReservation cluster.depotRef order spec] depotRef =
      if depotRef = cluster.depotRef then roundTo 2 (spec.demand order) else 0 := by
  by_cases here : depotRef = cluster.depotRef
  · simp [reservedAt, provisionalReservation, here]
  · simp [reservedAt, provisionalReservation, here, Ne.symm here]

/-- Charging one task keeps the books balanced. -/
theorem balanced_chargeOrder {cluster : ClusterSpec} {kept : List String} {taskId : String}
    {demanding : OrderRow × MaterialDemandSpec}
    (demands : inputs.demandOf taskId = some demanding)
    (balanced : books.Balanced inputs inventory) :
    (chargeOrder cluster (books, kept) demanding).1.Balanced inputs inventory := by
  simp only [chargeOrder]
  split
  · exact balanced
  · next positive =>
    split
    · next enough =>
      constructor
      · intro reservation member
        rcases List.mem_append.mp member with old | new
        · exact balanced.provisional reservation old
        · obtain rfl := List.mem_singleton.mp new
          exact ⟨rfl, roundTo_nonneg 2 (le_of_lt (not_le.mp positive))⟩
      · intro notRounded depotRef
        obtain ⟨within, nonneg⟩ := balanced.within
          (fun reservation member => notRounded reservation (List.mem_append_left _ member))
          depotRef
        have last := notRounded _ (List.mem_append_right _ List.mem_cons_self)
        have own : inputs.demandOf demanding.1.taskId = some demanding := by
          rw [inputs.taskId_of_demandOf demands]
          exact demands
        have quantity := last demanding own
        rw [reservedAt_append, reservedAt_provisional, MaterialBooks.available, Dict.getD_set]
        by_cases here : depotRef = cluster.depotRef
        · subst here
          rw [if_pos rfl, if_pos rfl]
          constructor
          · linarith
          · intro _
            linarith
        · rw [if_neg here, if_neg here, add_zero]
          exact ⟨within, nonneg⟩
    · exact ⟨balanced.provisional, balanced.within⟩

/-- Charging the demands of a cluster keeps the books balanced. -/
theorem balanced_foldl_chargeOrder {cluster : ClusterSpec} {kept : List String}
    {pending : List (OrderRow × MaterialDemandSpec)}
    (demands : ∀ demanding ∈ pending, ∃ taskId, inputs.demandOf taskId = some demanding)
    (balanced : books.Balanced inputs inventory) :
    (pending.foldl (chargeOrder cluster) (books, kept)).1.Balanced inputs inventory := by
  induction pending generalizing books kept with
  | nil => exact balanced
  | cons demanding rest ih =>
    obtain ⟨taskId, found⟩ := demands demanding List.mem_cons_self
    rw [List.foldl_cons]
    apply ih
    · intro other member
      exact demands other (List.mem_cons_of_mem _ member)
    · exact balanced_chargeOrder found balanced

theorem balanced_chargeCluster (cluster : ClusterSpec)
    (balanced : books.Balanced inputs inventory) :
    (inputs.chargeCluster books cluster).1.Balanced inputs inventory := by
  apply balanced_foldl_chargeOrder _ balanced
  intro demanding member
  obtain ⟨taskId, -, found⟩ := List.mem_filterMap.mp ((mem_sortBy _ _).mp member)
  exact ⟨taskId, found⟩

theorem balanced_chargeClusters (clusters : List ClusterSpec)
    (balanced : books.Balanced inputs inventory) :
    (inputs.chargeClusters books clusters).1.Balanced inputs inventory := by
  induction clusters generalizing books with
  | nil => exact balanced
  | cons cluster rest ih => exact ih (balanced_chargeCluster cluster balanced)

/-- The books of the whole admission are balanced. -/
theorem balanced_applyMaterialLimits (inputs : MaterialInputs) (depots : List DepotRow)
    (clusters : List ClusterSpec) :
    (applyMaterialLimits inputs depots clusters).1.Balanced inputs (depotInventory depots) := by
  unfold applyMaterialLimits
  split
  · exact .initial inputs _
  · exact balanced_chargeClusters clusters (.initial inputs _)

/-- Admission never reserves more of a depot than its inventory, unless it rounds up. -/
theorem reservedAt_applyMaterialLimits {depots : List DepotRow} {clusters : List ClusterSpec}
    (notRounded : ∀ reservation ∈ (applyMaterialLimits inputs depots clusters).1.reservations,
      inputs.NotRoundedUp reservation.taskId) (depotRef : String)
    (nonneg : 0 ≤ (depotInventory depots).getD depotRef 0) :
    reservedAt (applyMaterialLimits inputs depots clusters).1.reservations depotRef ≤
      (depotInventory depots).getD depotRef 0 := by
  obtain ⟨within, notOverdrawn⟩ :=
    (balanced_applyMaterialLimits inputs depots clusters).within notRounded depotRef
  have left := notOverdrawn nonneg
  linarith

end Charging

/-- Settling provisional reservations releases some of them and moves none. -/
theorem reservedAt_finalizeMaterialReservations {reservations : List MaterialReservation}
    (provisional : ∀ reservation ∈ reservations,
      reservation.status = .provisional ∧ 0 ≤ reservation.quantity)
    (dispatch : List DispatchPackage) (depotRef : String) :
    reservedAt (finalizeMaterialReservations reservations dispatch) depotRef ≤
      reservedAt reservations depotRef := by
  induction reservations with
  | nil => exact le_rfl
  | cons reservation rest ih =>
    obtain ⟨status, nonneg⟩ := provisional reservation List.mem_cons_self
    have later := ih fun other member => provisional other (List.mem_cons_of_mem _ member)
    simp only [finalizeMaterialReservations, List.map_cons, reservedAt_cons] at later ⊢
    refine add_le_add ?_ later
    rw [status]
    by_cases here : reservation.inventoryLocationRef = depotRef
    · cases (Dict.collect (·.taskId) id dispatch).get? reservation.taskId with
      | none => simpa [here] using nonneg
      | some package => simp [here]
    · cases (Dict.collect (·.taskId) id dispatch).get? reservation.taskId with
      | none => simp [here]
      | some package => simp [here]

end FlOp.Solver
