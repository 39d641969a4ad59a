import FlOp.Solver.MaterialTurns

/-! # Reserved stock

A demand is admitted as it is and reserved in hundredths, so the reservations of a depot add up to
what was charged and what rounding adds to it.
-/

namespace FlOp.Solver

open Canonical FlOp.Core Library

/-- What rounding adds to some demands. -/
def roundingGain (demands : List ℚ) : ℚ := (demands.map fun demand => roundTo 2 demand - demand).sum

/-- The reservations of each depot stay within its stock, and the tasks with a positive demand that
are admitted at a depot are those with a reservation there. -/
structure ReservesWithinStock (inputs : MaterialInputs) (depots : List DepotRow)
    (clusters : List ClusterSpec) : Prop where
  withinStock : ∀ depotRef,
    reservedAt (applyMaterialLimits inputs depots clusters).1.reservations depotRef ≤
      (depotInventory depots).getD depotRef 0
  reserved : ∀ cluster ∈ (applyMaterialLimits inputs depots clusters).2,
    ∀ taskId ∈ cluster.taskIds, ∀ demanding ∈ inputs.demandOf taskId,
      0 < demanding.2.demand demanding.1 →
        ∃ reservation ∈ (applyMaterialLimits inputs depots clusters).1.reservations,
          reservation.taskId = taskId ∧ reservation.inventoryLocationRef = cluster.depotRef
  admitted : ∀ reservation ∈ (applyMaterialLimits inputs depots clusters).1.reservations,
    ∃ cluster ∈ (applyMaterialLimits inputs depots clusters).2,
      reservation.taskId ∈ cluster.taskIds ∧
        reservation.inventoryLocationRef = cluster.depotRef ∧
        ∃ demanding ∈ inputs.demandOf reservation.taskId, 0 < demanding.2.demand demanding.1

/-- At each depot, what rounding adds to the demands that fit in turn is left over by them. -/
def RoundingFits (inputs : MaterialInputs) (depots : List DepotRow)
    (clusters : List ClusterSpec) : Prop :=
  ∀ depotRef,
    roundingGain (served ((depotInventory depots).getD depotRef 0)
      (demandsAt depotRef (inputs.charges clusters))) ≤
    leftAfter ((depotInventory depots).getD depotRef 0)
      (demandsAt depotRef (inputs.charges clusters))

section Reserved

variable {inputs : MaterialInputs} {depots : List DepotRow} {clusters : List ClusterSpec}

theorem roundingGain_eq (demands : List ℚ) :
    roundingGain demands = (demands.map (roundTo 2)).sum - demands.sum := by
  induction demands with
  | nil => simp [roundingGain]
  | cons demand rest ih =>
    rw [roundingGain] at ih ⊢
    rw [List.map_cons, List.sum_cons, ih, List.map_cons, List.sum_cons, List.sum_cons]
    ring

theorem reservedAt_reservation (turn : Turn) (rest : List MaterialReservation)
    (depotRef : String) : reservedAt (turn.reservation :: rest) depotRef =
      (if turn.charge.depotRef = depotRef then roundTo 2 turn.charge.demand else 0) +
        reservedAt rest depotRef := by
  rw [reservedAt_cons]
  congr 1
  apply if_congr _ rfl rfl
  exact and_iff_left (by decide : ReservationStatus.provisional ≠ .released)

/-- The admitted turns reserve the rounded demands that are served. -/
theorem reservedAt_turnsAfter (inventory : Dict String ℚ) (past charges : List Charge)
    (depotRef : String) :
    reservedAt (((turnsAfter inventory past charges).filter fun turn => turn.Admitted).map
      Turn.reservation) depotRef =
    ((served (leftBefore inventory past depotRef) (demandsAt depotRef charges)).map
      (roundTo 2)).sum := by
  induction charges generalizing past with
  | nil => rfl
  | cons charge rest ih =>
    have later := ih (past ++ [charge])
    rw [leftBefore_concat] at later
    rw [turnsAfter, List.filter_cons]
    by_cases counts : charge.depotRef = depotRef ∧ 0 < charge.demand
    · have demands : demandsAt depotRef (charge :: rest) =
          charge.demand :: demandsAt depotRef rest := by
        simp [demandsAt, counts]
      rw [demands, served]
      obtain ⟨rfl, positive⟩ := counts
      by_cases fits : charge.demand ≤ leftBefore inventory past charge.depotRef
      · rw [if_pos ⟨rfl, positive, fits⟩] at later
        have admitted : (⟨charge, leftBefore inventory past charge.depotRef⟩ : Turn).Admitted :=
          ⟨positive, fits⟩
        rw [if_pos (decide_eq_true admitted), List.map_cons, reservedAt_reservation, if_pos rfl,
          if_pos fits, List.map_cons, List.sum_cons, later]
      · rw [if_neg fun all => fits all.2.2] at later
        have refused : ¬ (⟨charge, leftBefore inventory past charge.depotRef⟩ : Turn).Admitted :=
          fun admitted => fits admitted.2
        rw [if_neg (by simpa using refused), if_neg fits, later]
    · have demands : demandsAt depotRef (charge :: rest) = demandsAt depotRef rest := by
        simp [demandsAt, counts]
      rw [demands]
      rw [if_neg fun all => counts ⟨all.1, all.2.1⟩] at later
      split
      · next admitted =>
        have elsewhere : charge.depotRef ≠ depotRef := fun here =>
          counts ⟨here, (of_decide_eq_true admitted).1⟩
        rw [List.map_cons, reservedAt_reservation, if_neg elsewhere, zero_add, later]
      · exact later

end Reserved

/-- Reservations stay within the stock if and only if at each depot the demands that fit in turn
leave over what rounding adds to them; who has a reservation is always right. -/
theorem reserves_within_stock_iff (inputs : MaterialInputs) (depots : List DepotRow)
    (clusters : List ClusterSpec) :
    ReservesWithinStock inputs depots clusters ↔ RoundingFits inputs depots clusters := by
  obtain ⟨holds, keeps⟩ := holds_applyMaterialLimits inputs depots clusters
  have total (depotRef : String) :
      reservedAt (applyMaterialLimits inputs depots clusters).1.reservations depotRef ≤
        (depotInventory depots).getD depotRef 0 ↔
      roundingGain (served ((depotInventory depots).getD depotRef 0)
        (demandsAt depotRef (inputs.charges clusters))) ≤
      leftAfter ((depotInventory depots).getD depotRef 0)
        (demandsAt depotRef (inputs.charges clusters)) := by
    have start : leftBefore (depotInventory depots) [] depotRef =
        (depotInventory depots).getD depotRef 0 := rfl
    rw [holds.reservations, reservedAt_turnsAfter, start, roundingGain_eq, leftAfter_eq,
      sub_le_sub_iff_right]
  constructor
  · intro reserves depotRef
    exact (total depotRef).mp (reserves.withinStock depotRef)
  · intro fits
    refine ⟨fun depotRef => (total depotRef).mpr (fits depotRef), ?_, ?_⟩
    · intro cluster member taskId listed demanding demands positive
      obtain ⟨turn, settled, admitted, depot, order, -⟩ :=
        keeps.admitted cluster member taskId listed demanding demands positive
      refine ⟨turn.reservation, ?_, ?_, depot⟩
      · rw [holds.reservations]
        exact List.mem_map_of_mem (List.mem_filter.mpr ⟨settled, decide_eq_true admitted⟩)
      · exact (congrArg (·.taskId) order).trans (inputs.taskId_of_demandOf demands)
    · intro reservation member
      rw [holds.reservations] at member
      obtain ⟨turn, kept, rfl⟩ := List.mem_map.mp member
      obtain ⟨settled, passes⟩ := List.mem_filter.mp kept
      have admitted := of_decide_eq_true passes
      obtain ⟨cluster, output, listed, depot⟩ := keeps.kept turn settled admitted
      obtain ⟨source, -, charged⟩ := List.mem_flatMap.mp (charge_of_mem_turnsAfter settled)
      exact ⟨cluster, output, listed, depot.symm, _, (mem_chargesOf.mp charged).2.2, admitted.1⟩

section Seed

/-- A field that needs a little more than a whole hundredth. -/
def seeding : MaterialInputs where
  orders := [{ taskId := "sow", operationType := "SEEDING", area := 1006 / 1000 }]
  materialDemand := Dict.empty.set "SEEDING" ⟨"seed", 1⟩

/-- The stock is exactly what the field needs. -/
theorem seed_is_overdrawn :
    ¬ ∀ (inputs : MaterialInputs) (depots : List DepotRow) (clusters : List ClusterSpec),
      ReservesWithinStock inputs depots clusters := by
  intro reserves
  have within := (reserves seeding [⟨"yard", 1006 / 1000⟩]
    [{ clusterId := "c1", depotRef := "yard", taskIds := ["sow"] }]).withinStock "yard"
  revert within
  decide +kernel

end Seed

end FlOp.Solver
