import FlOp.Library.Greedy
import FlOp.Solver.Material

/-! # The turns of material admission

Each demanding task has a turn, cluster after cluster and by descending penalty inside a cluster.
It is admitted if its demand fits what the turns before it have left of the stock of its depot.
-/

namespace FlOp.Solver

open Canonical FlOp.Core Library

/-- A demanding task of a cluster, with the demand declared for its operation. -/
structure Charge where
  cluster : ClusterSpec
  order : OrderRow
  spec : MaterialDemandSpec

namespace Charge

variable (charge : Charge)

def depotRef : String := charge.cluster.depotRef

def demand : ℚ := charge.spec.demand charge.order

def penalty : ℚ := charge.order.penaltyPerDay

end Charge

/-- The positive demands charged to a depot. -/
def demandsAt (depotRef : String) (charges : List Charge) : List ℚ :=
  (charges.filter fun charge => charge.depotRef = depotRef ∧ 0 < charge.demand).map Charge.demand

/-- What some charges leave of the stock of a depot. -/
def leftBefore (inventory : Dict String ℚ) (past : List Charge) (depotRef : String) : ℚ :=
  leftAfter (inventory.getD depotRef 0) (demandsAt depotRef past)

/-- A charge and what is left of its depot's stock when its turn comes. -/
structure Turn where
  charge : Charge
  available : ℚ

namespace Turn

variable (turn : Turn)

def Admitted : Prop := 0 < turn.charge.demand ∧ turn.charge.demand ≤ turn.available

def Refused : Prop := 0 < turn.charge.demand ∧ turn.available < turn.charge.demand

instance : Decidable turn.Admitted := inferInstanceAs (Decidable (_ ∧ _))

instance : Decidable turn.Refused := inferInstanceAs (Decidable (_ ∧ _))

def reservation : MaterialReservation :=
  provisionalReservation turn.charge.depotRef turn.charge.order turn.charge.spec

def record : InfeasibleRecord :=
  insufficientMaterial turn.charge.cluster turn.charge.order turn.charge.spec turn.available

end Turn

/-- The turns of some charges after those of the past. -/
def turnsAfter (inventory : Dict String ℚ) : List Charge → List Charge → List Turn
  | _, [] => []
  | past, charge :: rest =>
    ⟨charge, leftBefore inventory past charge.depotRef⟩ ::
      turnsAfter inventory (past ++ [charge]) rest

namespace MaterialInputs

variable (inputs : MaterialInputs)

/-- The charges of one cluster. -/
def chargesOf (cluster : ClusterSpec) : List Charge :=
  (inputs.demanding cluster).map fun demanding => ⟨cluster, demanding.1, demanding.2⟩

/-- The charges of all clusters, in the order of their turns. -/
def charges (clusters : List ClusterSpec) : List Charge := clusters.flatMap inputs.chargesOf

def turns (depots : List DepotRow) (clusters : List ClusterSpec) : List Turn :=
  turnsAfter (depotInventory depots) [] (inputs.charges clusters)

end MaterialInputs

section Turns

variable (inventory : Dict String ℚ)

theorem turnsAfter_append (past first second : List Charge) :
    turnsAfter inventory past (first ++ second) =
      turnsAfter inventory past first ++ turnsAfter inventory (past ++ first) second := by
  induction first generalizing past with
  | nil => simp [turnsAfter]
  | cons charge rest ih =>
    rw [List.cons_append, turnsAfter, turnsAfter, ih, List.append_assoc]
    rfl

/-- A turn splits the charges at its own, and has what those before it leave. -/
theorem mem_turnsAfter {inventory : Dict String ℚ} {past charges : List Charge} {turn : Turn} :
    turn ∈ turnsAfter inventory past charges ↔
      ∃ earlier later, charges = earlier ++ turn.charge :: later ∧
        turn.available = leftBefore inventory (past ++ earlier) turn.charge.depotRef := by
  induction charges generalizing past with
  | nil => simp [turnsAfter]
  | cons charge rest ih =>
    rw [turnsAfter, List.mem_cons, ih]
    constructor
    · rintro (rfl | ⟨earlier, later, rfl, available⟩)
      · exact ⟨[], rest, rfl, by rw [List.append_nil]⟩
      · refine ⟨charge :: earlier, later, rfl, ?_⟩
        rw [available, List.append_assoc]
        rfl
    · rintro ⟨earlier, later, split, available⟩
      cases earlier with
      | nil =>
        obtain ⟨rfl, rfl⟩ := List.cons.inj split
        rw [List.append_nil] at available
        exact .inl (by rw [← available])
      | cons first earlier =>
        obtain ⟨rfl, rfl⟩ := List.cons.inj split
        refine .inr ⟨earlier, later, rfl, ?_⟩
        rw [available, List.append_assoc]
        rfl

theorem demandsAt_append (depotRef : String) (first second : List Charge) :
    demandsAt depotRef (first ++ second) = demandsAt depotRef first ++ demandsAt depotRef second := by
  rw [demandsAt, List.filter_append, List.map_append]
  rfl

theorem demandsAt_nonneg {depotRef : String} {charges : List Charge} :
    ∀ demand ∈ demandsAt depotRef charges, 0 ≤ demand := by
  intro demand member
  obtain ⟨charge, kept, rfl⟩ := List.mem_map.mp member
  exact (of_decide_eq_true (List.mem_filter.mp kept).2).2.le

/-- What is left after one more charge. -/
theorem leftBefore_concat (past : List Charge) (charge : Charge) (depotRef : String) :
    leftBefore inventory (past ++ [charge]) depotRef =
      if charge.depotRef = depotRef ∧ 0 < charge.demand ∧
          charge.demand ≤ leftBefore inventory past depotRef
        then leftBefore inventory past depotRef - charge.demand
        else leftBefore inventory past depotRef := by
  rw [leftBefore, demandsAt_append]
  by_cases counts : charge.depotRef = depotRef ∧ 0 < charge.demand
  · have single : demandsAt depotRef [charge] = [charge.demand] := by
      simp [demandsAt, counts]
    rw [single, leftAfter_concat]
    simp only [counts, true_and, leftBefore]
  · have none : demandsAt depotRef [charge] = [] := by
      simpa [demandsAt] using counts
    rw [none, List.append_nil, if_neg fun fits => counts ⟨fits.1, fits.2.1⟩]
    rfl

/-- More charges leave no more. -/
theorem leftBefore_append_le (past more : List Charge) (depotRef : String) :
    leftBefore inventory (past ++ more) depotRef ≤ leftBefore inventory past depotRef := by
  rw [leftBefore, demandsAt_append, leftAfter_append]
  exact leftAfter_le demandsAt_nonneg

end Turns

/-! ## The books of the turns -/

/-- The books after some charges: what is left, the refused turns and the admitted ones. -/
structure MaterialBooks.Holds (inventory : Dict String ℚ) (past : List Charge)
    (books : MaterialBooks) : Prop where
  available : ∀ depotRef, books.available depotRef = leftBefore inventory past depotRef
  infeasible : books.infeasible =
    ((turnsAfter inventory [] past).filter fun turn => turn.Refused).map Turn.record
  reservations : books.reservations =
    ((turnsAfter inventory [] past).filter fun turn => turn.Admitted).map Turn.reservation

section Books

variable {inputs : MaterialInputs} {inventory : Dict String ℚ} {past : List Charge}
  {books : MaterialBooks}

theorem MaterialBooks.Holds.initial (inventory : Dict String ℚ) :
    ({ remaining := inventory } : MaterialBooks).Holds inventory [] where
  available _ := rfl
  infeasible := rfl
  reservations := rfl

/-- One charge, by what its turn finds. -/
theorem chargeOrder_cases (cluster : ClusterSpec) (demanding : OrderRow × MaterialDemandSpec)
    (books : MaterialBooks) (kept : List String) :
    let turn : Turn :=
      ⟨⟨cluster, demanding.1, demanding.2⟩, books.available cluster.depotRef⟩
    (¬ 0 < turn.charge.demand ∧ chargeOrder cluster (books, kept) demanding =
      (books, kept ++ [demanding.1.taskId])) ∨
    (turn.Admitted ∧ chargeOrder cluster (books, kept) demanding =
      ({ books with
          remaining := books.remaining.set cluster.depotRef (turn.available - turn.charge.demand)
          reservations := books.reservations ++ [turn.reservation] },
        kept ++ [demanding.1.taskId])) ∨
    (turn.Refused ∧ chargeOrder cluster (books, kept) demanding =
      ({ books with infeasible := books.infeasible ++ [turn.record] }, kept)) := by
  intro turn
  have demand : turn.charge.demand = demanding.2.demand demanding.1 := rfl
  by_cases positive : 0 < turn.charge.demand
  · have charged := not_le.mpr positive
    rw [demand] at charged
    by_cases fits : turn.charge.demand ≤ turn.available
    · refine .inr (.inl ⟨⟨positive, fits⟩, ?_⟩)
      rw [chargeOrder]
      exact (if_neg charged).trans (if_pos fits)
    · refine .inr (.inr ⟨⟨positive, not_le.mp fits⟩, ?_⟩)
      rw [chargeOrder]
      exact (if_neg charged).trans (if_neg fits)
  · refine .inl ⟨positive, ?_⟩
    rw [chargeOrder]
    exact if_pos (not_lt.mp positive)

theorem Turn.Admitted.not_refused {turn : Turn} (admitted : turn.Admitted) : ¬ turn.Refused :=
  fun refused => absurd admitted.2 (not_le.mpr refused.2)

/-- Charging one order settles its turn. -/
theorem holds_chargeOrder {cluster : ClusterSpec} {demanding : OrderRow × MaterialDemandSpec}
    (kept : List String) (holds : books.Holds inventory past) :
    (chargeOrder cluster (books, kept) demanding).1.Holds inventory
      (past ++ [⟨cluster, demanding.1, demanding.2⟩]) := by
  let turn : Turn := ⟨⟨cluster, demanding.1, demanding.2⟩, books.available cluster.depotRef⟩
  have last : turnsAfter inventory [] (past ++ [turn.charge]) =
      turnsAfter inventory [] past ++ [turn] := by
    rw [turnsAfter_append, List.nil_append, turnsAfter, turnsAfter]
    congr 2
    exact congrArg (Turn.mk _) (holds.available cluster.depotRef).symm
  have left := leftBefore_concat inventory past turn.charge
  have stock : leftBefore inventory past cluster.depotRef = turn.available :=
    (holds.available _).symm
  rcases chargeOrder_cases cluster demanding books kept with
    ⟨free, charged⟩ | ⟨admitted, charged⟩ | ⟨refused, charged⟩
  · have notAdmitted : ¬ turn.Admitted := fun admitted => free admitted.1
    have notRefused : ¬ turn.Refused := fun refused => free refused.1
    rw [charged]
    constructor
    · intro depotRef
      rw [left, if_neg fun fits => free fits.2.1]
      exact holds.available depotRef
    · rw [last, List.filter_append, List.filter_singleton, decide_eq_false notRefused]
      simpa using holds.infeasible
    · rw [last, List.filter_append, List.filter_singleton, decide_eq_false notAdmitted]
      simpa using holds.reservations
  · have notRefused := admitted.not_refused
    rw [charged]
    constructor
    · intro depotRef
      rw [left, MaterialBooks.available, Dict.getD_set]
      by_cases here : depotRef = cluster.depotRef
      · subst here
        rw [if_pos rfl, stock, if_pos ⟨rfl, admitted⟩]
      · rw [if_neg here, if_neg fun fits => here fits.1.symm]
        exact holds.available depotRef
    · rw [last, List.filter_append, List.filter_singleton, decide_eq_false notRefused]
      simpa using holds.infeasible
    · rw [last, List.filter_append, List.filter_singleton, decide_eq_true admitted,
        holds.reservations]
      simp [turn]
  · have notAdmitted : ¬ turn.Admitted := fun admitted => admitted.not_refused refused
    rw [charged]
    constructor
    · intro depotRef
      rw [left, if_neg]
      · exact holds.available depotRef
      · rintro ⟨here, -, fits⟩
        rw [← here] at fits
        exact absurd (fits.trans_eq stock) (not_le.mpr refused.2)
    · rw [last, List.filter_append, List.filter_singleton, decide_eq_true refused,
        holds.infeasible]
      simp [turn]
    · rw [last, List.filter_append, List.filter_singleton, decide_eq_false notAdmitted]
      simpa using holds.reservations

/-- A charged task is kept unless its turn is refused. -/
theorem mem_chargeOrder {cluster : ClusterSpec} {demanding : OrderRow × MaterialDemandSpec}
    {kept : List String} {taskId : String} (holds : books.Holds inventory past) :
    taskId ∈ (chargeOrder cluster (books, kept) demanding).2 ↔
      taskId ∈ kept ∨ (¬ (⟨⟨cluster, demanding.1, demanding.2⟩,
        leftBefore inventory past cluster.depotRef⟩ : Turn).Refused ∧
          demanding.1.taskId = taskId) := by
  rw [← holds.available cluster.depotRef]
  rcases chargeOrder_cases cluster demanding books kept with
    ⟨free, charged⟩ | ⟨admitted, charged⟩ | ⟨refused, charged⟩
  · rw [charged, List.mem_append, List.mem_singleton, and_iff_right fun refused => free refused.1,
      eq_comm]
  · rw [charged, List.mem_append, List.mem_singleton, and_iff_right admitted.not_refused, eq_comm]
  · rw [charged]
    exact (or_iff_left fun other => other.1 refused).symm

theorem holds_foldl_chargeOrder {cluster : ClusterSpec}
    {pending : List (OrderRow × MaterialDemandSpec)} (kept : List String)
    (holds : books.Holds inventory past) :
    (pending.foldl (chargeOrder cluster) (books, kept)).1.Holds inventory
      (past ++ pending.map fun demanding => ⟨cluster, demanding.1, demanding.2⟩) ∧
      ∀ taskId, taskId ∈ (pending.foldl (chargeOrder cluster) (books, kept)).2 ↔
        taskId ∈ kept ∨ ∃ turn ∈ turnsAfter inventory past
            (pending.map fun demanding => ⟨cluster, demanding.1, demanding.2⟩),
          ¬ turn.Refused ∧ turn.charge.order.taskId = taskId := by
  induction pending generalizing books kept past with
  | nil => simpa [turnsAfter] using holds
  | cons demanding rest ih =>
    obtain ⟨later, kept'⟩ := ih (chargeOrder cluster (books, kept) demanding).2
      (holds_chargeOrder kept holds)
    rw [List.foldl_cons, List.map_cons, turnsAfter]
    refine ⟨?_, fun taskId => ?_⟩
    · rwa [List.append_assoc] at later
    · rw [kept' taskId, mem_chargeOrder holds, or_assoc, List.exists_mem_cons_iff]
      rfl

/-- Charging a cluster settles the turns of its charges, and keeps the tasks that were not
refused. -/
theorem holds_chargeCluster (inputs : MaterialInputs) (cluster : ClusterSpec)
    (holds : books.Holds inventory past) :
    (inputs.chargeCluster books cluster).1.Holds inventory (past ++ inputs.chargesOf cluster) ∧
      ∀ taskId, taskId ∈ (inputs.chargeCluster books cluster).2.taskIds ↔
        taskId ∈ cluster.taskIds ∧ (inputs.demandOf taskId = none ∨
          ∃ turn ∈ turnsAfter inventory past (inputs.chargesOf cluster),
            ¬ turn.Refused ∧ turn.charge.order.taskId = taskId) := by
  obtain ⟨settled, kept⟩ : _ ∧ _ := holds_foldl_chargeOrder
    (cluster.taskIds.filter fun taskId => (inputs.demandOf taskId).isNone) holds
  refine ⟨settled, fun taskId => ?_⟩
  rw [MaterialInputs.chargeCluster, List.mem_filter, decide_eq_true_eq, kept taskId]
  apply and_congr_right
  intro member
  apply or_congr_left
  rw [List.mem_filter, and_iff_right member, Option.isNone_iff_eq_none]

theorem mem_chargesOf {cluster : ClusterSpec} {charge : Charge} :
    charge ∈ inputs.chargesOf cluster ↔ charge.cluster = cluster ∧
      charge.order.taskId ∈ cluster.taskIds ∧
        inputs.demandOf charge.order.taskId = some (charge.order, charge.spec) := by
  rw [MaterialInputs.chargesOf, List.mem_map]
  constructor
  · rintro ⟨demanding, member, rfl⟩
    obtain ⟨taskId, listed, found⟩ := List.mem_filterMap.mp ((mem_sortBy _ _).mp member)
    have same := inputs.taskId_of_demandOf found
    exact ⟨rfl, same ▸ listed, same ▸ found⟩
  · rintro ⟨rfl, listed, found⟩
    refine ⟨(charge.order, charge.spec), ?_, rfl⟩
    exact (mem_sortBy _ _).mpr (List.mem_filterMap.mpr ⟨_, listed, found⟩)

theorem charge_of_mem_turnsAfter {charges : List Charge} {turn : Turn}
    (member : turn ∈ turnsAfter inventory past charges) : turn.charge ∈ charges := by
  obtain ⟨earlier, later, rfl, -⟩ := mem_turnsAfter.mp member
  exact List.mem_append_right _ List.mem_cons_self

/-- What the clusters keep, against the turns of their charges. -/
structure KeepsAdmitted (inputs : MaterialInputs) (turns : List Turn)
    (clusters : List ClusterSpec) : Prop where
  admitted : ∀ cluster ∈ clusters, ∀ taskId ∈ cluster.taskIds,
    ∀ demanding ∈ inputs.demandOf taskId, 0 < demanding.2.demand demanding.1 →
      ∃ turn ∈ turns, turn.Admitted ∧ turn.charge.depotRef = cluster.depotRef ∧
        turn.charge.order = demanding.1 ∧ turn.charge.spec = demanding.2
  kept : ∀ turn ∈ turns, turn.Admitted → ∃ cluster ∈ clusters,
    turn.charge.order.taskId ∈ cluster.taskIds ∧ cluster.depotRef = turn.charge.depotRef

theorem keepsAdmitted_chargeCluster (inputs : MaterialInputs) (cluster : ClusterSpec)
    (holds : books.Holds inventory past) :
    KeepsAdmitted inputs (turnsAfter inventory past (inputs.chargesOf cluster))
      [(inputs.chargeCluster books cluster).2] := by
  have kept := (holds_chargeCluster inputs cluster holds).2
  constructor
  · intro output member taskId listed demanding demands positive
    obtain rfl := List.mem_singleton.mp member
    obtain ⟨-, none | ⟨turn, settled, notRefused, same⟩⟩ := (kept taskId).mp listed
    · rw [none] at demands
      cases demands
    · have charged := mem_chargesOf.mp (charge_of_mem_turnsAfter settled)
      obtain ⟨sameCluster, -, found⟩ := charged
      rw [same] at found
      obtain rfl := Option.some.inj (found.symm.trans demands)
      have depot : turn.charge.depotRef = cluster.depotRef :=
        congrArg ClusterSpec.depotRef sameCluster
      refine ⟨turn, settled, ⟨positive, ?_⟩, depot, rfl, rfl⟩
      exact not_lt.mp fun short => notRefused ⟨positive, short⟩
  · intro turn settled admitted
    obtain ⟨sameCluster, listed, -⟩ := mem_chargesOf.mp (charge_of_mem_turnsAfter settled)
    have depot : turn.charge.depotRef = cluster.depotRef :=
      congrArg ClusterSpec.depotRef sameCluster
    refine ⟨_, List.mem_singleton_self _, (kept _).mpr ⟨listed, .inr ?_⟩, depot.symm⟩
    exact ⟨turn, settled, admitted.not_refused, rfl⟩

theorem KeepsAdmitted.append {firstTurns secondTurns : List Turn}
    {firstClusters secondClusters : List ClusterSpec}
    (first : KeepsAdmitted inputs firstTurns firstClusters)
    (second : KeepsAdmitted inputs secondTurns secondClusters) :
    KeepsAdmitted inputs (firstTurns ++ secondTurns) (firstClusters ++ secondClusters) := by
  constructor
  · intro cluster member taskId listed demanding demands positive
    rcases List.mem_append.mp member with early | late
    · obtain ⟨turn, settled, rest⟩ := first.admitted cluster early taskId listed demanding demands
        positive
      exact ⟨turn, List.mem_append_left _ settled, rest⟩
    · obtain ⟨turn, settled, rest⟩ := second.admitted cluster late taskId listed demanding demands
        positive
      exact ⟨turn, List.mem_append_right _ settled, rest⟩
  · intro turn settled admitted
    rcases List.mem_append.mp settled with early | late
    · obtain ⟨cluster, member, rest⟩ := first.kept turn early admitted
      exact ⟨cluster, List.mem_append_left _ member, rest⟩
    · obtain ⟨cluster, member, rest⟩ := second.kept turn late admitted
      exact ⟨cluster, List.mem_append_right _ member, rest⟩

theorem holds_chargeClusters (clusters : List ClusterSpec) (holds : books.Holds inventory past) :
    (inputs.chargeClusters books clusters).1.Holds inventory (past ++ inputs.charges clusters) ∧
      KeepsAdmitted inputs (turnsAfter inventory past (inputs.charges clusters))
        (inputs.chargeClusters books clusters).2 := by
  induction clusters generalizing books past with
  | nil =>
    refine ⟨?_, by simp [MaterialInputs.chargeClusters], by
      simp [MaterialInputs.charges, turnsAfter]⟩
    rw [MaterialInputs.charges, List.flatMap_nil, List.append_nil]
    exact holds
  | cons cluster rest ih =>
    obtain ⟨settled, keeps⟩ := ih (holds_chargeCluster inputs cluster holds).1
    have first := keepsAdmitted_chargeCluster inputs cluster holds
    have split : inputs.charges (cluster :: rest) =
        inputs.chargesOf cluster ++ inputs.charges rest := List.flatMap_cons
    rw [split, turnsAfter_append, MaterialInputs.chargeClusters, ← List.append_assoc]
    exact ⟨settled, first.append keeps⟩

/-- Admission settles the turns of all charges. -/
theorem holds_applyMaterialLimits (inputs : MaterialInputs) (depots : List DepotRow)
    (clusters : List ClusterSpec) :
    (applyMaterialLimits inputs depots clusters).1.Holds (depotInventory depots)
        (inputs.charges clusters) ∧
      KeepsAdmitted inputs (inputs.turns depots clusters)
        (applyMaterialLimits inputs depots clusters).2 := by
  unfold applyMaterialLimits
  split
  · next undeclared =>
    have nothing : ∀ taskId, inputs.demandOf taskId = none := by
      intro taskId
      rw [MaterialInputs.demandOf, Dict.eq_empty_of_isEmpty undeclared]
      cases inputs.orderIndex.get? taskId with
      | none => rfl
      | some order => rfl
    have noCharges : inputs.charges clusters = [] := by
      apply List.eq_nil_iff_forall_not_mem.mpr
      intro charge member
      obtain ⟨cluster, -, charged⟩ := List.mem_flatMap.mp member
      have found := (mem_chargesOf.mp charged).2.2
      rw [nothing] at found
      cases found
    rw [MaterialInputs.turns, noCharges]
    refine ⟨.initial _, ?_, by simp [turnsAfter]⟩
    intro cluster _ taskId _ demanding demands
    rw [nothing] at demands
    cases demands
  · exact holds_chargeClusters clusters (.initial _)

end Books

end FlOp.Solver
