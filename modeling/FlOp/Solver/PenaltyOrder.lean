import FlOp.Solver.MaterialTurns

/-! # Penalty order of material admission

Tasks are sorted by penalty inside a cluster only, while all clusters of a depot share its stock.
-/

namespace FlOp.Solver

open Canonical FlOp.Core Library

/-- The first charge has a strictly lower penalty than the second at the same depot, and at least
its demand. -/
def Inverts (lower higher : Charge) : Prop :=
  lower.depotRef = higher.depotRef ∧ lower.penalty < higher.penalty ∧
    0 < higher.demand ∧ higher.demand ≤ lower.demand

instance (lower higher : Charge) : Decidable (Inverts lower higher) :=
  inferInstanceAs (Decidable (_ ∧ _))

/-- No task is refused while one of its depot with a strictly lower penalty and at least the same
demand is admitted. -/
def HighestFirst (turns : List Turn) : Prop :=
  ∀ refused ∈ turns, ∀ admitted ∈ turns, refused.Refused → admitted.Admitted →
    ¬ Inverts admitted.charge refused.charge

/-- Whenever a charge comes before one that it inverts and fits, the latter fits too. -/
def InvertedPairsFit (inventory : Dict String ℚ) (charges : List Charge) : Prop :=
  ∀ front lower middle higher back, charges = front ++ lower :: (middle ++ higher :: back) →
    Inverts lower higher → lower.demand ≤ leftBefore inventory front lower.depotRef →
      higher.demand ≤ leftBefore inventory (front ++ lower :: middle) higher.depotRef

/-- No cluster comes before another one with a charge that one of its own inverts. -/
def MaterialInputs.ClustersByPenalty (inputs : MaterialInputs) (clusters : List ClusterSpec) :
    Prop :=
  clusters.Pairwise fun first second =>
    ∀ lower ∈ inputs.chargesOf first, ∀ higher ∈ inputs.chargesOf second, ¬ Inverts lower higher

section Inversions

variable {inputs : MaterialInputs} {clusters : List ClusterSpec} {charges : List Charge}

private theorem pairwise_of_splits {α : Type*} {R : α → α → Prop} {items : List α}
    (splits : ∀ front first middle second back,
      items = front ++ first :: (middle ++ second :: back) → R first second) :
    items.Pairwise R := by
  induction items with
  | nil => exact .nil
  | cons item rest ih =>
    apply List.pairwise_cons.mpr
    constructor
    · intro other member
      obtain ⟨middle, back, rfl⟩ := List.append_of_mem member
      exact splits [] item middle other back rfl
    · apply ih
      intro front first middle second back split
      exact splits (item :: front) first middle second back (congrArg (item :: ·) split)

/-- Inside a cluster the sorting leaves no inversion. -/
theorem not_inverts_inside (cluster : ClusterSpec) :
    (inputs.chargesOf cluster).Pairwise fun first second => ¬ Inverts first second := by
  apply List.pairwise_map.mpr
  have sorted := pairwise_sortBy (fun demanding : OrderRow × MaterialDemandSpec =>
    -demanding.1.penaltyPerDay) (cluster.taskIds.filterMap inputs.demandOf)
  refine sorted.imp fun descending inverts => ?_
  exact absurd inverts.2.1 (not_lt.mpr (neg_le_neg_iff.mp descending))

theorem pairwise_charges_iff :
    ((inputs.charges clusters).Pairwise fun first second => ¬ Inverts first second) ↔
      inputs.ClustersByPenalty clusters := by
  rw [MaterialInputs.charges, List.pairwise_flatMap]
  exact and_iff_right fun cluster _ => not_inverts_inside cluster

/-- At a given inventory the law holds if and only if inverted pairs fit together. -/
theorem highestFirst_iff (inventory : Dict String ℚ) :
    HighestFirst (turnsAfter inventory [] charges) ↔ InvertedPairsFit inventory charges := by
  constructor
  · intro law front lower middle higher back split inverts fits
    by_contra short
    have lowerTurn : (⟨lower, leftBefore inventory front lower.depotRef⟩ : Turn) ∈
        turnsAfter inventory [] charges :=
      mem_turnsAfter.mpr ⟨front, _, split, rfl⟩
    have higherTurn : (⟨higher, leftBefore inventory (front ++ lower :: middle) higher.depotRef⟩ :
        Turn) ∈ turnsAfter inventory [] charges := by
      apply mem_turnsAfter.mpr
      refine ⟨front ++ lower :: middle, back, ?_, rfl⟩
      rw [split, List.append_assoc]
      rfl
    have positive := inverts.2.2.1.trans_le inverts.2.2.2
    exact law _ higherTurn _ lowerTurn ⟨inverts.2.2.1, not_le.mp short⟩ ⟨positive, fits⟩ inverts
  · rintro fit refused refusedTurn admitted admittedTurn ⟨-, short⟩ ⟨-, fits⟩ inverts
    obtain ⟨before, after, split, available⟩ := mem_turnsAfter.mp refusedTurn
    obtain ⟨before', after', split', available'⟩ := mem_turnsAfter.mp admittedTurn
    rw [List.nil_append] at available available'
    have ne : admitted.charge ≠ refused.charge := fun same =>
      absurd inverts.2.1 (same ▸ lt_irrefl _)
    rcases List.append_eq_append_iff.mp (split'.symm.trans split) with
      ⟨middle, rfl, tail⟩ | ⟨middle, rfl, tail⟩
    · -- the admitted turn comes first
      cases middle with
      | nil => exact ne (List.cons.inj tail).1
      | cons first middle =>
        obtain ⟨rfl, rfl⟩ := List.cons.inj tail
        have fitsToo := fit before' admitted.charge middle refused.charge after split' inverts
          (available' ▸ fits)
        rw [← available] at fitsToo
        exact absurd short (not_lt.mpr fitsToo)
    · -- the refused turn comes first, and leaves no less
      cases middle with
      | nil => exact ne (List.cons.inj tail).1.symm
      | cons first middle =>
        have less := leftBefore_append_le inventory before (first :: middle)
          refused.charge.depotRef
        rw [← available, ← inverts.1, ← available'] at less
        have demands := inverts.2.2.2
        linarith

/-- A stock that the charges up to the lower one use up refuses the higher one. -/
theorem exists_depots_of_inversion (front middle back : List Charge) {lower higher : Charge}
    (inverts : Inverts lower higher) : ∃ depots : List DepotRow,
      ¬ InvertedPairsFit (depotInventory depots) (front ++ lower :: (middle ++ higher :: back)) := by
  obtain ⟨sameDepot, lessPenalty, positive, covers⟩ := inverts
  let spent := demandsAt lower.depotRef front
  let depot : DepotRow := ⟨lower.depotRef, spent.sum + lower.demand⟩
  have stock : (depotInventory [depot]).getD lower.depotRef 0 = spent.sum + lower.demand := by
    rw [depotInventory, Dict.getD, Dict.get?_collect]
    simp [depot]
  have left : leftBefore (depotInventory [depot]) front lower.depotRef = lower.demand := by
    have nonneg : spent.sum ≤ spent.sum + lower.demand :=
      le_add_of_nonneg_right (positive.trans_le covers).le
    rw [leftBefore, stock, leftAfter_of_covered demandsAt_nonneg nonneg, add_sub_cancel_left]
  refine ⟨[depot], fun fit => ?_⟩
  have fits := fit front lower middle higher back rfl ⟨sameDepot, lessPenalty, positive, covers⟩
    left.ge
  have used : leftBefore (depotInventory [depot]) (front ++ [lower]) lower.depotRef = 0 := by
    rw [leftBefore_concat, if_pos ⟨rfl, positive.trans_le covers, left.ge⟩, left, sub_self]
  have less := leftBefore_append_le (depotInventory [depot]) (front ++ [lower]) middle
    lower.depotRef
  rw [List.append_assoc, List.singleton_append, used] at less
  rw [← sameDepot] at fits
  linarith

/-- The law holds at every inventory if and only if no charge comes before one that it inverts. -/
theorem highestFirst_forall_iff : (∀ depots, HighestFirst (inputs.turns depots clusters)) ↔
    inputs.ClustersByPenalty clusters := by
  rw [← pairwise_charges_iff]
  constructor
  · intro law
    apply pairwise_of_splits
    intro front lower middle higher back split inverts
    obtain ⟨depots, broken⟩ := exists_depots_of_inversion front middle back inverts
    rw [← split] at broken
    exact broken ((highestFirst_iff _).mp (law depots))
  · intro ordered depots
    apply (highestFirst_iff _).mpr
    intro front lower middle higher back split inverts
    rw [split] at ordered
    have tail := (List.pairwise_append.mp ordered).2.1
    have first := (List.pairwise_cons.mp tail).1 higher
      (List.mem_append_right _ List.mem_cons_self)
    exact absurd inverts first

end Inversions

/-- The books hold the refused and the admitted turns. At a given inventory the highest penalty is
served first if and only if inverted pairs fit together, and at every inventory if and only if no
cluster comes before one whose charges its own invert. -/
theorem highest_penalty_first_iff (inputs : MaterialInputs) (clusters : List ClusterSpec) :
    (∀ depots,
      (applyMaterialLimits inputs depots clusters).1.infeasible =
        ((inputs.turns depots clusters).filter fun turn => turn.Refused).map Turn.record ∧
      (applyMaterialLimits inputs depots clusters).1.reservations =
        ((inputs.turns depots clusters).filter fun turn => turn.Admitted).map Turn.reservation ∧
      (HighestFirst (inputs.turns depots clusters) ↔
        InvertedPairsFit (depotInventory depots) (inputs.charges clusters))) ∧
    ((∀ depots, HighestFirst (inputs.turns depots clusters)) ↔
      inputs.ClustersByPenalty clusters) := by
  refine ⟨fun depots => ?_, highestFirst_forall_iff⟩
  have holds := (holds_applyMaterialLimits inputs depots clusters).1
  exact ⟨holds.infeasible, holds.reservations, highestFirst_iff _⟩

section Fertilizer

/-- Two fields of ten hectares; the second one is the more urgent. -/
def fertilizing : MaterialInputs where
  orders := [{ taskId := "verge", operationType := "FERTILIZING", area := 10, penaltyPerDay := 1 },
    { taskId := "wheat", operationType := "FERTILIZING", area := 10, penaltyPerDay := 5 }]
  materialDemand := Dict.empty.set "FERTILIZING" ⟨"urea", 1⟩

/-- A cluster for each field at one depot. -/
def fertilizingClusters : List ClusterSpec :=
  [{ clusterId := "c1", depotRef := "yard", taskIds := ["verge"] },
    { clusterId := "c2", depotRef := "yard", taskIds := ["wheat"] }]

/-- The less urgent field takes the whole stock. -/
theorem verge_served_before_wheat :
    ¬ ∀ (inputs : MaterialInputs) (depots : List DepotRow) (clusters : List ClusterSpec),
      HighestFirst (inputs.turns depots clusters) := by
  intro law
  have broken : ∃ refused ∈ fertilizing.turns [⟨"yard", 10⟩] fertilizingClusters,
      ∃ admitted ∈ fertilizing.turns [⟨"yard", 10⟩] fertilizingClusters,
        refused.Refused ∧ admitted.Admitted ∧ Inverts admitted.charge refused.charge := by
    decide +kernel
  obtain ⟨refused, refusedTurn, admitted, admittedTurn, short, fits, inverts⟩ := broken
  exact law fertilizing [⟨"yard", 10⟩] fertilizingClusters refused refusedTurn admitted
    admittedTurn short fits inverts

end Fertilizer

end FlOp.Solver
