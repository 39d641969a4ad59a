import FlOp.Core.Constants
import FlOp.Solver.ClusterPool
import Mathlib.Algebra.BigOperators.Ring.List
import Mathlib.Algebra.Order.BigOperators.Group.List
import Mathlib.Data.Rat.Floor
import Mathlib.Tactic.Linarith
import Mathlib.Tactic.Ring

/-! # Time budgets in an operator-sharing group

A group limit is split over the clusters in proportion to value and difficulty. Each share is cut
to whole seconds and raised to a floor, which the limit does not pay for: the budgets stay within
it exactly if the seconds that cutting leaves over cover those that the floor adds.
-/

namespace FlOp.Solver

open FlOp.Core Library

/-- Floor on the share of one cluster. -/
def groupMinClusterTimeS : ℤ := 5

/-- Value times difficulty, for the share of a cluster in a group limit. -/
def clusterBudgetWeight (cluster : ClusterSpec) : ℚ :=
  let penalty := max 1 cluster.totalPenaltyPerDay
  let nTasks := max 1 cluster.taskIds.length
  let nVehicles := max 1 cluster.allocatedPrimeRelated.keys.length
  let difficulty := nTasks * (nVehicles + 1)
  penalty * difficulty

/-- The sum of the weights, or the number of clusters if that is zero. -/
def totalBudgetWeight (ordered : List ClusterSpec) : ℚ :=
  let sum := (ordered.map clusterBudgetWeight).sum
  if sum = 0 then ordered.length else sum

/-- Seconds a cluster is due, before they are cut to whole ones. -/
def budgetShare (ordered : List ClusterSpec) (groupTotalLimit : ℤ) (cluster : ClusterSpec) : ℚ :=
  groupTotalLimit * clusterBudgetWeight cluster / totalBudgetWeight ordered

/-- Budgets of the clusters of one group; without a group limit each keeps its own. -/
def groupBudgets (ordered : List ClusterSpec) (perClusterLimit groupTotalLimit : ℤ) :
    Dict String ℤ :=
  if groupTotalLimit ≤ 0 then Dict.collect (·.clusterId) (fun _ => perClusterLimit) ordered
  else
    Dict.collect (·.clusterId) (fun cluster =>
      max groupMinClusterTimeS (Instant.truncated (budgetShare ordered groupTotalLimit cluster)))
      ordered

/-- Seconds the floor adds to the shares below it. -/
def flooredSeconds (ordered : List ClusterSpec) (groupTotalLimit : ℤ) : ℤ :=
  (ordered.map fun cluster =>
    max 0 (groupMinClusterTimeS - ⌊budgetShare ordered groupTotalLimit cluster⌋)).sum

/-- Seconds that cutting the shares to whole ones leaves over. -/
def cutSeconds (ordered : List ClusterSpec) (groupTotalLimit : ℤ) : ℚ :=
  (ordered.map fun cluster => Int.fract (budgetShare ordered groupTotalLimit cluster)).sum

section Sums

variable {ordered : List ClusterSpec} {perClusterLimit groupTotalLimit : ℤ}

theorem clusterBudgetWeight_pos (cluster : ClusterSpec) : 0 < clusterBudgetWeight cluster := by
  have penalty : (0 : ℚ) < max 1 cluster.totalPenaltyPerDay :=
    lt_of_lt_of_le one_pos (le_max_left _ _)
  have tasks : 0 < max 1 cluster.taskIds.length := by omega
  have difficulty : 0 < max 1 cluster.taskIds.length *
      (max 1 cluster.allocatedPrimeRelated.keys.length + 1) :=
    Nat.mul_pos tasks (Nat.succ_pos _)
  exact mul_pos penalty (Nat.cast_pos.mpr difficulty)

/-- The fallback for a total of zero is only taken without clusters. -/
theorem totalBudgetWeight_eq (ordered : List ClusterSpec) :
    totalBudgetWeight ordered = (ordered.map clusterBudgetWeight).sum := by
  simp only [totalBudgetWeight]
  split
  · next zero =>
    cases ordered with
    | nil => rfl
    | cons cluster rest =>
      have head := clusterBudgetWeight_pos cluster
      have tail : 0 ≤ (rest.map clusterBudgetWeight).sum := by
        apply List.sum_nonneg
        intro weight listed
        obtain ⟨other, -, rfl⟩ := List.mem_map.mp listed
        exact (clusterBudgetWeight_pos other).le
      rw [List.map_cons, List.sum_cons] at zero
      linarith
  · rfl

theorem totalBudgetWeight_nonneg (ordered : List ClusterSpec) : 0 ≤ totalBudgetWeight ordered := by
  rw [totalBudgetWeight_eq]
  apply List.sum_nonneg
  intro weight listed
  obtain ⟨cluster, -, rfl⟩ := List.mem_map.mp listed
  exact (clusterBudgetWeight_pos cluster).le

theorem totalBudgetWeight_ne_zero (some : ordered ≠ []) : totalBudgetWeight ordered ≠ 0 := by
  obtain ⟨cluster, rest, rfl⟩ := List.exists_cons_of_ne_nil some
  have head := clusterBudgetWeight_pos cluster
  have tail := totalBudgetWeight_nonneg rest
  rw [totalBudgetWeight_eq] at tail ⊢
  rw [List.map_cons, List.sum_cons]
  linarith

theorem budgetShare_nonneg (limited : 0 < groupTotalLimit) (cluster : ClusterSpec) :
    0 ≤ budgetShare ordered groupTotalLimit cluster := by
  have limit : (0 : ℚ) ≤ groupTotalLimit := by exact_mod_cast limited.le
  exact div_nonneg (mul_nonneg limit (clusterBudgetWeight_pos cluster).le)
    (totalBudgetWeight_nonneg ordered)

/-- The shares add up to the limit. -/
theorem sum_budgetShare (some : ordered ≠ []) :
    (ordered.map (budgetShare ordered groupTotalLimit)).sum = groupTotalLimit := by
  have total := totalBudgetWeight_ne_zero some
  have split : ordered.map (budgetShare ordered groupTotalLimit) =
      (ordered.map clusterBudgetWeight).map
        fun weight => (groupTotalLimit / totalBudgetWeight ordered : ℚ) * weight := by
    rw [List.map_map]
    apply List.map_congr_left
    intro cluster _
    rw [budgetShare, Function.comp_apply]
    ring
  rw [split, List.sum_map_mul_left, List.map_id', ← totalBudgetWeight_eq, div_mul_cancel₀ _ total]

/-- The budgets of a limited group, cluster by cluster. -/
theorem values_groupBudgets (distinct : (ordered.map (·.clusterId)).Nodup)
    (limited : 0 < groupTotalLimit) :
    (groupBudgets ordered perClusterLimit groupTotalLimit).values =
      ordered.map fun cluster =>
        max groupMinClusterTimeS ⌊budgetShare ordered groupTotalLimit cluster⌋ := by
  rw [groupBudgets, if_neg (by omega), Dict.values, Dict.entries_collect _ distinct, List.map_map]
  apply List.map_congr_left
  intro cluster _
  rw [Function.comp_apply, Instant.truncated, if_pos (budgetShare_nonneg limited cluster)]
  rfl

/-- The floor adds seconds to what is left of the limit after cutting. -/
theorem sum_groupBudgets (distinct : (ordered.map (·.clusterId)).Nodup)
    (limited : 0 < groupTotalLimit) (some : ordered ≠ []) :
    ((groupBudgets ordered perClusterLimit groupTotalLimit).values.sum : ℚ) =
      groupTotalLimit + (flooredSeconds ordered groupTotalLimit -
        cutSeconds ordered groupTotalLimit) := by
  have total : (ordered.map (budgetShare ordered groupTotalLimit)).sum = groupTotalLimit :=
    sum_budgetShare some
  rw [values_groupBudgets distinct limited, ← total, flooredSeconds, cutSeconds]
  clear total
  generalize budgetShare ordered groupTotalLimit = share
  clear distinct some
  induction ordered with
  | nil => simp
  | cons cluster rest ih =>
    simp only [List.map_cons, List.sum_cons, Int.cast_add]
    rw [ih]
    have whole := Int.floor_add_fract (share cluster)
    have raised : max groupMinClusterTimeS ⌊share cluster⌋ =
        ⌊share cluster⌋ + max 0 (groupMinClusterTimeS - ⌊share cluster⌋) := by omega
    rw [raised, Int.cast_add]
    linarith

end Sums

/-- The budgets are positive, and they stay within the limit exactly if the seconds cut off cover
the seconds the floor adds. -/
theorem groupBudgets_within_limit_iff (group : NamedClusters) (perClusterLimit : ℤ)
    {groupTotalLimit : ℤ} (limited : 0 < groupTotalLimit) :
    ((groupBudgets group.clusters perClusterLimit groupTotalLimit).values.sum ≤ groupTotalLimit ∧
      ∀ budget ∈ (groupBudgets group.clusters perClusterLimit groupTotalLimit).values,
        0 < budget) ↔
      (flooredSeconds group.clusters groupTotalLimit : ℚ) ≤
        cutSeconds group.clusters groupTotalLimit := by
  have positive : ∀ budget ∈
      (groupBudgets group.clusters perClusterLimit groupTotalLimit).values, 0 < budget := by
    rw [values_groupBudgets group.distinct limited]
    intro budget listed
    obtain ⟨cluster, -, rfl⟩ := List.mem_map.mp listed
    exact lt_of_lt_of_le (by decide) (le_max_left _ _)
  rw [and_iff_left positive]
  by_cases none : group.clusters = []
  · rw [none]
    simp only [groupBudgets, flooredSeconds, cutSeconds]
    split <;> simp [Dict.collect, Dict.values, Dict.empty] <;> omega
  · have sum : ((groupBudgets group.clusters perClusterLimit groupTotalLimit).values.sum : ℚ) = _ :=
      sum_groupBudgets group.distinct limited none
    constructor
    · intro bound
      have cast : ((groupBudgets group.clusters perClusterLimit groupTotalLimit).values.sum : ℚ) ≤
        groupTotalLimit := by exact_mod_cast bound
      linarith
    · intro covered
      have cast : ((groupBudgets group.clusters perClusterLimit groupTotalLimit).values.sum : ℚ) ≤
        groupTotalLimit := by linarith
      exact_mod_cast cast

/-- Two clusters of one task and one vehicle; the first is worth twice the second. -/
def sharingPair : NamedClusters where
  clusters :=
    [{ clusterId := "cA", taskIds := ["o0"], totalPenaltyPerDay := 200 },
      { clusterId := "cB", taskIds := ["o1"], totalPenaltyPerDay := 100 }]
  distinct := by decide

theorem sharingPair_within_ninety :
    (groupBudgets sharingPair.clusters 60 90).values.sum ≤ 90 ∧
      ∀ budget ∈ (groupBudgets sharingPair.clusters 60 90).values, 0 < budget :=
  (groupBudgets_within_limit_iff sharingPair 60 (by decide)).mpr (by decide +kernel)

example : (groupBudgets sharingPair.clusters 60 90).entries = [("cA", 60), ("cB", 30)] := by
  decide +kernel

/-- A limit of five seconds is spent twice. -/
theorem sharingPair_exceeds_five :
    ¬ ∀ (group : NamedClusters) (perClusterLimit groupTotalLimit : ℤ), 0 < groupTotalLimit →
      (groupBudgets group.clusters perClusterLimit groupTotalLimit).values.sum ≤
          groupTotalLimit ∧
        ∀ budget ∈ (groupBudgets group.clusters perClusterLimit groupTotalLimit).values,
          0 < budget := by
  intro within
  have spent := (within sharingPair 60 5 (by decide)).1
  revert spent
  decide +kernel

end FlOp.Solver
