import FlOp.Core.Numbers
import FlOp.Library.Matching
import FlOp.Solver.Allocation

/-! # Count-first staffing

An operator is rewarded for the operations of a cluster it is certified for, a little for its home
depot, and less the more it is held. A base one above the spread of the rewards is to make every
cluster worth staffing; where holds make all rewards negative it may not reach.
-/

namespace FlOp.Solver

open FlOp.Core Library

def operatorCoverageReward : ℤ := 100

def operatorDepotMatchReward : ℤ := 1

def operatorHoldDiscountReward : ℚ := 50

/-- What the operator block is built from: of each cluster the depot and the operations, and of the
operators the free share of their calendars. -/
structure OperatorBlock where
  clusters : List (String × List String)
  operators : List OperatorRow
  freeCapacity : Dict String ℚ := .empty

/-- The variables of the operator block, cluster by cluster. -/
def staffingVars (clusters : List (String × List String)) (operators : List OperatorRow) :
    List OperatorVar :=
  clusters.zipIdx.flatMap fun entry =>
    operators.zipIdx.map fun operator => ⟨entry.2, operator.2, operator.1.assetId⟩

/-- A choice of variables under the posted constraints. -/
structure AdmitsOperators (clusters : List (String × List String)) (operators : List OperatorRow)
    (chosen : Finset OperatorVar) : Prop where
  declared : ∀ var ∈ chosen, var ∈ staffingVars clusters operators
  operatorOnce : ∀ index, (chosen.filter fun var => var.cluster = index).card ≤ 1
  clusterOnce : ∀ id, (chosen.filter fun var => var.operator = id).card ≤ 1

/-- The clusters that a choice staffs. -/
def staffed (chosen : Finset OperatorVar) : ℕ := (chosen.image OperatorVar.cluster).card

namespace OperatorBlock

variable (block : OperatorBlock)

/-- What an operator earns at a cluster, before the base is added. -/
def operatorReward (cluster : String × List String) (operator : OperatorRow) : ℤ :=
  let coverage := (cluster.2.dedup.filter fun operation =>
    operation ∈ operator.certifiedOperations).length
  let busyShare := 1 - block.freeCapacity.getD operator.assetId 1
  coverage * operatorCoverageReward +
    (if operator.homeDepotRef = cluster.1 then operatorDepotMatchReward else 0) -
    roundHalfEven (operatorHoldDiscountReward * busyShare)

/-- The rewards at a cluster; a later row of an operator replaces the earlier ones. -/
def clusterRewards (cluster : String × List String) : Dict String ℤ :=
  Dict.collect (·.assetId) (block.operatorReward cluster) block.operators

def rewards : List ℤ := block.clusters.flatMap fun cluster => (block.clusterRewards cluster).values

def maxReward : ℤ := block.rewards.max?.getD 0

def minReward : ℤ := block.rewards.min?.getD 0

def baseReward : ℤ := block.maxReward - block.minReward + 1

/-- The reward of a variable. -/
def reward (var : OperatorVar) : ℤ :=
  block.clusters[var.cluster]?.elim 0 fun cluster =>
    (block.clusterRewards cluster).getD var.operator 0

/-- The choices that the posted constraints admit. -/
def admissible : Set (Finset OperatorVar) :=
  {chosen | AdmitsOperators block.clusters block.operators chosen}

/-- As many as there are clusters, or operators if these are fewer. -/
def fullStaff : ℕ := min block.clusters.length (block.operators.map (·.assetId)).dedup.length

/-- Every optimum staffs as many clusters as there are clusters and operators for. -/
def StaffsAll : Prop :=
  ∀ chosen, Optimal block.admissible (objective block.baseReward block.reward) chosen →
    staffed chosen = block.fullStaff

section Assignment

variable {block} {chosen : Finset OperatorVar} {var : OperatorVar}

theorem mem_staffingVars :
    var ∈ staffingVars block.clusters block.operators ↔
      var.cluster < block.clusters.length ∧
        ∃ operator, block.operators[var.row]? = some operator ∧
          operator.assetId = var.operator := by
  obtain ⟨index, row, id⟩ := var
  simp only [staffingVars, List.mem_flatMap, List.mem_map, Prod.exists, OperatorVar.mk.injEq,
    List.mem_zipIdx_iff_getElem?]
  constructor
  · rintro ⟨depotRef, operations, _, listed, operator, _, present, rfl, rfl, rfl⟩
    exact ⟨(List.getElem?_eq_some_iff.mp listed).1, operator, present, rfl⟩
  · rintro ⟨within, operator, present, rfl⟩
    exact ⟨block.clusters[index].1, block.clusters[index].2, index,
      List.getElem?_eq_getElem within, operator, row, present, rfl, rfl, rfl⟩

/-- The variables join every cluster to every operator. -/
theorem joins_staffingVars :
    Joins (staffingVars block.clusters block.operators).toFinset OperatorVar.cluster
      OperatorVar.operator (Finset.range block.clusters.length)
      (block.operators.map (·.assetId)).toFinset where
  left_mem var member := by
    have declared := mem_staffingVars.mp (List.mem_toFinset.mp member)
    exact Finset.mem_range.mpr declared.1
  right_mem var member := by
    obtain ⟨-, operator, present, named⟩ := mem_staffingVars.mp (List.mem_toFinset.mp member)
    apply List.mem_toFinset.mpr
    exact List.mem_map.mpr ⟨operator, List.mem_of_getElem? present, named⟩
  joined index within id member := by
    obtain ⟨operator, listed, rfl⟩ := List.mem_map.mp (List.mem_toFinset.mp member)
    obtain ⟨row, present⟩ := List.getElem?_of_mem listed
    refine ⟨⟨index, row, operator.assetId⟩, ?_, rfl, rfl⟩
    apply List.mem_toFinset.mpr
    exact mem_staffingVars.mpr ⟨Finset.mem_range.mp within, operator, present, rfl⟩

/-- Staffings are matchings of clusters and operators. -/
theorem admissible_eq : block.admissible = {chosen |
    Matching (staffingVars block.clusters block.operators).toFinset OperatorVar.cluster
      OperatorVar.operator chosen} := by
  ext chosen
  constructor
  · intro admitted
    exact ⟨fun var member => List.mem_toFinset.mpr (admitted.declared var member),
      (card_filter_le_one_iff _ _).mp admitted.operatorOnce,
      (card_filter_le_one_iff _ _).mp admitted.clusterOnce⟩
  · intro matching
    exact ⟨fun var member => List.mem_toFinset.mp (matching.within member),
      (card_filter_le_one_iff _ _).mpr matching.leftOnce,
      (card_filter_le_one_iff _ _).mpr matching.rightOnce⟩

theorem admissible_finite : block.admissible.Finite := by
  rw [admissible_eq]
  exact matchings_finite

theorem staffed_eq_card (admitted : chosen ∈ block.admissible) : staffed chosen = chosen.card := by
  rw [admissible_eq] at admitted
  exact Finset.card_image_of_injOn admitted.leftOnce

theorem fullStaff_eq : block.fullStaff = min (Finset.range block.clusters.length).card
    (block.operators.map (·.assetId)).toFinset.card := by
  rw [Finset.card_range, List.card_toFinset]
  rfl

theorem staffed_le (admitted : chosen ∈ block.admissible) : staffed chosen ≤ block.fullStaff := by
  rw [staffed_eq_card admitted, fullStaff_eq]
  rw [admissible_eq] at admitted
  exact Matching.card_le admitted joins_staffingVars

/-- The largest staffings are the full ones. -/
theorem largest_iff : Largest block.admissible chosen ↔
    chosen ∈ block.admissible ∧ staffed chosen = block.fullStaff := by
  rw [fullStaff_eq, admissible_eq, largest_matching_iff joins_staffingVars]
  apply and_congr_right
  intro matching
  have admitted : chosen ∈ block.admissible := by
    rw [admissible_eq]
    exact matching
  rw [staffed_eq_card admitted]

/-- All clusters that can be staffed are, exactly where every optimum is largest. -/
theorem staffsAll_iff_largest : block.StaffsAll ↔
    ∀ chosen, Optimal block.admissible (objective block.baseReward block.reward) chosen →
      Largest block.admissible chosen := by
  constructor
  · exact fun all chosen optimal => largest_iff.mpr ⟨optimal.admitted, all chosen optimal⟩
  · exact fun largest chosen optimal => (largest_iff.mp (largest chosen optimal)).2

end Assignment

/-- The operators, each by its last row. -/
def lastRows : List OperatorRow := (Dict.collect (·.assetId) id block.operators).values

/-- Some operator is certified for some operation of some cluster. -/
def Certifies : Prop :=
  ∃ cluster ∈ block.clusters, ∃ operator ∈ block.lastRows,
    ∃ operation ∈ cluster.2, operation ∈ operator.certifiedOperations

section Rewards

variable {block} {var : OperatorVar}

theorem mem_rewards {value : ℤ} : value ∈ block.rewards ↔
    ∃ cluster ∈ block.clusters, ∃ operator ∈ block.lastRows,
      block.operatorReward cluster operator = value := by
  simp only [rewards, clusterRewards, lastRows, List.mem_flatMap, Dict.mem_values_iff,
    Dict.get?_collect, Option.map_eq_some_iff, Option.map_id_fun, id_eq]
  constructor
  · rintro ⟨cluster, listed, id, operator, found, paid⟩
    exact ⟨cluster, listed, operator, ⟨id, found⟩, paid⟩
  · rintro ⟨cluster, listed, operator, ⟨id, found⟩, paid⟩
    exact ⟨cluster, listed, id, operator, found, paid⟩

theorem reward_mem (declared : var ∈ staffingVars block.clusters block.operators) :
    block.reward var ∈ block.rewards := by
  obtain ⟨within, operator, present, named⟩ := mem_staffingVars.mp declared
  have known : ((block.clusterRewards block.clusters[var.cluster]).get? var.operator).isSome :=
    (Dict.isSome_get?_collect _ _ _ _).mpr ⟨operator, List.mem_of_getElem? present, named⟩
  obtain ⟨value, found⟩ := Option.isSome_iff_exists.mp known
  have paid : block.reward var = value := by
    rw [reward, List.getElem?_eq_getElem within, Option.elim_some, Dict.getD, found]
    rfl
  rw [paid]
  apply List.mem_flatMap.mpr
  exact ⟨_, List.getElem_mem within, (Dict.mem_values_iff _ _).mpr ⟨_, found⟩⟩

/-- The base lifts every reward above the highest one. -/
theorem maxReward_lt_lifted (declared : var ∈ staffingVars block.clusters block.operators) :
    block.maxReward < block.baseReward + block.reward var := by
  have low : block.minReward ≤ block.reward var := min?_getD_le 0 (reward_mem declared)
  rw [baseReward]
  omega

/-- Where some reward is not negative, all clusters that can be staffed are. -/
theorem staffsAll_of_reward_nonneg {value : ℤ} (member : value ∈ block.rewards)
    (nonneg : 0 ≤ value) : block.StaffsAll := by
  rw [staffsAll_iff_largest]
  intro chosen optimal
  have high : value ≤ block.maxReward := le_max?_getD 0 member
  rw [admissible_eq] at optimal ⊢
  apply largest_of_optimal_of_pos joins_staffingVars _ optimal
  intro var listed
  have lifted := maxReward_lt_lifted (List.mem_toFinset.mp listed)
  omega

/-- The discount of a share is no more than that of a fully held operator. -/
theorem discount_bounds {share : ℚ} (bounds : 0 ≤ share ∧ share ≤ 1) :
    0 ≤ roundHalfEven (operatorHoldDiscountReward * (1 - share)) ∧
      roundHalfEven (operatorHoldDiscountReward * (1 - share)) ≤ 50 := by
  have low : (0 : ℚ) ≤ operatorHoldDiscountReward * (1 - share) := by
    rw [operatorHoldDiscountReward]
    linarith [bounds.2]
  have high : operatorHoldDiscountReward * (1 - share) ≤ 50 := by
    rw [operatorHoldDiscountReward]
    linarith [bounds.1]
  exact ⟨roundHalfEven_intCast 0 ▸ roundHalfEven_mono (by exact_mod_cast low),
    roundHalfEven_intCast 50 ▸ roundHalfEven_mono (by exact_mod_cast high)⟩

theorem free_bounds (shares : ∀ share ∈ block.freeCapacity.values, 0 ≤ share ∧ share ≤ 1)
    (id : String) : 0 ≤ block.freeCapacity.getD id 1 ∧ block.freeCapacity.getD id 1 ≤ 1 := by
  rw [Dict.getD]
  cases found : block.freeCapacity.get? id with
  | none => simp
  | some share => exact shares share ((Dict.mem_values_iff _ _).mpr ⟨id, found⟩)

/-- One certified operation outweighs every discount. -/
theorem staffsAll_of_certifies (certifies : block.Certifies)
    (shares : ∀ share ∈ block.freeCapacity.values, 0 ≤ share ∧ share ≤ 1) : block.StaffsAll := by
  obtain ⟨cluster, listed, operator, row, operation, needed, certified⟩ := certifies
  refine staffsAll_of_reward_nonneg (mem_rewards.mpr ⟨cluster, listed, operator, row, rfl⟩) ?_
  have covered : operation ∈ cluster.2.dedup.filter fun operation =>
      operation ∈ operator.certifiedOperations := by
    apply List.mem_filter.mpr
    exact ⟨List.mem_dedup.mpr needed, decide_eq_true certified⟩
  have coverage := List.length_pos_of_mem covered
  have discount := discount_bounds (free_bounds shares operator.assetId)
  rw [operatorReward, operatorCoverageReward, operatorDepotMatchReward]
  split_ifs <;> omega

end Rewards

section Held

/-- The same operators, held all the time. -/
def fullyHeld : OperatorBlock :=
  { block with freeCapacity := Dict.collect id (fun _ => 0) (block.operators.map (·.assetId)) }

variable {block}

theorem free_fullyHeld {operator : OperatorRow} (listed : operator ∈ block.lastRows) :
    block.fullyHeld.freeCapacity.getD operator.assetId 1 = 0 := by
  obtain ⟨_, found⟩ := (Dict.mem_values_iff _ _).mp listed
  obtain ⟨row, member, -, rfl⟩ := Dict.exists_of_get?_collect found
  have known : (block.fullyHeld.freeCapacity.get? row.assetId).isSome :=
    (Dict.isSome_get?_collect _ _ _ _).mpr ⟨_, List.mem_map_of_mem member, rfl⟩
  obtain ⟨share, stored⟩ := Option.isSome_iff_exists.mp known
  obtain ⟨_, -, -, rfl⟩ := Dict.exists_of_get?_collect stored
  change (block.fullyHeld.freeCapacity.get? row.assetId).getD 1 = 0
  rw [stored]
  rfl

/-- An operator without certified operations costs the whole discount, but for its depot. -/
theorem rewards_fullyHeld (uncertified : ¬ block.Certifies) :
    ∀ value ∈ block.fullyHeld.rewards, -50 ≤ value ∧ value ≤ -49 := by
  intro value member
  obtain ⟨cluster, listed, operator, row, rfl⟩ := mem_rewards.mp member
  have none : (cluster.2.dedup.filter fun operation =>
      operation ∈ operator.certifiedOperations) = [] := by
    apply List.filter_eq_nil_iff.mpr
    intro operation needed certified
    apply uncertified
    exact ⟨cluster, listed, operator, row, operation, List.mem_dedup.mp needed,
      of_decide_eq_true certified⟩
  have discount : roundHalfEven (operatorHoldDiscountReward * (1 - 0)) = 50 := by
    decide +kernel
  have free : block.fullyHeld.freeCapacity.getD operator.assetId 1 = 0 := free_fullyHeld row
  rw [operatorReward, free, none, discount, operatorDepotMatchReward]
  split_ifs <;> simp

theorem not_staffsAll_fullyHeld (clusters : block.clusters ≠ []) (operators : block.operators ≠ [])
    (uncertified : ¬ block.Certifies) : ¬ block.fullyHeld.StaffsAll := by
  intro all
  have bounds := rewards_fullyHeld uncertified
  have optimal : Optimal block.fullyHeld.admissible
      (objective block.fullyHeld.baseReward block.fullyHeld.reward) ∅ := by
    rw [admissible_eq]
    apply optimal_empty_of_nonpos
    intro var listed
    have member := reward_mem (List.mem_toFinset.mp listed)
    have nonempty := List.ne_nil_of_mem member
    have high := (bounds _ (max?_getD_mem 0 nonempty)).2
    have low := (bounds _ (min?_getD_mem 0 nonempty)).1
    have paid := (bounds _ member).2
    rw [baseReward, maxReward, minReward]
    omega
  have staff : 0 < block.fullyHeld.fullStaff := by
    apply lt_min
    · exact List.length_pos_iff.mpr clusters
    · apply List.length_pos_iff.mpr
      rw [Ne, List.dedup_eq_nil, List.map_eq_nil_iff]
      exact operators
  have none := all ∅ optimal
  exact absurd none staff.ne

/-- Nothing is staffed, or nobody is there to staff it. -/
theorem staffsAll_of_fullStaff_eq_zero (none : block.fullStaff = 0) : block.StaffsAll := by
  intro chosen optimal
  have within := staffed_le optimal.admitted
  omega

theorem staffsAll_forall_iff :
    (∀ freeCapacity : Dict String ℚ, (∀ share ∈ freeCapacity.values, 0 ≤ share ∧ share ≤ 1) →
      ({ block with freeCapacity := freeCapacity } : OperatorBlock).StaffsAll) ↔
      block.clusters = [] ∨ block.operators = [] ∨ block.Certifies := by
  constructor
  · intro law
    by_contra broken
    obtain ⟨clusters, rest⟩ := not_or.mp broken
    obtain ⟨operators, uncertified⟩ := not_or.mp rest
    apply not_staffsAll_fullyHeld clusters operators uncertified
    apply law
    intro share member
    obtain ⟨id, found⟩ := (Dict.mem_values_iff _ _).mp member
    obtain ⟨_, -, -, rfl⟩ := Dict.exists_of_get?_collect found
    exact ⟨le_refl 0, zero_le_one⟩
  · rintro (clusters | operators | certifies) freeCapacity shares
    · apply staffsAll_of_fullStaff_eq_zero
      simp [fullStaff, clusters]
    · apply staffsAll_of_fullStaff_eq_zero
      simp [fullStaff, operators]
    · exact staffsAll_of_certifies certifies shares

/-- The base staffs all clusters exactly where it bridges every gap in rewards. -/
theorem staffsAll_iff_gaps : block.StaffsAll ↔
    ∀ chosen ∈ block.admissible, staffed chosen < block.fullStaff →
      ∃ other ∈ block.admissible, staffed other = block.fullStaff ∧
        ∑ var ∈ chosen, block.reward var - ∑ var ∈ other, block.reward var <
          (block.maxReward - block.minReward + 1) * (staffed other - staffed chosen) := by
  rw [staffsAll_iff_largest, optimal_largest_iff admissible_finite]
  constructor
  · intro outdone chosen admitted short
    obtain ⟨other, largest, better⟩ := outdone chosen admitted
      fun largest => short.ne (largest_iff.mp largest).2
    obtain ⟨reached, full⟩ := largest_iff.mp largest
    refine ⟨other, reached, full, ?_⟩
    rw [staffed_eq_card admitted, staffed_eq_card reached]
    exact (objective_lt_iff _ _ _ _).mp better
  · intro outdone chosen admitted short
    have fewer : staffed chosen < block.fullStaff :=
      lt_of_le_of_ne (staffed_le admitted) fun full => short (largest_iff.mpr ⟨admitted, full⟩)
    obtain ⟨other, reached, full, gap⟩ := outdone chosen admitted fewer
    refine ⟨other, largest_iff.mpr ⟨reached, full⟩, ?_⟩
    rw [staffed_eq_card admitted, staffed_eq_card reached] at gap
    exact (objective_lt_iff _ _ _ _).mpr gap

end Held

end OperatorBlock

section Posted

variable (settings : AllocationSettings) (inputs : AllocationInputs) (clusters : List DepotCluster)

/-- The operator block of an allocation. -/
def operatorBlock : OperatorBlock where
  clusters := clusters.map fun cluster =>
    (cluster.depotRef, (inputs.clusterOrders cluster).map (·.operationType))
  operators := inputs.operators
  freeCapacity := inputs.freeCapacity

theorem staffingVars_operatorBlock :
    staffingVars (operatorBlock inputs clusters).clusters inputs.operators =
      operatorVars inputs clusters := by
  simp only [staffingVars, operatorBlock, operatorVars, List.zipIdx_map, List.flatMap_map]
  rfl

variable {settings inputs clusters}

/-- What a solution of the model chooses is admitted by the block. -/
theorem AssignmentSolution.chosenOperators_admissible
    (solution : AssignmentSolution settings inputs clusters) :
    solution.chosenOperators.toFinset ∈ (operatorBlock inputs clusters).admissible where
  declared var member := by
    change var ∈ staffingVars (operatorBlock inputs clusters).clusters inputs.operators
    rw [staffingVars_operatorBlock]
    exact List.mem_of_mem_filter (List.mem_toFinset.mp member)
  operatorOnce index := (card_filter_toFinset_le _ _).trans (solution.operatorOnce index)
  clusterOnce id := (card_filter_toFinset_le _ _).trans (solution.clusterOnce id)

end Posted

/-- All clusters that can be staffed are, if and only if for every smaller staffing the base bridges
the gap in rewards to a full one for each cluster that is lacking; and whatever the free shares
are, if and only if there is nothing to staff or some operator is certified for some operation. -/
theorem staffs_all_iff (block : OperatorBlock) :
    (block.StaffsAll ↔ ∀ chosen ∈ block.admissible, staffed chosen < block.fullStaff →
      ∃ other ∈ block.admissible, staffed other = block.fullStaff ∧
        ∑ var ∈ chosen, block.reward var - ∑ var ∈ other, block.reward var <
          (block.maxReward - block.minReward + 1) * (staffed other - staffed chosen)) ∧
    ((∀ freeCapacity : Dict String ℚ, (∀ share ∈ freeCapacity.values, 0 ≤ share ∧ share ≤ 1) →
      ({ block with freeCapacity := freeCapacity } : OperatorBlock).StaffsAll) ↔
      block.clusters = [] ∨ block.operators = [] ∨ block.Certifies) :=
  ⟨OperatorBlock.staffsAll_iff_gaps, OperatorBlock.staffsAll_forall_iff⟩

section Uncertified

/-- One cluster, and one operator who is not certified and held all the time. -/
def heldOperator : OperatorBlock where
  clusters := [("yard", ["SPRAYING"])]
  operators := [{ assetId := "op-1" }]
  freeCapacity := Dict.empty.set "op-1" 0

/-- The cluster stays without its operator. -/
theorem held_operator_is_left_out : ¬ ∀ block : OperatorBlock,
    (∀ share ∈ block.freeCapacity.values, 0 ≤ share ∧ share ≤ 1) → block.StaffsAll := by
  intro law
  have shares : ∀ share ∈ heldOperator.freeCapacity.values, 0 ≤ share ∧ share ≤ 1 := by
    decide +kernel
  have optimal : Optimal heldOperator.admissible
      (objective heldOperator.baseReward heldOperator.reward) ∅ := by
    rw [OperatorBlock.admissible_eq]
    apply optimal_empty_of_nonpos
    decide +kernel
  exact absurd (law heldOperator shares ∅ optimal) (by decide +kernel)

end Uncertified

end FlOp.Solver
