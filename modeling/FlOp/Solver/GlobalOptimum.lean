import FlOp.Solver.CountPriority
import FlOp.Solver.Staffing

/-! # The optimum of the global model

Pairs and operators are two blocks of one model and share no constraint. An answer is the best one
exactly if it is optimal in each block, so what the blocks promise holds of the best answers.
-/

namespace FlOp.Solver

open Library

section Distinct

/-- Elements that carry the position they come from are distinct if those of each position are. -/
theorem nodup_flatMap_zipIdx {α β : Type*} {items : List α} {elements : α × ℕ → List β}
    (index : β → ℕ) (own : ∀ entry, ∀ element ∈ elements entry, index element = entry.2)
    (nodup : ∀ entry, (elements entry).Nodup) : (items.zipIdx.flatMap elements).Nodup := by
  have distinct : items.zipIdx.Pairwise fun a b => a.2 ≠ b.2 := by
    apply List.pairwise_map.mp
    rw [List.zipIdx_map_snd]
    exact List.nodup_range'
  refine List.nodup_flatMap.mpr ⟨fun entry _ => nodup entry, distinct.imp ?_⟩
  intro a b differ element inA inB
  exact differ ((own a element inA).symm.trans (own b element inB))

/-- Distinct items stay distinct where a fold appends some of them. -/
theorem nodup_foldl_append {α : Type*} {step : List α → α → List α}
    (step_cases : ∀ kept item, step kept item = kept ∨ step kept item = kept ++ [item])
    {items kept : List α} (nodup : (kept ++ items).Nodup) : (items.foldl step kept).Nodup := by
  induction items generalizing kept with
  | nil => rwa [List.append_nil] at nodup
  | cons item rest ih =>
    rw [List.foldl_cons]
    apply ih
    rcases step_cases kept item with skips | takes
    · rw [skips]
      exact nodup.sublist ((List.Sublist.refl kept).append (List.sublist_cons_self item rest))
    · rwa [takes, List.append_assoc]

variable (settings : AllocationSettings) (inputs : AllocationInputs) (clusters : List DepotCluster)

theorem nodup_bestFirst (candidates : Dict (String × String) ℚ) : (bestFirst candidates).Nodup := by
  rw [bestFirst]
  exact ((perm_sortBy _ candidates.entries).map Prod.fst).nodup_iff.mpr candidates.nodupKeys

/-- Truncation keeps each candidate once. -/
theorem nodup_truncateWithDiversity (candidates : Dict (String × String) ℚ) :
    (truncateWithDiversity settings candidates).Nodup := by
  apply nodup_foldl_append
  · intro top key
    split_ifs
    · exact .inl rfl
    · exact .inl rfl
    · exact .inl rfl
    · exact .inr rfl
  · exact nodup_bestFirst candidates

theorem nodup_pairVars : (pairVars settings inputs clusters).Nodup := by
  apply nodup_flatMap_zipIdx PairVar.cluster
  · intro entry var member
    obtain ⟨key, -, rfl⟩ := List.mem_map.mp member
    rfl
  · intro entry
    apply (nodup_truncateWithDiversity settings _).map
    intro first second same
    exact Prod.ext (congrArg PairVar.vehicle same) (congrArg PairVar.implement same)

theorem nodup_operatorVars : (operatorVars inputs clusters).Nodup := by
  apply nodup_flatMap_zipIdx OperatorVar.cluster
  · intro entry var member
    obtain ⟨operator, -, rfl⟩ := List.mem_map.mp member
    rfl
  · intro entry
    have rows : (inputs.operators.zipIdx.map Prod.snd).Nodup := by
      rw [List.zipIdx_map_snd]
      exact List.nodup_range'
    apply List.Nodup.of_map OperatorVar.row
    rw [List.map_map]
    exact rows

end Distinct

section Blocks

variable {settings : AllocationSettings} {inputs : AllocationInputs} {clusters : List DepotCluster}

/-- Out of distinct variables, those in a set are not more than the set has. -/
theorem length_filter_mem_le {α : Type*} [DecidableEq α] {l : List α} (nodup : l.Nodup)
    (s : Finset α) (p : α → Prop) [DecidablePred p] :
    ((l.filter fun v => decide (v ∈ s)).filter fun v => decide (p v)).length ≤
      (s.filter p).card := by
  rw [← List.toFinset_card_of_nodup ((nodup.filter _).filter _)]
  apply Finset.card_le_card
  intro v member
  simp only [List.mem_toFinset, List.mem_filter, decide_eq_true_eq] at member
  exact Finset.mem_filter.mpr ⟨member.1.2, member.2⟩

/-- The answer that makes one choice in each block. -/
def AssignmentSolution.ofBlocks {pairs : Finset PairVar} {operators : Finset OperatorVar}
    (admitsPairs : pairs ∈ (pairBlock settings inputs clusters).admissible)
    (admitsOperators : operators ∈ (operatorBlock inputs clusters).admissible) :
    AssignmentSolution settings inputs clusters where
  pair var := var ∈ pairs
  operator var := var ∈ operators
  clusterLimit entry member := by
    apply (length_filter_mem_le (nodup_pairVars settings inputs clusters) pairs _).trans
    apply admitsPairs.clusterLimit (clusterCandidates settings inputs entry.1, entry.2)
    rw [pairBlock, List.zipIdx_map]
    exact List.mem_map_of_mem (f := Prod.map (clusterCandidates settings inputs) id) member
  vehicleOnce index vehicle :=
    (length_filter_mem_le (nodup_pairVars settings inputs clusters) pairs _).trans
      (admitsPairs.vehicleOnce index vehicle)
  implementOnce implement :=
    (length_filter_mem_le (nodup_pairVars settings inputs clusters) pairs _).trans
      (admitsPairs.implementOnce implement)
  vehicleUses vehicle :=
    (length_filter_mem_le (nodup_pairVars settings inputs clusters) pairs _).trans
      (admitsPairs.vehicleUses vehicle)
  operatorOnce index :=
    (length_filter_mem_le (nodup_operatorVars inputs clusters) operators _).trans
      (admitsOperators.operatorOnce index)
  clusterOnce id :=
    (length_filter_mem_le (nodup_operatorVars inputs clusters) operators _).trans
      (admitsOperators.clusterOnce id)

theorem chosen_ofBlocks {pairs : Finset PairVar} {operators : Finset OperatorVar}
    (admitsPairs : pairs ∈ (pairBlock settings inputs clusters).admissible)
    (admitsOperators : operators ∈ (operatorBlock inputs clusters).admissible) :
    (AssignmentSolution.ofBlocks admitsPairs admitsOperators).chosen.toFinset = pairs ∧
      (AssignmentSolution.ofBlocks admitsPairs admitsOperators).chosenOperators.toFinset =
        operators := by
  constructor
  · ext var
    simp only [AssignmentSolution.chosen, AssignmentSolution.ofBlocks, List.mem_toFinset,
      List.mem_filter, decide_eq_true_eq, and_iff_right_iff_imp]
    intro member
    rw [← candidateVars_pairBlock]
    exact admitsPairs.declared var member
  · ext var
    simp only [AssignmentSolution.chosenOperators, AssignmentSolution.ofBlocks, List.mem_toFinset,
      List.mem_filter, decide_eq_true_eq, and_iff_right_iff_imp]
    intro member
    rw [← staffingVars_operatorBlock]
    exact admitsOperators.declared var member

namespace AssignmentSolution

/-- What the model maximizes. -/
def value (countPriority : ℚ) (solution : AssignmentSolution settings inputs clusters) : ℤ :=
  objective ((pairBlock settings inputs clusters).baseReward countPriority)
      (pairBlock settings inputs clusters).scaled solution.chosen.toFinset +
    objective (operatorBlock inputs clusters).baseReward (operatorBlock inputs clusters).reward
      solution.chosenOperators.toFinset

/-- No answer is worth more. -/
def Best (countPriority : ℚ) (solution : AssignmentSolution settings inputs clusters) : Prop :=
  ∀ other : AssignmentSolution settings inputs clusters,
    other.value countPriority ≤ solution.value countPriority

variable {countPriority : ℚ} {solution : AssignmentSolution settings inputs clusters}

/-- An answer is the best one exactly if it is optimal in each block. -/
theorem best_iff : solution.Best countPriority ↔
    Optimal (pairBlock settings inputs clusters).admissible
      (objective ((pairBlock settings inputs clusters).baseReward countPriority)
        (pairBlock settings inputs clusters).scaled) solution.chosen.toFinset ∧
    Optimal (operatorBlock inputs clusters).admissible
      (objective (operatorBlock inputs clusters).baseReward
        (operatorBlock inputs clusters).reward) solution.chosenOperators.toFinset := by
  constructor
  · intro best
    refine ⟨⟨solution.chosen_admissible, fun pairs admitted => ?_⟩,
      ⟨solution.chosenOperators_admissible, fun operators admitted => ?_⟩⟩
    · obtain ⟨first, second⟩ := chosen_ofBlocks admitted solution.chosenOperators_admissible
      have worth := best (ofBlocks admitted solution.chosenOperators_admissible)
      rw [value, value, first, second] at worth
      exact le_of_add_le_add_right worth
    · obtain ⟨first, second⟩ := chosen_ofBlocks solution.chosen_admissible admitted
      have worth := best (ofBlocks solution.chosen_admissible admitted)
      rw [value, value, first, second] at worth
      exact le_of_add_le_add_left worth
  · rintro ⟨pairs, operators⟩ other
    exact add_le_add (pairs.best _ other.chosen_admissible)
      (operators.best _ other.chosenOperators_admissible)

theorem length_chosen : solution.chosen.length = solution.chosen.toFinset.card :=
  (List.toFinset_card_of_nodup ((nodup_pairVars settings inputs clusters).filter _)).symm

/-- Where choices are exchangeable, a best answer allocates as many pairs as any. -/
theorem Best.most_pairs (best : solution.Best 1)
    (exchanges : ∀ chosen ∈ (pairBlock settings inputs clusters).admissible,
      Exchangeable (pairBlock settings inputs clusters).admissible chosen)
    (other : AssignmentSolution settings inputs clusters) :
    other.chosen.length ≤ solution.chosen.length := by
  have counts := (pairBlock settings inputs clusters).countsFirst_of_exchangeable exchanges
  have most := (counts _ (best_iff.mp best).1).1.best _ other.chosen_admissible
  rw [length_chosen, length_chosen]
  exact Int.ofNat_le.mp most

/-- Where some operator is certified for some operation, a best answer staffs as many clusters as
there are clusters and operators for. -/
theorem Best.full_staff (best : solution.Best countPriority)
    (certifies : (operatorBlock inputs clusters).Certifies)
    (shares : ∀ share ∈ inputs.freeCapacity.values, 0 ≤ share ∧ share ≤ 1) :
    staffed solution.chosenOperators.toFinset = (operatorBlock inputs clusters).fullStaff :=
  OperatorBlock.staffsAll_of_certifies certifies shares _ (best_iff.mp best).2

end AssignmentSolution

end Blocks

end FlOp.Solver
