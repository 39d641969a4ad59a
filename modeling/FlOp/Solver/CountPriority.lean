import FlOp.Core.Numbers
import FlOp.Library.CountFirst
import FlOp.Solver.Allocation

/-! # Count-first allocation

A chosen pair is rewarded with its scaled score and a base one above the highest scaled score. One
more pair then outweighs the score of one other pair. It may cost several: pairs that exclude one
another through shared vehicles and implements are exchanged together.
-/

namespace FlOp.Solver

open FlOp.Core Library

/-- What the pair block is built from: of each cluster the candidates and the limit, and the score
of each candidate. -/
structure PairBlock where
  clusters : List (List (String × String) × ℕ)
  score : PairVar → ℚ
  scoreScale : ℕ := 1000

/-- The variables of the pair block, cluster by cluster. -/
def candidateVars (clusters : List (List (String × String) × ℕ)) : List PairVar :=
  clusters.zipIdx.flatMap fun entry => entry.1.1.map fun key => ⟨entry.2, key.1, key.2⟩

/-- A choice of variables under the posted constraints. -/
structure AdmitsPairs (clusters : List (List (String × String) × ℕ)) (chosen : Finset PairVar) :
    Prop where
  declared : ∀ var ∈ chosen, var ∈ candidateVars clusters
  clusterLimit : ∀ entry ∈ clusters.zipIdx,
    (chosen.filter fun var => var.cluster = entry.2).card ≤ entry.1.2
  vehicleOnce : ∀ index vehicle,
    (chosen.filter fun var => var.cluster = index ∧ var.vehicle = vehicle).card ≤ 1
  implementOnce : ∀ implement, (chosen.filter fun var => var.implement = implement).card ≤ 1
  vehicleUses : ∀ vehicle,
    (chosen.filter fun var => var.vehicle = vehicle).card ≤ maxVehicleAssignments

namespace PairBlock

variable (block : PairBlock)

def allScores : List ℚ := (candidateVars block.clusters).map block.score

def minScore : ℚ := block.allScores.min?.getD 0

def maxScore : ℚ := block.allScores.max?.getD 0

/-- A score in integer units above the lowest one. -/
def scaledScore (score : ℚ) : ℤ := roundHalfEven ((score - block.minScore) * block.scoreScale)

def maxScaled : ℤ := block.scaledScore block.maxScore

/-- What every chosen pair earns besides its score. -/
def baseReward (countPriority : ℚ) : ℤ :=
  roundHalfEven ((block.maxScaled + 1) * min 1 (max 0 countPriority))

/-- The scaled score of a variable. -/
def scaled (var : PairVar) : ℤ := block.scaledScore (block.score var)

/-- The choices that the posted constraints admit. -/
def admissible : Set (Finset PairVar) := {chosen | AdmitsPairs block.clusters chosen}

/-- Every optimum allocates as many pairs as possible, and has the highest total score of these. -/
def CountsFirst (countPriority : ℚ) : Prop :=
  CountFirst block.admissible (block.baseReward countPriority) block.scaled

/-- The same candidates with other scores. -/
def rescored (score : PairVar → ℚ) : PairBlock := { block with score := score }

section Scores

variable {block}

theorem score_mem {var : PairVar} (declared : var ∈ candidateVars block.clusters) :
    block.score var ∈ block.allScores := List.mem_map_of_mem declared

theorem scaledScore_mono {low high : ℚ} (le : low ≤ high) :
    block.scaledScore low ≤ block.scaledScore high := by
  apply roundHalfEven_mono
  exact mul_le_mul_of_nonneg_right (sub_le_sub_right le _) (Nat.cast_nonneg _)

@[simp] theorem scaledScore_minScore : block.scaledScore block.minScore = 0 := by
  rw [scaledScore, sub_self, zero_mul]
  exact roundHalfEven_intCast 0

theorem maxScaled_nonneg : 0 ≤ block.maxScaled :=
  scaledScore_minScore.symm.trans_le (scaledScore_mono (min?_getD_le_max?_getD block.allScores 0))

/-- Scaled scores lie between zero and the highest one. -/
theorem scaled_bounds {var : PairVar} (declared : var ∈ candidateVars block.clusters) :
    0 ≤ block.scaled var ∧ block.scaled var ≤ block.maxScaled :=
  ⟨scaledScore_minScore.symm.trans_le (scaledScore_mono (min?_getD_le 0 (score_mem declared))),
    scaledScore_mono (le_max?_getD 0 (score_mem declared))⟩

@[simp] theorem baseReward_one : block.baseReward 1 = block.maxScaled + 1 := by
  have whole : ((block.maxScaled : ℚ) + 1) * min 1 (max 0 1) = ((block.maxScaled + 1 : ℤ) : ℚ) := by
    simp
  rw [baseReward, whole, roundHalfEven_intCast]

end Scores

theorem subset_candidateVars {chosen : Finset PairVar} (admitted : chosen ∈ block.admissible) :
    chosen ⊆ (candidateVars block.clusters).toFinset := by
  intro var member
  apply List.mem_toFinset.mpr
  exact admitted.declared var member

theorem admissible_finite : block.admissible.Finite :=
  finite_of_subset fun _ admitted => block.subset_candidateVars admitted

theorem card_le_length {chosen : Finset PairVar} (admitted : chosen ∈ block.admissible) :
    chosen.card ≤ (candidateVars block.clusters).length := by
  apply (Finset.card_le_card (block.subset_candidateVars admitted)).trans
  exact List.toFinset_card_le _

/-- Whatever the scores are, the count comes first where each choice becomes as large as possible by
giving up no more pairs than it lacks. -/
theorem countsFirst_of_exchangeable
    (exchanges : ∀ chosen ∈ block.admissible, Exchangeable block.admissible chosen) :
    block.CountsFirst 1 := by
  rw [CountsFirst, baseReward_one]
  apply countFirst_of_exchangeable block.admissible_finite maxScaled_nonneg _ exchanges
  intro chosen admitted var member
  exact scaled_bounds (admitted.declared var member)

section Spike

/-- The candidates with one score on a choice and none elsewhere. -/
def spiked (chosen : Finset PairVar) : PairBlock :=
  block.rescored fun var => if var ∈ chosen then (candidateVars block.clusters).length else 0

variable {block} {chosen : Finset PairVar}

theorem mem_allScores_spiked {score : ℚ} (member : score ∈ (block.spiked chosen).allScores) :
    score = (candidateVars block.clusters).length ∨ score = 0 := by
  obtain ⟨var, -, rfl⟩ := List.mem_map.mp member
  change (if var ∈ chosen then _ else _) = _ ∨ (if var ∈ chosen then _ else _) = _
  split_ifs
  · exact .inl rfl
  · exact .inr rfl

theorem minScore_spiked {var : PairVar} (declared : var ∈ candidateVars block.clusters)
    (outside : var ∉ chosen) : (block.spiked chosen).minScore = 0 := by
  apply min?_getD_eq
  · exact List.mem_map.mpr ⟨var, declared, if_neg outside⟩
  · intro score member
    rcases mem_allScores_spiked member with rfl | rfl
    · exact Nat.cast_nonneg _
    · exact le_refl 0

theorem maxScore_spiked {var : PairVar} (declared : var ∈ candidateVars block.clusters)
    (inside : var ∈ chosen) :
    (block.spiked chosen).maxScore = (candidateVars block.clusters).length := by
  apply max?_getD_eq
  · exact List.mem_map.mpr ⟨var, declared, if_pos inside⟩
  · intro score member
    rcases mem_allScores_spiked member with rfl | rfl
    · exact le_refl _
    · exact Nat.cast_nonneg _

/-- A choice that is exchangeable whatever the scores are. -/
theorem exchangeable_of_forall_countsFirst (scale : block.scoreScale ≠ 0)
    (law : ∀ score, (block.rescored score).CountsFirst 1) (admitted : chosen ∈ block.admissible) :
    Exchangeable block.admissible chosen := by
  obtain ⟨largest, reaches⟩ :=
    exists_optimal block.admissible_finite ⟨chosen, admitted⟩ fun choice => (choice.card : ℤ)
  rcases chosen.eq_empty_or_nonempty with rfl | ⟨inner, inside⟩
  · exact ⟨largest, reaches, by simp⟩
  by_cases short : largest ⊆ chosen
  · refine ⟨chosen, ⟨admitted, fun other member => ?_⟩, by simp⟩
    exact (reaches.best other member).trans (Int.ofNat_le.mpr (Finset.card_le_card short))
  obtain ⟨outer, taken, outside⟩ := Finset.not_subset.mp short
  have low := minScore_spiked (reaches.admitted.declared outer taken) outside
  have high := maxScore_spiked (admitted.declared inner inside) inside
  let highest : ℕ := (candidateVars block.clusters).length * block.scoreScale
  have whole : (block.spiked chosen).scaledScore (candidateVars block.clusters).length =
      highest := by
    rw [scaledScore, low, sub_zero]
    exact_mod_cast roundHalfEven_intCast highest
  have none : (block.spiked chosen).scaledScore 0 = 0 := by
    rw [← low]
    exact scaledScore_minScore
  have counts : CountFirst block.admissible (highest + 1) (block.spiked chosen).scaled := by
    have counts := law fun var => if var ∈ chosen then (candidateVars block.clusters).length else 0
    rwa [CountsFirst, baseReward_one, maxScaled, show (block.rescored _).maxScore = _ from high,
      show (block.rescored _).scaledScore _ = _ from whole] at counts
  refine exchangeable_of_countFirst block.admissible_finite admitted ?_ ?_ ?_ counts
  · intro other member
    have within := card_le_length block member
    have scaled := Nat.le_mul_of_pos_right (candidateVars block.clusters).length
      (Nat.pos_of_ne_zero scale)
    change (other.card : ℤ) ≤ highest
    omega
  · intro var member
    rw [scaled, ← whole]
    exact congrArg _ (if_pos member)
  · intro other _ var member
    rw [scaled, ← none]
    exact congrArg _ (if_neg (Finset.mem_sdiff.mp member).2)

/-- The scores do not matter exactly where they are scaled away or every choice is exchangeable. -/
theorem countsFirst_forall_iff : (∀ score, (block.rescored score).CountsFirst 1) ↔
    block.scoreScale = 0 ∨ ∀ chosen ∈ block.admissible, Exchangeable block.admissible chosen := by
  constructor
  · intro law
    by_cases scale : block.scoreScale = 0
    · exact .inl scale
    · exact .inr fun chosen admitted => exchangeable_of_forall_countsFirst scale law admitted
  · rintro (scale | exchanges) score
    · have flat (value : ℚ) : (block.rescored score).scaledScore value = 0 := by
        have zero : (block.rescored score).scoreScale = 0 := scale
        rw [scaledScore, zero, Nat.cast_zero, mul_zero]
        exact roundHalfEven_intCast 0
      rw [CountsFirst, baseReward_one]
      apply countFirst_of_gaps_le (admissible_finite _)
      intro chosen admitted
      obtain ⟨other, largest⟩ := exists_optimal (admissible_finite (block.rescored score))
        ⟨chosen, admitted⟩ fun choice => (choice.card : ℤ)
      exact ⟨other, largest, by simp [scaled, maxScaled, flat]⟩
    · exact countsFirst_of_exchangeable (block.rescored score) exchanges

end Spike

end PairBlock

section Posted

variable (settings : AllocationSettings) (inputs : AllocationInputs) (clusters : List DepotCluster)

/-- The pair block of an allocation, with the summed score of each candidate. -/
def pairBlock : PairBlock where
  clusters := clusters.map (clusterCandidates settings inputs)
  score var := clusters[var.cluster]?.elim 0 fun cluster =>
    (inputs.scoredPairs (fun _ _ => true) (inputs.clusterOrders cluster)).getD
      (var.vehicle, var.implement) 0

theorem candidateVars_pairBlock :
    candidateVars (pairBlock settings inputs clusters).clusters =
      pairVars settings inputs clusters := by
  simp only [candidateVars, pairBlock, pairVars, List.zipIdx_map, List.flatMap_map]
  rfl

variable {settings inputs clusters}

/-- What a solution of the model chooses is admitted by the block. -/
theorem AssignmentSolution.chosen_admissible
    (solution : AssignmentSolution settings inputs clusters) :
    solution.chosen.toFinset ∈ (pairBlock settings inputs clusters).admissible where
  declared var member := by
    rw [candidateVars_pairBlock]
    exact List.mem_of_mem_filter (List.mem_toFinset.mp member)
  clusterLimit entry member := by
    obtain ⟨cluster, index⟩ := entry
    rw [pairBlock, List.zipIdx_map] at member
    obtain ⟨original, listed, same⟩ := List.mem_map.mp member
    obtain ⟨rfl, rfl⟩ := Prod.mk.inj same
    exact (card_filter_toFinset_le _ _).trans (solution.clusterLimit original listed)
  vehicleOnce index vehicle :=
    (card_filter_toFinset_le _ _).trans (solution.vehicleOnce index vehicle)
  implementOnce implement := (card_filter_toFinset_le _ _).trans (solution.implementOnce implement)
  vehicleUses vehicle := (card_filter_toFinset_le _ _).trans (solution.vehicleUses vehicle)

end Posted

/-- At the full count priority the count comes first if and only if, for every smaller choice, the
base bridges the gap in scores to a largest one for each pair that is lacking; and whatever the
scores are, if and only if every choice becomes largest by giving up no more pairs than it lacks. -/
theorem counts_first_iff (block : PairBlock) :
    (block.CountsFirst 1 ↔ ∀ chosen ∈ block.admissible, ¬ Largest block.admissible chosen →
      ∃ other, Largest block.admissible other ∧
        ∑ var ∈ chosen, block.scaled var - ∑ var ∈ other, block.scaled var <
          (block.maxScaled + 1) * (other.card - chosen.card)) ∧
    ((∀ score, (block.rescored score).CountsFirst 1) ↔
      block.scoreScale = 0 ∨
        ∀ chosen ∈ block.admissible, Exchangeable block.admissible chosen) := by
  refine ⟨?_, PairBlock.countsFirst_forall_iff⟩
  rw [PairBlock.CountsFirst, PairBlock.baseReward_one]
  exact countFirst_iff_gaps block.admissible_finite _ _

section Exchange

/-- Pairs that share no vehicle and no implement are admitted up to the limits. -/
theorem admitsPairs_of_distinct {clusters : List (List (String × String) × ℕ)}
    {chosen : Finset PairVar} (declared : ∀ var ∈ chosen, var ∈ candidateVars clusters)
    (limit : ∀ entry ∈ clusters.zipIdx,
      (chosen.filter fun var => var.cluster = entry.2).card ≤ entry.1.2)
    (vehicles : ∀ a ∈ chosen, ∀ b ∈ chosen, a.vehicle = b.vehicle → a = b)
    (implements : ∀ a ∈ chosen, ∀ b ∈ chosen, a.implement = b.implement → a = b) :
    AdmitsPairs clusters chosen := by
  have byVehicle := (card_filter_le_one_iff PairVar.vehicle chosen).mpr vehicles
  refine ⟨declared, limit, fun index vehicle => ?_, ?_, fun vehicle => ?_⟩
  · apply (Finset.card_le_card _).trans (byVehicle vehicle)
    exact Finset.monotone_filter_right chosen fun _ _ both => both.2
  · exact (card_filter_le_one_iff PairVar.implement chosen).mpr implements
  · exact (byVehicle vehicle).trans (by decide)

/-- Three tractors with a plough each; two of them suit the plough of another one better. -/
def ploughing : PairBlock where
  clusters := [([("t1", "p1"), ("t2", "p2"), ("t3", "p3"), ("t1", "p2"), ("t2", "p3")], 3)]
  score var := if (var.vehicle, var.implement) ∈ [("t1", "p2"), ("t2", "p3")] then 10 else 0

/-- The two better pairs leave the third tractor without a plough, and outweigh all three. -/
theorem two_pairs_outweigh_three : ¬ ∀ block : PairBlock, block.CountsFirst 1 := by
  intro law
  let better : Finset PairVar := {⟨0, "t1", "p2"⟩, ⟨0, "t2", "p3"⟩}
  let all : Finset PairVar := {⟨0, "t1", "p1"⟩, ⟨0, "t2", "p2"⟩, ⟨0, "t3", "p3"⟩}
  have admitsBetter : better ∈ ploughing.admissible := by
    apply admitsPairs_of_distinct <;> decide +kernel
  have admitsAll : all ∈ ploughing.admissible := by
    apply admitsPairs_of_distinct <;> decide +kernel
  have bounded : ∀ chosen ∈ (candidateVars ploughing.clusters).toFinset.powerset,
      (∀ vehicle ∈ ["t1", "t2", "t3"],
        (chosen.filter fun var => var.cluster = 0 ∧ var.vehicle = vehicle).card ≤ 1) →
      (∀ implement ∈ ["p1", "p2", "p3"],
        (chosen.filter fun var => var.implement = implement).card ≤ 1) →
      objective (ploughing.baseReward 1) ploughing.scaled chosen ≤
        objective (ploughing.baseReward 1) ploughing.scaled better := by
    decide +kernel
  have optimal : Optimal ploughing.admissible
      (objective (ploughing.baseReward 1) ploughing.scaled) better := by
    refine ⟨admitsBetter, fun other admitted => bounded other ?_ ?_ ?_⟩
    · exact Finset.mem_powerset.mpr (ploughing.subset_candidateVars admitted)
    · exact fun vehicle _ => admitted.vehicleOnce 0 vehicle
    · exact fun implement _ => admitted.implementOnce implement
  have most := (law ploughing better optimal).1.best all admitsAll
  exact absurd most (by decide)

end Exchange

end FlOp.Solver
