import Mathlib.Algebra.BigOperators.Ring.Finset
import Mathlib.Algebra.Order.BigOperators.Group.Finset
import Mathlib.Algebra.Order.Ring.Int
import Mathlib.Data.Set.Finite.Lemmas
import Mathlib.Tactic.Linarith
import Mathlib.Tactic.Ring

/-! # Choosing as many as possible first

An objective that pays a base and a score for each chosen element, over the admissible choices.
The base is to make every optimum as large as possible, so that the scores decide only between
choices of that size. Whether it does depends on what a smaller choice can gain in score.
-/

namespace FlOp.Library

variable {α : Type*}

/-- An admissible choice of the greatest value. -/
structure Optimal (admissible : Set (Finset α)) (value : Finset α → ℤ) (chosen : Finset α) :
    Prop where
  admitted : chosen ∈ admissible
  best : ∀ other ∈ admissible, value other ≤ value chosen

/-- An admissible choice of as many elements as possible. -/
def Largest (admissible : Set (Finset α)) (chosen : Finset α) : Prop :=
  Optimal admissible (fun choice => choice.card) chosen

/-- What is paid for a choice. -/
def objective (base : ℤ) (score : α → ℤ) (chosen : Finset α) : ℤ := ∑ v ∈ chosen, (base + score v)

/-- Every optimum is as large as possible, and has the highest total score of that size. -/
def CountFirst (admissible : Set (Finset α)) (base : ℤ) (score : α → ℤ) : Prop :=
  ∀ chosen, Optimal admissible (objective base score) chosen → Largest admissible chosen ∧
    ∀ other, Largest admissible other → ∑ v ∈ other, score v ≤ ∑ v ∈ chosen, score v

theorem objective_eq (base : ℤ) (score : α → ℤ) (chosen : Finset α) :
    objective base score chosen = base * chosen.card + ∑ v ∈ chosen, score v := by
  rw [objective, Finset.sum_add_distrib, Finset.sum_const, nsmul_eq_mul, mul_comm]

/-- A choice is outdone where the base bridges its gap in score. -/
theorem objective_lt_iff (base : ℤ) (score : α → ℤ) (chosen other : Finset α) :
    objective base score chosen < objective base score other ↔
      ∑ v ∈ chosen, score v - ∑ v ∈ other, score v < base * (other.card - chosen.card) := by
  rw [objective_eq, objective_eq, mul_sub]
  constructor <;> intro less <;> linarith

variable {admissible : Set (Finset α)}

theorem Largest.card_eq {first second : Finset α} (one : Largest admissible first)
    (other : Largest admissible second) : first.card = second.card := by
  have up := one.best second other.admitted
  have down := other.best first one.admitted
  omega

/-- Out of finitely many elements there are finitely many choices. -/
theorem finite_of_subset {elements : Finset α}
    (within : ∀ chosen ∈ admissible, chosen ⊆ elements) : admissible.Finite := by
  refine elements.powerset.finite_toSet.subset ?_
  intro chosen admitted
  apply Finset.mem_coe.mpr
  exact Finset.mem_powerset.mpr (within chosen admitted)

/-- Finitely many choices have a best one. -/
theorem exists_optimal (finite : admissible.Finite) (nonempty : admissible.Nonempty)
    (value : Finset α → ℤ) : ∃ chosen, Optimal admissible value chosen := by
  obtain ⟨chosen, admitted, best⟩ := Set.exists_max_image admissible value finite nonempty
  exact ⟨chosen, admitted, best⟩

/-- Every optimum is as large as possible exactly where each smaller choice is outdone by one that
is as large as possible. -/
theorem optimal_largest_iff (finite : admissible.Finite) (value : Finset α → ℤ) :
    (∀ chosen, Optimal admissible value chosen → Largest admissible chosen) ↔
      ∀ chosen ∈ admissible, ¬ Largest admissible chosen →
        ∃ other, Largest admissible other ∧ value chosen < value other := by
  constructor
  · intro largest chosen admitted short
    obtain ⟨other, optimal⟩ := exists_optimal finite ⟨chosen, admitted⟩ value
    refine ⟨other, largest other optimal, ?_⟩
    apply lt_of_le_of_ne (optimal.best chosen admitted)
    intro same
    apply short
    exact largest chosen ⟨admitted, fun third member => same ▸ optimal.best third member⟩
  · intro outdone chosen optimal
    by_contra short
    obtain ⟨other, largest, better⟩ := outdone chosen optimal.admitted short
    exact absurd (optimal.best other largest.admitted) (not_le.mpr better)

/-- The base makes the count come first exactly where it bridges, for each smaller choice, the gap
in score to some choice that is as large as possible. -/
theorem countFirst_iff_gaps (finite : admissible.Finite) (base : ℤ) (score : α → ℤ) :
    CountFirst admissible base score ↔
      ∀ chosen ∈ admissible, ¬ Largest admissible chosen → ∃ other, Largest admissible other ∧
        ∑ v ∈ chosen, score v - ∑ v ∈ other, score v < base * (other.card - chosen.card) := by
  simp only [← objective_lt_iff]
  rw [← optimal_largest_iff finite]
  constructor
  · exact fun countFirst chosen optimal => (countFirst chosen optimal).1
  · intro largest chosen optimal
    refine ⟨largest chosen optimal, fun other reaches => ?_⟩
    -- among choices of one size the base is paid equally often
    have same := (largest chosen optimal).card_eq reaches
    have better := optimal.best other reaches.admitted
    rw [objective_eq, objective_eq, same] at better
    exact le_of_add_le_add_left better

/-- A base above a rate bridges the gaps that grow with what is lacking at that rate at most. -/
theorem countFirst_of_gaps_le (finite : admissible.Finite) {rate : ℤ} {score : α → ℤ}
    (gaps : ∀ chosen ∈ admissible, ∃ other, Largest admissible other ∧
      ∑ v ∈ chosen, score v - ∑ v ∈ other, score v ≤ rate * (other.card - chosen.card)) :
    CountFirst admissible (rate + 1) score := by
  rw [countFirst_iff_gaps finite]
  intro chosen admitted short
  obtain ⟨other, largest, gap⟩ := gaps chosen admitted
  refine ⟨other, largest, ?_⟩
  have more : chosen.card < other.card := by
    by_contra least
    apply short
    refine ⟨admitted, fun third member => ?_⟩
    have reach := largest.best third member
    change (third.card : ℤ) ≤ chosen.card
    omega
  have lacking : (0 : ℤ) < other.card - chosen.card := by omega
  linarith

variable [DecidableEq α]

/-- A choice that becomes as large as possible by giving up no more elements than it lacks. -/
def Exchangeable (admissible : Set (Finset α)) (chosen : Finset α) : Prop :=
  ∃ other, Largest admissible other ∧ (chosen \ other).card + chosen.card ≤ other.card

/-- A base above the highest score bridges the gap of whatever is exchangeable. -/
theorem countFirst_of_exchangeable (finite : admissible.Finite) {highest : ℤ} {score : α → ℤ}
    (nonneg : 0 ≤ highest)
    (bounded : ∀ chosen ∈ admissible, ∀ v ∈ chosen, 0 ≤ score v ∧ score v ≤ highest)
    (exchanges : ∀ chosen ∈ admissible, Exchangeable admissible chosen) :
    CountFirst admissible (highest + 1) score := by
  apply countFirst_of_gaps_le finite
  intro chosen admitted
  obtain ⟨other, largest, few⟩ := exchanges chosen admitted
  refine ⟨other, largest, ?_⟩
  have given : ∑ v ∈ chosen \ other, score v ≤ (chosen \ other).card • highest :=
    Finset.sum_le_card_nsmul _ _ _ fun v member =>
      (bounded chosen admitted v (Finset.mem_sdiff.mp member).1).2
  have taken : 0 ≤ ∑ v ∈ other \ chosen, score v := Finset.sum_nonneg fun v member =>
    (bounded other largest.admitted v (Finset.mem_sdiff.mp member).1).1
  have fewer : ((chosen \ other).card : ℤ) ≤ other.card - chosen.card := by omega
  calc ∑ v ∈ chosen, score v - ∑ v ∈ other, score v
      = ∑ v ∈ chosen \ other, score v - ∑ v ∈ other \ chosen, score v :=
        Finset.sum_sdiff_sub_sum_sdiff.symm
    _ ≤ (chosen \ other).card * highest := by
        rw [nsmul_eq_mul] at given
        linarith
    _ ≤ (other.card - chosen.card) * highest := mul_le_mul_of_nonneg_right fewer nonneg
    _ = highest * (other.card - chosen.card) := mul_comm _ _

/-- A choice with the highest score on its own elements, and nothing elsewhere, is exchangeable if
the count comes first with a base that just exceeds the score. -/
theorem exchangeable_of_countFirst (finite : admissible.Finite) {highest : ℤ} {score : α → ℤ}
    {chosen : Finset α} (admitted : chosen ∈ admissible)
    (room : ∀ other ∈ admissible, (other.card : ℤ) ≤ highest)
    (own : ∀ v ∈ chosen, score v = highest)
    (elsewhere : ∀ other ∈ admissible, ∀ v ∈ other \ chosen, score v = 0)
    (countFirst : CountFirst admissible (highest + 1) score) : Exchangeable admissible chosen := by
  by_cases short : Largest admissible chosen
  · exact ⟨chosen, short, by simp⟩
  obtain ⟨other, largest, bridged⟩ :=
    (countFirst_iff_gaps finite _ _).mp countFirst chosen admitted short
  refine ⟨other, largest, ?_⟩
  have given : ∑ v ∈ chosen \ other, score v = (chosen \ other).card * highest := by
    rw [Finset.sum_congr rfl fun v member => own v (Finset.mem_sdiff.mp member).1,
      Finset.sum_const, nsmul_eq_mul]
  have taken : ∑ v ∈ other \ chosen, score v = 0 :=
    Finset.sum_eq_zero (elsewhere other largest.admitted)
  have swap : ∑ v ∈ chosen \ other, score v - ∑ v ∈ other \ chosen, score v =
      ∑ v ∈ chosen, score v - ∑ v ∈ other, score v := Finset.sum_sdiff_sub_sum_sdiff
  have within := room other largest.admitted
  rw [← swap, given, taken] at bridged
  by_contra many
  -- giving up one element more than is lacking costs a whole highest score
  have excess : (other.card : ℤ) - chosen.card + 1 ≤ (chosen \ other).card := by omega
  have nonneg : 0 ≤ highest := (Int.natCast_nonneg _).trans within
  have cost := mul_le_mul_of_nonneg_right excess nonneg
  have start := Int.natCast_nonneg chosen.card
  linarith

/-- A choice out of a list has no more elements of a kind than the list has entries. -/
theorem card_filter_toFinset_le (l : List α) (p : α → Prop) [DecidablePred p] :
    (l.toFinset.filter p).card ≤ (l.filter fun v => decide (p v)).length := by
  have same : l.toFinset.filter p = (l.filter fun v => decide (p v)).toFinset := by
    ext v
    simp
  rw [same]
  exact List.toFinset_card_le _

omit [DecidableEq α] in
/-- Each value of a field occurs once at most exactly where the field tells elements apart. -/
theorem card_filter_le_one_iff {β : Type*} [DecidableEq β] (field : α → β) (chosen : Finset α) :
    (∀ value, (chosen.filter fun v => field v = value).card ≤ 1) ↔ Set.InjOn field chosen := by
  constructor
  · intro once a first b second same
    exact Finset.card_le_one.mp (once (field b)) a (Finset.mem_filter.mpr ⟨first, same⟩) b
      (Finset.mem_filter.mpr ⟨second, rfl⟩)
  · intro injective value
    apply Finset.card_le_one.mpr
    intro a first b second
    obtain ⟨inA, atA⟩ := Finset.mem_filter.mp first
    obtain ⟨inB, atB⟩ := Finset.mem_filter.mp second
    exact injective inA inB (atA.trans atB.symm)

end FlOp.Library
