import FlOp.Library.CountFirst

/-! # Matchings

Edges between left and right ends, of which each end is used once at most. Where every left end is
joined to every right end, a matching grows until one side is used up.
-/

namespace FlOp.Library

variable {α L R : Type*}

/-- A choice of edges that uses each end once at most. -/
structure Matching (edges : Finset α) (left : α → L) (right : α → R) (chosen : Finset α) :
    Prop where
  within : chosen ⊆ edges
  leftOnce : Set.InjOn left chosen
  rightOnce : Set.InjOn right chosen

/-- The edges lead from these left ends to these right ends and join each to each. -/
structure Joins (edges : Finset α) (left : α → L) (right : α → R) (lefts : Finset L)
    (rights : Finset R) : Prop where
  left_mem : ∀ edge ∈ edges, left edge ∈ lefts
  right_mem : ∀ edge ∈ edges, right edge ∈ rights
  joined : ∀ l ∈ lefts, ∀ r ∈ rights, ∃ edge ∈ edges, left edge = l ∧ right edge = r

variable {edges : Finset α} {left : α → L} {right : α → R}

theorem Matching.empty : Matching edges left right ∅ :=
  ⟨Finset.empty_subset _, by simp, by simp⟩

theorem matchings_finite : {chosen | Matching edges left right chosen}.Finite :=
  finite_of_subset fun _ matching => matching.within

/-- Where no edge is worth anything, choosing none is optimal. -/
theorem optimal_empty_of_nonpos {base : ℤ} {score : α → ℤ}
    (worthless : ∀ edge ∈ edges, base + score edge ≤ 0) :
    Optimal {chosen | Matching edges left right chosen} (objective base score) ∅ := by
  refine ⟨Matching.empty, fun other admitted => ?_⟩
  rw [objective, objective, Finset.sum_empty]
  exact Finset.sum_nonpos fun edge member =>
    worthless edge (Matching.within admitted member)

variable [DecidableEq L] [DecidableEq R] {lefts : Finset L} {rights : Finset R} {chosen : Finset α}

theorem Matching.card_le (matching : Matching edges left right chosen)
    (joins : Joins edges left right lefts rights) : chosen.card ≤ min lefts.card rights.card := by
  apply le_min
  · rw [← Finset.card_image_of_injOn matching.leftOnce]
    apply Finset.card_le_card
    exact Finset.image_subset_iff.mpr fun edge member =>
      joins.left_mem edge (matching.within member)
  · rw [← Finset.card_image_of_injOn matching.rightOnce]
    apply Finset.card_le_card
    exact Finset.image_subset_iff.mpr fun edge member =>
      joins.right_mem edge (matching.within member)

variable [DecidableEq α]

/-- A matching that leaves an end free on either side can be extended. -/
theorem Matching.extend (matching : Matching edges left right chosen)
    (joins : Joins edges left right lefts rights)
    (short : chosen.card < min lefts.card rights.card) :
    ∃ edge ∈ edges, edge ∉ chosen ∧ Matching edges left right (insert edge chosen) := by
  obtain ⟨fewLefts, fewRights⟩ := lt_min_iff.mp short
  obtain ⟨l, isLeft, freeLeft⟩ := Finset.exists_mem_notMem_of_card_lt_card
    (Finset.card_image_le.trans_lt fewLefts : (chosen.image left).card < lefts.card)
  obtain ⟨r, isRight, freeRight⟩ := Finset.exists_mem_notMem_of_card_lt_card
    (Finset.card_image_le.trans_lt fewRights : (chosen.image right).card < rights.card)
  obtain ⟨edge, listed, rfl, rfl⟩ := joins.joined l isLeft r isRight
  have fresh : edge ∉ chosen := fun member => freeLeft (Finset.mem_image_of_mem left member)
  refine ⟨edge, listed, fresh, Finset.insert_subset listed matching.within, ?_, ?_⟩
  · rw [Finset.coe_insert, Set.injOn_insert (by simpa using fresh)]
    exact ⟨matching.leftOnce, by simpa using freeLeft⟩
  · rw [Finset.coe_insert, Set.injOn_insert (by simpa using fresh)]
    exact ⟨matching.rightOnce, by simpa using freeRight⟩

/-- The largest matchings use up the smaller side. -/
theorem largest_matching_iff (joins : Joins edges left right lefts rights) :
    Largest {chosen | Matching edges left right chosen} chosen ↔
      Matching edges left right chosen ∧ chosen.card = min lefts.card rights.card := by
  constructor
  · intro largest
    refine ⟨largest.admitted, ?_⟩
    by_contra differ
    have short := lt_of_le_of_ne (largest.admitted.card_le joins) differ
    obtain ⟨edge, -, fresh, longer⟩ := largest.admitted.extend joins short
    have most := largest.best _ longer
    rw [Finset.card_insert_of_notMem fresh] at most
    omega
  · rintro ⟨matching, full⟩
    refine ⟨matching, fun other admitted => ?_⟩
    have within := Matching.card_le admitted joins
    change (other.card : ℤ) ≤ chosen.card
    omega

/-- Where every edge is worth something, every optimum uses up the smaller side. -/
theorem largest_of_optimal_of_pos (joins : Joins edges left right lefts rights) {base : ℤ}
    {score : α → ℤ} (positive : ∀ edge ∈ edges, 0 < base + score edge)
    (optimal : Optimal {chosen | Matching edges left right chosen} (objective base score) chosen) :
    Largest {chosen | Matching edges left right chosen} chosen := by
  apply (largest_matching_iff joins).mpr
  refine ⟨optimal.admitted, ?_⟩
  by_contra differ
  have short := lt_of_le_of_ne (optimal.admitted.card_le joins) differ
  obtain ⟨edge, listed, fresh, longer⟩ := optimal.admitted.extend joins short
  have most := optimal.best _ longer
  have gain := positive edge listed
  rw [objective, Finset.sum_insert fresh, ← objective] at most
  linarith

end FlOp.Library
