import FlOp.Library.Ordering
import Mathlib.Data.Prod.Lex

/-! # Blocked and allowed time

Sets of whole seconds as lists of closed intervals. A task is kept out of the restriction windows
of its site and out of the weather it cannot be done in.
-/

namespace FlOp.Solver

open Library

/-- A closed interval of seconds. -/
abbrev Interval := ℤ × ℤ

/-- Some interval of the list holds the second. -/
def InIntervals (intervals : List Interval) (t : ℤ) : Prop :=
  ∃ interval ∈ intervals, interval.1 ≤ t ∧ t ≤ interval.2

instance (intervals : List Interval) (t : ℤ) : Decidable (InIntervals intervals t) :=
  inferInstanceAs (Decidable (∃ interval ∈ intervals, _))

/-- Merge an interval with the later ones of a sorted list. -/
def mergeSortedIntervals : Interval → List Interval → List Interval
  | current, [] => [current]
  | current, next :: rest =>
    if next.1 ≤ current.2 + 1 then mergeSortedIntervals (current.1, max current.2 next.2) rest
    else current :: mergeSortedIntervals next rest

/-- Merge overlapping or adjacent intervals; intervals that end before they start are dropped. -/
def mergeIntervals (intervals : List Interval) : List Interval :=
  match sortBy toLex (intervals.filter fun interval => interval.1 ≤ interval.2) with
  | [] => []
  | first :: rest => mergeSortedIntervals first rest

/-- What a blocked interval leaves of an allowed one. -/
def cutInterval (blocked allowed : Interval) : List Interval :=
  if blocked.2 < allowed.1 ∨ allowed.2 < blocked.1 then [allowed]
  else
    (if allowed.1 < blocked.1 then [(allowed.1, blocked.1 - 1)] else []) ++
      if blocked.2 < allowed.2 then [(blocked.2 + 1, allowed.2)] else []

/-- Remove every blocked interval from the allowed ones. -/
def subtractIntervals (allowed blocked : List Interval) : List Interval :=
  (mergeIntervals blocked).foldl (fun result block => result.flatMap (cutInterval block))
    (mergeIntervals allowed)

/-- Declared windows as intervals within bounds; a window without an end stays open. -/
def epochIntervals (windows : List (ℤ × Option ℤ)) (clampStart clampEnd : ℤ) : List Interval :=
  (windows.map fun window =>
    (max clampStart window.1, window.2.elim clampEnd (min clampEnd))).filter fun interval =>
      interval.1 ≤ interval.2

@[simp] theorem inIntervals_nil (t : ℤ) : ¬ InIntervals [] t := by
  simp [InIntervals]

@[simp] theorem inIntervals_cons (interval : Interval) (rest : List Interval) (t : ℤ) :
    InIntervals (interval :: rest) t ↔
      (interval.1 ≤ t ∧ t ≤ interval.2) ∨ InIntervals rest t := by
  simp [InIntervals]

@[simp] theorem inIntervals_append (left right : List Interval) (t : ℤ) :
    InIntervals (left ++ right) t ↔ InIntervals left t ∨ InIntervals right t := by
  simp only [InIntervals, List.mem_append, or_and_right, exists_or]

theorem inIntervals_mergeSorted {current : Interval} {rest : List Interval}
    (sorted : (current :: rest).Pairwise fun a b => a.1 ≤ b.1)
    (nonempty : ∀ interval ∈ current :: rest, interval.1 ≤ interval.2) (t : ℤ) :
    InIntervals (mergeSortedIntervals current rest) t ↔ InIntervals (current :: rest) t := by
  induction rest generalizing current with
  | nil => rfl
  | cons next rest ih =>
    rw [List.pairwise_cons] at sorted
    obtain ⟨first, later⟩ := sorted
    have ahead := first next List.mem_cons_self
    have currentFits := nonempty current List.mem_cons_self
    have nextFits := nonempty next (List.mem_cons_of_mem _ List.mem_cons_self)
    unfold mergeSortedIntervals
    split
    · next touch =>
      have extendedSorted : ((current.1, max current.2 next.2) :: rest).Pairwise
          fun a b => a.1 ≤ b.1 :=
        List.pairwise_cons.mpr
          ⟨fun other member => first other (List.mem_cons_of_mem _ member), later.of_cons⟩
      have extendedFits : ∀ interval ∈ (current.1, max current.2 next.2) :: rest,
          interval.1 ≤ interval.2 := by
        intro interval member
        rcases List.mem_cons.mp member with rfl | inRest
        · exact currentFits.trans (le_max_left _ _)
        · exact nonempty interval (List.mem_cons_of_mem _ (List.mem_cons_of_mem _ inRest))
      rw [ih extendedSorted extendedFits, inIntervals_cons, inIntervals_cons, inIntervals_cons,
        ← or_assoc]
      apply or_congr_left
      dsimp only
      omega
    · have laterFits : ∀ interval ∈ next :: rest, interval.1 ≤ interval.2 :=
        fun interval member => nonempty interval (List.mem_cons_of_mem _ member)
      rw [inIntervals_cons, ih later laterFits, inIntervals_cons current]

private theorem pairwise_starts (intervals : List Interval) :
    (sortBy toLex intervals).Pairwise fun a b : Interval => a.1 ≤ b.1 :=
  (pairwise_sortBy (toLex : Interval → Lex Interval) intervals).imp fun le =>
    (Prod.Lex.le_iff.mp le).elim le_of_lt fun eq => eq.1.le

private theorem fits_of_mem_sorted (intervals : List Interval) :
    ∀ interval ∈ sortBy toLex (intervals.filter fun interval => interval.1 ≤ interval.2),
      interval.1 ≤ interval.2 := by
  intro interval member
  exact of_decide_eq_true (List.mem_filter.mp ((mem_sortBy _ _).mp member)).2

/-- Merging keeps the seconds. -/
theorem inIntervals_mergeIntervals (intervals : List Interval) (t : ℤ) :
    InIntervals (mergeIntervals intervals) t ↔ InIntervals intervals t := by
  let kept := intervals.filter fun interval => interval.1 ≤ interval.2
  have sorted := pairwise_starts kept
  have fits := fits_of_mem_sorted intervals
  have same : InIntervals intervals t ↔ InIntervals (sortBy toLex kept) t := by
    simp only [InIntervals, mem_sortBy, kept, List.mem_filter, decide_eq_true_eq]
    constructor
    · rintro ⟨interval, member, after, before⟩
      exact ⟨interval, ⟨member, after.trans before⟩, after, before⟩
    · rintro ⟨interval, ⟨member, -⟩, inside⟩
      exact ⟨interval, member, inside⟩
  rw [same]
  change InIntervals (match sortBy toLex kept with
    | [] => []
    | first :: rest => mergeSortedIntervals first rest) t ↔ _
  split
  · next empty => rw [empty]
  · next first rest split =>
    rw [split] at sorted fits ⊢
    exact inIntervals_mergeSorted sorted fits t

theorem fits_of_mem_mergeSorted {current : Interval} {rest : List Interval}
    (nonempty : ∀ interval ∈ current :: rest, interval.1 ≤ interval.2) :
    ∀ interval ∈ mergeSortedIntervals current rest, interval.1 ≤ interval.2 := by
  induction rest generalizing current with
  | nil => exact nonempty
  | cons next rest ih =>
    have currentFits := nonempty current List.mem_cons_self
    have laterFits : ∀ interval ∈ next :: rest, interval.1 ≤ interval.2 :=
      fun interval member => nonempty interval (List.mem_cons_of_mem _ member)
    unfold mergeSortedIntervals
    split
    · apply ih
      intro interval member
      rcases List.mem_cons.mp member with rfl | inRest
      · exact currentFits.trans (le_max_left _ _)
      · exact laterFits interval (List.mem_cons_of_mem _ inRest)
    · intro interval member
      rcases List.mem_cons.mp member with rfl | inRest
      · exact currentFits
      · exact ih laterFits interval inRest

/-- No merged interval ends before it starts. -/
theorem fits_of_mem_mergeIntervals (intervals : List Interval) :
    ∀ interval ∈ mergeIntervals intervals, interval.1 ≤ interval.2 := by
  unfold mergeIntervals
  split
  · simp
  · next first rest split =>
    apply fits_of_mem_mergeSorted
    rw [← split]
    exact fits_of_mem_sorted intervals

theorem inIntervals_cutInterval {blocked : Interval} (fits : blocked.1 ≤ blocked.2)
    (allowed : Interval) (t : ℤ) : InIntervals (cutInterval blocked allowed) t ↔
      (allowed.1 ≤ t ∧ t ≤ allowed.2) ∧ ¬ (blocked.1 ≤ t ∧ t ≤ blocked.2) := by
  unfold cutInterval
  split_ifs
  all_goals simp only [inIntervals_append, inIntervals_cons, inIntervals_nil, or_false, false_or,
    false_iff]
  all_goals omega

/-- What is left is what was allowed and is not blocked. -/
theorem inIntervals_subtractIntervals (allowed blocked : List Interval) (t : ℤ) :
    InIntervals (subtractIntervals allowed blocked) t ↔
      InIntervals allowed t ∧ ¬ InIntervals blocked t := by
  have cuts : ∀ blocks result : List Interval, (∀ block ∈ blocks, block.1 ≤ block.2) →
      (InIntervals (blocks.foldl (fun result block => result.flatMap (cutInterval block)) result)
        t ↔ InIntervals result t ∧ ¬ InIntervals blocks t) := by
    intro blocks
    induction blocks with
    | nil => simp
    | cons block rest ih =>
      intro result fits
      have cut : InIntervals (result.flatMap (cutInterval block)) t ↔
          InIntervals result t ∧ ¬ (block.1 ≤ t ∧ t ≤ block.2) := by
        induction result with
        | nil => simp
        | cons first later ihResult =>
          rw [List.flatMap_cons, inIntervals_append, ihResult, inIntervals_cons,
            inIntervals_cutInterval (fits block List.mem_cons_self)]
          tauto
      rw [List.foldl_cons, ih _ fun other member => fits other (List.mem_cons_of_mem _ member),
        cut, inIntervals_cons]
      tauto
  rw [subtractIntervals, cuts _ _ (fits_of_mem_mergeIntervals blocked),
    inIntervals_mergeIntervals, inIntervals_mergeIntervals]

/-! ## Normal form

A set of seconds has one list of sorted intervals with a gap between each two. -/

/-- Sorted intervals with a gap between each two. -/
structure NormalForm (intervals : List Interval) : Prop where
  fits : ∀ interval ∈ intervals, interval.1 ≤ interval.2
  apart : intervals.Pairwise fun a b => a.2 + 1 < b.1

private theorem le_of_mem_mergeSorted {current : Interval} {rest : List Interval}
    (sorted : (current :: rest).Pairwise fun a b => a.1 ≤ b.1) :
    ∀ interval ∈ mergeSortedIntervals current rest, current.1 ≤ interval.1 := by
  induction rest generalizing current with
  | nil =>
    intro interval member
    rw [List.mem_singleton.mp member]
  | cons next rest ih =>
    obtain ⟨first, later⟩ := List.pairwise_cons.mp sorted
    intro interval member
    unfold mergeSortedIntervals at member
    split at member
    · have extended : ((current.1, max current.2 next.2) :: rest).Pairwise
          fun a b => a.1 ≤ b.1 :=
        List.pairwise_cons.mpr
          ⟨fun other inRest => first other (List.mem_cons_of_mem _ inRest), later.of_cons⟩
      exact ih extended interval member
    · rcases List.mem_cons.mp member with rfl | inRest
      · exact le_rfl
      · exact (first next List.mem_cons_self).trans (ih later interval inRest)

private theorem apart_mergeSorted {current : Interval} {rest : List Interval}
    (sorted : (current :: rest).Pairwise fun a b => a.1 ≤ b.1) :
    (mergeSortedIntervals current rest).Pairwise fun a b => a.2 + 1 < b.1 := by
  induction rest generalizing current with
  | nil => exact List.pairwise_singleton _ _
  | cons next rest ih =>
    obtain ⟨first, later⟩ := List.pairwise_cons.mp sorted
    unfold mergeSortedIntervals
    split
    · apply ih
      apply List.pairwise_cons.mpr
      exact ⟨fun other inRest => first other (List.mem_cons_of_mem _ inRest), later.of_cons⟩
    · next gap =>
      apply List.pairwise_cons.mpr
      refine ⟨fun other member => ?_, ih later⟩
      have ahead := le_of_mem_mergeSorted later other member
      omega

/-- Merged intervals are in normal form. -/
theorem normalForm_mergeIntervals (intervals : List Interval) :
    NormalForm (mergeIntervals intervals) := by
  refine ⟨fits_of_mem_mergeIntervals intervals, ?_⟩
  have sorted := pairwise_starts (intervals.filter fun interval => interval.1 ≤ interval.2)
  unfold mergeIntervals
  split
  · exact List.Pairwise.nil
  · next first rest split =>
    rw [split] at sorted
    exact apart_mergeSorted sorted

private theorem inside_of_mem_cutInterval {blocked allowed piece : Interval}
    (member : piece ∈ cutInterval blocked allowed) :
    allowed.1 ≤ piece.1 ∧ piece.2 ≤ allowed.2 ∧
      (allowed.1 ≤ allowed.2 → piece.1 ≤ piece.2) := by
  unfold cutInterval at member
  split_ifs at member
  all_goals simp only [List.mem_append, List.mem_singleton, List.not_mem_nil, or_false,
    false_or] at member
  all_goals rcases member with rfl | rfl
  all_goals omega

private theorem apart_cutInterval {blocked : Interval} (fits : blocked.1 ≤ blocked.2)
    (allowed : Interval) : (cutInterval blocked allowed).Pairwise fun a b => a.2 + 1 < b.1 := by
  unfold cutInterval
  split_ifs
  all_goals simp
  omega

/-- Cutting a block out keeps the normal form. -/
private theorem NormalForm.cut {result : List Interval} (normal : NormalForm result)
    {block : Interval} (fits : block.1 ≤ block.2) :
    NormalForm (result.flatMap (cutInterval block)) := by
  constructor
  · intro piece member
    obtain ⟨allowed, inResult, cut⟩ := List.mem_flatMap.mp member
    exact (inside_of_mem_cutInterval cut).2.2 (normal.fits allowed inResult)
  · apply List.pairwise_flatMap.mpr
    refine ⟨fun allowed _ => apart_cutInterval fits allowed, normal.apart.imp ?_⟩
    intro earlier later gap a first b second
    have before := inside_of_mem_cutInterval first
    have after := inside_of_mem_cutInterval second
    omega

/-- What subtraction leaves is in normal form. -/
theorem normalForm_subtractIntervals (allowed blocked : List Interval) :
    NormalForm (subtractIntervals allowed blocked) := by
  have cuts : ∀ blocks result : List Interval, (∀ block ∈ blocks, block.1 ≤ block.2) →
      NormalForm result →
      NormalForm (blocks.foldl (fun result block => result.flatMap (cutInterval block)) result) := by
    intro blocks
    induction blocks with
    | nil => exact fun _ _ normal => normal
    | cons block rest ih =>
      intro result fits normal
      exact ih _ (fun other member => fits other (List.mem_cons_of_mem _ member))
        (normal.cut (fits block List.mem_cons_self))
  exact cuts _ _ (fits_of_mem_mergeIntervals blocked) (normalForm_mergeIntervals allowed)

/-- A normal form without seconds is empty. -/
theorem NormalForm.eq_nil_iff {intervals : List Interval} (normal : NormalForm intervals) :
    intervals = [] ↔ ∀ t, ¬ InIntervals intervals t := by
  constructor
  · rintro rfl t
    exact inIntervals_nil t
  · intro empty
    apply List.eq_nil_iff_forall_not_mem.mpr
    intro interval member
    exact empty interval.1 ⟨interval, member, le_rfl, normal.fits interval member⟩

end FlOp.Solver
