import FlOp.Core.Constants
import FlOp.Library.Dict
import FlOp.Solver.Restrictions

/-! # Held windows

A vehicle, an implement or an operator can be held by an assignment made before. Held windows are
clipped to a horizon and merged before anything is kept out of them; what falls between them is what
the held one has left. Merging takes the ends of a window as part of it, so a single second between
two windows is closed.
-/

namespace FlOp.Solver

open FlOp.Core Library

/-- Clip held windows to the horizon as offsets from the planning origin, and merge them. -/
def heldWindowOffsets (rawWindows : List Interval) (nowEpoch : ℤ) : List Interval :=
  mergeIntervals ((rawWindows.map fun window =>
    (max 0 (window.1 - nowEpoch), min (window.2 - nowEpoch) routingHorizonS)).filter fun offsets =>
      ¬ (offsets.2 ≤ 0 ∨ routingHorizonS ≤ offsets.1 ∨ offsets.2 ≤ offsets.1))

/-- Held windows of a run with the intervals fed forward. -/
def mergeHeldWindows (base extra : Dict String (List Interval)) : Dict String (List Interval) :=
  if extra.entries = [] then base
  else extra.entries.foldl (fun merged entry =>
    merged.set entry.1 (merged.getD entry.1 [] ++ entry.2)) base

/-- Execution from one offset to another ends before the interval or begins at its end. -/
def Clears (start stop : ℤ) (interval : Interval) : Prop := stop ≤ interval.1 ∨ interval.2 ≤ start

instance decidableClears (start stop : ℤ) (interval : Interval) :
    Decidable (Clears start stop interval) :=
  inferInstanceAs (Decidable (_ ∨ _))

section Merged

variable {intervals : List Interval} {start stop : ℤ}

/-- Two intervals of a normal form have a gap between them. -/
theorem apart_or {first second : Interval} (form : NormalForm intervals)
    (listed : first ∈ intervals) (listedToo : second ∈ intervals) (differ : first ≠ second) :
    first.2 + 1 < second.1 ∨ second.2 + 1 < first.1 :=
  List.Pairwise.forall_of_forall_of_flip (R := fun a b : Interval =>
    a ≠ b → a.2 + 1 < b.1 ∨ b.2 + 1 < a.1) (fun _ _ differ => absurd rfl differ)
    (form.apart.imp fun apart _ => .inl apart) (form.apart.imp fun apart _ => .inr apart)
    listed listedToo differ

/-- An interval lies within one merged interval. -/
theorem exists_merged_around {interval : Interval} (member : interval ∈ intervals)
    (fits : interval.1 ≤ interval.2) :
    ∃ merged ∈ mergeIntervals intervals, merged.1 ≤ interval.1 ∧ interval.2 ≤ merged.2 := by
  have covered : ∀ t, interval.1 ≤ t → t ≤ interval.2 → InIntervals (mergeIntervals intervals) t :=
    fun t low high => (inIntervals_mergeIntervals intervals t).mpr ⟨interval, member, low, high⟩
  obtain ⟨merged, listed, low, high⟩ := covered interval.1 le_rfl fits
  refine ⟨merged, listed, low, ?_⟩
  by_contra short
  obtain ⟨next, listedNext, lowNext, highNext⟩ := covered (merged.2 + 1) (by omega) (by omega)
  by_cases same : merged = next
  · subst same
    omega
  · rcases apart_or (normalForm_mergeIntervals intervals) listed listedNext same with
      apart | apart <;> omega

/-- Whoever stays out of the merged intervals stays out of each. -/
theorem clears_of_merged (clear : ∀ merged ∈ mergeIntervals intervals, Clears start stop merged)
    {interval : Interval} (member : interval ∈ intervals) (fits : interval.1 ≤ interval.2) :
    Clears start stop interval := by
  obtain ⟨merged, listed, low, high⟩ := exists_merged_around member fits
  exact (clear merged listed).imp (le_trans · low) (le_trans high ·)

/-- Execution fills the one second between two intervals. -/
def FillsGap (intervals : List Interval) (start stop : ℤ) : Prop :=
  stop = start + 1 ∧ (∃ interval ∈ intervals, interval.2 = start) ∧
    ∃ interval ∈ intervals, interval.1 = stop

/-- Two neighbouring seconds that are covered lie in one merged interval. -/
theorem exists_merged_of_neighbours {t : ℤ} (covered : InIntervals intervals t)
    (coveredNext : InIntervals intervals (t + 1)) :
    ∃ merged ∈ mergeIntervals intervals, merged.1 ≤ t ∧ t + 1 ≤ merged.2 := by
  obtain ⟨merged, listed, low, high⟩ := (inIntervals_mergeIntervals intervals t).mpr covered
  obtain ⟨next, listedNext, lowNext, highNext⟩ :=
    (inIntervals_mergeIntervals intervals (t + 1)).mpr coveredNext
  by_cases same : merged = next
  · exact ⟨merged, listed, low, same ▸ highNext⟩
  · rcases apart_or (normalForm_mergeIntervals intervals) listed listedNext same with
      apart | apart <;> omega

/-- A merged interval holds every neighbour pair that meets it. -/
theorem holds_neighbours {merged : Interval} (listed : merged ∈ mergeIntervals intervals) {t : ℤ}
    (covered : InIntervals intervals t) (coveredNext : InIntervals intervals (t + 1))
    (meets : (merged.1 ≤ t ∧ t ≤ merged.2) ∨ (merged.1 ≤ t + 1 ∧ t + 1 ≤ merged.2)) :
    merged.1 ≤ t ∧ t + 1 ≤ merged.2 := by
  obtain ⟨other, listedOther, low, high⟩ := exists_merged_of_neighbours covered coveredNext
  by_cases same : merged = other
  · subst same
    exact ⟨low, high⟩
  · rcases apart_or (normalForm_mergeIntervals intervals) listed listedOther same with
      apart | apart <;> omega

/-- Intervals that last are merged into intervals that last. -/
theorem lasts_of_mem_merged (lasts : ∀ interval ∈ intervals, interval.1 < interval.2)
    {merged : Interval} (listed : merged ∈ mergeIntervals intervals) : merged.1 < merged.2 := by
  have fits := fits_of_mem_mergeIntervals intervals merged listed
  obtain ⟨interval, member, low, high⟩ :=
    (inIntervals_mergeIntervals intervals merged.1).mp ⟨merged, listed, le_rfl, fits⟩
  have long := lasts interval member
  by_cases room : merged.1 + 1 ≤ interval.2
  · have inside := holds_neighbours listed (t := merged.1) ⟨interval, member, low, high⟩
      ⟨interval, member, by omega, room⟩ (.inl ⟨le_rfl, fits⟩)
    omega
  · have inside := holds_neighbours listed (t := merged.1 - 1)
      ⟨interval, member, by omega, by omega⟩ ⟨interval, member, by omega, by omega⟩
      (.inr ⟨by omega, by omega⟩)
    omega

/-- Staying out of the merged intervals is staying out of each, and not filling one second between
two of them. -/
theorem clears_merged_iff (lasts : ∀ interval ∈ intervals, interval.1 < interval.2)
    (runs : start < stop) :
    (∀ merged ∈ mergeIntervals intervals, Clears start stop merged) ↔
      (∀ interval ∈ intervals, Clears start stop interval) ∧ ¬ FillsGap intervals start stop := by
  constructor
  · intro clear
    refine ⟨fun interval member => clears_of_merged clear member (lasts interval member).le, ?_⟩
    rintro ⟨second, ⟨left, memberLeft, ends⟩, right, memberRight, begins⟩
    have lastsLeft := lasts left memberLeft
    have lastsRight := lasts right memberRight
    obtain ⟨merged, listed, low, high⟩ := exists_merged_of_neighbours (t := start)
      ⟨left, memberLeft, by omega, by omega⟩ ⟨right, memberRight, by omega, by omega⟩
    rcases clear merged listed with early | late <;> omega
  · rintro ⟨clear, gap⟩ merged listed
    by_contra hits
    obtain ⟨before, after⟩ := not_or.mp hits
    have long := lasts_of_mem_merged lasts listed
    -- Both ends of the first common second are covered, and no interval covers it.
    have covered : ∀ t, merged.1 ≤ t → t ≤ merged.2 → InIntervals intervals t :=
      fun t low high => (inIntervals_mergeIntervals intervals t).mp ⟨merged, listed, low, high⟩
    obtain ⟨left, memberLeft, lowLeft, highLeft⟩ :=
      covered (max start merged.1) (le_max_right _ _) (by omega)
    obtain ⟨right, memberRight, lowRight, highRight⟩ :=
      covered (max start merged.1 + 1) (by omega) (by omega)
    have lastsLeft := lasts left memberLeft
    have lastsRight := lasts right memberRight
    apply gap
    refine ⟨?_, ⟨left, memberLeft, ?_⟩, right, memberRight, ?_⟩ <;>
      rcases clear left memberLeft with early | late <;>
      rcases clear right memberRight with earlyRight | lateRight <;> omega

/-- Clip intervals to a horizon; what has no second left in it is dropped. -/
def clipIntervals (low high : ℤ) (intervals : List Interval) : List Interval :=
  (intervals.map fun window => (max low window.1, min high window.2)).filter fun clipped =>
    clipped.1 < clipped.2

/-- Execution within the horizon stays out of the clipped and merged windows exactly if it stays out
of every window and does not fill one second between two of them. -/
theorem clears_clipped_iff {low high : ℤ} (within : low ≤ start) (runs : start < stop)
    (ends : stop ≤ high) :
    (∀ merged ∈ mergeIntervals (clipIntervals low high intervals), Clears start stop merged) ↔
      (∀ window ∈ intervals, window.1 < window.2 → Clears start stop window) ∧
      ¬ (low < start ∧ stop < high ∧
        FillsGap (intervals.filter fun window => window.1 < window.2) start stop) := by
  have member : ∀ clipped, clipped ∈ clipIntervals low high intervals ↔
      clipped.1 < clipped.2 ∧ ∃ window ∈ intervals,
        (max low window.1, min high window.2) = clipped := by
    intro clipped
    rw [clipIntervals, List.mem_filter, List.mem_map, decide_eq_true_iff, and_comm]
  rw [clears_merged_iff (fun clipped listed => ((member clipped).mp listed).1) runs]
  apply and_congr
  · constructor
    · intro clear window listed lasts
      by_contra hits
      obtain ⟨before, after⟩ := not_or.mp hits
      have kept := clear _ ((member _).mpr ⟨by dsimp only; omega, window, listed, rfl⟩)
      rcases kept with early | late <;> dsimp only at * <;> omega
    · intro clear clipped listed
      obtain ⟨lasts, window, inside, rfl⟩ := (member clipped).mp listed
      rcases clear window inside (by dsimp only at lasts; omega) with early | late
      · exact .inl (by dsimp only at *; omega)
      · exact .inr (by dsimp only at *; omega)
  · apply not_congr
    simp only [FillsGap, member, List.mem_filter, decide_eq_true_eq]
    constructor
    · rintro ⟨second, ⟨_, ⟨lastsLeft, left, memberLeft, rfl⟩, endsLeft⟩,
        _, ⟨lastsRight, right, memberRight, rfl⟩, beginsRight⟩
      dsimp only at *
      exact ⟨by omega, by omega, by omega, ⟨left, ⟨memberLeft, by omega⟩, by omega⟩,
        right, ⟨memberRight, by omega⟩, by omega⟩
    · rintro ⟨later, earlier, second, ⟨left, ⟨memberLeft, lastsLeft⟩, endsLeft⟩,
        right, ⟨memberRight, lastsRight⟩, beginsRight⟩
      exact ⟨by omega, ⟨_, ⟨by dsimp only; omega, left, memberLeft, rfl⟩, by dsimp only; omega⟩,
        _, ⟨by dsimp only; omega, right, memberRight, rfl⟩, by dsimp only; omega⟩

/-- Offsets are the clipped windows, counted from the planning origin. -/
theorem heldWindowOffsets_eq (nowEpoch : ℤ) :
    heldWindowOffsets intervals nowEpoch = mergeIntervals (clipIntervals 0 routingHorizonS
      (intervals.map fun window => (window.1 - nowEpoch, window.2 - nowEpoch))) := by
  have clipped : (intervals.map fun window =>
        (max 0 (window.1 - nowEpoch), min (window.2 - nowEpoch) routingHorizonS)) =
      (intervals.map fun window => (window.1 - nowEpoch, window.2 - nowEpoch)).map fun window =>
        (max 0 window.1, min routingHorizonS window.2) := by
    rw [List.map_map]
    exact List.map_congr_left fun window _ => Prod.ext rfl (min_comm _ _)
  rw [heldWindowOffsets, clipIntervals, clipped]
  congr 1
  refine List.filter_congr fun offsets listed => ?_
  obtain ⟨window, -, rfl⟩ := List.mem_map.mp listed
  rw [decide_eq_decide]
  dsimp only
  omega

/-- Execution within the horizon that stays out of the offsets stays out of the held windows. -/
theorem clears_of_offsets {nowEpoch : ℤ} (clear : ∀ offsets ∈ heldWindowOffsets intervals nowEpoch,
    Clears start stop offsets) (within : 0 ≤ start) (runs : start < stop)
    (ends : stop ≤ routingHorizonS) {window : Interval} (member : window ∈ intervals)
    (lasts : window.1 < window.2) : Clears (nowEpoch + start) (nowEpoch + stop) window := by
  rw [heldWindowOffsets_eq] at clear
  have shifted := ((clears_clipped_iff within runs ends).mp clear).1 _
    (List.mem_map.mpr ⟨window, member, rfl⟩) (by dsimp only; omega)
  rcases shifted with early | late
  · exact .inl (by dsimp only at early; omega)
  · exact .inr (by dsimp only at late; omega)

/-- Execution within the horizon stays out of the offsets exactly if it stays out of every held
window and does not fill one second between two of them. -/
theorem heldWindowOffsets_clear_iff (nowEpoch : ℤ) (within : 0 ≤ start) (runs : start < stop)
    (ends : stop ≤ routingHorizonS) :
    (∀ offsets ∈ heldWindowOffsets intervals nowEpoch, Clears start stop offsets) ↔
      (∀ window ∈ intervals, window.1 < window.2 →
        Clears (nowEpoch + start) (nowEpoch + stop) window) ∧
      ¬ (0 < start ∧ stop < routingHorizonS ∧
        FillsGap (intervals.filter fun window => window.1 < window.2)
          (nowEpoch + start) (nowEpoch + stop)) := by
  have shifted : ∀ window : Interval,
      Clears start stop (window.1 - nowEpoch, window.2 - nowEpoch) ↔
        Clears (nowEpoch + start) (nowEpoch + stop) window := by
    intro window
    simp only [Clears]
    omega
  rw [heldWindowOffsets_eq, clears_clipped_iff within runs ends]
  apply and_congr
  · simp only [List.forall_mem_map, shifted, sub_lt_sub_iff_right]
  · refine not_congr (and_congr_right fun _ => and_congr_right fun _ => ?_)
    simp only [FillsGap, List.mem_filter, List.mem_map, decide_eq_true_eq]
    constructor
    · rintro ⟨second, ⟨_, ⟨⟨left, listed, rfl⟩, lasts⟩, ends⟩,
        _, ⟨⟨right, listedToo, rfl⟩, lastsToo⟩, begins⟩
      dsimp only at *
      exact ⟨by omega, ⟨left, ⟨listed, by omega⟩, by omega⟩, right, ⟨listedToo, by omega⟩, by omega⟩
    · rintro ⟨second, ⟨left, ⟨listed, lasts⟩, ends⟩, right, ⟨listedToo, lastsToo⟩, begins⟩
      exact ⟨by omega, ⟨_, ⟨⟨left, listed, rfl⟩, by dsimp only; omega⟩, by dsimp only; omega⟩,
        _, ⟨⟨right, listedToo, rfl⟩, by dsimp only; omega⟩, by dsimp only; omega⟩

/-- The second between two windows is closed, though neither window holds it. -/
theorem heldWindowOffsets_clear_iff_between :
    (∀ offsets ∈ heldWindowOffsets [(0, 3600), (3601, 7200)] 0, Clears 3600 3601 offsets) ↔
      (∀ window ∈ ([(0, 3600), (3601, 7200)] : List Interval), window.1 < window.2 →
        Clears (0 + 3600) (0 + 3601) window) ∧
      ¬ ((0 : ℤ) < 3600 ∧ (3601 : ℤ) < routingHorizonS ∧
        FillsGap (([(0, 3600), (3601, 7200)] : List Interval).filter fun window =>
          window.1 < window.2) (0 + 3600) (0 + 3601)) :=
  heldWindowOffsets_clear_iff 0 (by decide) (by decide) (by decide)

end Merged

/-! ## Free capacity -/

/-- `HOLD_CAPACITY_HORIZON_S`; an empty horizon leaves nothing to share out. -/
structure HoldSettings where
  capacityHorizonS : ℤ := 48 * 3600
  capacityHorizonS_pos : 0 < capacityHorizonS := by decide

/-- The end of what is busy so far and the longest stretch before it, past one more block. -/
def pastBlock (seen : ℤ × ℤ) (block : Interval) : ℤ × ℤ :=
  (max seen.1 block.2, max seen.2 (block.1 - seen.1))

/-- `_largest_free_gap`: the longest stretch within bounds that merged intervals leave. -/
def largestFreeGap (busy : List Interval) (start stop : ℤ) : ℤ :=
  let (cursor, largest) := busy.foldl pastBlock (start, 0)
  max 0 (max largest (stop - cursor))

/-- `build_free_capacity`: the share of the horizon that the longest stretch takes. -/
def buildFreeCapacity (settings : HoldSettings) (heldWindows : Dict String (List Interval))
    (nowEpoch : ℤ) : Dict String ℚ :=
  let horizonEnd := nowEpoch + settings.capacityHorizonS
  heldWindows.mapValues fun windows =>
    let busy := mergeIntervals (clipIntervals nowEpoch horizonEnd windows)
    max 0 (min 1 ((largestFreeGap busy nowEpoch horizonEnd : ℚ) / settings.capacityHorizonS))

/-- What blocks in order leave after a cursor. -/
theorem le_gaps_iff {busy : List Interval} {cursor largest stop length : ℤ}
    (apart : busy.Pairwise fun left right => left.2 ≤ right.1)
    (fits : ∀ block ∈ busy, cursor ≤ block.1 ∧ block.1 ≤ block.2)
    (bounded : ∀ block ∈ busy, block.2 ≤ stop) :
    length ≤ max (busy.foldl pastBlock (cursor, largest)).2
        (stop - (busy.foldl pastBlock (cursor, largest)).1) ↔
      length ≤ largest ∨ ∃ start, cursor ≤ start ∧ start + length ≤ stop ∧
        ∀ block ∈ busy, Clears start (start + length) block := by
  induction busy generalizing cursor largest with
  | nil =>
    simp only [List.foldl_nil, List.not_mem_nil, false_implies, implies_true, and_true, le_max_iff]
    refine or_congr_right ⟨fun fits => ⟨cursor, le_rfl, by omega⟩, ?_⟩
    rintro ⟨start, after, within⟩
    omega
  | cons block rest ih =>
    obtain ⟨later, apart⟩ := List.pairwise_cons.mp apart
    obtain ⟨⟨after, lasts⟩, fits⟩ := List.forall_mem_cons.mp fits
    obtain ⟨within, bounded⟩ := List.forall_mem_cons.mp bounded
    have tail := @ih (max cursor block.2) (max largest (block.1 - cursor)) apart
      (fun next listed => ⟨max_le (fits next listed).1 (later next listed), (fits next listed).2⟩)
      bounded
    rw [List.foldl_cons, pastBlock, tail, le_max_iff, or_assoc]
    refine or_congr_right ⟨?_, ?_⟩
    · rintro (before | ⟨start, past, ends, clear⟩)
      · refine ⟨cursor, le_rfl, by omega, List.forall_mem_cons.mpr ⟨.inl (by omega), ?_⟩⟩
        intro next listed
        have starts := later next listed
        exact .inl (by omega)
      · refine ⟨start, by omega, ends, List.forall_mem_cons.mpr ⟨.inr (by omega), clear⟩⟩
    · rintro ⟨start, past, ends, clear⟩
      obtain ⟨own, clear⟩ := List.forall_mem_cons.mp clear
      rcases own with before | behind
      · exact .inl (by omega)
      · exact .inr ⟨start, by omega, ends, clear⟩

theorem mem_clipIntervals {low high : ℤ} {intervals : List Interval} {clipped : Interval}
    (listed : clipped ∈ clipIntervals low high intervals) :
    low ≤ clipped.1 ∧ clipped.1 < clipped.2 ∧ clipped.2 ≤ high := by
  obtain ⟨kept, lasts⟩ := List.mem_filter.mp listed
  obtain ⟨window, -, rfl⟩ := List.mem_map.mp kept
  exact ⟨le_max_left _ _, of_decide_eq_true lasts, min_le_left _ _⟩

/-- What is merged of clipped intervals keeps within the horizon. -/
theorem within_of_mem_merged {low high : ℤ} {intervals : List Interval} {merged : Interval}
    (listed : merged ∈ mergeIntervals (clipIntervals low high intervals)) :
    low ≤ merged.1 ∧ merged.2 ≤ high := by
  have fits := fits_of_mem_mergeIntervals _ merged listed
  obtain ⟨first, inside, starts, -⟩ :=
    (inIntervals_mergeIntervals _ merged.1).mp ⟨merged, listed, le_rfl, fits⟩
  obtain ⟨last, insideToo, -, ends⟩ :=
    (inIntervals_mergeIntervals _ merged.2).mp ⟨merged, listed, fits, le_rfl⟩
  exact ⟨(mem_clipIntervals inside).1.trans starts, ends.trans (mem_clipIntervals insideToo).2.2⟩

/-- The longest stretch that clipped and merged windows leave, by what stays out of the windows. -/
theorem le_largestFreeGap_iff {low high length : ℤ} {intervals : List Interval}
    (positive : 0 < length) :
    length ≤ largestFreeGap (mergeIntervals (clipIntervals low high intervals)) low high ↔
      ∃ start, low ≤ start ∧ start + length ≤ high ∧
        (∀ window ∈ intervals, window.1 < window.2 → Clears start (start + length) window) ∧
        ¬ (low < start ∧ start + length < high ∧
          FillsGap (intervals.filter fun window => window.1 < window.2)
            start (start + length)) := by
  have form := normalForm_mergeIntervals (clipIntervals low high intervals)
  have gaps := @le_gaps_iff _ low 0 high length (form.apart.imp fun apart => by omega)
    (fun merged listed => ⟨(within_of_mem_merged listed).1, form.fits merged listed⟩)
    (fun merged listed => (within_of_mem_merged listed).2)
  rw [largestFreeGap, le_max_iff, or_iff_right (not_le.mpr positive), gaps,
    or_iff_right (not_le.mpr positive)]
  refine exists_congr fun start => and_congr_right fun within => and_congr_right fun ends => ?_
  exact clears_clipped_iff within (by omega) ends

/-- An asset's free capacity is the longest stretch of the horizon in which nothing holds it, a
single second between two held windows left out of account; an asset without held windows has the
whole horizon. -/
theorem le_freeCapacity_iff (settings : HoldSettings) (heldWindows : Dict String (List Interval))
    (nowEpoch : ℤ) (asset : String) (seconds : ℕ) :
    ((seconds + 1 : ℕ) : ℚ) ≤ (buildFreeCapacity settings heldWindows nowEpoch).getD asset 1 *
        settings.capacityHorizonS ↔
      ∃ start, nowEpoch ≤ start ∧
        start + (seconds + 1 : ℕ) ≤ nowEpoch + settings.capacityHorizonS ∧
        (∀ window ∈ heldWindows.getD asset [], window.1 < window.2 →
          Clears start (start + (seconds + 1 : ℕ)) window) ∧
        ¬ (nowEpoch < start ∧
          start + (seconds + 1 : ℕ) < nowEpoch + settings.capacityHorizonS ∧
          FillsGap ((heldWindows.getD asset []).filter fun window => window.1 < window.2)
            start (start + (seconds + 1 : ℕ))) := by
  have horizon := settings.capacityHorizonS_pos
  have scale : (0 : ℚ) < settings.capacityHorizonS := by exact_mod_cast horizon
  rw [Dict.getD, Dict.getD, buildFreeCapacity, Dict.get?_mapValues]
  cases held : heldWindows.get? asset with
  | none =>
    simp only [Option.map_none, Option.getD_none, one_mul, List.not_mem_nil, false_implies,
      implies_true, List.filter_nil, FillsGap, false_and, exists_false, and_false,
      not_false_eq_true, and_true]
    constructor
    · intro fits
      have whole : ((seconds + 1 : ℕ) : ℤ) ≤ settings.capacityHorizonS := by exact_mod_cast fits
      exact ⟨nowEpoch, le_rfl, by omega⟩
    · rintro ⟨start, after, ends⟩
      have whole : ((seconds + 1 : ℕ) : ℤ) ≤ settings.capacityHorizonS := by omega
      exact_mod_cast whole
  | some windows =>
    rw [Option.map_some, Option.getD_some, Option.getD_some, ← le_largestFreeGap_iff (by omega)]
    set gap := largestFreeGap (mergeIntervals (clipIntervals nowEpoch
      (nowEpoch + settings.capacityHorizonS) windows)) nowEpoch
        (nowEpoch + settings.capacityHorizonS) with longest
    have nonneg : 0 ≤ gap := le_max_left _ _
    have bounded : gap ≤ settings.capacityHorizonS := by
      by_cases none : gap = 0
      · omega
      · obtain ⟨start, after, ends, -⟩ := (le_largestFreeGap_iff (by omega)).mp longest.le
        omega
    have share : max 0 (min 1 ((gap : ℚ) / settings.capacityHorizonS)) =
        gap / settings.capacityHorizonS := by
      have low : (0 : ℚ) ≤ gap / settings.capacityHorizonS :=
        div_nonneg (by exact_mod_cast nonneg) scale.le
      have high : (gap : ℚ) / settings.capacityHorizonS ≤ 1 :=
        div_le_one_of_le₀ (by exact_mod_cast bounded) scale.le
      rw [min_eq_right high, max_eq_right low]
    dsimp only
    rw [share, div_mul_cancel₀ _ scale.ne']
    norm_cast

end FlOp.Solver
