import Mathlib.Algebra.Order.Group.Defs
import Mathlib.Data.List.Count
import Mathlib.Order.Lattice

/-! # Lazily restarted counting windows

A counter anchors a window at the first event it sees and restarts it at the first event that
falls outside. Nothing happens between events, so windows start at events only; any two start
at least one length apart, and an interval of that length therefore meets at most two of them.
-/

namespace FlOp.Library

variable {T : Type*} [AddCommGroup T] [LinearOrder T]

/-- One counted event: when it came, where its window started and its number there. -/
structure Tick (T : Type*) where
  moment : T
  start : T
  number : ℕ

namespace Tick

variable (length : T)

/-- The window and the count after an event. -/
def advance (held : Option (T × ℕ)) (now : T) : T × ℕ :=
  let window := held.getD (now, 0)
  if length ≤ now - window.1 then (now, 1) else (window.1, window.2 + 1)

/-- The events of a list as they are counted. -/
def ticks : Option (T × ℕ) → List T → List (Tick T)
  | _, [] => []
  | held, now :: rest =>
    ⟨now, (advance length held now).1, (advance length held now).2⟩ ::
      ticks (advance length held now) rest

/-- How many events a window had before. -/
def carried (held : Option (T × ℕ)) (start : T) : ℕ :=
  match held with
  | some (s, count) => if s = start then count else 0
  | none => 0

/-- The events of one window that came within its budget. -/
def within (budget : ℕ) (start : T) (tick : Tick T) : Bool :=
  tick.start = start ∧ tick.number ≤ budget

variable {length} {held : Option (T × ℕ)} {now start : T} {budget : ℕ} {nows : List T}

/-- Either the window goes on or a new one starts, no sooner than a length after the old. -/
theorem advance_cases (pos : 0 < length) (held : Option (T × ℕ)) (now : T) :
    (∃ s count, held = some (s, count) ∧ now - s < length ∧
      advance length held now = (s, count + 1)) ∨
    ((∀ s count, held = some (s, count) → length ≤ now - s) ∧
      advance length held now = (now, 1)) := by
  cases held with
  | none =>
    refine Or.inr ⟨fun s count absurd => (nomatch absurd), ?_⟩
    simp [advance, not_le.mpr pos]
  | some window =>
    obtain ⟨s, count⟩ := window
    by_cases ended : length ≤ now - s
    · refine Or.inr ⟨fun t n same => ?_, by simp [advance, ended]⟩
      obtain ⟨rfl, rfl⟩ := Prod.mk.inj (Option.some.inj same)
      exact ended
    · exact Or.inl ⟨s, count, rfl, not_le.mp ended, by simp [advance, ended]⟩

/-- What an event adds to the window it falls into. -/
theorem carried_advance (pos : 0 < length) :
    (advance length held now).2 = carried held (advance length held now).1 + 1 := by
  rcases advance_cases pos held now with ⟨s, count, rfl, -, step⟩ | ⟨ended, step⟩
  · simp [step, carried]
  · rw [step]
    suffices none_before : carried held now = 0 by rw [none_before]
    cases held with
    | none => rfl
    | some window =>
      have other : ¬ window.1 = now := by
        intro same
        have late := ended window.1 window.2 rfl
        rw [same, sub_self] at late
        exact absurd pos (not_lt.mpr late)
      exact if_neg other

variable [IsOrderedAddMonoid T]

/-- An event outside a window ends it, or the window was not the held one. -/
theorem carried_other (pos : 0 < length) (other : (advance length held now).1 ≠ start) :
    carried (some (advance length held now)) start = 0 ∧
      (carried held start = 0 ∨
        start + length ≤ (advance length held now).1) := by
  refine ⟨if_neg other, ?_⟩
  rcases advance_cases pos held now with ⟨s, count, rfl, -, step⟩ | ⟨ended, step⟩
  · rw [step] at other
    exact Or.inl (if_neg other)
  · rw [step] at other ⊢
    cases held with
    | none => exact Or.inl rfl
    | some window =>
      by_cases same : window.1 = start
      · subst same
        have late := ended window.1 window.2 rfl
        exact Or.inr (by rw [add_comm]; exact add_le_of_le_sub_right late)
      · exact Or.inl (if_neg same)

/-- A later window starts at least one length after the one held, and no event lies a length
past the start of its window. -/
theorem start_of_mem_ticks (pos : 0 < length) {tick : Tick T}
    (member : tick ∈ ticks length held nows) :
    (∀ s count, held = some (s, count) → tick.start = s ∨ s + length ≤ tick.start) ∧
      tick.moment < tick.start + length := by
  induction nows generalizing held with
  | nil => exact absurd member List.not_mem_nil
  | cons now rest ih =>
    have first : (∀ s count, held = some (s, count) →
        (advance length held now).1 = s ∨ s + length ≤ (advance length held now).1) ∧
        now < (advance length held now).1 + length := by
      rcases advance_cases pos held now with ⟨s, count, rfl, inside, step⟩ | ⟨ended, step⟩
      · rw [step]
        refine ⟨fun t n same => Or.inl ?_, sub_lt_iff_lt_add'.mp inside⟩
        exact (Prod.mk.inj (Option.some.inj same)).1
      · rw [step]
        exact ⟨fun s count same => Or.inr (le_sub_iff_add_le'.mp (ended s count same)),
          lt_add_of_pos_right now pos⟩
    rcases List.mem_cons.mp member with rfl | later
    · exact first
    · obtain ⟨apart, inside⟩ := ih later
      refine ⟨fun s count same => ?_, inside⟩
      rcases first.1 s count same with kept | moved
      · exact kept ▸ apart _ _ rfl
      · refine Or.inr (moved.trans ?_)
        rcases apart _ _ rfl with again | after
        · exact again.ge
        · exact (le_add_of_nonneg_right pos.le).trans after

/-- Two windows are the same or start at least one length apart. -/
theorem starts_apart (pos : 0 < length) (held : Option (T × ℕ)) (nows : List T) :
    (ticks length held nows).Pairwise fun earlier later =>
      later.start = earlier.start ∨ earlier.start + length ≤ later.start := by
  induction nows generalizing held with
  | nil => exact List.Pairwise.nil
  | cons now rest ih =>
    exact List.pairwise_cons.mpr
      ⟨fun later member => (start_of_mem_ticks pos member).1 _ _ rfl, ih _⟩

theorem starts_apart_of_mem (pos : 0 < length) {one other : Tick T}
    (first : one ∈ ticks length held nows) (second : other ∈ ticks length held nows) :
    other.start = one.start ∨ one.start + length ≤ other.start ∨
      other.start + length ≤ one.start := by
  have ordered := starts_apart pos held nows
  refine List.Pairwise.forall_of_forall_of_flip
    (R := fun one other : Tick T => other.start = one.start ∨ one.start + length ≤ other.start ∨
      other.start + length ≤ one.start)
    (fun _ _ => Or.inl rfl) (ordered.imp ?_) (ordered.imp ?_) first second
  · rintro earlier later (same | apart)
    · exact Or.inl same
    · exact Or.inr (Or.inl apart)
  · rintro earlier later (same | apart)
    · exact Or.inl same.symm
    · exact Or.inr (Or.inr apart)

omit [IsOrderedAddMonoid T] in
/-- On a clock that never goes back, no event precedes the start of its window. -/
theorem start_le_moment (pos : 0 < length) (ordered : nows.Pairwise (· ≤ ·))
    (after : ∀ s count, held = some (s, count) → ∀ now ∈ nows, s ≤ now) {tick : Tick T}
    (member : tick ∈ ticks length held nows) : tick.start ≤ tick.moment := by
  induction nows generalizing held with
  | nil => exact absurd member List.not_mem_nil
  | cons now rest ih =>
    obtain ⟨first, ordered⟩ := List.pairwise_cons.mp ordered
    have reached : (advance length held now).1 ≤ now := by
      rcases advance_cases pos held now with ⟨s, count, rfl, -, step⟩ | ⟨-, step⟩
      · rw [step]
        exact after s count rfl now List.mem_cons_self
      · rw [step]
    rcases List.mem_cons.mp member with rfl | later
    · exact reached
    · refine ih ordered (fun s count same next listed => ?_) later
      have started : (advance length held now).1 = s :=
        congrArg Prod.fst (Option.some.inj same)
      exact started ▸ reached.trans (first next listed)

/-- A window takes what its budget leaves after the events it had before. -/
theorem countP_within_le (pos : 0 < length) (held : Option (T × ℕ)) (nows : List T) :
    (ticks length held nows).countP (within budget start) ≤ budget - carried held start := by
  induction nows generalizing held with
  | nil => exact Nat.zero_le _
  | cons now rest ih =>
    rw [ticks, List.countP_cons]
    have tail := ih (some (advance length held now))
    by_cases same : (advance length held now).1 = start
    · have counted : carried (some (advance length held now)) start =
          carried held start + 1 := by
        rw [← same, ← carried_advance pos]
        exact if_pos rfl
      rw [counted] at tail
      have number : (advance length held now).2 = carried held start + 1 :=
        same ▸ carried_advance pos
      simp only [within, same, number]
      split
      · rename_i allowed
        have fits := of_decide_eq_true allowed
        omega
      · omega
    · have unseen : within budget start
          ⟨now, (advance length held now).1, (advance length held now).2⟩ = false := by
        simp [within, same]
      rw [unseen]
      rcases carried_other pos same with ⟨zero, none_before | past⟩
      · rw [zero] at tail
        rw [none_before]
        exact tail
      · -- the window has ended, so none of the later events falls into it
        have gone : (ticks length (some (advance length held now)) rest).countP
            (within budget start) = 0 := by
          refine List.countP_eq_zero.mpr fun tick member => ?_
          have later : start < tick.start := by
            have beyond := lt_of_lt_of_le (lt_add_of_pos_right start pos) past
            rcases (start_of_mem_ticks pos member).1 _ _ rfl with again | after
            · exact again ▸ beyond
            · exact beyond.trans (lt_of_lt_of_le (lt_add_of_pos_right _ pos) after)
          simp [within, later.ne']
        rw [gone]
        exact Nat.zero_le _

/-- An event past the budget comes only after the budget of its window has been used up. -/
theorem budget_le_of_refused (pos : 0 < length) {past later : List (Tick T)} {tick : Tick T}
    (shape : ticks length held nows = past ++ tick :: later) (refused : budget < tick.number) :
    budget ≤ carried held tick.start + past.countP (within budget tick.start) := by
  induction past generalizing held nows with
  | nil =>
    cases nows with
    | nil => exact absurd shape (List.cons_ne_nil _ _).symm
    | cons now rest =>
      obtain ⟨rfl, -⟩ := List.cons.inj shape
      have number : (advance length held now).2 =
          carried held (advance length held now).1 + 1 :=
        carried_advance pos
      change budget < (advance length held now).2 at refused
      change budget ≤ carried held (advance length held now).1 + 0
      omega
  | cons head past ih =>
    cases nows with
    | nil => exact absurd shape (List.cons_ne_nil _ _).symm
    | cons now rest =>
      obtain ⟨rfl, rest_eq⟩ := List.cons.inj shape
      have tail := ih (show ticks length (some (advance length held now)) rest =
        past ++ tick :: later from rest_eq)
      rw [List.countP_cons]
      by_cases same : (advance length held now).1 = tick.start
      · have number : (advance length held now).2 = carried held tick.start + 1 :=
          same ▸ carried_advance pos
        have counted : carried (some (advance length held now)) tick.start =
            carried held tick.start + 1 := by
          rw [← number]
          exact if_pos same
        simp only [within, same, number]
        split
        · omega
        · rename_i beyond
          have spent : ¬ carried held tick.start + 1 ≤ budget := by simpa using beyond
          omega
      · rw [(carried_other pos same).1] at tail
        omega

/-- Events whose windows all start within one length of each other share their window. -/
theorem countP_le_of_close (pos : 0 < length) (nows : List T) {chosen : Tick T → Bool}
    (allowed : ∀ tick, chosen tick = true → tick.number ≤ budget)
    (close : ∀ earlier ∈ ticks length none nows, ∀ later ∈ ticks length none nows,
      chosen earlier = true → chosen later = true → later.start < earlier.start + length) :
    (ticks length none nows).countP chosen ≤ budget := by
  rcases List.eq_nil_or_concat ((ticks length none nows).filter chosen) with none_chosen | some_chosen
  · rw [List.countP_eq_length_filter, none_chosen]
    exact Nat.zero_le _
  obtain ⟨front, tick, chosen_eq⟩ := some_chosen
  have listed : tick ∈ (ticks length none nows).filter chosen := by
    rw [chosen_eq, List.concat_eq_append]
    exact List.mem_append_right _ (List.mem_singleton.mpr rfl)
  obtain ⟨member, picked⟩ := List.mem_filter.mp listed
  have same_start : ∀ other ∈ ticks length none nows, chosen other = true →
      other.start = tick.start := by
    intro other present chosen_other
    rcases starts_apart_of_mem pos member present with same | after | before
    · exact same
    · exact absurd (close tick member other present picked chosen_other) (not_lt.mpr after)
    · exact absurd (close other present tick member chosen_other picked) (not_lt.mpr before)
  calc (ticks length none nows).countP chosen
      ≤ (ticks length none nows).countP (within budget tick.start) := by
        refine List.countP_mono_left fun other listed chosen_other => ?_
        exact decide_eq_true ⟨same_start other listed chosen_other, allowed other chosen_other⟩
    _ ≤ budget - carried none tick.start := countP_within_le pos none nows
    _ ≤ budget := Nat.sub_le _ _

/-- An interval of one window's length meets at most two windows: what it holds of counted
events is twice the budget at most. -/
theorem countP_interval_le (pos : 0 < length) (ordered : nows.Pairwise (· ≤ ·)) (opening : T) :
    (ticks length none nows).countP (fun tick => (opening ≤ tick.moment ∧
      tick.moment < opening + length) ∧ tick.number ≤ budget) ≤ 2 * budget := by
  have reached : ∀ tick ∈ ticks length none nows, tick.start ≤ tick.moment := fun tick member =>
    start_le_moment pos ordered (by intro _ _ absurd; cases absurd) member
  have inside : ∀ tick ∈ ticks length none nows, tick.moment < tick.start + length :=
    fun tick member => (start_of_mem_ticks pos member).2
  -- windows that had started when the interval opens, and windows that start within it
  have old : (ticks length none nows).countP (fun tick => tick.start < opening ∧
      opening ≤ tick.moment ∧ tick.number ≤ budget) ≤ budget := by
    refine countP_le_of_close pos nows (fun tick chosen => (of_decide_eq_true chosen).2.2) ?_
    intro earlier member later _ first second
    calc later.start < opening := (of_decide_eq_true second).1
      _ ≤ earlier.moment := (of_decide_eq_true first).2.1
      _ < earlier.start + length := inside earlier member
  have fresh : (ticks length none nows).countP (fun tick => opening ≤ tick.start ∧
      tick.moment < opening + length ∧ tick.number ≤ budget) ≤ budget := by
    refine countP_le_of_close pos nows (fun tick chosen => (of_decide_eq_true chosen).2.2) ?_
    intro earlier _ later member first second
    calc later.start ≤ later.moment := reached later member
      _ < opening + length := (of_decide_eq_true second).2.1
      _ ≤ earlier.start + length := add_le_add_left (of_decide_eq_true first).1 length
  rw [List.countP_eq_countP_filter_add _ _ fun tick => decide (tick.start < opening),
    List.countP_filter, List.countP_filter, Nat.two_mul]
  refine Nat.add_le_add (le_trans (List.countP_mono_left fun tick _ chosen => ?_) old)
    (le_trans (List.countP_mono_left fun tick _ chosen => ?_) fresh)
  · simp only [Bool.and_eq_true, decide_eq_true_eq] at chosen ⊢
    exact ⟨chosen.2, chosen.1.1.1, chosen.1.2⟩
  · simp only [Bool.and_eq_true, Bool.not_eq_true', decide_eq_true_eq,
      decide_eq_false_iff_not, not_lt] at chosen ⊢
    exact ⟨chosen.2, chosen.1.1.2, chosen.1.2⟩

end Tick

end FlOp.Library
