import FlOp.Library.Ordering
import Mathlib.Algebra.Order.BigOperators.Group.List
import Mathlib.Data.Int.Order.Basic
import Mathlib.Data.Prod.Lex
import Mathlib.Order.Bounds.Basic
import Mathlib.Tactic.Linarith

/-! # Event sweeps

The intervals of a list become events, one more at each start and one fewer at each end. A counter
run over the events in order of time, ends before starts, has as its peak the greatest number of
half-open intervals that share an instant.
-/

namespace FlOp.Library.Sweep

variable {T : Type*}

/-- The starts and the ends of the intervals. -/
def events (intervals : List (T × T)) : List (T ×ₗ ℤ) :=
  intervals.flatMap fun interval => [toLex (interval.1, 1), toLex (interval.2, -1)]

/-- The counter and its peak after an event. -/
def step (state : ℤ × ℤ) (event : T ×ₗ ℤ) : ℤ × ℤ :=
  (state.1 + (ofLex event).2, max state.2 (state.1 + (ofLex event).2))

/-- What the events of a list add to the counter. -/
def gain (items : List (T ×ₗ ℤ)) : ℤ := (items.map fun event => (ofLex event).2).sum

variable {intervals : List (T × T)} {items : List (T ×ₗ ℤ)}

theorem gain_append (first second : List (T ×ₗ ℤ)) :
    gain (first ++ second) = gain first + gain second := by
  rw [gain, gain, gain, List.map_append, List.sum_append]

theorem gain_perm {first second : List (T ×ₗ ℤ)} (same : first.Perm second) :
    gain first = gain second :=
  (same.map _).sum_eq

theorem gain_cons (event : T ×ₗ ℤ) (rest : List (T ×ₗ ℤ)) :
    gain (event :: rest) = (ofLex event).2 + gain rest :=
  List.sum_cons

/-- The peak never falls. -/
theorem le_peak_foldl (state : ℤ × ℤ) (items : List (T ×ₗ ℤ)) :
    state.2 ≤ (items.foldl step state).2 := by
  induction items generalizing state with
  | nil => exact le_rfl
  | cons event rest ih => exact (le_max_left _ _).trans (ih (step state event))

/-- The peak bounds the counter after every initial part of the events. -/
theorem le_foldl_step {state : ℤ × ℤ} (begun : state.1 ≤ state.2)
    (early later : List (T ×ₗ ℤ)) :
    state.1 + gain early ≤ ((early ++ later).foldl step state).2 := by
  induction early generalizing state with
  | nil =>
    have unchanged : state.1 + gain ([] : List (T ×ₗ ℤ)) = state.1 := add_zero _
    rw [unchanged]
    exact begun.trans (le_peak_foldl state later)
  | cons event rest ih =>
    have reached := @ih (step state event) (le_max_right _ _)
    rw [gain_cons, ← add_assoc]
    exact reached

/-- The peak is the counter after an initial part of the events, or what it was before them. -/
theorem foldl_step_reached (state : ℤ × ℤ) (items : List (T ×ₗ ℤ)) :
    (items.foldl step state).2 = state.2 ∨
      ∃ early later, items = early ++ later ∧
        (items.foldl step state).2 = state.1 + gain early := by
  induction items generalizing state with
  | nil => exact Or.inl rfl
  | cons event rest ih =>
    rcases ih (step state event) with kept | ⟨early, later, rfl, reached⟩
    · rcases max_choice state.2 (state.1 + (ofLex event).2) with before | now
      · exact Or.inl (kept.trans before)
      · refine Or.inr ⟨[event], rest, rfl, kept.trans (now.trans ?_)⟩
        rw [gain_cons]
        exact congrArg _ (add_zero _).symm
    · refine Or.inr ⟨event :: early, later, rfl, reached.trans ?_⟩
      rw [gain_cons, ← add_assoc]
      rfl

/-- Every event is a start or an end. -/
theorem delta_of_mem_events {event : T ×ₗ ℤ} (listed : event ∈ events intervals) :
    (ofLex event).2 = 1 ∨ (ofLex event).2 = -1 := by
  obtain ⟨interval, -, either⟩ := List.mem_flatMap.mp listed
  rcases List.mem_pair.mp either with rfl | rfl
  · exact Or.inl rfl
  · exact Or.inr rfl

variable [LinearOrder T]

/-- A half-open interval has an instant. -/
def Covers (interval : T × T) (t : T) : Prop := interval.1 ≤ t ∧ t < interval.2

instance (interval : T × T) (t : T) : Decidable (Covers interval t) :=
  inferInstanceAs (Decidable (_ ∧ _))

/-- How many intervals have an instant. -/
def depth (intervals : List (T × T)) (t : T) : ℤ :=
  intervals.countP fun interval => Covers interval t

/-- The peak of the counter over the events in order. -/
def peak (intervals : List (T × T)) : ℤ :=
  ((sortBy id (events intervals)).foldl step (0, 0)).2

/-- The events up to an instant. -/
def upTo (t : T) (items : List (T ×ₗ ℤ)) : List (T ×ₗ ℤ) :=
  items.filter fun event => (ofLex event).1 ≤ t

theorem upTo_append (t : T) (first second : List (T ×ₗ ℤ)) :
    upTo t (first ++ second) = upTo t first ++ upTo t second :=
  List.filter_append _ _

/-- Events in order come no earlier than those before them. -/
theorem time_le {event other : T ×ₗ ℤ} (ordered : event ≤ other) :
    (ofLex event).1 ≤ (ofLex other).1 := by
  rcases Prod.Lex.le_iff.mp ordered with earlier | ⟨same, -⟩
  · exact earlier.le
  · exact same.le

/-- In a sorted list the events up to an instant come first. -/
theorem upTo_prefix (ordered : items.Pairwise (· ≤ ·)) (t : T) :
    ∃ later, items = upTo t items ++ later := by
  induction items with
  | nil => exact ⟨[], rfl⟩
  | cons event rest ih =>
    obtain ⟨first, ordered⟩ := List.pairwise_cons.mp ordered
    rcases le_or_gt (ofLex event).1 t with early | late
    · obtain ⟨later, shape⟩ := ih ordered
      refine ⟨later, ?_⟩
      have kept : upTo t (event :: rest) = event :: upTo t rest :=
        List.filter_cons_of_pos (decide_eq_true early)
      rw [kept, List.cons_append, ← shape]
    · -- nothing after an event that is too late is in time
      have none_left : upTo t (event :: rest) = [] := by
        refine List.filter_eq_nil_iff.mpr fun other member => ?_
        rw [decide_eq_true_eq, not_le]
        rcases List.mem_cons.mp member with rfl | later
        · exact late
        · exact late.trans_le (time_le (first other later))
      exact ⟨event :: rest, by rw [none_left, List.nil_append]⟩

/-- An interval that has begun and not ended by an instant has it. -/
theorem gain_upTo_events (proper : ∀ interval ∈ intervals, interval.1 ≤ interval.2) (t : T) :
    gain (upTo t (events intervals)) = depth intervals t := by
  induction intervals with
  | nil => rfl
  | cons interval rest ih =>
    obtain ⟨ordered, proper⟩ := List.forall_mem_cons.mp proper
    have split : events (interval :: rest) =
        [toLex (interval.1, 1), toLex (interval.2, -1)] ++ events rest := rfl
    rw [split, upTo, List.filter_append, gain_append]
    have tail : gain ((events rest).filter fun event => (ofLex event).1 ≤ t) = depth rest t :=
      ih proper
    rw [tail, depth, depth, List.countP_cons]
    rcases le_or_gt interval.1 t with begun | future
    · rcases le_or_gt interval.2 t with ended | going
      · have uncovered : ¬ Covers interval t := fun inside => not_lt.mpr ended inside.2
        simp [begun, ended, uncovered, gain]
      · have covered : Covers interval t := ⟨begun, going⟩
        simp [begun, not_le.mpr going, covered, gain, add_comm]
    · have uncovered : ¬ Covers interval t := fun inside => not_le.mpr future inside.1
      simp [not_le.mpr future, not_le.mpr (future.trans_le ordered), uncovered, gain]

theorem pairwise_events (intervals : List (T × T)) :
    (sortBy id (events intervals)).Pairwise (· ≤ ·) :=
  pairwise_sortBy id _

theorem gain_upTo_sorted (proper : ∀ interval ∈ intervals, interval.1 ≤ interval.2) (t : T) :
    gain (upTo t (sortBy id (events intervals))) = depth intervals t :=
  (gain_perm ((perm_sortBy id _).filter _)).trans (gain_upTo_events proper t)

/-- No instant has more intervals than the peak. -/
theorem depth_le_peak (proper : ∀ interval ∈ intervals, interval.1 ≤ interval.2) (t : T) :
    depth intervals t ≤ peak intervals := by
  obtain ⟨later, shape⟩ := upTo_prefix (pairwise_events intervals) t
  have reached := @le_foldl_step T (0, 0) le_rfl (upTo t (sortBy id (events intervals))) later
  rw [← shape, gain_upTo_sorted proper, zero_add] at reached
  exact reached

/-- Events at a start's instant that come after the start are starts as well. -/
theorem gain_upTo_nonneg {t : T} (after : ∀ event ∈ items, toLex (t, 1) ≤ event) :
    0 ≤ gain (upTo t items) := by
  refine List.sum_nonneg fun delta listed => ?_
  obtain ⟨event, kept, rfl⟩ := List.mem_map.mp listed
  obtain ⟨member, early⟩ := List.mem_filter.mp kept
  rcases Prod.Lex.le_iff.mp (after event member) with later | ⟨-, more⟩
  · exact absurd (of_decide_eq_true early) (not_le.mpr later)
  · exact zero_le_one.trans more

/-- After any initial part of the events the counter is at most the depth of some instant. -/
theorem gain_le_depth [Nonempty T]
    (proper : ∀ interval ∈ intervals, interval.1 ≤ interval.2) {early later : List (T ×ₗ ℤ)}
    (shape : sortBy id (events intervals) = early ++ later) :
    ∃ t, gain early ≤ depth intervals t := by
  induction early using List.reverseRecOn generalizing later with
  | nil => exact ⟨Classical.arbitrary T, Int.natCast_nonneg _⟩
  | append_singleton before event ih =>
    have ordered := pairwise_events intervals
    have listed : event ∈ events intervals := by
      rw [← mem_sortBy id, shape]
      simp
    rw [shape] at ordered
    obtain ⟨earlier, -, after⟩ := List.pairwise_append.mp ordered
    rcases delta_of_mem_events listed with starts | ends
    · -- at the instant of a start every earlier event has happened
      refine ⟨(ofLex event).1, ?_⟩
      have happened : upTo (ofLex event).1 (before ++ [event]) = before ++ [event] := by
        refine List.filter_eq_self.mpr fun other member => decide_eq_true ?_
        rcases List.mem_append.mp member with old | itself
        · exact time_le ((List.pairwise_append.mp earlier).2.2 other old event (by simp))
        · rw [List.mem_singleton.mp itself]
      have rest_starts : 0 ≤ gain (upTo (ofLex event).1 later) := by
        refine gain_upTo_nonneg fun other member => ?_
        have same : toLex ((ofLex event).1, (1 : ℤ)) = event := by rw [← starts]; rfl
        rw [same]
        exact after event (by simp) other member
      rw [← gain_upTo_sorted proper, shape, upTo_append, gain_append (upTo _ _), happened]
      exact le_add_of_nonneg_right rest_starts
    · rw [List.append_assoc] at shape
      obtain ⟨t, below⟩ := ih shape
      refine ⟨t, ?_⟩
      rw [gain_append, gain_cons, ends]
      have nothing : gain ([] : List (T ×ₗ ℤ)) = 0 := rfl
      omega

/-- The peak is the greatest number of intervals that share an instant. -/
theorem isGreatest_peak [Nonempty T]
    (proper : ∀ interval ∈ intervals, interval.1 ≤ interval.2) :
    IsGreatest (Set.range (depth intervals)) (peak intervals) := by
  have bounded := depth_le_peak proper
  have attained : ∃ t, peak intervals ≤ depth intervals t := by
    rcases foldl_step_reached (0, 0) (sortBy id (events intervals)) with zero | reached
    · refine ⟨Classical.arbitrary T, ?_⟩
      rw [peak, zero]
      exact Int.natCast_nonneg _
    · obtain ⟨early, later, shape, reached⟩ := reached
      rw [peak, reached, zero_add]
      exact gain_le_depth proper shape
  obtain ⟨t, below⟩ := attained
  constructor
  · exact ⟨t, le_antisymm (bounded t) below⟩
  · rintro _ ⟨other, rfl⟩
    exact bounded other

end FlOp.Library.Sweep
