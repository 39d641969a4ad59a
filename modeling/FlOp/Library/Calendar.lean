import FlOp.Library.Ordering
import Mathlib.Algebra.Order.Group.Defs
import Mathlib.Data.Prod.Lex
import Mathlib.Tactic.Abel

/-! # Cutting an interval

A finite set of cuts divides what lies between the least and the greatest one into half-open
pieces, from each cut to the next.
-/

namespace FlOp.Library

variable {α : Type*} [LinearOrder α]

/-- The pieces between neighbouring cuts, in increasing order. -/
def pieces (cuts : Finset α) : List (α × α) := (sorted cuts).zip (sorted cuts).tail

/-- Half-open containment. -/
def Holds (piece : α × α) (x : α) : Prop := piece.1 ≤ x ∧ x < piece.2

variable {cuts : Finset α} {low high x : α}

theorem lt_of_mem_pieces {piece : α × α} (member : piece ∈ pieces cuts) : piece.1 < piece.2 :=
  (between_of_neighbours (pairwise_sorted cuts) member).2.2.1

theorem ends_of_mem_pieces {piece : α × α} (member : piece ∈ pieces cuts) :
    piece.1 ∈ cuts ∧ piece.2 ∈ cuts := by
  obtain ⟨starts, stops, -⟩ := between_of_neighbours (pairwise_sorted cuts) member
  exact ⟨mem_sorted.mp starts, mem_sorted.mp stops⟩

omit [LinearOrder α] in
/-- In a list of neighbours each pair starts where the one before it stops. -/
theorem contiguous_zip_tail (l : List α) :
    ∀ step ∈ (l.zip l.tail).zip (l.zip l.tail).tail, step.1.2 = step.2.1 := by
  induction l with
  | nil => simp
  | cons first rest ih =>
    cases rest with
    | nil => simp
    | cons second rest =>
      cases rest with
      | nil => simp
      | cons third rest =>
        intro step member
        rcases List.mem_cons.mp member with rfl | later
        · rfl
        · exact ih step later

theorem contiguous_pieces (cuts : Finset α) :
    ∀ step ∈ (pieces cuts).zip (pieces cuts).tail, step.1.2 = step.2.1 :=
  contiguous_zip_tail (sorted cuts)

theorem head?_sorted (member : low ∈ cuts) (least : ∀ cut ∈ cuts, low ≤ cut) :
    (sorted cuts).head? = some low := by
  have increasing := pairwise_sorted cuts
  have listed := mem_sorted.mpr member
  cases order : sorted cuts with
  | nil => simp [order] at listed
  | cons first rest =>
    rw [order] at increasing listed
    rcases List.mem_cons.mp listed with rfl | later
    · rfl
    · have above := (List.pairwise_cons.mp increasing).1 low later
      have inside : first ∈ cuts := mem_sorted.mp (order ▸ List.mem_cons_self)
      exact absurd (least first inside) above.not_ge

theorem getLast?_sorted (member : high ∈ cuts) (greatest : ∀ cut ∈ cuts, cut ≤ high) :
    (sorted cuts).getLast? = some high := by
  have increasing := pairwise_sorted cuts
  have listed := mem_sorted.mpr member
  obtain ⟨rest, last, order⟩ : ∃ rest last, sorted cuts = rest ++ [last] :=
    ⟨_, _, (List.dropLast_concat_getLast (List.ne_nil_of_mem listed)).symm⟩
  rw [order] at increasing listed ⊢
  rw [List.getLast?_concat]
  rcases List.mem_append.mp listed with earlier | same
  · have below := (List.pairwise_append.mp increasing).2.2 high earlier last List.mem_cons_self
    have inside : last ∈ cuts := mem_sorted.mp (order ▸ by simp)
    exact absurd (greatest last inside) below.not_ge
  · rw [List.mem_singleton.mp same]

omit [LinearOrder α] in
private theorem getLast?_zip_tail (a b : α) (rest : List α) :
    ((a :: b :: rest).zip (b :: rest)).getLast?.map Prod.snd = (b :: rest).getLast? := by
  induction rest generalizing a b with
  | nil => rfl
  | cons c rest ih =>
    rw [List.zip_cons_cons, List.getLast?_cons_cons, ← ih b c, List.zip_cons_cons,
      List.getLast?_cons_cons]

/-- The pieces reach from the least cut to the greatest one. -/
theorem ends_of_pieces (lower : low ∈ cuts) (least : ∀ cut ∈ cuts, low ≤ cut)
    (upper : high ∈ cuts) (greatest : ∀ cut ∈ cuts, cut ≤ high) (apart : low < high) :
    (pieces cuts).head?.map Prod.fst = some low ∧
      (pieces cuts).getLast?.map Prod.snd = some high := by
  have first := head?_sorted lower least
  have last := getLast?_sorted upper greatest
  rw [pieces]
  cases order : sorted cuts with
  | nil => simp [order] at first
  | cons a rest =>
    rw [order] at first last
    obtain rfl := Option.some.inj first
    cases rest with
    | nil => exact absurd (Option.some.inj last) apart.ne
    | cons b rest => exact ⟨rfl, (getLast?_zip_tail a b rest).trans last⟩

private theorem exists_neighbours {l : List α} (first : l.head? = some low)
    (last : l.getLast? = some high) (above : low ≤ x) (below : x < high) :
    ∃ piece ∈ l.zip l.tail, Holds piece x := by
  induction l generalizing low with
  | nil => cases first
  | cons a rest ih =>
    obtain rfl := Option.some.inj first
    cases rest with
    | nil => exact absurd (Option.some.inj last) (above.trans_lt below).ne
    | cons b rest =>
      rcases lt_or_ge x b with before | after
      · exact ⟨(a, b), List.mem_cons_self, above, before⟩
      · rw [List.getLast?_cons_cons] at last
        obtain ⟨piece, member, holds⟩ := ih rfl last after
        exact ⟨piece, List.mem_cons_of_mem _ member, holds⟩

/-- Between the least and the greatest cut, each point is in one piece. -/
theorem exists_piece (lower : low ∈ cuts) (least : ∀ cut ∈ cuts, low ≤ cut)
    (upper : high ∈ cuts) (greatest : ∀ cut ∈ cuts, cut ≤ high) (above : low ≤ x)
    (below : x < high) : ∃ piece ∈ pieces cuts, Holds piece x :=
  exists_neighbours (head?_sorted lower least) (getLast?_sorted upper greatest) above below

/-- No point is in two pieces. -/
theorem eq_of_holds {first second : α × α} (member : first ∈ pieces cuts)
    (other : second ∈ pieces cuts) (holds : Holds first x) (again : Holds second x) :
    first = second := by
  obtain ⟨starts, stops, -, between⟩ := between_of_neighbours (pairwise_sorted cuts) member
  obtain ⟨starts', stops', -, between'⟩ := between_of_neighbours (pairwise_sorted cuts) other
  have inside : first.1 < second.2 := holds.1.trans_lt again.2
  have inside' : second.1 < first.2 := again.1.trans_lt holds.2
  apply Prod.ext
  · apply le_antisymm
    · exact (between' _ starts).resolve_right inside.not_ge
    · exact (between _ starts').resolve_right inside'.not_ge
  · apply le_antisymm
    · exact (between _ stops').resolve_left inside.not_ge
    · exact (between' _ stops).resolve_left inside'.not_ge

end FlOp.Library

/-! # Shifted time windows

Two windows overlap unless one clears the other by a buffer. A shift may be given by the bounds
it exceeds instead of its value; whether two shifted windows overlap can then be decided from
the bounds alone.
-/

namespace FlOp.Library

variable {T : Type*} [AddCommGroup T] [LinearOrder T]

/-- Neither window ends at least the buffer before the other begins. -/
def Overlap (buffer a0 a1 b0 b1 : T) : Prop := b0 < a1 + buffer ∧ a0 < b1 + buffer

instance (buffer a0 a1 b0 b1 : T) : Decidable (Overlap buffer a0 a1 b0 b1) :=
  inferInstanceAs (Decidable (_ ∧ _))

/-- `Exceeds x` tells of every bound `x` whether the amount lies above it. -/
def Gauges (Exceeds : T → Prop) (amount : T) : Prop := ∀ x, Exceeds x ↔ x < amount

/-- The amount gauged first exceeds the one gauged second by more than `x`. -/
def Outdoes (First Second : T → Prop) (x : T) : Prop := ∃ y, First (x + y) ∧ ¬ Second y

/-- Two windows overlap once each is shifted by its gauged amount: neither shift falls short of
the other by as much as would keep the windows apart. -/
def OverlapShifted (buffer a0 a1 b0 b1 : T) (First Second : T → Prop) : Prop :=
  Outdoes First Second (b0 - a1 - buffer) ∧ Outdoes Second First (a0 - b1 - buffer)

variable [IsOrderedAddMonoid T] {First Second : T → Prop} {first second : T}

theorem outdoes_iff (gaugesFirst : Gauges First first) (gaugesSecond : Gauges Second second)
    {x : T} : Outdoes First Second x ↔ x < first - second := by
  constructor
  · rintro ⟨y, above, notAbove⟩
    rw [gaugesSecond, not_lt] at notAbove
    exact lt_sub_iff_add_lt.mpr
      (lt_of_le_of_lt (add_le_add_right notAbove x) ((gaugesFirst _).mp above))
  · intro above
    refine ⟨second, (gaugesFirst _).mpr (lt_sub_iff_add_lt.mp above), ?_⟩
    rw [gaugesSecond]
    exact lt_irrefl second

/-- The shifted windows overlap exactly when the gauges say so. -/
theorem overlapShifted_iff (gaugesFirst : Gauges First first) (gaugesSecond : Gauges Second second)
    (buffer a0 a1 b0 b1 : T) :
    OverlapShifted buffer a0 a1 b0 b1 First Second ↔
      Overlap buffer (a0 + first) (a1 + first) (b0 + second) (b1 + second) := by
  have clear : ∀ s t u v : T, s - t - buffer < u - v ↔ s + v < t + u + buffer := by
    intro s t u v
    rw [sub_sub, sub_lt_sub_iff]
    have same : u + (t + buffer) = t + u + buffer := by abel
    rw [same]
  rw [OverlapShifted, outdoes_iff gaugesFirst gaugesSecond, outdoes_iff gaugesSecond gaugesFirst,
    clear, clear, Overlap]

end FlOp.Library

/-! # Calendars of half-open intervals

A calendar is a list of intervals, each of which holds at least its start. Two calendars overlap
when they cover a common point; that is decided from the bounds alone, and merging the intervals
of a calendar does not change what it covers.
-/

namespace FlOp.Library

/-- A half-open interval with its start inside. -/
structure Span (T : Type*) [LT T] where
  start : T
  stop : T
  ordered : start < stop
deriving DecidableEq, Repr

variable {T : Type*} [LinearOrder T]

/-- The span covers a point. -/
def Span.Covers (span : Span T) (t : T) : Prop := span.start ≤ t ∧ t < span.stop

/-- Some span of the calendar covers the point. -/
def Covered (calendar : List (Span T)) (t : T) : Prop := ∃ span ∈ calendar, span.Covers t

/-- The calendars have a point in common. -/
def Overlaps (left right : List (Span T)) : Prop := ∃ t, Covered left t ∧ Covered right t

theorem Overlaps.symm {left right : List (Span T)} (overlap : Overlaps left right) :
    Overlaps right left := by
  obtain ⟨t, inLeft, inRight⟩ := overlap
  exact ⟨t, inRight, inLeft⟩

@[simp] theorem covered_nil (t : T) : ¬ Covered [] t := by
  simp [Covered]

@[simp] theorem covered_cons (span : Span T) (calendar : List (Span T)) (t : T) :
    Covered (span :: calendar) t ↔ span.Covers t ∨ Covered calendar t := by
  simp [Covered]

@[simp] theorem covered_append (left right : List (Span T)) (t : T) :
    Covered (left ++ right) t ↔ Covered left t ∨ Covered right t := by
  induction left with
  | nil => simp
  | cons span rest ih => rw [List.cons_append, covered_cons, covered_cons, ih, or_assoc]

/-- Calendars overlap when two of their spans each start before the other stops. -/
theorem overlaps_iff (left right : List (Span T)) : Overlaps left right ↔
    ∃ l ∈ left, ∃ r ∈ right, l.start < r.stop ∧ r.start < l.stop := by
  constructor
  · rintro ⟨t, ⟨l, inLeft, fromL, untilL⟩, ⟨r, inRight, fromR, untilR⟩⟩
    exact ⟨l, inLeft, r, inRight, lt_of_le_of_lt fromL untilR, lt_of_le_of_lt fromR untilL⟩
  · rintro ⟨l, inLeft, r, inRight, before, after⟩
    refine ⟨max l.start r.start, ⟨l, inLeft, ?_⟩, ⟨r, inRight, ?_⟩⟩
    · exact ⟨le_max_left _ _, max_lt l.ordered after⟩
    · exact ⟨le_max_right _ _, max_lt before r.ordered⟩

instance (left right : List (Span T)) : Decidable (Overlaps left right) :=
  decidable_of_iff _ (overlaps_iff left right).symm

/-- Lengthen a span to a later stop. -/
def Span.extend (span : Span T) (stop : T) : Span T :=
  ⟨span.start, max span.stop stop, lt_max_of_lt_left span.ordered⟩

/-- Merge a span with the later ones of a sorted calendar. -/
def mergeSorted : Span T → List (Span T) → List (Span T)
  | current, [] => [current]
  | current, next :: rest =>
    if next.start ≤ current.stop then mergeSorted (current.extend next.stop) rest
    else current :: mergeSorted next rest

/-- Merge overlapping or adjacent spans. -/
def mergeBusy (calendar : List (Span T)) : List (Span T) :=
  match sortBy (fun span => toLex (span.start, span.stop)) calendar with
  | [] => []
  | first :: rest => mergeSorted first rest

/-- Two spans that touch cover together what the first one covers once it is lengthened. -/
theorem Span.covers_extend {current next : Span T} (sorted : current.start ≤ next.start)
    (touch : next.start ≤ current.stop) (t : T) :
    (current.extend next.stop).Covers t ↔ current.Covers t ∨ next.Covers t := by
  simp only [Span.Covers, Span.extend, lt_max_iff]
  constructor
  · rintro ⟨after, before | before⟩
    · exact .inl ⟨after, before⟩
    · rcases lt_or_ge t current.stop with inside | outside
      · exact .inl ⟨after, inside⟩
      · exact .inr ⟨touch.trans outside, before⟩
  · rintro (⟨after, before⟩ | ⟨after, before⟩)
    · exact ⟨after, .inl before⟩
    · exact ⟨sorted.trans after, .inr before⟩

theorem covered_mergeSorted {current : Span T} {rest : List (Span T)}
    (sorted : (current :: rest).Pairwise fun a b => a.start ≤ b.start) (t : T) :
    Covered (mergeSorted current rest) t ↔ current.Covers t ∨ Covered rest t := by
  induction rest generalizing current with
  | nil => simp [mergeSorted]
  | cons next rest ih =>
    rw [List.pairwise_cons] at sorted
    obtain ⟨first, later⟩ := sorted
    have ahead := first next List.mem_cons_self
    unfold mergeSorted
    split
    · next touch =>
      have extended : ((current.extend next.stop) :: rest).Pairwise
          fun a b => a.start ≤ b.start :=
        List.pairwise_cons.mpr
          ⟨fun other member => first other (List.mem_cons_of_mem _ member), later.of_cons⟩
      rw [ih extended, Span.covers_extend ahead touch, covered_cons, or_assoc]
    · rw [covered_cons, ih later, covered_cons]

/-- Merging changes nothing about what is covered. -/
theorem covered_mergeBusy (calendar : List (Span T)) (t : T) :
    Covered (mergeBusy calendar) t ↔ Covered calendar t := by
  have sorted := pairwise_sortBy (fun span : Span T => toLex (span.start, span.stop)) calendar
  have same : Covered calendar t ↔
      Covered (sortBy (fun span => toLex (span.start, span.stop)) calendar) t := by
    simp only [Covered, mem_sortBy]
  rw [same]
  unfold mergeBusy
  split
  · next empty => rw [empty]
  · next first rest split =>
    rw [split] at sorted ⊢
    rw [covered_cons]
    apply covered_mergeSorted
    exact sorted.imp fun {a b} le => (Prod.Lex.le_iff.mp le).elim le_of_lt fun eq => eq.1.le

example : (mergeBusy [(⟨5, 8, by decide⟩ : Span ℕ), ⟨1, 2, by decide⟩, ⟨2, 4, by decide⟩,
    ⟨6, 7, by decide⟩]).map (fun span => (span.start, span.stop)) = [(1, 4), (5, 8)] := by
  decide

end FlOp.Library
