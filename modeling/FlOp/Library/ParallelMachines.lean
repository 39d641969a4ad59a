import Mathlib.Algebra.BigOperators.Group.Finset.Basic
import Mathlib.Algebra.BigOperators.Group.Finset.Piecewise
import Mathlib.Algebra.Order.BigOperators.Group.Finset
import Mathlib.Algebra.Order.Monoid.WithTop
import Mathlib.Data.List.MinMax
import Mathlib.Data.Prod.Lex
import Mathlib.Tactic.Abel

/-! # Jobs on identical machines

Jobs are served in the order of their release, each on the machine that is free first, the lowest
one at a tie. A machine that was never used is free from the beginning of time. What the bookings
satisfy is proved by induction on the jobs, for any machine times they may start from.
-/

namespace FlOp.Library

variable {ι T : Type*} [AddCommGroup T] [LinearOrder T]

/-- Release times and durations of jobs. -/
structure Work (ι T : Type*) [AddCommGroup T] [LinearOrder T] where
  release : ι → T
  duration : ι → T

/-- A job on a machine, and when it starts. -/
structure Booking (ι T : Type*) where
  job : ι
  machine : ℕ
  start : T

namespace Work

/-- The first machine that is free, the lowest one at a tie. -/
def firstFree (machines : ℕ) (free : ℕ → WithBot T) : ℕ :=
  ((List.range machines).argmin fun k => toLex (free k, k)).getD 0

variable (work : Work ι T)

/-- When a booking ends. -/
def finish (b : Booking ι T) : T := b.start + work.duration b.job

/-- The job of a booking is on its machine; the end does not count. -/
def Running (b : Booking ι T) (t : T) : Prop := b.start ≤ t ∧ t < work.finish b

instance (b : Booking ι T) (t : T) : Decidable (work.Running b t) :=
  inferInstanceAs (Decidable (_ ∧ _))

/-- Book one job on the machine that is free first. -/
def place (machines : ℕ) (free : ℕ → WithBot T) (i : ι) : Booking ι T where
  job := i
  machine := firstFree machines free
  start := max (work.release i) ((free (firstFree machines free)).unbotD (work.release i))

/-- Book the jobs in list order. -/
def book (machines : ℕ) (free : ℕ → WithBot T) : List ι → List (Booking ι T)
  | [] => []
  | i :: rest =>
    let b := work.place machines free i
    b :: book machines (Function.update free b.machine (work.finish b)) rest

section FirstFree

variable {machines : ℕ} (present : 0 < machines) (free : ℕ → WithBot T)

include present

omit [AddCommGroup T] in
private theorem argmin_firstFree : firstFree machines free ∈
    (List.range machines).argmin fun k => toLex (free k, k) := by
  have nonempty : List.range machines ≠ [] := by
    rw [Ne, List.range_eq_nil]
    omega
  cases least : (List.range machines).argmin fun k => toLex (free k, k) with
  | none => exact absurd (List.argmin_eq_none.mp least) nonempty
  | some k => simp [firstFree, least]

omit [AddCommGroup T] in
theorem firstFree_lt : firstFree machines free < machines :=
  List.mem_range.mp (List.argmin_mem (argmin_firstFree present free))

omit [AddCommGroup T] in
theorem free_firstFree_le {k : ℕ} (machine : k < machines) :
    free (firstFree machines free) ≤ free k := by
  have least := List.le_of_mem_argmin (List.mem_range.mpr machine) (argmin_firstFree present free)
  rcases (Prod.Lex.le_iff).mp least with less | ⟨same, -⟩
  · exact less.le
  · exact same.le

end FirstFree

section Place

variable (machines : ℕ) (free : ℕ → WithBot T) (i : ι)

theorem release_le_place : work.release i ≤ (work.place machines free i).start := le_max_left _ _

/-- A machine is not booked before it is free. -/
theorem free_le_place : free (work.place machines free i).machine ≤
    ((work.place machines free i).start : WithBot T) := by
  change free (firstFree machines free) ≤ _
  cases freed : free (firstFree machines free) with
  | bot => exact bot_le
  | coe t =>
    apply WithBot.coe_le_coe.mpr
    simp [place, freed]

/-- A job that has to wait starts when its machine is free. -/
theorem free_eq_place (waits : work.release i < (work.place machines free i).start) :
    free (work.place machines free i).machine =
      ((work.place machines free i).start : WithBot T) := by
  change free (firstFree machines free) = _
  simp only [place] at waits ⊢
  cases freed : free (firstFree machines free) with
  | bot => simp [freed] at waits
  | coe t =>
    simp only [freed, WithBot.unbotD_coe, lt_max_iff, lt_irrefl, false_or] at waits
    rw [WithBot.unbotD_coe, max_eq_right waits.le]

end Place

variable {work} {machines : ℕ} {free : ℕ → WithBot T} {jobs : List ι}

theorem map_job_book : (work.book machines free jobs).map (·.job) = jobs := by
  induction jobs generalizing free with
  | nil => rfl
  | cons i rest ih => exact congrArg (i :: ·) ih

theorem machine_lt (present : 0 < machines) :
    ∀ b ∈ work.book machines free jobs, b.machine < machines := by
  induction jobs generalizing free with
  | nil => simp [book]
  | cons i rest ih =>
    intro b member
    rcases List.mem_cons.mp member with rfl | later
    · exact firstFree_lt present free
    · exact ih b later

theorem release_le_start : ∀ b ∈ work.book machines free jobs, work.release b.job ≤ b.start := by
  induction jobs generalizing free with
  | nil => simp [book]
  | cons i rest ih =>
    intro b member
    rcases List.mem_cons.mp member with rfl | later
    · exact work.release_le_place machines free i
    · exact ih b later

section Occupied

/-- From some time on, every machine that is not yet free runs a booked job. -/
def Occupied (work : Work ι T) (machines : ℕ) (free : ℕ → WithBot T)
    (done : List (Booking ι T)) (since : T) : Prop :=
  ∀ k < machines, ∀ t, since ≤ t → (t : WithBot T) < free k →
    ∃ b ∈ done, b.machine = k ∧ work.Running b t

/-- Booking a job keeps the machines occupied, from its release on. -/
theorem Occupied.place {done : List (Booking ι T)} {since : T}
    (occupied : Occupied work machines free done since) {i : ι} (after : since ≤ work.release i) :
    Occupied work machines (Function.update free (work.place machines free i).machine
      (work.finish (work.place machines free i))) (done ++ [work.place machines free i])
      (work.release i) := by
  intro k machine t released before
  by_cases same : k = (work.place machines free i).machine
  · rw [same, Function.update_self, WithBot.coe_lt_coe] at before
    by_cases started : (work.place machines free i).start ≤ t
    · exact ⟨_, by simp, same.symm, started, before⟩
    · rw [not_le] at started
      have freed := work.free_eq_place machines free i (released.trans_lt started)
      obtain ⟨b, booked, on, running⟩ := occupied k machine t (after.trans released) (by
        rw [same, freed]
        exact WithBot.coe_lt_coe.mpr started)
      exact ⟨b, List.mem_append_left _ booked, on, running⟩
  · rw [Function.update_of_ne same] at before
    obtain ⟨b, booked, on, running⟩ := occupied k machine t (after.trans released) before
    exact ⟨b, List.mem_append_left _ booked, on, running⟩

/-- While a job waits, every machine runs a job. -/
theorem waits_only_while_busy (present : 0 < machines)
    (ordered : jobs.Pairwise fun i j => work.release i ≤ work.release j)
    {done : List (Booking ι T)} {since : T}
    (occupied : Occupied work machines free done since)
    (after : ∀ i ∈ jobs, since ≤ work.release i) :
    ∀ b ∈ work.book machines free jobs, ∀ t, work.release b.job ≤ t → t < b.start →
      ∀ k < machines, ∃ other ∈ done ++ work.book machines free jobs,
        other.machine = k ∧ work.Running other t := by
  induction jobs generalizing free done since with
  | nil => simp [book]
  | cons i rest ih =>
    rw [List.pairwise_cons] at ordered
    intro b member t released before k machine
    rcases List.mem_cons.mp member with rfl | later
    · have freed := work.free_eq_place machines free i (released.trans_lt before)
      have busy : (t : WithBot T) < free k := by
        refine lt_of_lt_of_le ?_ (free_firstFree_le present free machine)
        exact lt_of_lt_of_eq (WithBot.coe_lt_coe.mpr before) freed.symm
      obtain ⟨other, booked, on, running⟩ :=
        occupied k machine t ((after i List.mem_cons_self).trans released) busy
      exact ⟨other, List.mem_append_left _ booked, on, running⟩
    · obtain ⟨other, booked, on, running⟩ := ih ordered.2
        (occupied.place (after i List.mem_cons_self)) ordered.1 b later t released before k
        machine
      refine ⟨other, ?_, on, running⟩
      rw [List.append_assoc] at booked
      exact booked

/-- On machines that were never used, a job waits only while every machine runs another one. -/
theorem waits_only_while_busy_of_unused (present : 0 < machines)
    (ordered : jobs.Pairwise fun i j => work.release i ≤ work.release j) :
    ∀ b ∈ work.book machines (fun _ => ⊥) jobs, ∀ t, work.release b.job ≤ t → t < b.start →
      ∀ k < machines, ∃ other ∈ work.book machines (fun _ => ⊥) jobs,
        other.machine = k ∧ work.Running other t := by
  cases jobs with
  | nil => simp [book]
  | cons i rest =>
    have unused : Occupied work machines (fun _ => ⊥) [] (work.release i) :=
      fun _ _ _ _ before => absurd before not_lt_bot
    exact waits_only_while_busy present ordered unused fun j member => by
      rcases List.mem_cons.mp member with rfl | later
      · exact le_rfl
      · exact (List.pairwise_cons.mp ordered).1 j later

end Occupied

variable [IsOrderedAddMonoid T]

section Lasting

variable (lasting : ∀ i, 0 ≤ work.duration i)

include lasting

theorem start_le_finish (b : Booking ι T) : b.start ≤ work.finish b :=
  le_add_of_nonneg_right (lasting b.job)

/-- Booking a job frees no machine earlier. -/
theorem free_le_update (i : ι) (k : ℕ) :
    free k ≤ Function.update free (work.place machines free i).machine
      (work.finish (work.place machines free i) : WithBot T) k := by
  by_cases same : k = (work.place machines free i).machine
  · rw [same, Function.update_self]
    refine (work.free_le_place machines free i).trans (WithBot.coe_le_coe.mpr ?_)
    exact start_le_finish lasting _
  · rw [Function.update_of_ne same]

/-- No booking starts before its machine was free at first. -/
theorem free_le_start : ∀ b ∈ work.book machines free jobs,
    free b.machine ≤ (b.start : WithBot T) := by
  induction jobs generalizing free with
  | nil => simp [book]
  | cons i rest ih =>
    intro b member
    rcases List.mem_cons.mp member with rfl | later
    · exact work.free_le_place machines free i
    · exact (free_le_update lasting i b.machine).trans (ih b later)

/-- The bookings of one machine do not overlap. -/
theorem machines_exclusive : (work.book machines free jobs).Pairwise fun first second =>
    first.machine = second.machine → work.finish first ≤ second.start := by
  induction jobs generalizing free with
  | nil => exact List.Pairwise.nil
  | cons i rest ih =>
    refine List.pairwise_cons.mpr ⟨fun second later same => ?_, ih⟩
    have freed := free_le_start lasting second later
    rw [← same, Function.update_self] at freed
    exact WithBot.coe_le_coe.mp freed

/-- Starts are bounded below where the releases are, or where no machine is free before. -/
private theorem le_start {x : T} (present : 0 < machines)
    (bound : (∀ i ∈ jobs, x ≤ work.release i) ∨ ∀ k < machines, (x : WithBot T) ≤ free k) :
    ∀ b ∈ work.book machines free jobs, x ≤ b.start := by
  intro b member
  rcases bound with released | busy
  · have booked : b.job ∈ (work.book machines free jobs).map (·.job) := List.mem_map_of_mem member
    rw [map_job_book] at booked
    exact (released _ booked).trans (release_le_start b member)
  · exact WithBot.coe_le_coe.mp
      ((busy _ (machine_lt present b member)).trans (free_le_start lasting b member))

end Lasting

section Ordered

variable (lasting : ∀ i, 0 ≤ work.duration i) (present : 0 < machines)
  (ordered : jobs.Pairwise fun i j => work.release i ≤ work.release j)

include lasting present ordered

/-- Jobs start in the order of their release. -/
theorem starts_ordered :
    (work.book machines free jobs).Pairwise fun first second => first.start ≤ second.start := by
  induction jobs generalizing free with
  | nil => exact List.Pairwise.nil
  | cons i rest ih =>
    rw [List.pairwise_cons] at ordered
    refine List.pairwise_cons.mpr ⟨le_start lasting present ?_, ih ordered.2⟩
    rcases (work.release_le_place machines free i).lt_or_eq with waits | same
    · -- the first job waited for the machine that is free first
      refine .inr fun k machine => ?_
      rw [← work.free_eq_place machines free i waits]
      exact (free_firstFree_le present free machine).trans (free_le_update lasting i k)
    · exact .inl fun j later => same ▸ ordered.1 j later

end Ordered

section Load

variable (lasting : ∀ i, 0 ≤ work.duration i)

include lasting

/-- No more jobs run at a time than there are machines. -/
theorem running_le (present : 0 < machines) (t : T) :
    ((work.book machines free jobs).filter fun b => work.Running b t).length ≤ machines := by
  have exclusive : ((work.book machines free jobs).filter fun b => work.Running b t).Pairwise _ :=
    (machines_exclusive lasting).filter _
  have distinct : (((work.book machines free jobs).filter fun b => work.Running b t).map
      (·.machine)).Nodup := by
    rw [List.Nodup, List.pairwise_map]
    refine exclusive.imp_of_mem fun {first second} inFirst inSecond apart same => ?_
    have running := of_decide_eq_true (List.mem_filter.mp inFirst).2
    have starts := of_decide_eq_true (List.mem_filter.mp inSecond).2
    exact absurd ((apart same).trans starts.1) running.2.not_ge
  have within : ((work.book machines free jobs).filter fun b => work.Running b t).map
      (·.machine) ⊆ List.range machines := by
    intro k member
    obtain ⟨b, running, rfl⟩ := List.mem_map.mp member
    exact List.mem_range.mpr (machine_lt present b (List.mem_filter.mp running).1)
  have fits := (List.subperm_of_subset distinct within).length_le
  rwa [List.length_map, List.length_range] at fits

omit lasting in
/-- Jobs one after another fit into the time between the first start and the last end. -/
private theorem sum_le_of_sequence {low high : T} {bookings : List (Booking ι T)}
    (sequence : bookings.Pairwise fun first second => work.finish first ≤ second.start)
    (within : ∀ b ∈ bookings, low ≤ b.start ∧ work.finish b ≤ high) (room : low ≤ high) :
    (bookings.map fun b => work.duration b.job).sum ≤ high - low := by
  induction bookings generalizing low with
  | nil => simpa using room
  | cons b rest ih =>
    rw [List.pairwise_cons] at sequence
    obtain ⟨⟨starts, ends⟩, later⟩ := List.forall_mem_cons.mp within
    have after := ih sequence.2 (fun other member => ⟨sequence.1 other member, (later other member).2⟩)
      ends
    rw [List.map_cons, List.sum_cons]
    calc work.duration b.job + (rest.map fun b => work.duration b.job).sum
        ≤ work.duration b.job + (high - work.finish b) := add_le_add_right after _
      _ = high - b.start := by rw [finish]; abel
      _ ≤ high - low := sub_le_sub_left starts high

omit [LinearOrder T] [IsOrderedAddMonoid T] lasting in
/-- A sum over the bookings is the sum over the machines of what each does. -/
private theorem sum_by_machine [LinearOrder T] (value : Booking ι T → T)
    {bookings : List (Booking ι T)} (on : ∀ b ∈ bookings, b.machine < machines) :
    (bookings.map value).sum =
      ∑ k ∈ Finset.range machines, ((bookings.filter fun b => b.machine = k).map value).sum := by
  induction bookings with
  | nil => simp
  | cons b rest ih =>
    obtain ⟨first, later⟩ := List.forall_mem_cons.mp on
    have split : ∀ k, (((b :: rest).filter fun b => b.machine = k).map value).sum =
        (if b.machine = k then value b else 0) +
          ((rest.filter fun b => b.machine = k).map value).sum := by
      intro k
      by_cases here : b.machine = k
      · simp [here]
      · simp [here]
    rw [List.map_cons, List.sum_cons, ih later, Finset.sum_congr rfl fun k _ => split k,
      Finset.sum_add_distrib, Finset.sum_ite_eq, if_pos (Finset.mem_range.mpr first)]

/-- The machines together work no longer than the whole window, each of them. -/
theorem load_le (present : 0 < machines) {low high : T} (room : low ≤ high)
    (within : ∀ b ∈ work.book machines free jobs, low ≤ b.start ∧ work.finish b ≤ high) :
    ((work.book machines free jobs).map fun b => work.duration b.job).sum ≤
      machines • (high - low) := by
  have exclusive : (work.book machines free jobs).Pairwise _ := machines_exclusive lasting
  rw [sum_by_machine (fun b => work.duration b.job) (machine_lt present)]
  refine (Finset.sum_le_card_nsmul _ _ (high - low) ?_).trans_eq (by rw [Finset.card_range])
  intro k _
  apply sum_le_of_sequence ?_ ?_ room
  · refine (exclusive.filter _).imp_of_mem fun {first second} inFirst inSecond apart => apart ?_
    have onFirst := of_decide_eq_true (List.mem_filter.mp inFirst).2
    have onSecond := of_decide_eq_true (List.mem_filter.mp inSecond).2
    exact onFirst.trans onSecond.symm
  · intro b member
    exact within b (List.mem_filter.mp member).1

end Load

end Work

end FlOp.Library
