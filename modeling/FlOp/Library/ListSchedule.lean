import FlOp.Library.Calendar
import Mathlib.Algebra.Order.Monoid.WithTop
import Mathlib.Data.List.Nodup
import Mathlib.Order.WellFounded
import Mathlib.Tactic.Abel

/-! # List scheduling with bounded delays

Jobs occupy fixed windows and may be delayed, each by at most its slack. List scheduling places
them one by one and delays each job until it clears every rival placed before it, as far as its
slack allows. The delays it computes are characterized by an equation, and by chains of jobs
that push one another along, without reference to the computation.
-/

namespace FlOp.Library

variable {ι T : Type*} [AddCommGroup T] [LinearOrder T] [IsOrderedAddMonoid T]

/-- Windows, slacks and rivalry of the jobs to be placed. -/
structure Jobs (ι T : Type*) [AddCommGroup T] [LinearOrder T] where
  entry : ι → T
  exit : ι → T
  slack : ι → WithTop T
  slack_nonneg : ∀ i, 0 ≤ slack i
  buffer : T
  Rival : ι → ι → Prop

namespace Jobs

/-- A delay cut off at a possibly unbounded slack. -/
def capped (delay : T) : WithTop T → T
  | ⊤ => delay
  | (slack : T) => min delay slack

omit [IsOrderedAddMonoid T] [AddCommGroup T] in
theorem lt_capped {x delay : T} {slack : WithTop T} :
    x < capped delay slack ↔ x < delay ∧ (x : WithTop T) < slack := by
  cases slack with
  | top => simp [capped]
  | coe slack => simp [capped]

variable (jobs : Jobs ι T)

section Computation

variable [DecidableRel jobs.Rival]

/-- The entry a job needs to clear all its rivals among the placed jobs. -/
def required (delay : ι → T) (placed : List ι) (i : ι) : T :=
  placed.foldl (fun entry j =>
    if jobs.Rival i j then max entry (jobs.exit j + delay j + jobs.buffer) else entry)
    (jobs.entry i)

/-- The delay of a job placed after the given ones. -/
def delayAfter (delay : ι → T) (placed : List ι) (i : ι) : T :=
  capped (max 0 (jobs.required delay placed i - jobs.entry i)) (jobs.slack i)

/-- Place the remaining jobs in list order. -/
def schedule [DecidableEq ι] (delay : ι → T) (placed : List ι) : List ι → ι → T
  | [] => delay
  | i :: rest =>
    schedule (Function.update delay i (jobs.delayAfter delay placed i)) (placed ++ [i]) rest

omit [IsOrderedAddMonoid T] in
private theorem lt_foldl_required (delay : ι → T) (placed : List ι) (i : ι) (start x : T) :
    x < placed.foldl (fun entry j =>
        if jobs.Rival i j then max entry (jobs.exit j + delay j + jobs.buffer) else entry) start ↔
      x < start ∨ ∃ j ∈ placed, jobs.Rival i j ∧ x < jobs.exit j + delay j + jobs.buffer := by
  induction placed generalizing start with
  | nil => simp
  | cons j rest ih =>
    rw [List.foldl_cons, ih]
    by_cases rival : jobs.Rival i j
    · simp only [rival, if_true, lt_max_iff, List.mem_cons, exists_eq_or_imp, true_and, or_assoc]
    · simp only [rival, if_false, List.mem_cons, exists_eq_or_imp, false_and, false_or]

/-- A placed job is delayed beyond `x` when its slack allows it and a rival requires it. -/
theorem lt_delayAfter {delay : ι → T} {placed : List ι} {i : ι} {x : T} :
    x < jobs.delayAfter delay placed i ↔
      x < 0 ∨ ((x : WithTop T) < jobs.slack i ∧ ∃ j ∈ placed, jobs.Rival i j ∧
        x + jobs.entry i - jobs.exit j - jobs.buffer < delay j) := by
  have rearrange : ∀ j, x + jobs.entry i < jobs.exit j + delay j + jobs.buffer ↔
      x + jobs.entry i - jobs.exit j - jobs.buffer < delay j := by
    intro j
    rw [sub_lt_iff_lt_add, sub_lt_iff_lt_add]
    have same : delay j + jobs.buffer + jobs.exit j = jobs.exit j + delay j + jobs.buffer := by abel
    rw [same]
  have room : x < 0 → (x : WithTop T) < jobs.slack i := fun negative =>
    lt_of_lt_of_le (WithTop.coe_lt_coe.mpr negative) (jobs.slack_nonneg i)
  rw [delayAfter, lt_capped, lt_max_iff, lt_sub_iff_add_lt, required, lt_foldl_required]
  simp only [rearrange, add_lt_iff_neg_right]
  tauto

variable [DecidableEq ι]

omit [IsOrderedAddMonoid T] in
/-- Placing jobs leaves every other delay alone. -/
theorem schedule_of_notMem {delay : ι → T} {placed members : List ι} {i : ι}
    (absent : i ∉ members) : jobs.schedule delay placed members i = delay i := by
  induction members generalizing delay placed with
  | nil => rfl
  | cons m rest ih =>
    rw [List.mem_cons, not_or] at absent
    rw [schedule, ih absent.2, Function.update_of_ne absent.1]

omit [IsOrderedAddMonoid T] in
/-- Each job gets the delay it needs behind the jobs placed before it, at their final delays. -/
theorem schedule_eq_delayAfter (delay : ι → T) (placed : List ι) {members : List ι}
    (nodup : (placed ++ members).Nodup) {before after : List ι} {i : ι}
    (position : members = before ++ i :: after) :
    jobs.schedule delay placed members i =
      jobs.delayAfter (jobs.schedule delay placed members) (placed ++ before) i := by
  induction members generalizing delay placed before with
  | nil => simp at position
  | cons m rest ih =>
    have nodup' : (placed ++ [m] ++ rest).Nodup := by rwa [List.append_assoc]
    cases before with
    | nil =>
      obtain ⟨rfl, rfl⟩ := List.cons.inj position
      have fresh : ∀ j ∈ placed ++ [m], j ∉ rest := fun j placedJ later =>
        (List.disjoint_of_nodup_append nodup') placedJ later
      have settled : ∀ j ∈ placed,
          jobs.schedule delay placed (m :: rest) j = delay j := fun j placedJ =>
        jobs.schedule_of_notMem fun later =>
          (List.disjoint_of_nodup_append nodup) placedJ later
      have unchanged : jobs.required (jobs.schedule delay placed (m :: rest)) placed m =
          jobs.required delay placed m := by
        unfold required
        refine List.foldl_ext _ _ _ fun entry j placedJ => ?_
        rw [settled j placedJ]
      rw [List.append_nil, delayAfter, unchanged, schedule,
        schedule_of_notMem _ (fresh m (by simp)), Function.update_self, delayAfter]
    | cons first before =>
      obtain ⟨rfl, later⟩ := List.cons.inj position
      rw [schedule, ih _ _ nodup' later, List.append_assoc, List.singleton_append]

/-- Schedule disjoint groups one after another, each on its own. -/
def scheduleGroups (delay : ι → T) (groups : List (List ι)) : ι → T :=
  groups.foldl (fun delay members => jobs.schedule delay [] members) delay

omit [IsOrderedAddMonoid T] in
private theorem scheduleGroups_of_notMem {delay : ι → T} {groups : List (List ι)} {i : ι}
    (absent : i ∉ groups.flatten) : jobs.scheduleGroups delay groups i = delay i := by
  induction groups generalizing delay with
  | nil => rfl
  | cons group rest ih =>
    rw [List.flatten_cons, List.mem_append, not_or] at absent
    rw [scheduleGroups, List.foldl_cons, ← scheduleGroups, ih absent.2,
      schedule_of_notMem _ absent.1]

omit [IsOrderedAddMonoid T] in
/-- Within its group, each job is placed behind the earlier members of the group. -/
theorem scheduleGroups_eq_delayAfter (delay : ι → T) {groups : List (List ι)}
    (nodup : groups.flatten.Nodup) {before after : List ι} {i : ι}
    (member : before ++ i :: after ∈ groups) :
    jobs.scheduleGroups delay groups i =
      jobs.delayAfter (jobs.scheduleGroups delay groups) before i := by
  induction groups generalizing delay with
  | nil => simp at member
  | cons group rest ih =>
    rw [List.flatten_cons] at nodup
    rcases List.mem_cons.mp member with rfl | later
    · have settled : ∀ j ∈ before ++ i :: after,
          jobs.scheduleGroups delay ((before ++ i :: after) :: rest) j =
            jobs.schedule delay [] (before ++ i :: after) j := fun j own => by
        rw [scheduleGroups, List.foldl_cons, ← scheduleGroups,
          scheduleGroups_of_notMem _ (List.disjoint_of_nodup_append nodup own)]
      have unchanged : jobs.required
            (jobs.scheduleGroups delay ((before ++ i :: after) :: rest)) before i =
          jobs.required (jobs.schedule delay [] (before ++ i :: after)) before i := by
        unfold required
        refine List.foldl_ext _ _ _ fun entry j placed => ?_
        rw [settled j (List.mem_append_left _ placed)]
      rw [delayAfter, unchanged, ← delayAfter, settled i (by simp)]
      exact jobs.schedule_eq_delayAfter delay [] (List.Nodup.of_append_left nodup) rfl
    · exact ih _ (List.Nodup.of_append_right nodup) later

end Computation

section Equation

variable (Before : ι → ι → Prop)

/-- The delays list scheduling in the order `Before` assigns: a job is delayed beyond `x` exactly
when its slack allows it and a rival placed before it is delayed enough to require it. -/
def IsSchedule (delay : ι → T) : Prop :=
  ∀ i x, x < delay i ↔
    x < 0 ∨ ((x : WithTop T) < jobs.slack i ∧ ∃ j, Before j i ∧ jobs.Rival i j ∧
      x + jobs.entry i - jobs.exit j - jobs.buffer < delay j)

/-- A chain of rivals pushes the job by more than `x`. -/
inductive Pushed : ι → T → Prop
  | negative {i : ι} {x : T} (negative : x < 0) : Pushed i x
  | push {i j : ι} {x : T} (room : (x : WithTop T) < jobs.slack i) (earlier : Before j i)
      (rival : jobs.Rival i j)
      (pushed : Pushed j (x + jobs.entry i - jobs.exit j - jobs.buffer)) : Pushed i x

/-- The delay with which a job clears a rival. -/
def clearing (delay : ι → T) (i j : ι) : T :=
  jobs.exit j + delay j + jobs.buffer - jobs.entry i

theorem lt_clearing {delay : ι → T} {i j : ι} {x : T} :
    x < jobs.clearing delay i j ↔ x + jobs.entry i - jobs.exit j - jobs.buffer < delay j := by
  rw [clearing, lt_sub_iff_add_lt, sub_lt_iff_lt_add, sub_lt_iff_lt_add]
  have same : delay j + jobs.buffer + jobs.exit j = jobs.exit j + delay j + jobs.buffer := by abel
  rw [same]

variable {jobs Before} {delay : ι → T} (valid : jobs.IsSchedule Before delay)

include valid

omit [IsOrderedAddMonoid T] in
theorem IsSchedule.nonneg (i : ι) : 0 ≤ delay i := by
  by_contra! negative
  exact lt_irrefl _ ((valid i (delay i)).mpr (.inl negative))

omit [IsOrderedAddMonoid T] in
theorem IsSchedule.le_slack (i : ι) : (delay i : WithTop T) ≤ jobs.slack i := by
  by_contra! exceeds
  cases bound : jobs.slack i with
  | top => simp [bound] at exceeds
  | coe slack =>
    rw [bound, WithTop.coe_lt_coe] at exceeds
    rcases (valid i slack).mp exceeds with negative | ⟨room, -⟩
    · have nonneg := jobs.slack_nonneg i
      rw [bound, WithTop.coe_nonneg] at nonneg
      exact absurd negative nonneg.not_gt
    · rw [bound] at room
      exact lt_irrefl _ room

/-- A job clears an earlier rival if its slack is enough for that. -/
theorem IsSchedule.clears {i j : ι} (earlier : Before j i) (rival : jobs.Rival i j)
    (fits : (jobs.clearing delay i j : WithTop T) ≤ jobs.slack i) :
    jobs.clearing delay i j ≤ delay i := by
  by_contra! short
  have room : (delay i : WithTop T) < jobs.slack i :=
    lt_of_lt_of_le (WithTop.coe_lt_coe.mpr short) fits
  have required := jobs.lt_clearing.mp short
  exact lt_irrefl _ ((valid i (delay i)).mpr (.inr ⟨room, j, earlier, rival, required⟩))

/-- A job whose slack is not enough to clear an earlier rival is delayed by all of it. -/
theorem IsSchedule.eq_slack {i j : ι} (earlier : Before j i) (rival : jobs.Rival i j)
    (short : jobs.slack i < (jobs.clearing delay i j : WithTop T)) :
    (delay i : WithTop T) = jobs.slack i := by
  refine le_antisymm (valid.le_slack i) ?_
  by_contra! room
  have required := jobs.lt_clearing.mp (WithTop.coe_lt_coe.mp (room.trans short))
  exact lt_irrefl _ ((valid i (delay i)).mpr (.inr ⟨room, j, earlier, rival, required⟩))

omit [IsOrderedAddMonoid T] in
/-- The chains gauge the delays: a job is delayed beyond `x` when a chain pushes it there. -/
theorem IsSchedule.gauges (wf : WellFounded Before) (i : ι) :
    Gauges (jobs.Pushed Before i) (delay i) := by
  intro x
  constructor
  · intro pushed
    induction pushed with
    | negative negative => exact (valid _ _).mpr (.inl negative)
    | push room earlier rival _ ih => exact (valid _ _).mpr (.inr ⟨room, _, earlier, rival, ih⟩)
  · intro delayed
    induction i using wf.induction generalizing x with
    | _ i ih =>
      rcases (valid i x).mp delayed with negative | ⟨room, j, earlier, rival, required⟩
      · exact .negative negative
      · exact .push room earlier rival (ih j earlier _ required)

end Equation

end Jobs

end FlOp.Library
