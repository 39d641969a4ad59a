import FlOp.Library.LabeledSystem
import Mathlib.Algebra.GroupWithZero.Nat
import Mathlib.Data.List.Flatten
import Mathlib.Data.List.Nodup
import Mathlib.Data.List.Count
import Mathlib.Data.List.Perm.Basic

/-! # Worker pools one after the other

A pool gets jobs, each a list of items; a worker takes a job and works through its items in order.
A worker may crash and leave the rest of its job aside, and a waiting job may be cancelled. The next
pool opens when nothing waits or runs in the one before it. Whatever the interleaving, no item is
started twice, and two items are in work at once only if they belong to different jobs of one pool.
-/

namespace FlOp.Library

variable {τ : Type*}

/-- The jobs of the open pool and those of the pools to come. -/
structure WorkerPools (τ : Type*) where
  /-- Jobs no worker has taken. -/
  waiting : List (List τ)
  /-- The item each worker is at, and the items it has left. -/
  running : List (τ × List τ)
  /-- Items in the order in which they were started. -/
  started : List τ := []
  /-- Items no worker will start. -/
  dropped : List τ := []
  /-- The jobs of each later pool. -/
  later : List (List (List τ))

namespace WorkerPools

/-- What happens to one job, or to the whole pool. -/
inductive Event where
  | start
  | advance
  | finish
  | crash
  | cancel
  | next
deriving DecidableEq, Repr

/-- Nothing crashes and nothing is cancelled. -/
def Event.Orderly (event : Event) : Prop := event ≠ .crash ∧ event ≠ .cancel

instance : DecidablePred Event.Orderly := fun event =>
  inferInstanceAs (Decidable (event ≠ .crash ∧ event ≠ .cancel))

/-- The steps of pools with so many workers each. -/
inductive Step (workers : ℕ) : WorkerPools τ → Event → WorkerPools τ → Prop
  | start {before after : List (List τ)} {item : τ} {rest : List τ} {running started dropped later}
      (free : running.length < workers) :
      Step workers ⟨before ++ (item :: rest) :: after, running, started, dropped, later⟩ .start
        ⟨before ++ after, (item, rest) :: running, started ++ [item], dropped, later⟩
  | advance {before after : List (τ × List τ)} {item next : τ} {rest : List τ}
      {waiting started dropped later} :
      Step workers ⟨waiting, before ++ (item, next :: rest) :: after, started, dropped, later⟩
        .advance ⟨waiting, before ++ (next, rest) :: after, started ++ [next], dropped, later⟩
  | finish {before after : List (τ × List τ)} {item : τ} {waiting started dropped later} :
      Step workers ⟨waiting, before ++ (item, []) :: after, started, dropped, later⟩ .finish
        ⟨waiting, before ++ after, started, dropped, later⟩
  | crash {before after : List (τ × List τ)} {item : τ} {rest : List τ}
      {waiting started dropped later} :
      Step workers ⟨waiting, before ++ (item, rest) :: after, started, dropped, later⟩ .crash
        ⟨waiting, before ++ after, started, dropped ++ rest, later⟩
  | cancel {before after : List (List τ)} {job : List τ} {running started dropped later} :
      Step workers ⟨before ++ job :: after, running, started, dropped, later⟩ .cancel
        ⟨before ++ after, running, started, dropped ++ job, later⟩
  | next {jobs : List (List τ)} {more : List (List (List τ))} {started dropped : List τ} :
      Step workers ⟨[], [], started, dropped, jobs :: more⟩ .next
        ⟨jobs, [], started, dropped, more⟩

section First

variable {workers : ℕ} {item next : τ} {rest : List τ} {waiting after : List (List τ)}
variable {running others : List (τ × List τ)} {started dropped : List τ}
variable {later : List (List (List τ))}

/-- The job that waits longest may start. -/
theorem Step.start_first (free : running.length < workers) :
    Step workers ⟨(item :: rest) :: after, running, started, dropped, later⟩ .start
      ⟨after, (item, rest) :: running, started ++ [item], dropped, later⟩ :=
  @Step.start τ workers [] after item rest running started dropped later free

theorem Step.advance_first :
    Step workers ⟨waiting, (item, next :: rest) :: others, started, dropped, later⟩ .advance
      ⟨waiting, (next, rest) :: others, started ++ [next], dropped, later⟩ :=
  @Step.advance τ workers [] others item next rest waiting started dropped later

theorem Step.finish_first :
    Step workers ⟨waiting, (item, []) :: others, started, dropped, later⟩ .finish
      ⟨waiting, others, started, dropped, later⟩ :=
  @Step.finish τ workers [] others item waiting started dropped later

end First

/-- Before the first pool opens. -/
def init (pools : List (List (List τ))) : WorkerPools τ where
  waiting := []
  running := []
  later := pools

/-- The pools with these jobs, opened one after the other. -/
def system (workers : ℕ) (pools : List (List (List τ))) :
    LabeledSystem (WorkerPools τ) Event where
  Initial s := s = init pools
  Step := Step workers

/-- The items in work. -/
def inWork (s : WorkerPools τ) : List τ := s.running.map Prod.fst

/-- No pool is left to open, and nothing waits or runs in the last one. -/
def Done (s : WorkerPools τ) : Prop := s.waiting = [] ∧ s.running = [] ∧ s.later = []

/-- Started items and those that may still be. -/
def items (s : WorkerPools τ) : List τ :=
  s.started ++
    (s.waiting.flatten ++ s.running.flatMap Prod.snd ++ s.dropped ++ s.later.flatten.flatten)

variable {workers : ℕ} {pools : List (List (List τ))} {s t : WorkerPools τ} {event : Event}

/-- A step starts items and drops them, but keeps them all. -/
theorem Step.perm_items (step : Step workers s event t) : t.items.Perm s.items := by
  classical
  rw [List.perm_iff_count]
  intro item
  cases step <;>
    simp only [items, List.flatten_append, List.flatten_cons, List.flatten_nil, List.flatMap_append,
      List.flatMap_cons, List.flatMap_nil, List.count_append, List.count_cons, List.count_nil] <;>
    omega

theorem perm_items {ok : WorkerPools τ → Event → Prop}
    (reached : (system workers pools).ReachableWhere ok s) :
    s.items.Perm pools.flatten.flatten := by
  apply reached.invariant fun s => s.items.Perm pools.flatten.flatten
  · rintro _ rfl
    exact .refl _
  · intro s event t perm _ step
    exact (Step.perm_items step).trans perm

/-- Items that are all distinct are started at most once each. -/
theorem nodup_started (reached : (system workers pools).Reachable s)
    (nodup : pools.flatten.flatten.Nodup) : s.started.Nodup :=
  (List.nodup_append'.mp ((perm_items reached).nodup_iff.mpr nodup)).1

/-- Orderly steps drop nothing. -/
theorem dropped_of_orderly
    (reached : (system workers pools).ReachableWhere (fun _ event => event.Orderly) s) :
    s.dropped = [] := by
  apply reached.invariant fun s => s.dropped = []
  · rintro _ rfl
    rfl
  · rintro s event t none ⟨noCrash, noCancel⟩ step
    cases step with
    | crash => exact absurd rfl noCrash
    | cancel => exact absurd rfl noCancel
    | _ => exact none

/-- Orderly pools that are done have started every item once. -/
theorem perm_started_of_done
    (reached : (system workers pools).ReachableWhere (fun _ event => event.Orderly) s)
    (done : s.Done) : s.started.Perm pools.flatten.flatten := by
  obtain ⟨idle, stopped, last⟩ := done
  have perm := perm_items reached
  simpa only [items, idle, stopped, last, dropped_of_orderly reached, List.flatten_nil,
    List.flatMap_nil, List.append_nil] using perm

section Progress

/-- What is left to do in orderly steps. -/
def left (s : WorkerPools τ) : ℕ :=
  (s.waiting.map fun job => 2 * job.length).sum +
    (s.running.map fun entry => 2 * entry.2.length + 1).sum +
    (s.later.map fun jobs => (jobs.map fun job => 2 * job.length).sum + 1).sum

theorem Step.left_lt (step : Step workers s event t) (orderly : event.Orderly) :
    t.left < s.left := by
  cases step with
  | crash => exact absurd rfl orderly.1
  | cancel => exact absurd rfl orderly.2
  | _ =>
    simp only [left, List.map_append, List.map_cons, List.map_nil, List.sum_append, List.sum_cons,
      List.sum_nil, List.length_cons]
    omega

/-- Pools that are not done can take an orderly step. -/
theorem exists_step (staffed : 0 < workers) (unfinished : ¬s.Done)
    (filled : ∀ job ∈ s.waiting, job ≠ []) :
    ∃ event t, event.Orderly ∧ Step workers s event t := by
  obtain ⟨waiting, running, started, dropped, later⟩ := s
  cases running with
  | cons entry others =>
    obtain ⟨item, rest⟩ := entry
    cases rest with
    | nil => exact ⟨.finish, _, by decide, .finish_first⟩
    | cons next rest => exact ⟨.advance, _, by decide, .advance_first⟩
  | nil =>
    cases waiting with
    | cons job others =>
      cases job with
      | nil => exact absurd rfl (filled [] List.mem_cons_self)
      | cons item rest => exact ⟨.start, _, by decide, .start_first staffed⟩
    | nil =>
      cases later with
      | nil => exact absurd ⟨rfl, rfl, rfl⟩ unfinished
      | cons jobs more => exact ⟨.next, _, by decide, .next⟩

/-- No pool gets an empty job. -/
def Filled (s : WorkerPools τ) : Prop :=
  (∀ job ∈ s.waiting, job ≠ []) ∧ ∀ jobs ∈ s.later, ∀ job ∈ jobs, job ≠ []

theorem Step.filled (step : Step workers s event t) (filled : s.Filled) : t.Filled := by
  obtain ⟨here, later⟩ := filled
  cases step with
  | start =>
    refine ⟨fun job member => here job ?_, later⟩
    exact ((List.sublist_cons_self _ _).append_left _).subset member
  | cancel =>
    refine ⟨fun job member => here job ?_, later⟩
    exact ((List.sublist_cons_self _ _).append_left _).subset member
  | next => exact ⟨later _ List.mem_cons_self, fun jobs member => later jobs (.tail _ member)⟩
  | _ => exact ⟨here, later⟩

/-- Orderly steps lead to the end of the last pool. -/
theorem exists_done (staffed : 0 < workers)
    (filled : ∀ jobs ∈ pools, ∀ job ∈ jobs, job ≠ []) :
    ∃ s, (system workers pools).ReachableWhere (fun _ event => event.Orderly) s ∧ s.Done := by
  have onward : ∀ n, ∀ s : WorkerPools τ, s.left ≤ n → s.Filled →
      (system workers pools).ReachableWhere (fun _ event => event.Orderly) s →
      ∃ t, (system workers pools).ReachableWhere (fun _ event => event.Orderly) t ∧ t.Done := by
    intro n
    induction n with
    | zero =>
      intro s small filled reached
      by_contra unfinished
      have going : ¬s.Done := fun done => unfinished ⟨s, reached, done⟩
      obtain ⟨event, t, orderly, step⟩ := exists_step staffed going filled.1
      have shrinks := Step.left_lt step orderly
      omega
    | succ n ih =>
      intro s small filled reached
      by_cases done : s.Done
      · exact ⟨s, reached, done⟩
      · obtain ⟨event, t, orderly, step⟩ := exists_step staffed done filled.1
        have shrinks := Step.left_lt step orderly
        exact ih t (by omega) (Step.filled step filled) (.step reached orderly step)
  have start : (init pools).Filled := ⟨fun _ member => absurd member List.not_mem_nil, filled⟩
  exact onward _ (init pools) (Nat.le_refl _) start (.initial rfl)

end Progress

/-- Items of different jobs are separate. -/
def Apart (separate : τ → τ → Prop) (jobs : List (List τ)) : Prop :=
  jobs.Pairwise fun first second => ∀ a ∈ first, ∀ b ∈ second, separate a b

/-- The jobs of the open pool, each from the item it is at. -/
def jobs (s : WorkerPools τ) : List (List τ) :=
  s.running.map (fun entry => entry.1 :: entry.2) ++ s.waiting

section Apart

variable {separate : τ → τ → Prop}

theorem Apart.sublist {jobs others : List (List τ)} (held : Apart separate jobs)
    (sublist : others.Sublist jobs) : Apart separate others :=
  List.Pairwise.sublist sublist held

theorem apart_perm (symmetric : ∀ a b, separate a b → separate b a) {jobs others : List (List τ)}
    (perm : jobs.Perm others) : Apart separate jobs ↔ Apart separate others :=
  perm.pairwise_iff fun held a memberA b memberB =>
    symmetric b a (held b memberB a memberA)

/-- A job may go on to its next item. -/
theorem Apart.advance {before after : List (List τ)} {item : τ} {rest : List τ}
    (held : Apart separate (before ++ (item :: rest) :: after)) :
    Apart separate (before ++ rest :: after) := by
  simp only [Apart, List.pairwise_append, List.pairwise_cons, List.mem_cons] at held ⊢
  obtain ⟨first, ⟨here, last⟩, across⟩ := held
  refine ⟨first, ⟨fun job member a inside => here job member a (.inr inside), last⟩, ?_⟩
  rintro job member other (rfl | listed) a inA b inB
  · exact across job member _ (.inl rfl) a inA b (List.mem_cons_of_mem _ inB)
  · exact across job member other (.inr listed) a inA b inB

/-- A step keeps the jobs of every pool apart. -/
theorem Step.apart (symmetric : ∀ a b, separate a b → separate b a) (step : Step workers s event t)
    (held : Apart separate s.jobs ∧ ∀ jobs ∈ s.later, Apart separate jobs) :
    Apart separate t.jobs ∧ ∀ jobs ∈ t.later, Apart separate jobs := by
  obtain ⟨opened, later⟩ := held
  cases step with
  | start =>
    refine ⟨(apart_perm symmetric ?_).mp opened, later⟩
    simp only [jobs, List.map_cons, List.cons_append]
    rw [← List.append_assoc, ← List.append_assoc]
    exact List.perm_middle
  | advance =>
    refine ⟨?_, later⟩
    simp only [jobs, List.map_append, List.map_cons, List.append_assoc, List.cons_append]
      at opened ⊢
    exact opened.advance
  | finish =>
    refine ⟨opened.sublist ?_, later⟩
    simp only [jobs, List.map_append, List.map_cons]
    exact ((List.sublist_cons_self _ _).append_left _).append_right _
  | crash =>
    refine ⟨opened.sublist ?_, later⟩
    simp only [jobs, List.map_append, List.map_cons]
    exact ((List.sublist_cons_self _ _).append_left _).append_right _
  | cancel =>
    refine ⟨opened.sublist ?_, later⟩
    exact ((List.sublist_cons_self _ _).append_left _).append_left _
  | next => exact ⟨later _ List.mem_cons_self, fun jobs member => later jobs (.tail _ member)⟩

/-- Items in work at once are apart, if those of different jobs of one pool are. -/
theorem pairwise_inWork (symmetric : ∀ a b, separate a b → separate b a)
    (reached : (system workers pools).Reachable s)
    (held : ∀ jobs ∈ pools, Apart separate jobs) : s.inWork.Pairwise separate := by
  have kept : Apart separate s.jobs ∧ ∀ jobs ∈ s.later, Apart separate jobs := by
    apply reached.invariant fun s => Apart separate s.jobs ∧ ∀ jobs ∈ s.later, Apart separate jobs
    · rintro _ rfl
      exact ⟨List.Pairwise.nil, held⟩
    · intro s event t held _ step
      exact Step.apart symmetric step held
  have running : Apart separate (s.running.map fun entry => entry.1 :: entry.2) :=
    kept.1.sublist (List.sublist_append_left _ _)
  rw [Apart, List.pairwise_map] at running
  rw [inWork, List.pairwise_map]
  exact running.imp fun across => across _ List.mem_cons_self _ List.mem_cons_self

end Apart

end WorkerPools

end FlOp.Library
