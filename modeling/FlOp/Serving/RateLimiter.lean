import FlOp.Core.Constants
import FlOp.Library.FixedWindow
import FlOp.Library.KeyedMachine
import Mathlib

/-! # The fixed-window rate limiter

Every key has a window, anchored at its first request and restarted by the first request that
finds it over. Refused requests are counted as well. A refusal names whole seconds to wait, at least
one, while the window ends at an exact time.
-/

namespace FlOp.Serving

open Library FlOp.Core

/-- A request the security layer refuses, with its HTTP mapping. -/
structure SecurityError where
  detail : String
  statusCode : ℕ
  headers : List (String × String) := []
deriving DecidableEq, Repr

/-- `RateLimitError`: status 429 with a `Retry-After` header. -/
def rateLimitError (detail : String) (retryAfterS : ℤ) : SecurityError where
  detail := detail
  statusCode := 429
  headers := [("Retry-After", toString retryAfterS)]

theorem rateLimitError_injective {detail text : String} {retryAfterS seconds : ℤ}
    (same : rateLimitError detail retryAfterS = rateLimitError text seconds) :
    retryAfterS = seconds := by
  simp only [rateLimitError, SecurityError.mk.injEq, List.cons.injEq, Prod.mk.injEq] at same
  exact Int.repr_inj.mp same.2.2.1.2

/-- The limiter's settings. -/
structure FixedWindowRateLimiter where
  maxRequests : ℤ
  windowS : ℚ
  /-- What the window prints as under the format `g`. -/
  windowText : String

/-- A request for a key, and the clock when it is checked. -/
structure RateCall where
  key : String
  now : Instant
deriving DecidableEq, Repr

/-- Where the window of each key started, and its count. -/
abbrev RateWindows := Dict String (Instant × ℕ)

/-- A checked request with the window it was counted in. -/
structure RateOutcome where
  call : RateCall
  windowStart : Instant
  refusal : Option SecurityError
deriving DecidableEq, Repr

def RateOutcome.allowed (outcome : RateOutcome) : Bool := outcome.refusal.isNone

namespace FixedWindowRateLimiter

variable (limiter : FixedWindowRateLimiter)

def enabled : Bool := 0 < limiter.maxRequests ∧ 0 < limiter.windowS

/-- The error raised past the budget. -/
def exceeded (now windowStart : Instant) : SecurityError :=
  rateLimitError s!"rate limit exceeded ({limiter.maxRequests}/{limiter.windowText}s)"
    (max 1 (Instant.truncated (limiter.windowS - (now - windowStart))))

/-- `check`: the windows afterwards, and the error when there is one. -/
def check (windows : RateWindows) (call : RateCall) : RateWindows × Option SecurityError :=
  if limiter.enabled then
    let held := windows.getD call.key (call.now, 0)
    let window := if limiter.windowS ≤ call.now - held.1 then (call.now, 0) else held
    let count := window.2 + 1
    (windows.set call.key (window.1, count),
      if limiter.maxRequests < count then some (limiter.exceeded call.now window.1) else none)
  else (windows, none)

/-- Any number of calls, one after the other. -/
def serve : RateWindows → List RateCall → List RateOutcome
  | _, [] => []
  | windows, call :: rest =>
    let (after, refusal) := limiter.check windows call
    ⟨call, (after.getD call.key (call.now, 0)).1, refusal⟩ :: serve after rest

/-- The counter of a single key. -/
def counter : Machine (Instant × ℕ) Instant (Tick Instant) := fun held now =>
  let window := Tick.advance limiter.windowS held now
  (window, ⟨now, window.1, window.2⟩)

/-- The outcome of a counted request. -/
def outcome (item : String × Tick Instant) : RateOutcome :=
  ⟨⟨item.1, item.2.moment⟩, item.2.start,
    if limiter.maxRequests < item.2.number then
      some (limiter.exceeded item.2.moment item.2.start) else none⟩

variable {limiter}

theorem budget_pos (on : limiter.enabled = true) : 0 < limiter.maxRequests :=
  (of_decide_eq_true on).1

theorem windowS_pos (on : limiter.enabled = true) : 0 < limiter.windowS :=
  (of_decide_eq_true on).2

/-- A check is a step of the counter of its key. -/
theorem check_eq (on : limiter.enabled = true) (windows : RateWindows) (call : RateCall) :
    limiter.check windows call =
      ((Machine.keyedStep limiter.counter windows call.key call.now).1,
        (limiter.outcome (call.key,
          (Machine.keyedStep limiter.counter windows call.key call.now).2)).refusal) := by
  rw [check, if_pos on]
  simp only [Machine.keyedStep, counter, outcome, Tick.advance, Dict.getD]
  split
  · rename_i ended
    simp only [ended, if_true]
  · rename_i going
    simp only [going, if_false]

theorem serve_eq (on : limiter.enabled = true) (windows : RateWindows) (calls : List RateCall) :
    limiter.serve windows calls =
      (Machine.keyedOutputs limiter.counter windows
        (calls.map fun call => (call.key, call.now))).map limiter.outcome := by
  induction calls generalizing windows with
  | nil => rfl
  | cons call rest ih =>
    rw [serve, check_eq on, List.map_cons, Machine.keyedOutputs, List.map_cons]
    simp only [ih, Machine.keyedStep, Dict.getD_set, if_pos]
    rfl

theorem outputs_counter (held : Option (Instant × ℕ)) (nows : List Instant) :
    Machine.outputs limiter.counter held nows = Tick.ticks limiter.windowS held nows := by
  induction nows generalizing held with
  | nil => rfl
  | cons now rest ih =>
    rw [Machine.outputs, Tick.ticks, ih]
    rfl

/-- The clock readings of one key's requests. -/
def moments (key : String) (calls : List RateCall) : List Instant :=
  (calls.filter fun call => call.key = key).map RateCall.now

/-- What a key's counter counts on the key's own requests. -/
theorem ofKey_counted (calls : List RateCall) (key : String) :
    Machine.ofKey key (Machine.keyedOutputs limiter.counter .empty
        (calls.map fun call => (call.key, call.now))) =
      Tick.ticks limiter.windowS none (moments key calls) := by
  rw [Machine.ofKey_keyedOutputs, outputs_counter, Dict.get?_empty]
  congr 1
  rw [Machine.ofKey, List.filter_map, List.map_map]
  rfl

theorem moments_ordered {calls : List RateCall}
    (ordered : calls.Pairwise fun earlier later => earlier.now ≤ later.now) (key : String) :
    (moments key calls).Pairwise (· ≤ ·) :=
  (ordered.sublist List.filter_sublist).map _ fun _ _ before => before

/-- A request is let through when its number is within the budget. -/
theorem allowed_outcome (on : limiter.enabled = true) (item : String × Tick Instant) :
    (limiter.outcome item).allowed = decide (item.2.number ≤ limiter.maxRequests.toNat) := by
  have positive := budget_pos on
  rw [RateOutcome.allowed, outcome]
  split
  · rename_i past
    exact (decide_eq_false (by omega)).symm
  · rename_i fits
    exact (decide_eq_true (by omega)).symm

/-- Outcomes of one key are counted on the ticks of its counter. -/
theorem countP_serve (on : limiter.enabled = true) (calls : List RateCall) (key : String)
    (p : RateOutcome → Bool) (q : Tick Instant → Bool)
    (agree : ∀ tick, p (limiter.outcome (key, tick)) = q tick) :
    (limiter.serve .empty calls).countP (fun outcome => outcome.call.key = key ∧ p outcome) =
      (Tick.ticks limiter.windowS none (moments key calls)).countP q := by
  rw [serve_eq on, List.countP_map, ← ofKey_counted, Machine.countP_ofKey]
  refine List.countP_congr fun item _ => ?_
  obtain ⟨other, tick⟩ := item
  simp only [Function.comp, decide_eq_true_eq]
  constructor
  · rintro ⟨same, chosen⟩
    have same : other = key := same
    subst same
    exact ⟨rfl, agree tick ▸ chosen⟩
  · rintro ⟨same, chosen⟩
    have same : other = key := same
    subst same
    exact ⟨rfl, (agree tick).trans chosen⟩

theorem mem_serve {calls : List RateCall} {outcome : RateOutcome} (on : limiter.enabled = true)
    (member : outcome ∈ limiter.serve .empty calls) :
    ∃ tick ∈ Tick.ticks limiter.windowS none (moments outcome.call.key calls),
      limiter.outcome (outcome.call.key, tick) = outcome := by
  rw [serve_eq on] at member
  obtain ⟨⟨key, tick⟩, counted, rfl⟩ := List.mem_map.mp member
  refine ⟨tick, ?_, rfl⟩
  change tick ∈ Tick.ticks limiter.windowS none (moments key calls)
  rw [← ofKey_counted, Machine.ofKey]
  exact List.mem_map.mpr ⟨(key, tick), List.mem_filter.mpr ⟨counted, decide_eq_true rfl⟩, rfl⟩

/-- The requests of a key that came within the budget of one window. -/
theorem window_le (on : limiter.enabled = true) (calls : List RateCall) (key : String)
    (start : Instant) :
    (limiter.serve .empty calls).countP (fun outcome => outcome.call.key = key ∧
      (outcome.windowStart = start ∧ outcome.allowed)) ≤ limiter.maxRequests.toNat := by
  have counted := countP_serve on calls key
    (fun outcome => outcome.windowStart = start ∧ outcome.allowed)
    (Tick.within limiter.maxRequests.toNat start) (fun tick => by
      simp only [allowed_outcome on, Tick.within, decide_eq_true_eq]
      rfl)
  simp only [decide_eq_true_eq] at counted
  rw [counted]
  exact (Tick.countP_within_le (windowS_pos on) none _).trans (Nat.sub_le _ _)

/-- The requests of a key that an interval of one window's length lets through. -/
theorem interval_le (on : limiter.enabled = true) {calls : List RateCall}
    (ordered : calls.Pairwise fun earlier later => earlier.now ≤ later.now) (key : String)
    (opening : Instant) :
    (limiter.serve .empty calls).countP (fun outcome => outcome.call.key = key ∧
      ((opening ≤ outcome.call.now ∧ outcome.call.now < opening + limiter.windowS) ∧
        outcome.allowed)) ≤ 2 * limiter.maxRequests.toNat := by
  have counted := countP_serve on calls key
    (fun outcome => (opening ≤ outcome.call.now ∧
      outcome.call.now < opening + limiter.windowS) ∧ outcome.allowed)
    (fun tick => (opening ≤ tick.moment ∧ tick.moment < opening + limiter.windowS) ∧
      tick.number ≤ limiter.maxRequests.toNat) (fun tick => by
      simp only [allowed_outcome on, decide_eq_true_eq]
      rfl)
  simp only [decide_eq_true_eq] at counted
  rw [counted]
  exact Tick.countP_interval_le (windowS_pos on) (moments_ordered ordered key) opening

/-- A refused request comes after the budget of its window. -/
theorem le_of_refused (on : limiter.enabled = true) {calls : List RateCall}
    {past later : List RateOutcome} {outcome : RateOutcome}
    (shape : limiter.serve .empty calls = past ++ outcome :: later)
    (refused : outcome.allowed = false) :
    limiter.maxRequests.toNat ≤ past.countP (fun earlier =>
      earlier.call.key = outcome.call.key ∧
        (earlier.windowStart = outcome.windowStart ∧ earlier.allowed)) := by
  rw [serve_eq on] at shape
  obtain ⟨before, after, items_eq, rfl, after_eq⟩ := List.map_eq_append_iff.mp shape
  obtain ⟨item, rest, rfl, rfl, -⟩ := List.map_eq_cons_iff.mp after_eq
  obtain ⟨key, tick⟩ := item
  have ticks_eq : Machine.ofKey key (Machine.keyedOutputs limiter.counter .empty
      (calls.map fun call => (call.key, call.now))) =
        Tick.ticks limiter.windowS none (moments key calls) :=
    ofKey_counted calls key
  rw [items_eq, Machine.ofKey_append, Machine.ofKey_cons, if_pos rfl] at ticks_eq
  rw [allowed_outcome on] at refused
  have spent := Tick.budget_le_of_refused (windowS_pos on) ticks_eq.symm
    (not_le.mp (of_decide_eq_false refused))
  rw [Tick.carried, Nat.zero_add, Machine.countP_ofKey] at spent
  refine spent.trans (le_of_eq ?_)
  rw [List.countP_map]
  refine List.countP_congr fun earlier _ => ?_
  simp only [Function.comp, allowed_outcome on, Tick.within, decide_eq_true_eq]
  rfl

/-- The limiter answers the calls in order, and a key's outcomes depend on its own calls. -/
theorem filter_serve (on : limiter.enabled = true) (calls : List RateCall) (key : String) :
    (limiter.serve .empty calls).filter (fun outcome => outcome.call.key = key) =
      limiter.serve .empty (calls.filter fun call => call.key = key) := by
  rw [serve_eq on, serve_eq on, List.filter_map]
  have alone := Machine.filter_keyedOutputs limiter.counter
    (rfl : (Dict.empty : RateWindows).get? key = Dict.empty.get? key)
    (calls.map fun call => (call.key, call.now))
  rw [List.filter_map] at alone
  exact congrArg (List.map limiter.outcome) alone

theorem calls_serve (windows : RateWindows) (calls : List RateCall) :
    (limiter.serve windows calls).map RateOutcome.call = calls := by
  induction calls generalizing windows with
  | nil => rfl
  | cons call rest ih => rw [serve, List.map_cons, ih]

/-- On a clock that never goes back, every request lies in the window it is counted in. -/
theorem mem_window (on : limiter.enabled = true) {calls : List RateCall}
    (ordered : calls.Pairwise fun earlier later => earlier.now ≤ later.now)
    {outcome : RateOutcome} (member : outcome ∈ limiter.serve .empty calls) :
    outcome.windowStart ≤ outcome.call.now ∧
      outcome.call.now < outcome.windowStart + limiter.windowS := by
  obtain ⟨tick, counted, same⟩ := mem_serve on member
  rw [← same]
  exact ⟨Tick.start_le_moment (windowS_pos on) (moments_ordered ordered _)
      (by intro _ _ absurd; cases absurd) counted,
    (Tick.start_of_mem_ticks (windowS_pos on) counted).2⟩

/-- The windows of one key are the same or start at least one window's length apart. -/
theorem windows_apart (on : limiter.enabled = true) {calls : List RateCall}
    {one other : RateOutcome} (first : one ∈ limiter.serve .empty calls)
    (second : other ∈ limiter.serve .empty calls) (same_key : other.call.key = one.call.key) :
    other.windowStart = one.windowStart ∨
      one.windowStart + limiter.windowS ≤ other.windowStart ∨
      other.windowStart + limiter.windowS ≤ one.windowStart := by
  obtain ⟨tick, counted, same⟩ := mem_serve on first
  obtain ⟨tick', counted', same'⟩ := mem_serve on second
  rw [same_key] at counted'
  rw [← same, ← same']
  exact Tick.starts_apart_of_mem (windowS_pos on) counted counted'

variable (limiter) in
/-- What the limiter guarantees about a list of requests, answered in order. -/
structure Bounded (calls : List RateCall) : Prop where
  answered : (limiter.serve .empty calls).map RateOutcome.call = calls
  /-- Each request lies in its window, and windows of one key do not meet. -/
  inWindow : ∀ outcome ∈ limiter.serve .empty calls,
    outcome.windowStart ≤ outcome.call.now ∧
      outcome.call.now < outcome.windowStart + limiter.windowS
  apart : ∀ one ∈ limiter.serve .empty calls, ∀ other ∈ limiter.serve .empty calls,
    other.call.key = one.call.key → other.windowStart = one.windowStart ∨
      one.windowStart + limiter.windowS ≤ other.windowStart ∨
      other.windowStart + limiter.windowS ≤ one.windowStart
  /-- A window lets the budget through. -/
  window : ∀ key start, ((limiter.serve .empty calls).countP (fun outcome =>
    outcome.call.key = key ∧ (outcome.windowStart = start ∧ outcome.allowed)) : ℤ) ≤
      limiter.maxRequests
  /-- A half-open interval of a window's length lets twice the budget through. -/
  interval : ∀ key opening, ((limiter.serve .empty calls).countP (fun outcome =>
    outcome.call.key = key ∧
      ((opening ≤ outcome.call.now ∧ outcome.call.now < opening + limiter.windowS) ∧
        outcome.allowed)) : ℤ) ≤ 2 * limiter.maxRequests
  /-- When a request is refused, the whole budget of its window has been let through. -/
  refused : ∀ past outcome later, limiter.serve .empty calls = past ++ outcome :: later →
    outcome.allowed = false → (past.countP (fun earlier =>
      earlier.call.key = outcome.call.key ∧
        (earlier.windowStart = outcome.windowStart ∧ earlier.allowed)) : ℤ) =
      limiter.maxRequests
  /-- A key's outcomes are those of its own requests, served alone. -/
  own : ∀ key, (limiter.serve .empty calls).filter (fun outcome => outcome.call.key = key) =
    limiter.serve .empty (calls.filter fun call => call.key = key)

/-- Every enabled limiter keeps its bounds, for any requests on a clock that never goes back. -/
theorem serve_bounded (limiter : FixedWindowRateLimiter) (on : limiter.enabled = true)
    (calls : List RateCall)
    (ordered : calls.Pairwise fun earlier later => earlier.now ≤ later.now) :
    limiter.Bounded calls := by
  have positive := budget_pos on
  constructor
  · exact calls_serve .empty calls
  · exact fun outcome member => mem_window on ordered member
  · exact fun one first other second same => windows_apart on first second same
  · intro key start
    have bound := window_le on calls key start
    omega
  · intro key opening
    have bound := interval_le on ordered key opening
    omega
  · intro past outcome later shape refused
    have spent := le_of_refused on shape refused
    have bound := window_le on calls outcome.call.key outcome.windowStart
    rw [shape, List.countP_append] at bound
    omega
  · exact filter_serve on calls

/-- Three requests of one key within a minute, under a budget of two. -/
theorem serve_bounded_three :
    FixedWindowRateLimiter.Bounded ⟨2, 60, "60"⟩ [⟨"a", 0⟩, ⟨"a", 10⟩, ⟨"a", 20⟩] :=
  serve_bounded ⟨2, 60, "60"⟩ (by decide +kernel) _ (by decide +kernel)

section Retry

variable (limiter)

/-- The windows after any number of calls. -/
def windowsAfter (windows : RateWindows) (calls : List RateCall) : RateWindows :=
  calls.foldl (fun held call => (limiter.check held call).1) windows

/-- What is left of the window a call falls into. -/
def remaining (windows : RateWindows) (call : RateCall) : ℚ :=
  limiter.windowS - (call.now - (windows.getD call.key (call.now, 0)).1)

variable {limiter} {windows : RateWindows} {call : RateCall}

theorem windowsAfter_append (windows : RateWindows) (past later : List RateCall) :
    limiter.windowsAfter windows (past ++ later) =
      limiter.windowsAfter (limiter.windowsAfter windows past) later :=
  List.foldl_append

/-- A call leaves the windows of other keys alone. -/
theorem get?_check_of_ne {key : String} (other : call.key ≠ key) :
    (limiter.check windows call).1.get? key = windows.get? key := by
  rw [check]
  split
  · exact (Dict.get?_set _ _ _ _).trans (if_neg (Ne.symm other))
  · rfl

theorem get?_windowsAfter_of_ne {key : String} {calls : List RateCall}
    (silent : ∀ call ∈ calls, call.key ≠ key) :
    (limiter.windowsAfter windows calls).get? key = windows.get? key := by
  induction calls generalizing windows with
  | nil => rfl
  | cons call rest ih =>
    obtain ⟨other, silent⟩ := List.forall_mem_cons.mp silent
    exact (ih silent).trans (get?_check_of_ne other)

/-- A refused call was counted in a window that goes on, past the budget. -/
theorem check_refused {refusal : SecurityError}
    (refused : (limiter.check windows call).2 = some refusal) :
    limiter.enabled = true ∧
      ∃ start count, (limiter.check windows call).1.get? call.key = some (start, count) ∧
        limiter.maxRequests < count ∧
        limiter.windowS - (call.now - start) = limiter.remaining windows call ∧
        refusal = limiter.exceeded call.now start := by
  rw [check] at refused ⊢
  split at refused
  · rename_i on
    rw [if_pos on]
    have positive := budget_pos on
    refine ⟨on, ?_⟩
    simp only at refused ⊢
    by_cases ended :
        limiter.windowS ≤ call.now - (windows.getD call.key (call.now, 0)).1
    · -- the first request of a window is within the budget
      rw [if_pos ended] at refused
      rw [if_neg (by simp only; omega)] at refused
      cases refused
    · rw [if_neg ended] at refused ⊢
      split at refused
      · rename_i past
        refine ⟨_, _, (Dict.get?_set _ _ _ _).trans (if_pos rfl), past, rfl, ?_⟩
        exact (Option.some.inj refused).symm
      · cases refused
  · cases refused

/-- When its key has spent the budget of a window, a call is let through once the window ends. -/
theorem check_allowed_iff (on : limiter.enabled = true) {start : Instant} {count : ℕ}
    (held : windows.get? call.key = some (start, count)) (spent : limiter.maxRequests < count) :
    (limiter.check windows call).2 = none ↔ limiter.windowS ≤ call.now - start := by
  have positive := budget_pos on
  have window : windows.getD call.key (call.now, 0) = (start, count) := by
    rw [Dict.getD, held, Option.getD_some]
  rw [check, if_pos on]
  simp only [window]
  constructor
  · intro allowed
    by_contra going
    rw [if_neg going, if_pos (by simp only; omega)] at allowed
    cases allowed
  · intro ended
    rw [if_pos ended, if_neg (by simp only; omega)]

/-- Whole seconds, at least one, cover a time that is whole or at most a second. -/
theorem le_max_one_truncated_iff (time : ℚ) :
    time ≤ (max 1 (Instant.truncated time) : ℤ) ↔ time ≤ 1 ∨ ∃ seconds : ℤ, time = seconds := by
  rcases le_or_gt time 1 with short | long
  · have covered : (1 : ℚ) ≤ (max 1 (Instant.truncated time) : ℤ) := by
      exact_mod_cast le_max_left 1 _
    exact iff_of_true (short.trans covered) (Or.inl short)
  · have cut : Instant.truncated time = time.floor :=
      if_pos (zero_le_one.trans long.le)
    have whole : (1 : ℤ) ≤ time.floor := Rat.le_floor_iff.mpr (by exact_mod_cast long.le)
    rw [cut, max_eq_right whole]
    constructor
    · exact fun covered => Or.inr ⟨time.floor, le_antisymm covered (Rat.floor_le time)⟩
    · rintro (short | ⟨seconds, rfl⟩)
      · exact absurd short (not_le.mpr long)
      · rw [Rat.floor_intCast]

/-- However many calls came before, a refused client that stays silent for as long as it is told
is let through then exactly when nothing was cut off the rest of its window: it was whole
seconds, or a second at most. -/
theorem retry_allowed_iff (limiter : FixedWindowRateLimiter) (past others : List RateCall)
    (call : RateCall) (detail : String) (retryAfterS : ℤ)
    (refused : (limiter.check (limiter.windowsAfter .empty past) call).2 =
      some (rateLimitError detail retryAfterS))
    (silent : ∀ other ∈ others, other.key ≠ call.key) :
    (limiter.check (limiter.windowsAfter .empty (past ++ call :: others))
        ⟨call.key, call.now + retryAfterS⟩).2 = none ↔
      limiter.remaining (limiter.windowsAfter .empty past) call ≤ 1 ∨
        ∃ seconds : ℤ, limiter.remaining (limiter.windowsAfter .empty past) call = seconds := by
  obtain ⟨on, start, count, counted, spent, rest, told⟩ := check_refused refused
  have held : (limiter.windowsAfter .empty (past ++ call :: others)).get? call.key =
      some (start, count) := by
    rw [windowsAfter_append]
    exact (get?_windowsAfter_of_ne silent).trans counted
  have seconds := rateLimitError_injective told
  rw [rest] at seconds
  rw [← le_max_one_truncated_iff, ← seconds, ← rest]
  have retried : (limiter.check (limiter.windowsAfter .empty (past ++ call :: others))
      ⟨call.key, call.now + retryAfterS⟩).2 = none ↔
        limiter.windowS ≤ call.now + retryAfterS - start :=
    check_allowed_iff on held spent
  rw [retried]
  constructor
  · exact fun ended => by linarith only [ended]
  · exact fun covered => by linarith only [covered]

/-- A minute with a whole number of seconds left. -/
theorem retry_allowed_whole :
    (FixedWindowRateLimiter.check ⟨1, 60, "60"⟩
        (windowsAfter ⟨1, 60, "60"⟩ .empty ([⟨"a", 0⟩] ++ ⟨"a", 10⟩ :: [⟨"b", 20⟩]))
        ⟨"a", 10 + (50 : ℤ)⟩).2 = none ↔
      remaining ⟨1, 60, "60"⟩ (windowsAfter ⟨1, 60, "60"⟩ .empty [⟨"a", 0⟩]) ⟨"a", 10⟩ ≤ 1 ∨
        ∃ seconds : ℤ,
          remaining ⟨1, 60, "60"⟩ (windowsAfter ⟨1, 60, "60"⟩ .empty [⟨"a", 0⟩]) ⟨"a", 10⟩ =
            seconds :=
  retry_allowed_iff ⟨1, 60, "60"⟩ [⟨"a", 0⟩] [⟨"b", 20⟩] ⟨"a", 10⟩
    "rate limit exceeded (1/60s)" 50 (by decide +kernel) (by decide)

/-- Half a second into a minute a client is told to wait 59 seconds, and is refused again then. -/
theorem refused_as_told :
    (FixedWindowRateLimiter.check ⟨1, 60, "60"⟩
        (windowsAfter ⟨1, 60, "60"⟩ .empty [⟨"a", 0⟩]) ⟨"a", 1 / 2⟩).2 =
      some (rateLimitError "rate limit exceeded (1/60s)" 59) ∧
    (FixedWindowRateLimiter.check ⟨1, 60, "60"⟩
        (windowsAfter ⟨1, 60, "60"⟩ .empty [⟨"a", 0⟩, ⟨"a", 1 / 2⟩])
        ⟨"a", 1 / 2 + (59 : ℤ)⟩).2 =
      some (rateLimitError "rate limit exceeded (1/60s)" 1) := by
  decide +kernel

end Retry

end FixedWindowRateLimiter

end FlOp.Serving
