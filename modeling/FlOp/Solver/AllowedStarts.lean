import FlOp.Core.Constants
import FlOp.Core.Text
import FlOp.Solver.Restrictions

/-! # Admissible starts

Declared windows are read from the text of a row. A task may start in the seconds of its workable
windows, up to its deadline and outside the restriction windows of its site.
-/

namespace FlOp.Solver

open FlOp.Core Library

/-- What a row declares as windows: nothing, a list written as text, or a list of items, each as
its own text. -/
inductive RawWindows where
  | missing
  | text (raw : String)
  | items (texts : List String)
deriving DecidableEq, Repr

/-- What reading windows needs of the language: the items of a list literal, each as its text, and
the instant that an ISO text names. -/
structure WindowReader where
  literalItems : String → Option (List String)
  fromIsoformat : String → Option Instant

/-- A parsed window; without an end it stays open. -/
abbrev DeclaredWindow := Instant × Option Instant

/-- The window in whole epoch seconds. -/
def DeclaredWindow.seconds (window : DeclaredWindow) : ℤ × Option ℤ :=
  (window.1.truncated, window.2.map Instant.truncated)

namespace WindowReader

variable (reader : WindowReader)

/-- A list, or a list written as text. -/
def asList : RawWindows → List String
  | .missing => []
  | .items texts => texts
  | .text raw => if strip raw.toList = [] then [] else (reader.literalItems raw).getD [raw]

/-- Read an item "from/to"; without the slash, or with a bound that cannot be read, it is no
window. -/
def parseTimeWindow (item : String) : Option DeclaredWindow :=
  let opening := item.toList.takeWhile (· ≠ '/')
  match item.toList.dropWhile (· ≠ '/') with
  | [] => none
  | _ :: closing =>
    if opening = [] then none
    else (reader.fromIsoformat (String.ofList opening)).bind fun start =>
      if closing = [] then some (start, none)
      else (reader.fromIsoformat (String.ofList closing)).map fun stop => (start, some stop)

/-- The windows of a row; malformed ones are skipped. -/
def parseTimeWindows (raw : RawWindows) : List DeclaredWindow :=
  (reader.asList raw).filterMap reader.parseTimeWindow

/-- Declared windows as intervals of whole seconds within bounds. -/
def windowIntervals (raw : RawWindows) (clampStart clampEnd : ℤ) : List Interval :=
  epochIntervals ((reader.parseTimeWindows raw).map DeclaredWindow.seconds) clampStart clampEnd

/-- The seconds in which execution may start. `timeWindows` are those of the task, and
`restrictionWindows` those of its site if it is known. -/
def allowedStartIntervals (timeWindows : RawWindows) (restrictionWindows : Option RawWindows)
    (nowEpoch deadlineEpoch : ℤ) : List Interval :=
  let workable := reader.windowIntervals timeWindows nowEpoch deadlineEpoch
  let base := if reader.parseTimeWindows timeWindows = [] then [(nowEpoch, deadlineEpoch)]
    else workable
  let blocked := restrictionWindows.elim [] fun raw =>
    reader.windowIntervals raw nowEpoch deadlineEpoch
  subtractIntervals base blocked

end WindowReader

/-- A second of a window, from its first whole second to its last one. -/
def DeclaredWindow.Holds (window : DeclaredWindow) (t : ℤ) : Prop :=
  window.1.truncated ≤ t ∧ ∀ stop ∈ window.2, t ≤ stop.truncated

/-- A second in which execution may start. -/
structure WindowReader.AdmissibleStart (reader : WindowReader) (timeWindows : RawWindows)
    (restrictionWindows : Option RawWindows) (nowEpoch deadlineEpoch t : ℤ) : Prop where
  inTime : nowEpoch ≤ t ∧ t ≤ deadlineEpoch
  workable : reader.parseTimeWindows timeWindows = [] ∨
    ∃ window ∈ reader.parseTimeWindows timeWindows, window.Holds t
  unrestricted : ∀ raw ∈ restrictionWindows, ∀ window ∈ reader.parseTimeWindows raw,
    ¬ window.Holds t

/-- Clamping keeps the seconds within the bounds. -/
theorem inIntervals_epochIntervals (windows : List (ℤ × Option ℤ)) (clampStart clampEnd t : ℤ) :
    InIntervals (epochIntervals windows clampStart clampEnd) t ↔
      (clampStart ≤ t ∧ t ≤ clampEnd) ∧
        ∃ window ∈ windows, window.1 ≤ t ∧ ∀ stop ∈ window.2, t ≤ stop := by
  have clamped (window : ℤ × Option ℤ) : t ≤ window.2.elim clampEnd (min clampEnd) ↔
      t ≤ clampEnd ∧ ∀ stop ∈ window.2, t ≤ stop := by
    cases window.2 with
    | none => simp
    | some stop => simp
  simp only [InIntervals, epochIntervals, List.mem_filter, List.mem_map, decide_eq_true_eq]
  constructor
  · rintro ⟨_, ⟨⟨window, declared, rfl⟩, -⟩, after, before⟩
    obtain ⟨inTime, stops⟩ := (clamped window).mp before
    exact ⟨⟨(le_max_left _ _).trans after, inTime⟩, window, declared,
      (le_max_right _ _).trans after, stops⟩
  · rintro ⟨⟨after, before⟩, window, declared, opens, stops⟩
    have starts : max clampStart window.1 ≤ t := max_le after opens
    have ends := (clamped window).mpr ⟨before, stops⟩
    exact ⟨_, ⟨⟨window, declared, rfl⟩, starts.trans ends⟩, starts, ends⟩

namespace WindowReader

variable (reader : WindowReader)

theorem inIntervals_windowIntervals (raw : RawWindows) (clampStart clampEnd t : ℤ) :
    InIntervals (reader.windowIntervals raw clampStart clampEnd) t ↔
      (clampStart ≤ t ∧ t ≤ clampEnd) ∧ ∃ window ∈ reader.parseTimeWindows raw, window.Holds t := by
  have inSeconds (window : DeclaredWindow) : ((window.seconds.1 ≤ t ∧
      ∀ stop ∈ window.seconds.2, t ≤ stop) ↔ window.Holds t) := by
    simp [DeclaredWindow.seconds, DeclaredWindow.Holds]
  rw [windowIntervals, inIntervals_epochIntervals]
  apply and_congr_right'
  constructor
  · rintro ⟨_, declared, holds⟩
    obtain ⟨window, parsed, rfl⟩ := List.mem_map.mp declared
    exact ⟨window, parsed, (inSeconds window).mp holds⟩
  · rintro ⟨window, parsed, holds⟩
    exact ⟨window.seconds, List.mem_map_of_mem parsed, (inSeconds window).mpr holds⟩

/-- Each interval is a part of one window. -/
theorem exists_window_of_mem {raw : RawWindows} {clampStart clampEnd : ℤ} {interval : Interval}
    (member : interval ∈ reader.windowIntervals raw clampStart clampEnd) :
    ∃ window ∈ reader.parseTimeWindows raw,
      ∀ t, interval.1 ≤ t → t ≤ interval.2 → window.Holds t := by
  obtain ⟨clamped, -⟩ := List.mem_filter.mp member
  obtain ⟨_, declared, rfl⟩ := List.mem_map.mp clamped
  obtain ⟨window, parsed, rfl⟩ := List.mem_map.mp declared
  refine ⟨window, parsed, fun t after before => ⟨(le_max_right _ _).trans after, ?_⟩⟩
  intro stop closes
  have ends : window.seconds.2 = some stop.truncated := by
    rw [DeclaredWindow.seconds, Option.mem_def.mp closes]
    rfl
  rw [ends] at before
  exact before.trans (min_le_right _ _)

theorem inIntervals_allowedStartIntervals (timeWindows : RawWindows)
    (restrictionWindows : Option RawWindows) (nowEpoch deadlineEpoch t : ℤ) :
    InIntervals (reader.allowedStartIntervals timeWindows restrictionWindows nowEpoch
      deadlineEpoch) t ↔
      reader.AdmissibleStart timeWindows restrictionWindows nowEpoch deadlineEpoch t := by
  have base : InIntervals (if reader.parseTimeWindows timeWindows = [] then
        [(nowEpoch, deadlineEpoch)] else
        reader.windowIntervals timeWindows nowEpoch deadlineEpoch) t ↔
      (nowEpoch ≤ t ∧ t ≤ deadlineEpoch) ∧ (reader.parseTimeWindows timeWindows = [] ∨
        ∃ window ∈ reader.parseTimeWindows timeWindows, window.Holds t) := by
    split_ifs with none
    · simp [none]
    · simp only [inIntervals_windowIntervals, none, false_or]
  have blocked : InIntervals (restrictionWindows.elim [] fun raw =>
        reader.windowIntervals raw nowEpoch deadlineEpoch) t ↔
      (nowEpoch ≤ t ∧ t ≤ deadlineEpoch) ∧ ∃ raw ∈ restrictionWindows,
        ∃ window ∈ reader.parseTimeWindows raw, window.Holds t := by
    cases restrictionWindows with
    | none => simp
    | some raw => simp [inIntervals_windowIntervals]
  rw [allowedStartIntervals, inIntervals_subtractIntervals, base, blocked]
  constructor
  · rintro ⟨⟨inTime, workable⟩, free⟩
    exact ⟨inTime, workable, fun raw site window declared holds =>
      free ⟨inTime, raw, site, window, declared, holds⟩⟩
  · rintro ⟨inTime, workable, unrestricted⟩
    refine ⟨⟨inTime, workable⟩, ?_⟩
    rintro ⟨-, raw, site, window, declared, holds⟩
    exact unrestricted raw site window declared holds

end WindowReader

end FlOp.Solver
