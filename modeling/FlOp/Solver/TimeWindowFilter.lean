import FlOp.Core.Constants
import FlOp.Core.Text
import FlOp.Library.Fallible
import FlOp.Solver.Rows

/-! # Time-window filter

A task is set aside if each of its windows has ended or opens after its deadline. Windows and
deadline are read from text, where a timestamp may lack its offset from universal time: it then
compares with no timestamp that has one.
-/

namespace FlOp.Solver.TimeWindows

open Canonical FlOp.Core Library

/-- Exceptions that reading and comparing timestamps can raise. -/
inductive ReadError where
  | valueError
  | syntaxError
  | typeError
  | memoryError
  | recursionError
deriving DecidableEq, Repr

/-- A parsed timestamp: a point in time, or a wall-clock reading without an offset. -/
inductive Stamp where
  | aware (instant : Instant)
  | naive (reading : ℚ)
deriving DecidableEq

/-- Timestamps of the same kind are in order, those of different kinds are not comparable. -/
instance : LE Stamp where
  le
    | .aware a, .aware b => a ≤ b
    | .naive a, .naive b => a ≤ b
    | _, _ => False

instance (a b : Stamp) : Decidable (a ≤ b) :=
  match a, b with
  | .aware a, .aware b => inferInstanceAs (Decidable (a ≤ b))
  | .naive a, .naive b => inferInstanceAs (Decidable (a ≤ b))
  | .aware _, .naive _ => isFalse id
  | .naive _, .aware _ => isFalse id

/-- Both timestamps have an offset, or neither has. -/
def Stamp.Comparable (a b : Stamp) : Prop := a ≤ b ∨ b ≤ a

instance (a b : Stamp) : Decidable (a.Comparable b) := inferInstanceAs (Decidable (_ ∨ _))

/-- `a <= b`. -/
def Stamp.atMost (a b : Stamp) : Except ReadError Bool :=
  if a.Comparable b then .ok (a ≤ b) else .error .typeError

/-- The text of an object, where `str` gives one. -/
abbrev ItemText := Except ReadError String

/-- What an order holds as windows: nothing, text, or a list of objects. -/
inductive RawWindows where
  | missing
  | text (raw : String)
  | items (texts : List ItemText)

/-- What an order holds as a deadline: nothing (or an empty list), text, or a list with some text. -/
inductive RawDeadline where
  | missing
  | text (raw : String)
  | items (written : ItemText)

/-- What reading needs of the language: the value of a literal, as the texts of its items if it is
a list or a tuple, and the timestamp that an ISO text names. -/
structure StampReader where
  literalEval : String → Except ReadError (Option (List ItemText))
  fromIsoformat : String → Option Stamp

/-- A parsed window; without an end it stays open. -/
abbrev Window := Stamp × Option Stamp

/-- An order with the texts that the filter reads. -/
structure WindowedOrder where
  taskId : String
  timeWindows : RawWindows
  deadline : RawDeadline := .missing

namespace StampReader

variable (reader : StampReader)

/-- A list, or a list written as text; text that is no literal is an item itself. -/
def asList : RawWindows → Except ReadError (List ItemText)
  | .missing => .ok []
  | .items texts => .ok texts
  | .text raw =>
    if strip raw.toList = [] then .ok []
    else
      match reader.literalEval raw with
      | .ok items => .ok (items.getD [.ok raw])
      | .error .valueError => .ok [.ok raw]
      | .error .syntaxError => .ok [.ok raw]
      | .error other => .error other

/-- Read an item "from/to"; without the slash, or with a bound that cannot be read, it is no
window. -/
def parseWindow (item : String) : Option Window :=
  let opening := item.toList.takeWhile (· ≠ '/')
  match item.toList.dropWhile (· ≠ '/') with
  | [] => none
  | _ :: closing =>
    if opening = [] then none
    else (reader.fromIsoformat (String.ofList opening)).bind fun start =>
      if closing = [] then some (start, none)
      else (reader.fromIsoformat (String.ofList closing)).map fun stop => (start, some stop)

/-- The windows of an order; malformed ones are skipped. -/
def parseTimeWindows (raw : RawWindows) : Except ReadError (List Window) :=
  (reader.asList raw).bind fun items => (items.mapM id).map (List.filterMap reader.parseWindow)

/-- The deadline of an order, none if it cannot be read. -/
def parseDeadline : RawDeadline → Except ReadError (Option Stamp)
  | .missing => .ok none
  | .text raw => .ok (if raw = "" then none else reader.fromIsoformat raw)
  | .items (.ok written) => .ok (reader.fromIsoformat written)
  | .items (.error .valueError) => .ok none
  | .items (.error other) => .error other

end StampReader

/-- The window has not ended by now and does not open after the deadline. -/
def usable (now : Instant) (deadline : Option Stamp) (window : Window) : Except ReadError Bool :=
  (window.2.elim (.ok false) fun stop => stop.atMost (.aware now)).bind fun ended =>
    if ended then .ok false else deadline.elim (.ok true) window.1.atMost

/-- Whether a window is usable; the first that is ends the search. -/
def anyUsable (now : Instant) (deadline : Option Stamp) : List Window → Except ReadError Bool
  | [] => .ok false
  | window :: rest =>
    (usable now deadline window).bind fun found =>
      if found then .ok true else anyUsable now deadline rest

def windowRecord (order : WindowedOrder) : InfeasibleRecord where
  taskId := order.taskId
  reasonCode := .contractWindowInfeasible
  detail := "no workable time window overlaps [now, deadline]"

namespace StampReader

variable (reader : StampReader) (now : Instant)

/-- The order stays: it declares no window, or a usable one. -/
def keeps (order : WindowedOrder) : Except ReadError Bool :=
  (reader.parseTimeWindows order.timeWindows).bind fun windows =>
    if windows = [] then .ok true
    else (reader.parseDeadline order.deadline).bind fun deadline => anyUsable now deadline windows

/-- Split off tasks none of whose workable windows can still be met. -/
def applyTimeWindowFilter :
    List WindowedOrder → Except ReadError (List WindowedOrder × List InfeasibleRecord)
  | [] => .ok ([], [])
  | order :: rest =>
    (reader.keeps now order).bind fun stays =>
      (applyTimeWindowFilter rest).map fun (kept, infeasible) =>
        if stays then (order :: kept, infeasible) else (kept, windowRecord order :: infeasible)

end StampReader

section Windows

variable (now : Instant) (deadline : Option Stamp)

def Window.EndedBy (window : Window) : Prop := ∃ stop ∈ window.2, stop ≤ .aware now

def Window.OpensAfter (window : Window) : Prop :=
  ∃ due ∈ deadline, due ≤ window.1 ∧ ¬ window.1 ≤ due

/-- The window has ended by now or opens after the deadline. -/
def Window.Missed (window : Window) : Prop := window.EndedBy now ∨ window.OpensAfter deadline

/-- What the filter compares is comparable: the end with now and, for a window that has not ended,
the start with the deadline. -/
def Window.Compares (window : Window) : Prop :=
  (∀ stop ∈ window.2, stop.Comparable (.aware now)) ∧
    (¬ window.EndedBy now → ∀ due ∈ deadline, window.1.Comparable due)

instance (window : Window) : Decidable (window.EndedBy now) :=
  inferInstanceAs (Decidable (∃ stop ∈ window.2, _))

instance (window : Window) : Decidable (window.OpensAfter deadline) :=
  inferInstanceAs (Decidable (∃ due ∈ deadline, _))

instance (window : Window) : Decidable (window.Missed now deadline) :=
  inferInstanceAs (Decidable (_ ∨ _))

variable {now deadline}

theorem Stamp.atMost_eq_ok_iff {a b : Stamp} {found : Bool} :
    a.atMost b = .ok found ↔ a.Comparable b ∧ found = decide (a ≤ b) := by
  rw [Stamp.atMost]
  split_ifs with comparable
  · rw [Except.ok.injEq, eq_comm]
    exact (and_iff_right comparable).symm
  · exact iff_of_false (fun same => nomatch same) fun both => comparable both.1

theorem ended_eq_ok_iff {window : Window} {found : Bool} :
    (window.2.elim (.ok false) fun stop => stop.atMost (.aware now)) = .ok found ↔
      (∀ stop ∈ window.2, stop.Comparable (.aware now)) ∧ found = decide (window.EndedBy now) := by
  obtain ⟨start, stop⟩ := window
  cases stop with
  | none => simp [Window.EndedBy, eq_comm]
  | some stop => simpa [Window.EndedBy] using Stamp.atMost_eq_ok_iff

theorem opens_eq_ok_iff {window : Window} {found : Bool} :
    deadline.elim (.ok true) window.1.atMost = .ok found ↔
      (∀ due ∈ deadline, window.1.Comparable due) ∧
        found = decide (¬ window.OpensAfter deadline) := by
  cases deadline with
  | none => simp [Window.OpensAfter, eq_comm]
  | some due =>
    have both : ∀ comparable : window.1.Comparable due,
        window.1 ≤ due ↔ ¬ window.OpensAfter (some due) := by
      intro comparable
      simp only [Window.OpensAfter, Option.mem_def, Option.some.injEq, exists_eq_left', not_and,
        not_not]
      exact ⟨fun before _ => before, fun before => comparable.elim id before⟩
    refine Stamp.atMost_eq_ok_iff.trans ?_
    simp only [Option.mem_def, Option.some.injEq, forall_eq']
    refine and_congr_right fun comparable => ?_
    rw [decide_eq_decide.mpr (both comparable)]

/-- A window is tested only if its timestamps compare, and it is usable if it is not missed. -/
theorem usable_eq_ok_iff {window : Window} {found : Bool} :
    usable now deadline window = .ok found ↔
      window.Compares now deadline ∧ found = decide (¬ window.Missed now deadline) := by
  rw [usable, Fallible.bind_eq_ok]
  simp only [ended_eq_ok_iff, Window.Compares, Window.Missed]
  by_cases ended : window.EndedBy now
  · simp [ended, eq_comm]
  · simp only [ended, not_false_eq_true, forall_const, false_or, decide_false]
    constructor
    · rintro ⟨_, ⟨stops, rfl⟩, opens⟩
      obtain ⟨comparable, same⟩ := opens_eq_ok_iff.mp opens
      exact ⟨⟨stops, comparable⟩, same⟩
    · rintro ⟨⟨stops, comparable⟩, same⟩
      exact ⟨false, ⟨stops, rfl⟩, opens_eq_ok_iff.mpr ⟨comparable, same⟩⟩

variable (now deadline) in
/-- Every window up to the first usable one compares. -/
def SearchCompares (windows : List Window) : Prop :=
  ∀ before window after, windows = before ++ window :: after →
    (∀ other ∈ before, other.Missed now deadline) → window.Compares now deadline

theorem searchCompares_cons {window : Window} {rest : List Window} :
    SearchCompares now deadline (window :: rest) ↔ window.Compares now deadline ∧
      (window.Missed now deadline → SearchCompares now deadline rest) := by
  constructor
  · intro compares
    refine ⟨compares [] window rest rfl (by simp), fun missed before other after same all => ?_⟩
    refine compares (window :: before) other after (congrArg (window :: ·) same) ?_
    exact List.forall_mem_cons.mpr ⟨missed, all⟩
  · rintro ⟨here, later⟩ before other after same all
    cases before with
    | nil =>
      obtain ⟨rfl, -⟩ := List.cons.inj same
      exact here
    | cons first before =>
      obtain ⟨rfl, split⟩ := List.cons.inj same
      obtain ⟨missed, further⟩ := List.forall_mem_cons.mp all
      exact later missed before other after split further

/-- The search ends with an answer exactly if what it looks at compares. -/
theorem anyUsable_eq_ok_iff {windows : List Window} {found : Bool} :
    anyUsable now deadline windows = .ok found ↔ SearchCompares now deadline windows ∧
      found = decide (∃ window ∈ windows, ¬ window.Missed now deadline) := by
  induction windows generalizing found with
  | nil => simp [anyUsable, SearchCompares, eq_comm]
  | cons window rest ih =>
    rw [anyUsable, Fallible.bind_eq_ok, searchCompares_cons]
    simp only [usable_eq_ok_iff, List.mem_cons, exists_eq_or_imp]
    by_cases missed : window.Missed now deadline
    · simp only [missed, not_true_eq_false, decide_false, forall_const, false_or]
      constructor
      · rintro ⟨_, ⟨compares, rfl⟩, later⟩
        obtain ⟨further, same⟩ := ih.mp later
        exact ⟨⟨compares, further⟩, same⟩
      · rintro ⟨⟨compares, further⟩, same⟩
        exact ⟨false, ⟨compares, rfl⟩, ih.mpr ⟨further, same⟩⟩
    · simp [missed, eq_comm]

end Windows

section Reading

variable (reader : StampReader)

/-- Every object of the list has a text. -/
def AllWritten (texts : List ItemText) : Prop := ∀ text ∈ texts, ∃ written, text = .ok written

/-- Reading raises nothing: text is a literal whose items have texts, or is found not to be one. -/
def RawWindows.Readable : RawWindows → Prop
  | .missing => True
  | .items texts => AllWritten texts
  | .text raw => strip raw.toList = [] ∨
      match reader.literalEval raw with
      | .ok literal => ∀ texts ∈ literal, AllWritten texts
      | .error raised => raised = .valueError ∨ raised = .syntaxError

def RawDeadline.Readable : RawDeadline → Prop
  | .items (.error raised) => raised = .valueError
  | _ => True

variable {reader}

theorem exists_written_iff {texts : List ItemText} :
    (∃ written, texts.mapM id = .ok written) ↔ AllWritten texts := by
  constructor
  · rintro ⟨written, run⟩ text member
    obtain ⟨result, -, same⟩ := Fallible.exists_result_of_mapM run member
    exact ⟨result, same⟩
  · intro all
    induction texts with
    | nil => exact ⟨[], rfl⟩
    | cons text rest ih =>
      obtain ⟨⟨written, rfl⟩, later⟩ := List.forall_mem_cons.mp all
      obtain ⟨others, run⟩ := ih later
      refine ⟨written :: others, ?_⟩
      rw [List.mapM_cons, run]
      rfl

theorem exists_windows_iff {raw : RawWindows} :
    (∃ windows, reader.parseTimeWindows raw = .ok windows) ↔ raw.Readable reader := by
  have parsed : (∃ windows, reader.parseTimeWindows raw = .ok windows) ↔
      ∃ items, reader.asList raw = .ok items ∧ AllWritten items := by
    simp only [StampReader.parseTimeWindows, Fallible.bind_eq_ok, Fallible.map_eq_ok,
      ← exists_written_iff]
    constructor
    · rintro ⟨_, items, listed, written, run, rfl⟩
      exact ⟨items, listed, written, run⟩
    · rintro ⟨items, listed, written, run⟩
      exact ⟨_, items, listed, written, run, rfl⟩
  have single : ∀ text : String, AllWritten [.ok text] :=
    fun text => List.forall_mem_singleton.mpr ⟨text, rfl⟩
  rw [parsed]
  cases raw with
  | missing => simp [StampReader.asList, RawWindows.Readable, AllWritten]
  | items texts => simp [StampReader.asList, RawWindows.Readable]
  | text raw =>
    rw [StampReader.asList, RawWindows.Readable]
    split_ifs with blank
    · simp [blank, AllWritten]
    · rw [or_iff_right blank]
      cases reader.literalEval raw with
      | ok items => cases items <;> simp [single]
      | error raised => cases raised <;> simp [single]

theorem exists_deadline_iff {raw : RawDeadline} :
    (∃ deadline, reader.parseDeadline raw = .ok deadline) ↔ raw.Readable := by
  cases raw with
  | missing => simp [StampReader.parseDeadline, RawDeadline.Readable]
  | text raw => simp [StampReader.parseDeadline, RawDeadline.Readable]
  | items written =>
    cases written with
    | ok text => simp [StampReader.parseDeadline, RawDeadline.Readable]
    | error raised => cases raised <;> simp [StampReader.parseDeadline, RawDeadline.Readable]

end Reading

namespace WindowedOrder

variable (order : WindowedOrder) (reader : StampReader) (now : Instant)

/-- The well-formed windows that the order declares. -/
def windows : List Window := (reader.parseTimeWindows order.timeWindows).toOption.getD []

/-- The deadline of the order, if it can be read. -/
def due : Option Stamp := (reader.parseDeadline order.deadline).toOption.join

/-- The order declares a window, and misses all it declares. -/
def Infeasible : Prop :=
  order.windows reader ≠ [] ∧
    ∀ window ∈ order.windows reader, window.Missed now (order.due reader)

instance : Decidable (order.Infeasible reader now) := inferInstanceAs (Decidable (_ ∧ _))

/-- Nothing is raised for the order: its windows are readable, and if there are any, so is its
deadline, and every window up to the first usable one compares. -/
structure Answered : Prop where
  windows : order.timeWindows.Readable reader
  deadline : order.windows reader ≠ [] → order.deadline.Readable
  compares : SearchCompares now (order.due reader) (order.windows reader)

variable {order reader now}

theorem not_infeasible (none : order.windows reader = []) : ¬ order.Infeasible reader now :=
  fun infeasible => infeasible.1 none

theorem infeasible_iff (declared : order.windows reader ≠ []) :
    order.Infeasible reader now ↔
      ∀ window ∈ order.windows reader, window.Missed now (order.due reader) :=
  and_iff_right declared

/-- The order stays exactly if it is answered and not infeasible. -/
theorem keeps_eq_ok_iff {stays : Bool} : reader.keeps now order = .ok stays ↔
    order.Answered reader now ∧ stays = decide (¬ order.Infeasible reader now) := by
  rw [StampReader.keeps, Fallible.bind_eq_ok]
  constructor
  · rintro ⟨windows, parsed, keeps⟩
    have readable := exists_windows_iff.mp ⟨windows, parsed⟩
    have listed : order.windows reader = windows := by
      rw [WindowedOrder.windows, parsed]
      rfl
    split_ifs at keeps with none
    · rw [none] at listed
      obtain rfl := Except.ok.inj keeps
      refine ⟨⟨readable, fun some => absurd listed some, ?_⟩, ?_⟩
      · rw [listed, SearchCompares]
        simp
      · exact (decide_eq_true (not_infeasible listed)).symm
    · obtain ⟨deadline, read, found⟩ := Fallible.bind_eq_ok.mp keeps
      have due : order.due reader = deadline := by
        rw [WindowedOrder.due, read]
        rfl
      obtain ⟨compares, same⟩ := anyUsable_eq_ok_iff.mp found
      rw [← listed] at none
      rw [← listed, ← due] at compares same
      refine ⟨⟨readable, fun _ => exists_deadline_iff.mp ⟨deadline, read⟩, compares⟩, ?_⟩
      rw [same, decide_eq_decide, infeasible_iff none]
      simp only [not_forall, exists_prop]
  · rintro ⟨⟨readable, readableDeadline, compares⟩, rfl⟩
    obtain ⟨windows, parsed⟩ := exists_windows_iff.mpr readable
    have listed : order.windows reader = windows := by
      rw [WindowedOrder.windows, parsed]
      rfl
    refine ⟨windows, parsed, ?_⟩
    split_ifs with none
    · rw [none] at listed
      exact congrArg Except.ok (decide_eq_true (not_infeasible listed)).symm
    · rw [← listed] at none
      obtain ⟨deadline, read⟩ := exists_deadline_iff.mpr (readableDeadline none)
      have due : order.due reader = deadline := by
        rw [WindowedOrder.due, read]
        rfl
      rw [due, listed] at compares
      refine Fallible.bind_eq_ok.mpr ⟨deadline, read, anyUsable_eq_ok_iff.mpr ⟨compares, ?_⟩⟩
      rw [decide_eq_decide, infeasible_iff none, due, listed]
      simp only [not_forall, exists_prop]

end WindowedOrder

/-- The filter raises nothing exactly if it does so for no order, and then splits the orders. -/
theorem applyTimeWindowFilter_eq_ok_iff {reader : StampReader} {now : Instant}
    {orders kept : List WindowedOrder} {infeasible : List InfeasibleRecord} :
    reader.applyTimeWindowFilter now orders = .ok (kept, infeasible) ↔
      (∀ order ∈ orders, order.Answered reader now) ∧
      kept = orders.filter (fun order => ¬ order.Infeasible reader now) ∧
      infeasible = (orders.filter fun order => order.Infeasible reader now).map windowRecord := by
  induction orders generalizing kept infeasible with
  | nil => simp [StampReader.applyTimeWindowFilter, eq_comm]
  | cons order rest ih =>
    rw [StampReader.applyTimeWindowFilter, Fallible.bind_eq_ok]
    simp only [WindowedOrder.keeps_eq_ok_iff, Fallible.map_eq_ok, List.forall_mem_cons,
      List.filter_cons]
    constructor
    · rintro ⟨_, ⟨answered, rfl⟩, ⟨others, records⟩, run, split⟩
      obtain ⟨all, rfl, rfl⟩ := ih.mp run
      refine ⟨⟨answered, all⟩, ?_⟩
      by_cases missed : order.Infeasible reader now
      · simpa [missed, eq_comm] using split
      · simpa [missed, eq_comm] using split
    · rintro ⟨⟨answered, all⟩, rfl, rfl⟩
      refine ⟨_, ⟨answered, rfl⟩, (_, _), ih.mpr ⟨all, rfl, rfl⟩, ?_⟩
      by_cases missed : order.Infeasible reader now
      · simp [missed]
      · simp [missed]

/-- The filter raises nothing, sets aside exactly the orders that miss all windows they declare and
keeps the others, exactly if every order is answered. -/
theorem applyTimeWindowFilter_iff (reader : StampReader) (now : Instant)
    (orders : List WindowedOrder) :
    (∃ kept infeasible, reader.applyTimeWindowFilter now orders = .ok (kept, infeasible) ∧
      kept = orders.filter (fun order => ¬ order.Infeasible reader now) ∧
      infeasible = (orders.filter fun order => order.Infeasible reader now).map windowRecord) ↔
    ∀ order ∈ orders, order.Answered reader now := by
  simp only [applyTimeWindowFilter_eq_ok_iff]
  constructor
  · rintro ⟨_, _, ⟨answered, -⟩, -⟩
    exact answered
  · intro answered
    exact ⟨_, _, ⟨answered, rfl, rfl⟩, rfl, rfl⟩

/-- Two timestamps of one morning without an offset. -/
def morningReader : StampReader where
  literalEval _ := .error .syntaxError
  fromIsoformat text :=
    if text = "2026-06-01T08:00:00" then some (.naive 1780300800)
    else if text = "2026-06-01T12:00:00" then some (.naive 1780315200)
    else none

def morningOrder : WindowedOrder where
  taskId := "t"
  timeWindows := .items [.ok "2026-06-01T08:00:00/2026-06-01T12:00:00"]

/-- A window without offsets raises. -/
theorem naive_window_raises : ¬ ∀ (reader : StampReader) (now : Instant)
    (orders : List WindowedOrder), ∃ kept infeasible,
      reader.applyTimeWindowFilter now orders = .ok (kept, infeasible) ∧
      kept = orders.filter (fun order => ¬ order.Infeasible reader now) ∧
      infeasible = (orders.filter fun order => order.Infeasible reader now).map windowRecord := by
  intro total
  obtain ⟨kept, infeasible, run, -⟩ := total morningReader 1780272000 [morningOrder]
  have raises : (morningReader.applyTimeWindowFilter 1780272000 [morningOrder]).toOption.isSome =
      false := by decide +kernel
  rw [run] at raises
  cases raises

end FlOp.Solver.TimeWindows
