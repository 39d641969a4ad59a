import FlOp.Solver.FleetModel

/-! # Execution outside blocked time

Blocked intervals are read up to the deadline of a task, which bounds its start and not its finish.
-/

namespace FlOp.Solver

open FlOp.Core Library

theorem inIntervals_shifted (intervals : List Interval) (now t : ℤ) :
    InIntervals (intervals.map fun interval => (interval.1 - now, interval.2 - now)) t ↔
      InIntervals intervals (now + t) := by
  constructor
  · rintro ⟨_, member, after, before⟩
    obtain ⟨interval, listed, rfl⟩ := List.mem_map.mp member
    dsimp only at after before
    exact ⟨interval, listed, by omega, by omega⟩
  · rintro ⟨interval, listed, after, before⟩
    refine ⟨_, List.mem_map_of_mem listed, ?_, ?_⟩
    all_goals dsimp only
    all_goals omega

namespace FleetCluster

variable (cluster : FleetCluster) (reader : WindowReader)

/-- The declared spans that a task is kept out of: the restriction windows of its site and the
weather that does not suit it. A span without an end stays blocked. -/
def blockedSpans (order : FleetOrder) : List (ℤ × Option ℤ) :=
  ((cluster.fieldMap.get? order.locationRef).elim [] reader.parseTimeWindows).map
      DeclaredWindow.seconds ++
    (cluster.weatherBlocked.getD order.taskId []).map fun window => (window.1, some window.2)

/-- The second is in a restriction window of the site or in blocked weather. -/
def Restricts (order : FleetOrder) (t : ℤ) : Prop :=
  ∃ span ∈ cluster.blockedSpans reader order, span.1 ≤ t ∧ ∀ stop ∈ span.2, t ≤ stop

section Execution

variable (assignment : FleetAssignment) (node : ℕ) (order : FleetOrder)

/-- No second of the execution is blocked. -/
def ExecutesUnblocked : Prop :=
  ∀ t, assignment.cumul node ≤ t →
    t < assignment.cumul node + cluster.vehicleServiceS assignment node →
      ¬ cluster.Restricts reader order (cluster.nowEpoch + t)

/-- Start and finish are inside one declared window. -/
def ExecutesWithinWindow : Prop :=
  HasWindows reader order → ∃ window ∈ reader.parseTimeWindows order.timeWindows,
    window.Holds (cluster.nowEpoch + assignment.cumul node) ∧
      window.Holds (cluster.nowEpoch + assignment.cumul node +
        cluster.vehicleServiceS assignment node)

/-- A blocked span begins after the deadline and before the execution ends. -/
def BlockBeginsLate : Prop :=
  ∃ span ∈ cluster.blockedSpans reader order, cluster.clampEnd reader order < span.1 ∧
    span.1 < cluster.nowEpoch + assignment.cumul node +
      cluster.vehicleServiceS assignment node ∧ ∀ stop ∈ span.2, span.1 ≤ stop

end Execution

variable {cluster reader} {assignment : FleetAssignment} {node : ℕ} {order : FleetOrder}

theorem restricts_iff (t : ℤ) : cluster.Restricts reader order t ↔
    (∃ raw ∈ cluster.fieldMap.get? order.locationRef,
      ∃ window ∈ reader.parseTimeWindows raw, window.Holds t) ∨
    InIntervals (cluster.weatherBlocked.getD order.taskId []) t := by
  simp only [Restricts, blockedSpans, List.mem_append, List.mem_map, or_and_right, exists_or]
  apply or_congr
  · cases cluster.fieldMap.get? order.locationRef with
    | none => simp
    | some raw =>
      simp [DeclaredWindow.seconds, DeclaredWindow.Holds]
  · simp [InIntervals]

/-- The blocked offsets are the restricted seconds from now to the deadline. -/
theorem inIntervals_blockedOccupancyOffsets (t : ℤ) :
    InIntervals (cluster.blockedOccupancyOffsets reader order) t ↔
      (0 ≤ t ∧ t ≤ cluster.deadlineFromNowS reader order) ∧
        cluster.Restricts reader order (cluster.nowEpoch + t) := by
  have bounds : (cluster.nowEpoch ≤ cluster.nowEpoch + t ∧
      cluster.nowEpoch + t ≤ cluster.clampEnd reader order) ↔
      0 ≤ t ∧ t ≤ cluster.deadlineFromNowS reader order := by
    unfold clampEnd
    omega
  have site : InIntervals ((cluster.fieldMap.get? order.locationRef).elim [] fun raw =>
        reader.windowIntervals raw cluster.nowEpoch (cluster.clampEnd reader order))
      (cluster.nowEpoch + t) ↔
      (0 ≤ t ∧ t ≤ cluster.deadlineFromNowS reader order) ∧
        ∃ raw ∈ cluster.fieldMap.get? order.locationRef,
          ∃ window ∈ reader.parseTimeWindows raw, window.Holds (cluster.nowEpoch + t) := by
    cases cluster.fieldMap.get? order.locationRef with
    | none => simp
    | some raw => simp only [Option.elim_some, reader.inIntervals_windowIntervals, bounds,
        Option.mem_some_iff, exists_eq_left']
  have weather : InIntervals (((cluster.weatherBlocked.getD order.taskId []).map fun window =>
        (max window.1 cluster.nowEpoch, min window.2 (cluster.clampEnd reader order))).filter
          fun interval => interval.1 ≤ interval.2) (cluster.nowEpoch + t) ↔
      (0 ≤ t ∧ t ≤ cluster.deadlineFromNowS reader order) ∧
        InIntervals (cluster.weatherBlocked.getD order.taskId []) (cluster.nowEpoch + t) := by
    rw [← bounds]
    simp only [InIntervals, List.mem_filter, List.mem_map, decide_eq_true_eq]
    constructor
    · rintro ⟨_, ⟨⟨window, listed, rfl⟩, -⟩, after, before⟩
      dsimp only at after before
      exact ⟨by omega, window, listed, by omega, by omega⟩
    · rintro ⟨inTime, window, listed, after, before⟩
      refine ⟨_, ⟨⟨window, listed, rfl⟩, ?_⟩, ?_, ?_⟩
      all_goals dsimp only
      all_goals omega
  rw [blockedOccupancyOffsets, inIntervals_shifted, inIntervals_mergeIntervals,
    inIntervals_append, site, weather, restricts_iff, and_or_left]

section Posted

variable (posted : cluster.TaskNodePosted reader assignment node order)
  (active : assignment.Active node)

include posted active

/-- An active node has a vehicle, so the constraints on its service are posted. -/
theorem serviceTimes_ne_nil : cluster.vehicleServiceTimes ≠ [] := by
  obtain ⟨vehicle, serves⟩ := Option.isSome_iff_exists.mp active
  have inside := posted.inFleet vehicle serves
  intro none
  have noVehicles := congrArg List.length none
  simp only [vehicleServiceTimes, List.length_map, List.length_nil] at noVehicles
  omega

theorem startOffsets_of_restricted
    (restricted : HasWindows reader order ∨ cluster.blockedOccupancyOffsets reader order ≠ []) :
    InIntervals (cluster.startOffsets reader order) (assignment.cumul node) := by
  have domain := posted.restrictsStart restricted
  split_ifs at domain with none
  · exact absurd active domain
  · exact domain

/-- Up to the deadline execution is never blocked. -/
theorem not_restricts_by_deadline {t : ℤ} (after : assignment.cumul node ≤ t)
    (before : t < assignment.cumul node + cluster.vehicleServiceS assignment node)
    (inTime : t ≤ cluster.deadlineFromNowS reader order) :
    ¬ cluster.Restricts reader order (cluster.nowEpoch + t) := by
  intro restricts
  have begins := posted.startRange.1
  have blocked := (inIntervals_blockedOccupancyOffsets t).mpr
    ⟨⟨by omega, inTime⟩, restricts⟩
  obtain ⟨block, listed, opens, closes⟩ := blocked
  have nonempty := List.ne_nil_of_mem listed
  -- the start itself is in no block
  have startFree := startOffsets_of_restricted posted active (.inr nonempty)
  rw [startOffsets, inIntervals_subtractIntervals] at startFree
  have outside : ¬ (block.1 ≤ assignment.cumul node ∧ assignment.cumul node ≤ block.2) :=
    fun inside => startFree.2 ⟨block, listed, inside⟩
  by_cases origin : 0 < block.1
  · rcases posted.occupiesFreeTime (serviceTimes_ne_nil posted active) block listed origin with
      finishes | starts | dropped
    · omega
    · omega
    · exact dropped active
  · omega

/-- A task with windows starts and finishes in one of them. -/
theorem executesWithinWindow : cluster.ExecutesWithinWindow reader assignment node order := by
  intro windows
  have start := startOffsets_of_restricted posted active (.inl windows)
  rw [startOffsets, if_pos windows, inIntervals_subtractIntervals] at start
  obtain ⟨⟨opening, listed, -⟩, -⟩ := start
  have fits := posted.finishesWithinWindow (serviceTimes_ne_nil posted active) windows
    (List.ne_nil_of_mem listed)
  obtain ⟨_, offset, opens, closes⟩ := fits.resolve_right (not_not_intro active)
  obtain ⟨interval, member, rfl⟩ := List.mem_map.mp offset
  obtain ⟨window, parsed, holds⟩ := reader.exists_window_of_mem member
  dsimp only at opens closes
  exact ⟨window, parsed, holds _ (by omega) (by omega), holds _ (by omega) (by omega)⟩

/-- Execution meets no blocked time if and only if no span that begins after the deadline begins
before it ends. -/
theorem executesUnblocked_iff : cluster.ExecutesUnblocked reader assignment node order ↔
    ¬ cluster.BlockBeginsLate reader assignment node order := by
  have inTime := posted.startRange.2
  have deadline : cluster.clampEnd reader order =
      cluster.nowEpoch + cluster.deadlineFromNowS reader order := rfl
  constructor
  · rintro unblocked ⟨span, declared, late, begins, nonempty⟩
    apply unblocked (span.1 - cluster.nowEpoch) (by omega) (by omega)
    refine ⟨span, declared, by omega, fun stop closes => ?_⟩
    have stops := nonempty stop closes
    omega
  · intro onTime t after before restricts
    by_cases byDeadline : t ≤ cluster.deadlineFromNowS reader order
    · exact not_restricts_by_deadline posted active after before byDeadline restricts
    · obtain ⟨span, declared, opens, closes⟩ := restricts
      by_cases late : cluster.clampEnd reader order < span.1
      · exact onTime ⟨span, declared, late, by omega, fun stop listed =>
          opens.trans (closes stop listed)⟩
      · -- the span holds the deadline itself, which execution runs through
        apply not_restricts_by_deadline posted active inTime (by omega) le_rfl
        refine ⟨span, declared, by omega, fun stop listed => ?_⟩
        have stops := closes stop listed
        omega

end Posted

/-- A task whose posted constraints hold executes outside blocked time and inside one window if and
only if no block begins after its deadline and before it ends. -/
theorem executes_clear_iff (cluster : FleetCluster) (reader : WindowReader)
    (assignment : FleetAssignment) (node : ℕ) (order : FleetOrder)
    (posted : cluster.TaskNodePosted reader assignment node order)
    (active : assignment.Active node) :
    (cluster.ExecutesUnblocked reader assignment node order ∧
      cluster.ExecutesWithinWindow reader assignment node order) ↔
      ¬ cluster.BlockBeginsLate reader assignment node order := by
  rw [executesUnblocked_iff posted active]
  exact and_iff_left (executesWithinWindow posted active)

section Curfew

/-- A site that is closed from half past seven to nine. -/
def curfewReader : WindowReader where
  literalItems _ := none
  fromIsoformat text :=
    if text = "2026-05-01T07:00:00+00:00" then some 1777618800
    else if text = "2026-05-01T07:30:00+00:00" then some 1777620600
    else if text = "2026-05-01T09:00:00+00:00" then some 1777626000
    else none

/-- An hour of spraying, to be started by seven. -/
def sprayOrder : FleetOrder where
  taskId := "spray"
  locationRef := "north"
  deadline := "2026-05-01T07:00:00+00:00"
  serviceDurationMin := 60

/-- The cluster at six. -/
def sprayCluster : FleetCluster where
  orders := [sprayOrder]
  implements := [{}]
  fieldMap := Dict.empty.set "north"
    (.items ["2026-05-01T07:30:00+00:00/2026-05-01T09:00:00+00:00"])
  nowEpoch := 1777615200

/-- Spraying begins ten minutes before the deadline. -/
def sprayAssignment : FleetAssignment where
  cumul _ := 3000
  vehicle node := if node = 1 then some 0 else none

theorem sprayAssignment_posted :
    sprayCluster.TaskNodePosted curfewReader sprayAssignment 1 sprayOrder := by
  have noBlocks : sprayCluster.blockedOccupancyOffsets curfewReader sprayOrder = [] := by
    decide +kernel
  have noWindows : ¬ HasWindows curfewReader sprayOrder := by decide
  constructor
  · decide
  · decide +kernel
  · exact fun restricted => absurd noBlocks (restricted.resolve_left noWindows)
  · intro _ block listed
    rw [noBlocks] at listed
    exact absurd listed List.not_mem_nil
  · exact fun _ windows => absurd windows noWindows

theorem executes_clear_iff_spray :
    (sprayCluster.ExecutesUnblocked curfewReader sprayAssignment 1 sprayOrder ∧
      sprayCluster.ExecutesWithinWindow curfewReader sprayAssignment 1 sprayOrder) ↔
      ¬ sprayCluster.BlockBeginsLate curfewReader sprayAssignment 1 sprayOrder :=
  executes_clear_iff sprayCluster curfewReader sprayAssignment 1 sprayOrder sprayAssignment_posted
    (by decide)

/-- Spraying goes on into the curfew. -/
theorem spraying_meets_curfew :
    ¬ ∀ (cluster : FleetCluster) (reader : WindowReader) (assignment : FleetAssignment)
      (node order : ℕ) (row : FleetOrder), cluster.IsTask node order row →
        cluster.TaskNodePosted reader assignment node row → assignment.Active node →
          cluster.ExecutesUnblocked reader assignment node row ∧
            cluster.ExecutesWithinWindow reader assignment node row := by
  intro clear
  have unblocked := (clear sprayCluster curfewReader sprayAssignment 1 0 sprayOrder (by decide)
    sprayAssignment_posted (by decide)).1
  apply unblocked 5400 (by decide) (by decide +kernel)
  exact ⟨(1777620600, some 1777626000), by decide +kernel, by decide, by decide⟩

end Curfew

end FleetCluster

end FlOp.Solver
