import FlOp.Planning.HoldSchedule
import Mathlib.Data.Set.Finite.Lemmas

/-! # Published shifts

A hold reaches the assignments through their task ids: committed work ignores it, and where
several flights share an id the last held one decides. The shift of an assignment is therefore
described by the chains that push that flight.
-/

namespace FlOp.Planning

open Canonical FlOp.Core Library

/-- Seconds by which a hold moves an assignment. -/
def publishedShift (holds : Dict String ℚ) (a : Assignment) : ℚ :=
  if 0 < holds.getD a.taskId 0 ∧ a.committed = false then holds.getD a.taskId 0 else 0

section HoldAssignment

variable (holds : Dict String ℚ) (a : Assignment)

theorem publishedShift_nonneg : 0 ≤ publishedShift holds a := by
  unfold publishedShift
  split_ifs with held
  · exact held.1.le
  · exact le_rfl

/-- A hold moves an assignment's window and changes nothing else. -/
theorem holdAssignment_eq :
    holdAssignment holds a =
      { a with
        plannedStart := a.plannedStart + publishedShift holds a
        plannedFinish := a.plannedFinish + publishedShift holds a } := by
  simp only [holdAssignment, publishedShift]
  split_ifs
  · rfl
  · simp only [add_zero]

@[simp] theorem holdAssignment_taskId : (holdAssignment holds a).taskId = a.taskId := by
  rw [holdAssignment_eq]

@[simp] theorem holdAssignment_assetIds : (holdAssignment holds a).assetIds = a.assetIds := by
  rw [holdAssignment_eq]

@[simp] theorem holdAssignment_operatorIds :
    (holdAssignment holds a).operatorIds = a.operatorIds := by
  rw [holdAssignment_eq]

@[simp] theorem holdAssignment_resourceIds :
    (holdAssignment holds a).resourceIds = a.resourceIds := by
  rw [holdAssignment_eq]
  rfl

@[simp] theorem holdAssignment_plannedStart :
    (holdAssignment holds a).plannedStart = a.plannedStart + publishedShift holds a := by
  rw [holdAssignment_eq]

@[simp] theorem holdAssignment_plannedFinish :
    (holdAssignment holds a).plannedFinish = a.plannedFinish + publishedShift holds a := by
  rw [holdAssignment_eq]

/-- An assignment keeps its work exactly when it is not shifted. -/
theorem sameWork_holdAssignment_iff :
    a.SameWork (holdAssignment holds a) ↔ publishedShift holds a = 0 := by
  constructor
  · intro same
    simpa using same.plannedStart
  · intro unshifted
    exact ⟨by simp, by simp [unshifted], by simp [unshifted], by simp, by simp⟩

/-- Applying holds treats each assignment on its own. -/
theorem applyAirspaceHolds_eq_map (assignments : List Assignment) :
    applyAirspaceHolds assignments holds = assignments.map (holdAssignment holds) := by
  unfold applyAirspaceHolds
  split_ifs with empty
  · have unheld : ∀ a, holdAssignment holds a = a := by
      intro a
      have missing : holds.getD a.taskId 0 = 0 := by simp [Dict.getD, Dict.get?, empty]
      simp [holdAssignment, missing]
    exact (List.map_id'' unheld assignments).symm
  · rfl

end HoldAssignment

section Shifts

variable (settings : AirspaceSettings) (near : List Point → List Point → Bool)
  (flights : List Flight)

/-- A flight is held at all. -/
def Held (k : Index flights) : Prop := PushedBy settings near flights k 0

/-- A flight has slack, and a conflicting flight of its corridor departs before it. -/
def Waits (k : Index flights) : Prop :=
  0 < (flights.get k).slackS ∧
    ∃ j, Departs flights j k ∧ InConflict settings near flights k j ∧
      corridorOf settings near flights k = corridorOf settings near flights j

/-- The flight whose hold counts for a task id: the last held one of that id. -/
def DecidesHold (taskId : String) (k : Index flights) : Prop :=
  (flights.get k).taskId = taskId ∧ Held settings near flights k ∧
    ∀ l, k < l → (flights.get l).taskId = taskId → ¬ Held settings near flights l

/-- An assignment is moved by more than `x` seconds. -/
def ShiftedBy (a : Assignment) (x : ℚ) : Prop :=
  x < 0 ∨ (a.committed = false ∧
    ∃ k, DecidesHold settings near flights a.taskId k ∧ PushedBy settings near flights k x)

variable {settings near flights}

theorem held_iff {k : Index flights} :
    Held settings near flights k ↔ 0 < delayOf settings near flights k :=
  pushedBy_gauges k 0

/-- A flight is held exactly when it has to wait: planned windows of a conflict pair leave no
room otherwise. -/
theorem held_iff_waits {k : Index flights} :
    Held settings near flights k ↔ Waits settings near flights k := by
  rw [held_iff, delayOf_isSchedule k 0]
  simp only [lt_irrefl, false_or]
  refine and_congr Iff.rfl (exists_congr fun j => and_congr_right fun departs => ?_)
  rw [flightJobs_rival]
  constructor
  · rintro ⟨rival, -⟩
    exact rival
  · intro rival
    refine ⟨rival, ?_⟩
    have meets : (flights.get k).entryS < (flights.get j).exitS + settings.timeBufferS := by
      rcases rival.1 with ⟨-, conflict⟩ | ⟨-, conflict⟩
      · exact conflict.1.2
      · exact conflict.1.1
    have schedule : (flightJobs settings near flights).IsSchedule (Departs flights)
        (delayOf settings near flights) := delayOf_isSchedule
    have unshortened := schedule.nonneg j
    change 0 + (flights.get k).entryS - (flights.get j).exitS - settings.timeBufferS < _
    linarith

/-- In an increasing list, the last item with a property is the one no later item shares. -/
private theorem find?_reverse_eq_some {n : ℕ} {l : List (Fin n)} (increasing : l.Pairwise (· < ·))
    {p : Fin n → Bool} {k : Fin n} :
    l.reverse.find? p = some k ↔ k ∈ l ∧ p k ∧ ∀ m ∈ l, k < m → p m = false := by
  have decreasing : l.reverse.Pairwise (· > ·) := List.pairwise_reverse.mpr increasing
  rw [List.find?_eq_some_iff_append]
  constructor
  · rintro ⟨found, later, earlier, split, none⟩
    rw [split, List.pairwise_append, List.pairwise_cons] at decreasing
    refine ⟨List.mem_reverse.mp (split ▸ by simp), found, fun m member above => ?_⟩
    rcases List.mem_append.mp (split ▸ List.mem_reverse.mpr member) with after | rest
    · simpa using none m after
    · rcases List.mem_cons.mp rest with rfl | before
      · exact absurd above (lt_irrefl _)
      · exact absurd above (decreasing.2.1.1 m before).not_gt
  · rintro ⟨member, found, last⟩
    obtain ⟨later, earlier, split⟩ := List.append_of_mem (List.mem_reverse.mpr member)
    rw [split, List.pairwise_append] at decreasing
    refine ⟨found, later, earlier, split, fun m after => ?_⟩
    have listed : m ∈ l := List.mem_reverse.mp (split ▸ List.mem_append_left _ after)
    simp [last m listed (decreasing.2.2 m after k List.mem_cons_self)]

private theorem get?_airspaceHolds {taskId : String} {delay : ℚ} :
    (airspaceHolds settings near flights).get? taskId = some delay ↔
      ∃ k, DecidesHold settings near flights taskId k ∧ delayOf settings near flights k = delay := by
  have increasing : ((List.finRange flights.length).filter fun i =>
      0 < delayOf settings near flights i).Pairwise (· < ·) :=
    (List.pairwise_lt_finRange _).filter _
  rw [airspaceHolds, Dict.get?_collect, Option.map_eq_some_iff]
  refine exists_congr fun k => and_congr_left fun _ => ?_
  rw [find?_reverse_eq_some increasing]
  simp only [List.mem_filter, List.mem_finRange, true_and, decide_eq_true_eq, decide_eq_false_iff_not,
    DecidesHold, held_iff]
  constructor
  · rintro ⟨held, same, last⟩
    exact ⟨same, held, fun l above sameId heldToo => last l heldToo above sameId⟩
  · rintro ⟨same, held, last⟩
    exact ⟨held, same, fun l heldToo above sameId => last l above sameId heldToo⟩

/-- At most one flight decides the hold of a task id. -/
theorem DecidesHold.unique {taskId : String} {k l : Index flights}
    (first : DecidesHold settings near flights taskId k)
    (second : DecidesHold settings near flights taskId l) : k = l := by
  rcases lt_trichotomy k l with below | same | above
  · exact absurd second.2.1 (first.2.2 l below second.1)
  · exact same
  · exact absurd first.2.1 (second.2.2 k above first.1)

/-- Some flight decides the hold of a task id as soon as one of that id is held. -/
theorem exists_decidesHold {taskId : String} {k : Index flights}
    (same : (flights.get k).taskId = taskId) (held : Held settings near flights k) :
    ∃ l, DecidesHold settings near flights taskId l := by
  obtain ⟨last, ⟨lastSame, lastHeld⟩, greatest⟩ := Set.exists_max_image
    {l : Index flights | (flights.get l).taskId = taskId ∧ Held settings near flights l} id
    (Set.toFinite _) ⟨k, same, held⟩
  refine ⟨last, lastSame, lastHeld, fun l above sameId heldToo => ?_⟩
  exact absurd (greatest l ⟨sameId, heldToo⟩) above.not_ge

/-- The chains gauge the published shift of every assignment. -/
theorem shiftedBy_gauges (settings : AirspaceSettings) (near : List Point → List Point → Bool)
    (flights : List Flight) (a : Assignment) :
    Gauges (ShiftedBy settings near flights a)
      (publishedShift (airspaceHolds settings near flights) a) := by
  intro x
  cases found : (airspaceHolds settings near flights).get? a.taskId with
  | none =>
    have unshifted : publishedShift (airspaceHolds settings near flights) a = 0 := by
      simp [publishedShift, Dict.getD, found]
    rw [unshifted, ShiftedBy, or_iff_left_iff_imp]
    rintro ⟨-, k, decides, -⟩
    have present := get?_airspaceHolds.mpr ⟨k, decides, rfl⟩
    rw [found] at present
    contradiction
  | some delay =>
    obtain ⟨k, decides, rfl⟩ := get?_airspaceHolds.mp found
    have positive := held_iff.mp decides.2.1
    cases committed : a.committed with
    | true => simp [ShiftedBy, publishedShift, committed]
    | false =>
      have shift : publishedShift (airspaceHolds settings near flights) a =
          delayOf settings near flights k := by
        simp [publishedShift, Dict.getD, found, committed, positive]
      rw [shift]
      constructor
      · rintro (negative | ⟨-, l, other, pushed⟩)
        · exact negative.trans positive
        · rw [decides.unique other]
          exact (pushedBy_gauges l x).mp pushed
      · intro below
        exact .inr ⟨committed, k, decides, (pushedBy_gauges k x).mpr below⟩

/-- An assignment stays where it is exactly when it is committed or no flight of its task has to
wait. -/
theorem publishedShift_eq_zero_iff {a : Assignment} :
    publishedShift (airspaceHolds settings near flights) a = 0 ↔
      (a.committed = false → ∀ k, (flights.get k).taskId = a.taskId →
        ¬ Waits settings near flights k) := by
  have gauged := shiftedBy_gauges settings near flights a 0
  have nonneg := publishedShift_nonneg (airspaceHolds settings near flights) a
  constructor
  · intro unshifted loose k same waits
    have held := held_iff_waits.mpr waits
    obtain ⟨l, decides⟩ := exists_decidesHold same held
    have moved := gauged.mp (.inr ⟨loose, l, decides, decides.2.1⟩)
    rw [unshifted] at moved
    exact lt_irrefl 0 moved
  · intro rests
    apply le_antisymm _ nonneg
    apply le_of_not_gt
    intro moved
    rcases gauged.mpr moved with negative | ⟨loose, k, decides, pushed⟩
    · exact lt_irrefl 0 negative
    · exact rests loose k decides.1 (held_iff_waits.mp pushed)

end Shifts

section Plan

variable (settings : AirspaceSettings) (near : List Point → List Point → Bool)
  (geometry : Geometry) (snapshot : PlanningSnapshot) (assignments : List Assignment)

/-- The holds of a pass are those of its flights, also when there are none. -/
theorem deconflictAirspace_holds :
    (deconflictAirspace settings near geometry snapshot assignments).holds =
      airspaceHolds settings near (aerialFlights geometry snapshot assignments) := by
  simp only [deconflictAirspace]
  split_ifs with groundbound
  · rw [groundbound]
    rfl
  · rfl

/-- The plan the airspace pass publishes. -/
def heldPlan : List Assignment :=
  applyAirspaceHolds assignments
    (deconflictAirspace settings near geometry snapshot assignments).holds

/-- The published plan holds each assignment by its own shift. -/
theorem heldPlan_eq_map :
    heldPlan settings near geometry snapshot assignments =
      assignments.map (holdAssignment
        (airspaceHolds settings near (aerialFlights geometry snapshot assignments))) := by
  rw [heldPlan, applyAirspaceHolds_eq_map, deconflictAirspace_holds]

end Plan

end FlOp.Planning

/-! # Holds and double booking

A hold moves one assignment without looking at the others of the same drone, implement or
operator. It keeps a plan free of double booking exactly when no assignment is pushed across
the gap to the next use of one of its resources.
-/

namespace FlOp.Planning

open Canonical FlOp.Core Library

/-- Some asset or operator serves both assignments. -/
def SharesResource (a b : Assignment) : Prop := ∃ id ∈ a.resourceIds, id ∈ b.resourceIds

instance (a b : Assignment) : Decidable (SharesResource a b) :=
  inferInstanceAs (Decidable (∃ id ∈ a.resourceIds, id ∈ b.resourceIds))

/-- The planned windows of two assignments overlap in time. -/
def Concurrent (a b : Assignment) : Prop :=
  b.plannedStart < a.plannedFinish ∧ a.plannedStart < b.plannedFinish

instance (a b : Assignment) : Decidable (Concurrent a b) :=
  inferInstanceAs (Decidable (_ ∧ _))

/-- No asset and no operator appears in two time-overlapping assignments. -/
def NoDoubleBooking (assignments : List Assignment) : Prop :=
  assignments.Pairwise fun a b => SharesResource a b → ¬ Concurrent a b

instance (assignments : List Assignment) : Decidable (NoDoubleBooking assignments) :=
  inferInstanceAs (Decidable (List.Pairwise _ _))

section Holds

variable (settings : AirspaceSettings) (near : List Point → List Point → Bool)
  (flights : List Flight)

/-- Assignment `a` ends before `b` begins, is pushed further than `b` by more than the gap
between them, and not so far that it clears `b` on the other side. -/
def RunsInto (a b : Assignment) : Prop :=
  a.plannedFinish ≤ b.plannedStart ∧
    Outdoes (ShiftedBy settings near flights a) (ShiftedBy settings near flights b)
      (b.plannedStart - a.plannedFinish) ∧
    Outdoes (ShiftedBy settings near flights b) (ShiftedBy settings near flights a)
      (a.plannedStart - b.plannedFinish)

variable {settings near flights}

private theorem concurrent_holdAssignment {a b : Assignment} :
    Concurrent (holdAssignment (airspaceHolds settings near flights) a)
        (holdAssignment (airspaceHolds settings near flights) b) ↔
      Outdoes (ShiftedBy settings near flights a) (ShiftedBy settings near flights b)
          (b.plannedStart - a.plannedFinish) ∧
        Outdoes (ShiftedBy settings near flights b) (ShiftedBy settings near flights a)
          (a.plannedStart - b.plannedFinish) := by
  have shifted := overlapShifted_iff (shiftedBy_gauges settings near flights a)
    (shiftedBy_gauges settings near flights b) 0 a.plannedStart a.plannedFinish b.plannedStart
    b.plannedFinish
  simp only [OverlapShifted, Overlap, sub_zero, add_zero] at shifted
  simp only [Concurrent, holdAssignment_plannedStart, holdAssignment_plannedFinish, shifted]

private theorem not_concurrent_iff {a b : Assignment} :
    ¬ Concurrent a b ↔ a.plannedFinish ≤ b.plannedStart ∨ b.plannedFinish ≤ a.plannedStart := by
  rw [Concurrent, not_and_or, not_lt, not_lt]

/-- Two assignments that do not overlap collide after the holds when one runs into the other. -/
private theorem concurrent_holdAssignment_iff {a b : Assignment} (apart : ¬ Concurrent a b) :
    Concurrent (holdAssignment (airspaceHolds settings near flights) a)
        (holdAssignment (airspaceHolds settings near flights) b) ↔
      RunsInto settings near flights a b ∨ RunsInto settings near flights b a := by
  rw [concurrent_holdAssignment]
  constructor
  · intro collide
    rcases not_concurrent_iff.mp apart with first | second
    · exact .inl ⟨first, collide⟩
    · exact .inr ⟨second, collide.symm⟩
  · rintro (⟨-, collide⟩ | ⟨-, collide⟩)
    · exact collide
    · exact collide.symm

end Holds

/-- The airspace holds keep a plan free of double booking if and only if no two assignments of
one resource are pushed into one another. -/
theorem heldPlan_noDoubleBooking_iff (settings : AirspaceSettings)
    (near : List Point → List Point → Bool) (geometry : Geometry) (snapshot : PlanningSnapshot)
    (assignments : List Assignment) (free : NoDoubleBooking assignments) :
    NoDoubleBooking (heldPlan settings near geometry snapshot assignments) ↔
      assignments.Pairwise fun a b => SharesResource a b →
        ¬ RunsInto settings near (aerialFlights geometry snapshot assignments) a b ∧
          ¬ RunsInto settings near (aerialFlights geometry snapshot assignments) b a := by
  rw [NoDoubleBooking, heldPlan_eq_map, List.pairwise_map]
  have shares : ∀ a b : Assignment,
      SharesResource (holdAssignment (airspaceHolds settings near
          (aerialFlights geometry snapshot assignments)) a)
        (holdAssignment (airspaceHolds settings near
          (aerialFlights geometry snapshot assignments)) b) ↔ SharesResource a b := by
    intro a b
    simp only [SharesResource, holdAssignment_resourceIds]
  simp only [shares]
  constructor
  · intro published
    refine (free.and published).imp fun {a b} pair resource => ?_
    rw [← not_or, ← concurrent_holdAssignment_iff (pair.1 resource)]
    exact pair.2 resource
  · intro apart
    refine (free.and apart).imp fun {a b} pair resource => ?_
    rw [concurrent_holdAssignment_iff (pair.1 resource), not_or]
    exact pair.2 resource

/-- Six drone deliveries to one pad: five at the same time, the last one right after them. -/
def padAssignments (lastDrone : String) : List Assignment :=
  let delivery (task drone : String) (start finish : ℚ) : Assignment :=
    { assignmentId := "assign-" ++ task
      taskId := task
      bundleId := "bundle-" ++ drone
      assetIds := [drone]
      plannedStart := start
      plannedFinish := finish }
  [delivery "flight-1" "drone-1" 0 600, delivery "flight-2" "drone-2" 0 600,
    delivery "flight-3" "drone-3" 0 600, delivery "flight-4" "drone-4" 0 600,
    delivery "flight-5" "drone-5" 0 600, delivery "flight-6" lastDrone 700 1300]

/-- The deliveries have no deadline and end at one location. -/
def padSnapshot : PlanningSnapshot where
  snapshotId := "snapshot-pad"
  effectiveAt := 0
  locations := [{ locationId := "pad", lat := 50, lon := 30 }]
  tasks := (padAssignments "drone-6").map fun a =>
    { taskId := a.taskId, operationType := uavOperation, locationRef := "pad" }

/-- All paths of the pad deliveries coincide, so every distance that matters is zero. -/
def padGeometry : Geometry where
  haversineKm _ _ := 0
  segmentMinDistanceM _ _ := 0
  parseNumber _ := none

theorem heldPlan_noDoubleBooking_iff_pad :
    NoDoubleBooking (padAssignments "drone-6") ∧
      (NoDoubleBooking (heldPlan {} (lateralNear {} padGeometry) padGeometry padSnapshot
          (padAssignments "drone-6")) ↔
        (padAssignments "drone-6").Pairwise fun a b => SharesResource a b →
          ¬ RunsInto {} (lateralNear {} padGeometry)
              (aerialFlights padGeometry padSnapshot (padAssignments "drone-6")) a b ∧
            ¬ RunsInto {} (lateralNear {} padGeometry)
              (aerialFlights padGeometry padSnapshot (padAssignments "drone-6")) b a) :=
  ⟨by decide +kernel, heldPlan_noDoubleBooking_iff _ _ _ _ _ (by decide +kernel)⟩

/-- The fifth flight is held into the next sortie of its own drone. -/
theorem hold_double_books_drone :
    NoDoubleBooking (padAssignments "drone-5") ∧
      ¬ NoDoubleBooking (heldPlan {} (lateralNear {} padGeometry) padGeometry padSnapshot
        (padAssignments "drone-5")) := by
  decide +kernel

end FlOp.Planning
