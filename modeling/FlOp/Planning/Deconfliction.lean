import FlOp.Planning.DoubleBooking

/-! # What full deconfliction promises

The pass compares only pairs that conflict at the planned windows. Its verdict is sound for the
published schedule exactly when no other near pair of a corridor is pushed together, and vacuous
when some conflict is left.
-/

namespace FlOp.Planning

open Canonical FlOp.Core Library

section Carriers

variable (geometry : Geometry) (snapshot : PlanningSnapshot) (assignments : List Assignment)

/-- The assignments that fly, one for each aerial flight. -/
def carriers : List Assignment :=
  assignments.filter fun a => (flightOf geometry snapshot a).isSome

variable {geometry snapshot assignments}

private theorem getElem?_filterMap_of_isSome {α β : Type*} (f : α → Option β) (l : List α)
    (total : ∀ a ∈ l, (f a).isSome) (k : ℕ) : (l.filterMap f)[k]? = (l[k]?).bind f := by
  induction l generalizing k with
  | nil => simp
  | cons a rest ih =>
    obtain ⟨b, found⟩ := Option.isSome_iff_exists.mp (total a List.mem_cons_self)
    rw [List.filterMap_cons, found]
    cases k with
    | zero => simp [found]
    | succ k => simpa using ih (fun c member => total c (List.mem_cons_of_mem _ member)) k

private theorem filterMap_filter_isSome {α β : Type*} (f : α → Option β) (l : List α) :
    (l.filter fun a => (f a).isSome).filterMap f = l.filterMap f := by
  induction l with
  | nil => rfl
  | cons a rest ih =>
    cases found : f a with
    | none => simp [found, ih]
    | some b => simp [found, ih]

/-- The flight at a position is the flight of the carrier at that position. -/
theorem getElem?_aerialFlights (geometry : Geometry) (snapshot : PlanningSnapshot)
    (assignments : List Assignment) (k : ℕ) :
    (aerialFlights geometry snapshot assignments)[k]? =
      ((carriers geometry snapshot assignments)[k]?).bind (flightOf geometry snapshot) := by
  rw [aerialFlights, ← filterMap_filter_isSome]
  refine getElem?_filterMap_of_isSome _ _ (fun a member => ?_) k
  simpa using (List.mem_filter.mp member).2

/-- A held assignment flies the same path, later by its shift. -/
theorem flightOf_holdAssignment (geometry : Geometry) (snapshot : PlanningSnapshot)
    (holds : Dict String ℚ) (a : Assignment) :
    (flightOf geometry snapshot a = none → flightOf geometry snapshot (holdAssignment holds a) = none) ∧
      ∀ f, flightOf geometry snapshot a = some f →
        ∃ g, flightOf geometry snapshot (holdAssignment holds a) = some g ∧ g.path = f.path ∧
          g.entryS = f.entryS + publishedShift holds a ∧ g.exitS = f.exitS + publishedShift holds a := by
  unfold flightOf
  simp only [holdAssignment_taskId, holdAssignment_assetIds]
  cases snapshot.taskIndex.get? a.taskId with
  | none => simp
  | some task =>
    simp only [Option.bind_some]
    split_ifs with grounded
    · simp
    · refine ⟨by simp, fun f flying => ⟨_, rfl, ?_⟩⟩
      obtain rfl := Option.some.inj flying
      refine ⟨rfl, ?_, ?_⟩
      · simp only [holdAssignment_plannedStart]
        ring
      · simp only [holdAssignment_plannedFinish]

private theorem isSome_flightOf_holdAssignment (holds : Dict String ℚ) (a : Assignment) :
    (flightOf geometry snapshot (holdAssignment holds a)).isSome =
      (flightOf geometry snapshot a).isSome := by
  obtain ⟨grounded, flying⟩ := flightOf_holdAssignment geometry snapshot holds a
  cases found : flightOf geometry snapshot a with
  | none => rw [grounded found]
  | some f =>
    obtain ⟨g, flown, -⟩ := flying f found
    rw [flown]
    rfl

/-- The flights of the held plan, position by position. -/
theorem getElem?_aerialFlights_held (holds : Dict String ℚ) (k : ℕ) :
    (aerialFlights geometry snapshot (assignments.map (holdAssignment holds)))[k]? =
      ((carriers geometry snapshot assignments)[k]?).bind fun a =>
        flightOf geometry snapshot (holdAssignment holds a) := by
  have carried : carriers geometry snapshot (assignments.map (holdAssignment holds)) =
      (carriers geometry snapshot assignments).map (holdAssignment holds) := by
    simp only [carriers, List.filter_map, Function.comp_def, isSome_flightOf_holdAssignment]
  rw [getElem?_aerialFlights, carried, List.getElem?_map]
  cases (carriers geometry snapshot assignments)[k]? with
  | none => rfl
  | some a => rfl

private theorem length_carriers :
    (carriers geometry snapshot assignments).length =
      (aerialFlights geometry snapshot assignments).length := by
  rw [aerialFlights, ← filterMap_filter_isSome, List.length_filterMap_eq_countP, carriers,
    eq_comm, List.countP_eq_length]
  intro a member
  simpa using (List.mem_filter.mp member).2

/-- The assignment that flies the flight at a position. -/
def carrier (i : Index (aerialFlights geometry snapshot assignments)) : Assignment :=
  (carriers geometry snapshot assignments).get (i.cast length_carriers.symm)

theorem getElem?_carriers (i : Index (aerialFlights geometry snapshot assignments)) :
    (carriers geometry snapshot assignments)[i.val]? = some (carrier i) := by
  rw [List.getElem?_eq_getElem (by rw [length_carriers]; exact i.isLt)]
  rfl

theorem flightOf_carrier (i : Index (aerialFlights geometry snapshot assignments)) :
    flightOf geometry snapshot (carrier i) =
      some ((aerialFlights geometry snapshot assignments).get i) := by
  have located := getElem?_aerialFlights geometry snapshot assignments i.val
  rw [getElem?_carriers, Option.bind_some, List.getElem?_eq_getElem i.isLt] at located
  exact located.symm

/-- A flight has its assignment's task; committed work has no slack. -/
theorem flightOf_spec {a : Assignment} {f : Flight} (flying : flightOf geometry snapshot a = some f) :
    f.taskId = a.taskId ∧ (a.committed = true → f.slackS = 0) := by
  unfold flightOf at flying
  cases found : snapshot.taskIndex.get? a.taskId with
  | none => simp [found] at flying
  | some task =>
    simp only [found, Option.bind_some] at flying
    split_ifs at flying
    obtain rfl := Option.some.inj flying
    refine ⟨rfl, fun committed => ?_⟩
    simp only [deadlineSlackS, committed, if_true]

end Carriers

section Verdict

variable (settings : AirspaceSettings) (near : List Point → List Point → Bool)
  (geometry : Geometry) (snapshot : PlanningSnapshot) (assignments : List Assignment)

/-- If the report claims full deconfliction, then no two flights of the published schedule that
are laterally near and share a reported corridor have overlapping windows. -/
def VerdictSound : Prop :=
  ∀ report, (deconflictAirspace settings near geometry snapshot assignments).report = some report →
    report.fullyDeconflicted = true →
      ∀ (i j : ℕ) (f g : Flight) (r s : FlightReport), i ≠ j →
        (aerialFlights geometry snapshot
          (heldPlan settings near geometry snapshot assignments))[i]? = some f →
        (aerialFlights geometry snapshot
          (heldPlan settings near geometry snapshot assignments))[j]? = some g →
        report.flights[i]? = some r → report.flights[j]? = some s →
        r.corridor = s.corridor → near f.path g.path →
          ¬ Overlap settings.timeBufferS f.entryS f.exitS g.entryS g.exitS

/-- Some conflict pair of one corridor still meets after the pushes on its two flights: the
slack of the later one does not absorb the push of the earlier one. -/
def LeavesConflict : Prop :=
  let flights := aerialFlights geometry snapshot assignments
  ∃ i j : Index flights, InConflict settings near flights i j ∧
    corridorOf settings near flights i = corridorOf settings near flights j ∧
      OverlapShifted settings.timeBufferS (flights.get i).entryS (flights.get i).exitS
        (flights.get j).entryS (flights.get j).exitS
        (PushedBy settings near flights i) (PushedBy settings near flights j)

/-- Another flight has the same task id. -/
def Ambiguous (flights : List Flight) (i : Index flights) : Prop :=
  ∃ k, k ≠ i ∧ (flights.get k).taskId = (flights.get i).taskId

/-- Two near flights of one corridor that are not a conflict pair, or whose task id names
several flights, are pushed into one another. -/
def PushesTogether : Prop :=
  let flights := aerialFlights geometry snapshot assignments
  ∃ i j : Index flights, i ≠ j ∧
    corridorOf settings near flights i = corridorOf settings near flights j ∧
      near (flights.get i).path (flights.get j).path ∧
        (¬ InConflict settings near flights i j ∨ Ambiguous flights i ∨ Ambiguous flights j) ∧
          OverlapShifted settings.timeBufferS (flights.get i).entryS (flights.get i).exitS
            (flights.get j).entryS (flights.get j).exitS
            (ShiftedBy settings near flights (carrier i)) (ShiftedBy settings near flights (carrier j))

variable {settings near geometry snapshot assignments}

/-- A flight whose task id is its own is published with its own delay. -/
private theorem gauges_of_not_ambiguous {i : Index (aerialFlights geometry snapshot assignments)}
    (named : ¬ Ambiguous (aerialFlights geometry snapshot assignments) i) :
    Gauges (ShiftedBy settings near (aerialFlights geometry snapshot assignments) (carrier i))
      (delayOf settings near (aerialFlights geometry snapshot assignments) i) := by
  obtain ⟨sameId, rigid⟩ := flightOf_spec (flightOf_carrier i)
  have only : ∀ k, ((aerialFlights geometry snapshot assignments).get k).taskId =
      (carrier i).taskId → k = i := by
    intro k same
    by_contra other
    exact named ⟨k, other, same.trans sameId.symm⟩
  intro x
  rw [← pushedBy_gauges i x]
  constructor
  · rintro (negative | ⟨-, k, decides, pushed⟩)
    · exact .negative negative
    · exact only k decides.1 ▸ pushed
  · intro pushed
    by_cases negative : x < 0
    · exact .inl negative
    · rw [not_lt] at negative
      have delayed := (pushedBy_gauges i x).mp pushed
      have held : Held settings near (aerialFlights geometry snapshot assignments) i :=
        held_iff.mpr (negative.trans_lt delayed)
      refine .inr ⟨?_, i, ⟨sameId, held, fun l above same => ?_⟩, pushed⟩
      · by_contra committed
        rw [Bool.not_eq_false] at committed
        have slack := (held_iff_waits.mp held).1
        rw [rigid committed] at slack
        exact lt_irrefl _ slack
      · exact absurd (only l same) above.ne'

private theorem corridorNumber_injective : Function.Injective corridorNumber := by
  intro c d same
  cases c with
  | none =>
    cases d with
    | none => rfl
    | some d => simp only [corridorNumber] at same; omega
  | some c =>
    cases d with
    | none => simp only [corridorNumber] at same; omega
    | some d => simp only [corridorNumber, Nat.cast_inj] at same; rw [same]

/-- The report claims full deconfliction exactly when no conflict is left. -/
private theorem residualPairs_eq_nil_iff :
    residualPairs settings near (aerialFlights geometry snapshot assignments) = [] ↔
      ¬ LeavesConflict settings near geometry snapshot assignments := by
  have still : ∀ i j : Index (aerialFlights geometry snapshot assignments),
      StillOverlaps settings near (aerialFlights geometry snapshot assignments) i j ↔
        OverlapShifted settings.timeBufferS
          ((aerialFlights geometry snapshot assignments).get i).entryS
          ((aerialFlights geometry snapshot assignments).get i).exitS
          ((aerialFlights geometry snapshot assignments).get j).entryS
          ((aerialFlights geometry snapshot assignments).get j).exitS
          (PushedBy settings near (aerialFlights geometry snapshot assignments) i)
          (PushedBy settings near (aerialFlights geometry snapshot assignments) j) := by
    intro i j
    exact (overlapShifted_iff (pushedBy_gauges i) (pushedBy_gauges j) _ _ _ _ _).symm
  rw [← not_iff_not, not_not, List.eq_nil_iff_forall_not_mem, not_forall_not, LeavesConflict]
  simp only [residualPairs, sameCorridorPairs, List.mem_filter, Prod.exists, mem_conflictPairs,
    decide_eq_true_eq, still, InConflict]
  constructor
  · rintro ⟨i, j, ⟨pair, same⟩, meets⟩
    exact ⟨i, j, .inl pair, same, meets⟩
  · rintro ⟨i, j, pair | pair, same, meets⟩
    · exact ⟨i, j, ⟨pair, same⟩, meets⟩
    · exact ⟨j, i, ⟨pair, same.symm⟩, And.symm meets⟩

/-- The published flight at a position flies its path, later by the shift of its assignment. -/
private theorem getElem?_heldPlan (settings : AirspaceSettings)
    (near : List Point → List Point → Bool) (i : Index (aerialFlights geometry snapshot assignments)) :
    ∃ f, (aerialFlights geometry snapshot
        (heldPlan settings near geometry snapshot assignments))[i.val]? = some f ∧
      f.path = ((aerialFlights geometry snapshot assignments).get i).path ∧
      f.entryS = ((aerialFlights geometry snapshot assignments).get i).entryS + publishedShift
        (airspaceHolds settings near (aerialFlights geometry snapshot assignments)) (carrier i) ∧
      f.exitS = ((aerialFlights geometry snapshot assignments).get i).exitS + publishedShift
        (airspaceHolds settings near (aerialFlights geometry snapshot assignments)) (carrier i) := by
  obtain ⟨f, flown, path, entry, exit⟩ :=
    (flightOf_holdAssignment geometry snapshot _ (carrier i)).2 _ (flightOf_carrier i)
  refine ⟨f, ?_, path, entry, exit⟩
  rw [heldPlan_eq_map, getElem?_aerialFlights_held, getElem?_carriers, Option.bind_some, flown]

/-- The report of a pass with flights: its verdict and the corridor of each position. -/
private theorem report_spec {report : AirspaceReport}
    (reported : (deconflictAirspace settings near geometry snapshot assignments).report =
      some report) :
    (report.fullyDeconflicted = true ↔ ¬ LeavesConflict settings near geometry snapshot assignments) ∧
      ∀ (k : ℕ) (r : FlightReport), report.flights[k]? = some r →
        ∃ i : Index (aerialFlights geometry snapshot assignments), i.val = k ∧ r.corridor =
          corridorNumber (corridorOf settings near (aerialFlights geometry snapshot assignments) i) := by
  simp only [deconflictAirspace] at reported
  split_ifs at reported
  obtain rfl := Option.some.inj reported
  constructor
  · rw [← residualPairs_eq_nil_iff, ← List.length_eq_zero_iff]
    simp [airspaceReport]
  · intro k r line
    simp only [airspaceReport, List.getElem?_map, Option.map_eq_some_iff] at line
    obtain ⟨i, located, rfl⟩ := line
    obtain ⟨inside, rfl⟩ := List.getElem?_eq_some_iff.mp located
    exact ⟨_, by simp, rfl⟩

private theorem exists_report (settings : AirspaceSettings)
    (near : List Point → List Point → Bool) (i : Index (aerialFlights geometry snapshot assignments)) :
    ∃ report, (deconflictAirspace settings near geometry snapshot assignments).report = some report ∧
      ∀ k : Index (aerialFlights geometry snapshot assignments), ∃ r, report.flights[k.val]? = some r ∧
        r.corridor = corridorNumber
          (corridorOf settings near (aerialFlights geometry snapshot assignments) k) := by
  have flying : aerialFlights geometry snapshot assignments ≠ [] :=
    List.ne_nil_of_length_pos (Nat.zero_lt_of_lt i.isLt)
  have reported : (deconflictAirspace settings near geometry snapshot assignments).report =
      some (airspaceReport settings near (aerialFlights geometry snapshot assignments)) := by
    simp only [deconflictAirspace, flying, if_false]
  refine ⟨_, reported, fun k => ?_⟩
  have inside : k.val <
      (airspaceReport settings near (aerialFlights geometry snapshot assignments)).flights.length := by
    simp [airspaceReport]
  have line := List.getElem?_eq_getElem inside
  obtain ⟨i, position, corridor⟩ := (report_spec reported).2 k.val _ line
  obtain rfl : i = k := Fin.ext position
  exact ⟨_, line, corridor⟩

/-- The verdict of the airspace pass is sound if and only if a conflict is left, so that it does
not claim full deconfliction, or no other near flights of one corridor are pushed together. -/
theorem verdictSound_iff (settings : AirspaceSettings) (near : List Point → List Point → Bool)
    (geometry : Geometry) (snapshot : PlanningSnapshot) (assignments : List Assignment) :
    VerdictSound settings near geometry snapshot assignments ↔
      LeavesConflict settings near geometry snapshot assignments ∨
        ¬ PushesTogether settings near geometry snapshot assignments := by
  have published := shiftedBy_gauges settings near (aerialFlights geometry snapshot assignments)
  constructor
  · intro sound
    refine or_iff_not_imp_left.mpr fun settled => ?_
    rintro ⟨i, j, differ, sameCorridor, close, -, meets⟩
    obtain ⟨report, reported, lines⟩ := exists_report settings near i
    obtain ⟨r, lineI, corridorI⟩ := lines i
    obtain ⟨s, lineJ, corridorJ⟩ := lines j
    obtain ⟨f, flownI, pathI, entryI, exitI⟩ := getElem?_heldPlan settings near i
    obtain ⟨g, flownJ, pathJ, entryJ, exitJ⟩ := getElem?_heldPlan settings near j
    refine sound report reported ((report_spec reported).1.mpr settled) i j f g r s
      (fun same => differ (Fin.ext same)) flownI flownJ lineI lineJ ?_ ?_ ?_
    · rw [corridorI, corridorJ, sameCorridor]
    · rwa [pathI, pathJ]
    · rw [entryI, exitI, entryJ, exitJ]
      exact (overlapShifted_iff (published _) (published _) _ _ _ _ _).mp meets
  · intro condition report reported claimed k l f g r s differ flownI flownJ lineI lineJ
      sameCorridor close overlap
    have settled := (report_spec reported).1.mp claimed
    have apart := condition.resolve_left settled
    obtain ⟨i, rfl, corridorI⟩ := (report_spec reported).2 k r lineI
    obtain ⟨j, rfl, corridorJ⟩ := (report_spec reported).2 l s lineJ
    have corridors : corridorOf settings near (aerialFlights geometry snapshot assignments) i =
        corridorOf settings near (aerialFlights geometry snapshot assignments) j :=
      corridorNumber_injective (corridorI.symm.trans (sameCorridor.trans corridorJ))
    obtain ⟨f', foundI, pathI, entryI, exitI⟩ := getElem?_heldPlan settings near i
    obtain ⟨g', foundJ, pathJ, entryJ, exitJ⟩ := getElem?_heldPlan settings near j
    obtain rfl := Option.some.inj (foundI.symm.trans flownI)
    obtain rfl := Option.some.inj (foundJ.symm.trans flownJ)
    rw [pathI, pathJ] at close
    rw [entryI, exitI, entryJ, exitJ] at overlap
    have meets := (overlapShifted_iff (published (carrier i)) (published (carrier j)) _ _ _ _ _).mpr
      overlap
    by_cases other : ¬ InConflict settings near (aerialFlights geometry snapshot assignments) i j ∨
        Ambiguous (aerialFlights geometry snapshot assignments) i ∨
          Ambiguous (aerialFlights geometry snapshot assignments) j
    · exact apart ⟨i, j, fun same => differ (congrArg Fin.val same), corridors, close, other, meets⟩
    · -- an unambiguous conflict pair is published with the very delays that settled it
      simp only [not_or, not_not] at other
      refine settled ⟨i, j, other.1, corridors, ?_⟩
      have flown := (overlapShifted_iff (gauges_of_not_ambiguous other.2.1)
        (gauges_of_not_ambiguous other.2.2) _ _ _ _ _).mp meets
      exact (overlapShifted_iff (pushedBy_gauges i) (pushedBy_gauges j) _ _ _ _ _).mpr flown

end Verdict

/-- The pass reports full deconfliction although it holds the fifth pad flight into the sixth. -/
theorem verdict_misses_pushed_pair :
    (∀ p q, lateralNear {} padGeometry p q = lateralNear {} padGeometry q p) ∧
      ¬ VerdictSound {} (lateralNear {} padGeometry) padGeometry padSnapshot
        (padAssignments "drone-6") := by
  refine ⟨lateralNear_comm fun _ _ => rfl, fun sound => ?_⟩
  let published := aerialFlights padGeometry padSnapshot
    (heldPlan {} (lateralNear {} padGeometry) padGeometry padSnapshot (padAssignments "drone-6"))
  let report := airspaceReport {} (lateralNear {} padGeometry)
    (aerialFlights padGeometry padSnapshot (padAssignments "drone-6"))
  exact sound report (by decide +kernel) (by decide +kernel) 4 5
    (published.get ⟨4, by decide +kernel⟩) (published.get ⟨5, by decide +kernel⟩)
    (report.flights.get ⟨4, by decide +kernel⟩) (report.flights.get ⟨5, by decide +kernel⟩)
    (by omega) (List.getElem?_eq_getElem _) (List.getElem?_eq_getElem _)
    (List.getElem?_eq_getElem _) (List.getElem?_eq_getElem _) (by decide +kernel)
    (by decide +kernel) (by decide +kernel)

end FlOp.Planning
