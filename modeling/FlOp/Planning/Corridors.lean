import FlOp.Library.Greedy
import FlOp.Planning.Deconfliction

/-! # Corridors and holds for any conflict graph

The corridor pass is a greedy colouring, so flights with few conflicts never share a corridor with
one of them. Where corridors are shared, the hold of a flight clears every conflicting flight placed
before it, unless that takes more than its slack.
-/

namespace FlOp.Planning

open Canonical FlOp.Core Library

section Graph

variable (settings : AirspaceSettings) {flights : List Flight}
  (pairs : List (Index flights × Index flights))

/-- Two flights are a conflicting pair, in either order. -/
def Conflict (i j : Index flights) : Prop := (i, j) ∈ pairs ∨ (j, i) ∈ pairs

/-- Two flights conflict within one corridor. -/
def SharesCorridor (corridors : Corridors) (i j : Index flights) : Prop :=
  Conflict pairs i j ∧ corridors.at i = corridors.at j

/-- How long the first flight must be held to clear the second one. -/
def clearingHold (delay : Index flights → ℚ) (i j : Index flights) : ℚ :=
  (flights.get j).exitS + delay j + settings.timeBufferS - (flights.get i).entryS

/-- The hold a flight needs to clear those scheduled before it exceeds its slack. -/
def HoldCapped (corridors : Corridors) (delay : Index flights → ℚ) (i : Index flights) : Prop :=
  ∃ j, Departs flights j i ∧ SharesCorridor pairs corridors i j ∧
    (flights.get i).slackS < (clearingHold settings delay i j : WithTop ℚ)

variable {pairs} {i j : Index flights}

theorem mem_neighbors : j ∈ neighbors pairs i ↔ Conflict pairs i j := by
  simp only [neighbors, List.mem_toFinset, List.mem_append, List.mem_map, List.mem_filter,
    decide_eq_true_eq, Prod.exists, Conflict]
  constructor
  · rintro (⟨_, _, ⟨listed, rfl⟩, rfl⟩ | ⟨_, _, ⟨listed, rfl⟩, rfl⟩)
    · exact .inl listed
    · exact .inr listed
  · rintro (listed | listed)
    · exact .inl ⟨i, j, ⟨listed, rfl⟩, rfl⟩
    · exact .inr ⟨j, i, ⟨listed, rfl⟩, rfl⟩

theorem Conflict.symm (conflict : Conflict pairs i j) : Conflict pairs j i := Or.symm conflict

/-- Rivals of the temporal pass are the flights that conflict within a corridor. -/
theorem rival_iff (corridors : Corridors) :
    (corridorJobs settings (sameCorridorPairs pairs corridors)).Rival i j ↔
      SharesCorridor pairs corridors i j :=
  rival_corridorJobs

/-- Storing a corridor changes it for one flight. -/
theorem at_set {corridors : Corridors} (sized : corridors.length = flights.length)
    (i : Index flights) (corridor : ℕ) (k : Index flights) :
    Corridors.at (corridors.set i.val (some corridor)) k =
      Function.update corridors.at i (some corridor) k := by
  have inside : i.val < corridors.length := by
    rw [sized]
    exact i.isLt
  by_cases same : k = i
  · subst same
    simp [Corridors.at, inside]
  · have apart : i.val ≠ k.val := fun equal => same (Fin.ext equal.symm)
    simp [Corridors.at, same, apart]

variable (pairs) in
/-- The corridor picked for a flight in view of those given so far. -/
def pickCorridor (given : Index flights → Option ℕ) (i : Index flights) : ℕ :=
  chooseCorridor settings fun c => ((neighbors pairs i).filter fun k => given k = some c).card

/-- The corridor pass colours the conflict graph greedily. -/
theorem assignCorridors_eq (k : Index flights) :
    (assignCorridors settings pairs).at k =
      colour (pickCorridor settings pairs) (fun _ => none)
        (sortBy (colouringKey pairs) (List.finRange flights.length)) k := by
  have steps : ∀ (order : List (Index flights)) (corridors : Corridors),
      corridors.length = flights.length →
      (order.foldl (fun corridors i => corridors.set i.val <| some <|
        chooseCorridor settings (usedByNeighbor corridors (neighbors pairs i))) corridors |>.at k) =
      colour (pickCorridor settings pairs) corridors.at order k := by
    intro order
    induction order with
    | nil => exact fun _ _ => rfl
    | cons i rest ih =>
      intro corridors sized
      rw [List.foldl_cons, ih _ (by rw [List.length_set, sized]), colour]
      congr 1
      funext j
      exact at_set sized i _ j
  rw [assignCorridors, steps _ _ List.length_replicate]
  congr 1
  funext j
  simp [Corridors.at]

/-- With fewer neighbours than corridors, the one picked is used by none of them. -/
theorem pickCorridor_free {given : Index flights → Option ℕ}
    (few : (neighbors pairs i).card < settings.corridorCount) (conflict : Conflict pairs i j) :
    given j ≠ some (pickCorridor settings pairs given i) := by
  obtain ⟨free, inside, unused⟩ : ∃ c < settings.corridorCount, ∀ k ∈ neighbors pairs i,
      given k ≠ some c := exists_free_colour few
  intro repeated
  rw [pickCorridor, chooseCorridor] at repeated
  split at repeated
  · next corridor found =>
    have idle := List.find?_some found
    rw [decide_eq_true_eq, Finset.card_eq_zero, Finset.filter_eq_empty_iff] at idle
    exact idle (mem_neighbors.mpr conflict) repeated
  · next taken =>
    have busy := List.find?_eq_none.mp taken free (List.mem_range.mpr inside)
    rw [decide_eq_true_eq, Finset.card_eq_zero, Finset.filter_eq_empty_iff] at busy
    exact busy fun {k} nearby => unused k nearby

/-- With few conflicts each, conflicting flights end up in different corridors. -/
theorem corridors_apart (few : ∀ i, (neighbors pairs i).card < settings.corridorCount)
    (conflict : Conflict pairs i j) (apart : i ≠ j) :
    (assignCorridors settings pairs).at i ≠ (assignCorridors settings pairs).at j := by
  have symmetric : ∀ i j, Conflict pairs i j → Conflict pairs j i := fun _ _ => Conflict.symm
  rw [assignCorridors_eq, assignCorridors_eq]
  refine colour_proper symmetric ?_ ?_ ?_ ?_ i j conflict apart ?_
  · exact fun given i j => pickCorridor_free settings (few i)
  · exact nodup_sortBy _ _ (List.nodup_finRange _)
  · exact fun _ _ => rfl
  · exact fun _ _ _ _ coloured => absurd coloured (by simp)
  · exact isSome_colour ((mem_sortBy _ _).mpr (List.mem_finRange i))

/-- A hold that is not cut off clears every conflicting flight scheduled before. -/
theorem clears_earlier (corridors : Corridors) :
    let delay := applyTemporalSeparation settings pairs corridors
    ¬ HoldCapped settings pairs corridors delay i → Departs flights j i →
      SharesCorridor pairs corridors i j →
        (flights.get j).exitS + delay j + settings.timeBufferS ≤
          (flights.get i).entryS + delay i := by
  intro delay uncapped departs shares
  have valid := applyTemporalSeparation_isSchedule settings pairs corridors
  have fits : (clearingHold settings delay i j : WithTop ℚ) ≤ (flights.get i).slackS :=
    not_lt.mp fun exceeds => uncapped ⟨j, departs, shares, exceeds⟩
  have cleared : clearingHold settings delay i j ≤ delay i :=
    valid.clears departs ((rival_iff settings corridors).mpr shares) fits
  rw [clearingHold] at cleared
  linarith

/-- A hold that is cut off uses up the slack. -/
theorem hold_eq_slack (corridors : Corridors)
    (capped : HoldCapped settings pairs corridors
      (applyTemporalSeparation settings pairs corridors) i) :
    (applyTemporalSeparation settings pairs corridors i : WithTop ℚ) = (flights.get i).slackS := by
  obtain ⟨j, departs, shares, short⟩ := capped
  exact (applyTemporalSeparation_isSchedule settings pairs corridors).eq_slack departs
    ((rival_iff settings corridors).mpr shares) short

end Graph

/-- Fewer conflicts than corridors for each flight leave none shared and no flight held. In any
case a hold keeps to the slack, and uses it up if it is cut off; committed work is not held, and a
hold that is not cut off clears every conflicting flight of the corridor scheduled before it. -/
theorem corridors_suffice (settings : AirspaceSettings) (flights : List Flight)
    (pairs : List (Index flights × Index flights)) (loopless : ∀ pair ∈ pairs, pair.1 ≠ pair.2) :
    let corridors := assignCorridors settings pairs
    let delay := applyTemporalSeparation settings pairs corridors
    ((∀ i, (neighbors pairs i).card < settings.corridorCount) →
      (∀ pair ∈ pairs, corridors.at pair.1 ≠ corridors.at pair.2) ∧ ∀ i, delay i = 0) ∧
    (∀ i, 0 ≤ delay i ∧ (delay i : WithTop ℚ) ≤ (flights.get i).slackS) ∧
    (∀ (geometry : Geometry) (snapshot : PlanningSnapshot) (a : Assignment) (i : Index flights),
      a.committed = true → flightOf geometry snapshot a = some (flights.get i) → delay i = 0) ∧
    (∀ i, HoldCapped settings pairs corridors delay i →
      (delay i : WithTop ℚ) = (flights.get i).slackS) ∧
    ∀ i, ¬ HoldCapped settings pairs corridors delay i →
      ∀ j, Departs flights j i → SharesCorridor pairs corridors i j →
        (flights.get j).exitS + delay j + settings.timeBufferS ≤
          (flights.get i).entryS + delay i := by
  intro corridors delay
  have valid := applyTemporalSeparation_isSchedule settings pairs corridors
  have within : ∀ i, 0 ≤ delay i ∧ (delay i : WithTop ℚ) ≤ (flights.get i).slackS :=
    fun i => ⟨valid.nonneg i, valid.le_slack i⟩
  refine ⟨fun few => ?_, within, ?_, fun i => hold_eq_slack settings corridors,
    fun i uncapped j => clears_earlier settings corridors uncapped⟩
  · have separate : ∀ pair ∈ pairs, corridors.at pair.1 ≠ corridors.at pair.2 :=
      fun pair listed => corridors_apart settings few (.inl listed) (loopless pair listed)
    have unshared : sameCorridorPairs pairs corridors = [] := by
      rw [sameCorridorPairs, List.filter_eq_nil_iff]
      intro pair listed
      rw [decide_eq_true_eq]
      exact separate pair listed
    refine ⟨separate, fun i => ?_⟩
    change applyTemporalSeparation settings pairs corridors i = 0
    rw [applyTemporalSeparation, if_pos unshared]
  · intro geometry snapshot a i committed flying
    have slack := (flightOf_spec flying).2 committed
    have bounds := within i
    rw [slack, WithTop.coe_le_zero] at bounds
    exact le_antisymm bounds.2 bounds.1

/-- Two deliveries that cross at the same time, one of them without slack. -/
def crossingFlights : List Flight :=
  [{ taskId := "north", assetId := "uav-1", path := [(0, 0), (2, 0)], entryS := 0, exitS := 600
     slackS := ⊤, slackS_nonneg := le_top },
   { taskId := "east", assetId := "uav-2", path := [(1, -1), (1, 1)], entryS := 0, exitS := 600
     slackS := 0, slackS_nonneg := le_rfl }]

/-- The one conflict between them. -/
def crossingPairs : List (Index crossingFlights × Index crossingFlights) :=
  [(⟨0, by decide⟩, ⟨1, by decide⟩)]

theorem corridors_suffice_crossing :
    applyTemporalSeparation {} crossingPairs (assignCorridors {} crossingPairs) ⟨1, by decide⟩ =
      0 :=
  ((corridors_suffice {} crossingFlights crossingPairs (by decide)).1 (by decide)).2 _

end FlOp.Planning
