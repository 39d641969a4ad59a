import FlOp.Planning.Airspace
import Mathlib.Data.Fintype.Order
import Mathlib.Order.WellFoundedSet

/-! # The holds as a list schedule

The temporal pass computes the list schedule of the flights of each corridor, so a hold is
described by the chains of conflicting flights that push one another along. The published
shift of an assignment follows from the holds by its task id.
-/

namespace FlOp.Planning

open Canonical FlOp.Core Library

section Schedule

variable (settings : AirspaceSettings) (near : List Point → List Point → Bool)
  (flights : List Flight)

/-- Two flights form a recorded conflict pair. -/
def InConflict (i j : Index flights) : Prop :=
  (i < j ∧ Conflicting settings near (flights.get i) (flights.get j)) ∨
    j < i ∧ Conflicting settings near (flights.get j) (flights.get i)

/-- Placement order within a corridor. -/
def Departs (j i : Index flights) : Prop := departureKey j < departureKey i

/-- The flights as the jobs the temporal pass places. -/
def flightJobs : Jobs (Index flights) ℚ :=
  corridorJobs settings
    (sameCorridorPairs (conflictPairs settings near flights) (corridorsOf settings near flights))

instance : DecidableRel (flightJobs settings near flights).Rival :=
  inferInstanceAs (DecidableRel (corridorJobs settings _).Rival)

/-- A chain of conflicting flights of one corridor pushes the flight by more than `x` seconds. -/
def PushedBy (i : Index flights) (x : ℚ) : Prop :=
  (flightJobs settings near flights).Pushed (Departs flights) i x

variable {settings near flights}

theorem mem_conflictPairs {i j : Index flights} :
    (i, j) ∈ conflictPairs settings near flights ↔
      i < j ∧ Conflicting settings near (flights.get i) (flights.get j) := by
  simp [conflictPairs]

/-- Rivals of the temporal pass are the paired flights of one corridor. -/
theorem rival_corridorJobs {pairs : List (Index flights × Index flights)} {corridors : Corridors}
    {i j : Index flights} :
    (corridorJobs settings (sameCorridorPairs pairs corridors)).Rival i j ↔
      ((i, j) ∈ pairs ∨ (j, i) ∈ pairs) ∧ corridors.at i = corridors.at j := by
  simp only [corridorJobs, sameCorridorPairs, List.mem_filter, decide_eq_true_eq]
  constructor
  · rintro (⟨pair, same⟩ | ⟨pair, same⟩)
    · exact ⟨.inl pair, same⟩
    · exact ⟨.inr pair, same.symm⟩
  · rintro ⟨pair | pair, same⟩
    · exact .inl ⟨pair, same⟩
    · exact .inr ⟨pair, same.symm⟩

/-- Rivals share a corridor. -/
theorem corridor_of_rival {pairs : List (Index flights × Index flights)} {corridors : Corridors}
    {i j : Index flights}
    (rival : (corridorJobs settings (sameCorridorPairs pairs corridors)).Rival i j) :
    corridors.at j = corridors.at i :=
  (rival_corridorJobs.mp rival).2.symm

/-- Rivals are the conflicting flights of one corridor. -/
theorem flightJobs_rival {i j : Index flights} :
    (flightJobs settings near flights).Rival i j ↔
      InConflict settings near flights i j ∧
        corridorOf settings near flights i = corridorOf settings near flights j := by
  rw [flightJobs, rival_corridorJobs, mem_conflictPairs, mem_conflictPairs]
  rfl

theorem departs_wellFounded : WellFounded (Departs flights) := by
  have irreflexive : Std.Irrefl (Departs flights) := ⟨fun _ => lt_irrefl _⟩
  have transitive : IsTrans _ (Departs flights) := ⟨fun _ _ _ => lt_trans⟩
  exact Finite.wellFounded_of_trans_of_irrefl _

private theorem departureKey_injective :
    Function.Injective (departureKey : Index flights → ℚ ×ₗ String ×ₗ Index flights) := by
  intro i j same
  exact congrArg (fun key => (ofLex (ofLex key).2).2) same

/-- The members of a corridor, in placement order, are one of the groups. -/
private theorem mem_corridorGroups (corridors : Corridors) (i : Index flights) :
    sortBy departureKey ((List.finRange flights.length).filter fun k =>
      corridors.at k = corridors.at i) ∈ corridorGroups flights corridors := by
  refine List.mem_map.mpr ⟨_, ?_, rfl⟩
  have keyed := (Dict.mem_keys_groupBy (fun k : Index flights => corridors.at k) id
    (List.finRange flights.length) (corridors.at i)).mpr ⟨i, List.mem_finRange i, rfl⟩
  obtain ⟨⟨key, members⟩, entry, rfl⟩ := List.mem_map.mp keyed
  have listed := Dict.mem_entries_groupBy entry
  rw [List.map_id] at listed
  exact List.mem_map.mpr ⟨_, entry, listed⟩

private theorem nodup_corridorGroups (corridors : Corridors) :
    (corridorGroups flights corridors).flatten.Nodup := by
  rw [List.nodup_flatten]
  constructor
  · intro group member
    obtain ⟨members, value, rfl⟩ := List.mem_map.mp member
    obtain ⟨⟨key, members⟩, entry, rfl⟩ := List.mem_map.mp value
    obtain rfl := Dict.mem_entries_groupBy entry
    refine nodup_sortBy _ _ ?_
    rw [List.map_id]
    exact (List.nodup_finRange _).filter _
  · rw [corridorGroups, List.pairwise_map, Dict.values, List.pairwise_map]
    have distinct := (Dict.groupBy (fun k : Index flights => corridors.at k) id
      (List.finRange flights.length)).nodupKeys
    rw [List.Nodup, List.pairwise_map] at distinct
    refine distinct.imp_of_mem fun {first second} firstEntry secondEntry differ => ?_
    intro k inFirst inSecond
    rw [mem_sortBy, Dict.mem_entries_groupBy firstEntry] at inFirst
    rw [mem_sortBy, Dict.mem_entries_groupBy secondEntry] at inSecond
    simp only [List.map_id, List.mem_filter, decide_eq_true_eq] at inFirst inSecond
    exact differ (inFirst.2.symm.trans inSecond.2)

/-- In the sorted members of its corridor, a flight stands behind those that depart before it. -/
private theorem exists_position (corridors : Corridors) (i : Index flights) :
    ∃ before after, before ++ i :: after ∈ corridorGroups flights corridors ∧
      ∀ j, j ∈ before ↔ corridors.at j = corridors.at i ∧ Departs flights j i := by
  have group := mem_corridorGroups corridors i
  have member : i ∈ sortBy departureKey ((List.finRange flights.length).filter fun k =>
      corridors.at k = corridors.at i) := by simp
  have ordered := pairwise_sortBy departureKey ((List.finRange flights.length).filter fun k =>
      corridors.at k = corridors.at i)
  have distinct := nodup_sortBy departureKey _ ((List.nodup_finRange flights.length).filter fun k =>
      corridors.at k = corridors.at i)
  have listed : ∀ j, j ∈ sortBy departureKey ((List.finRange flights.length).filter fun k =>
      corridors.at k = corridors.at i) ↔ corridors.at j = corridors.at i := by simp
  obtain ⟨before, after, split⟩ := List.append_of_mem member
  rw [split] at group ordered distinct listed
  refine ⟨before, after, group, fun j => ?_⟩
  rw [List.pairwise_append, List.pairwise_cons] at ordered
  rw [List.nodup_append, List.nodup_cons] at distinct
  constructor
  · intro earlier
    refine ⟨(listed j).mp (List.mem_append_left _ earlier), ?_⟩
    have behind := ordered.2.2 j earlier i List.mem_cons_self
    have differ := distinct.2.2 j earlier i List.mem_cons_self
    exact lt_of_le_of_ne behind fun same => differ (departureKey_injective same)
  · rintro ⟨same, departs⟩
    rcases List.mem_append.mp ((listed j).mpr same) with earlier | later
    · exact earlier
    · rcases List.mem_cons.mp later with rfl | later
      · exact absurd departs (lt_irrefl _)
      · exact absurd departs (ordered.2.1.1 j later).not_gt

/-- Within any corridors and for any conflicts, the temporal pass computes a list schedule. -/
theorem applyTemporalSeparation_isSchedule (settings : AirspaceSettings)
    (pairs : List (Index flights × Index flights)) (corridors : Corridors) :
    (corridorJobs settings (sameCorridorPairs pairs corridors)).IsSchedule (Departs flights)
      (applyTemporalSeparation settings pairs corridors) := by
  intro i x
  by_cases none : sameCorridorPairs pairs corridors = []
  · have unheld : applyTemporalSeparation settings pairs corridors i = 0 := by
      simp only [applyTemporalSeparation, none, if_true]
    have free : ∀ j, ¬ (corridorJobs settings (sameCorridorPairs pairs corridors)).Rival i j := by
      intro j rival
      simp only [corridorJobs, none, List.not_mem_nil, or_self] at rival
    rw [unheld]
    simp [free]
  · have computed : applyTemporalSeparation settings pairs corridors =
        (corridorJobs settings (sameCorridorPairs pairs corridors)).scheduleGroups (fun _ => 0)
          (corridorGroups flights corridors) := by
      simp only [applyTemporalSeparation, none, if_false]
    obtain ⟨before, after, group, earlier⟩ := exists_position corridors i
    have placed := (corridorJobs settings
      (sameCorridorPairs pairs corridors)).scheduleGroups_eq_delayAfter
      (fun _ => 0) (nodup_corridorGroups _) group
    rw [← computed] at placed
    rw [placed, Jobs.lt_delayAfter]
    refine or_congr_right (and_congr_right fun _ => exists_congr fun j => ?_)
    rw [earlier]
    constructor
    · rintro ⟨⟨_, departs⟩, rival, required⟩
      exact ⟨departs, rival, required⟩
    · rintro ⟨departs, rival, required⟩
      exact ⟨⟨corridor_of_rival rival, departs⟩, rival, required⟩

/-- The temporal pass computes the list schedule of the flights. -/
theorem delayOf_isSchedule :
    (flightJobs settings near flights).IsSchedule (Departs flights)
      (delayOf settings near flights) :=
  applyTemporalSeparation_isSchedule settings _ _

/-- The chains gauge the delay of every flight. -/
theorem pushedBy_gauges (i : Index flights) :
    Gauges (PushedBy settings near flights i) (delayOf settings near flights i) :=
  delayOf_isSchedule.gauges departs_wellFounded i

end Schedule

end FlOp.Planning
