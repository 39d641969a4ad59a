import FlOp.Planning.DoubleBooking
import FlOp.Rolling.Session

/-! # What a revision inherits

A revision publishes preserved work of its parent. Carried-forward flights may still be moved by
the airspace holds, and frozen work may outlive its task; both happen under exact conditions on
the rebuild.
-/

namespace FlOp.Rolling

open Adapters Canonical FlOp.Core Library Planning Solver

section Verbatim

variable (deployment : Deployment) (solver : Solver) (snapshot : PlanningSnapshot)
  (config : RollingConfig) (stamp : Stamp)

/-- Every frozen or carried-forward assignment repeats one of the parent plan, and the published
assignment at its position still has the same window, assets and operators. -/
def PreservedVerbatim : Prop :=
  ∀ (k : ℕ) (a : Assignment), (rollingPartition deployment.settings.rolling deployment.order snapshot
      config).held[k]? = some a →
    ∃ prev ∈ config.previousAssignments, prev.SameWork a ∧
      ∃ published, (deployment.plan solver snapshot config stamp).assignments[k]? =
        some published ∧ prev.SameWork published

/-- A carried-forward assignment without a pin flies a task whose flight has to wait. -/
def CarriedFlightWaits : Prop :=
  let airspace := deployment.settings.airspace
  let flights := aerialFlights deployment.geometry snapshot
    (assembled deployment solver snapshot config)
  ∃ prev, Keeps deployment.settings.rolling snapshot config prev ∧
    ¬ Freezes deployment.settings.rolling snapshot config prev.taskId ∧ prev.isPinned = false ∧
      ∃ k, (flights.get k).taskId = prev.taskId ∧
        Waits airspace (lateralNear airspace deployment.geometry) flights k

variable {deployment solver snapshot config stamp}

/-- The preserved list is published first, each assignment moved by its own shift. -/
private theorem getElem?_plan_of_held {k : ℕ} {a : Assignment}
    (located : (rollingPartition deployment.settings.rolling deployment.order snapshot
      config).held[k]? = some a) :
    (deployment.plan solver snapshot config stamp).assignments[k]? =
      some (holdAssignment (assembledHolds deployment solver snapshot config) a) := by
  obtain ⟨normalized, list, -⟩ := assembled_eq deployment solver snapshot config
  have inside := (List.getElem?_eq_some_iff.mp located).1
  rw [plan_assignments, List.getElem?_map, list, List.getElem?_append_left inside, located]
  rfl

end Verbatim

/-- Preserved work is published verbatim if and only if no flight of an unpinned carried-forward
assignment has to wait. -/
theorem preservedVerbatim_iff (deployment : Deployment) (solver : Solver)
    (snapshot : PlanningSnapshot) (config : RollingConfig) (stamp : Stamp) :
    PreservedVerbatim deployment solver snapshot config stamp ↔
      ¬ CarriedFlightWaits deployment solver snapshot config := by
  constructor
  · rintro verbatim ⟨prev, kept, loose, unpinned, k, same, waits⟩
    have held : ({ prev with isFrozen := false } : Assignment) ∈
        (rollingPartition deployment.settings.rolling deployment.order snapshot config).held :=
      mem_held.mpr ⟨prev, kept, .inr ⟨loose, rfl⟩⟩
    obtain ⟨position, located⟩ := List.mem_iff_getElem?.mp held
    obtain ⟨parent, -, repeated, published, found, unmoved⟩ := verbatim position _ located
    rw [getElem?_plan_of_held located] at found
    obtain rfl := Option.some.inj found
    have unshifted := (sameWork_holdAssignment_iff _ _).mp (repeated.symm.trans unmoved)
    have uncommitted : ({ prev with isFrozen := false } : Assignment).committed = false := by
      simp only [Assignment.committed, unpinned, Bool.or_false]
    exact publishedShift_eq_zero_iff.mp unshifted uncommitted k same waits
  · intro rests position a located
    obtain ⟨prev, kept, frozenOrCarried⟩ := mem_held.mp (List.mem_of_getElem? located)
    have repeated : prev.SameWork a := by
      rcases frozenOrCarried with ⟨-, rfl⟩ | ⟨-, rfl⟩
      · exact ⟨rfl, rfl, rfl, rfl, rfl⟩
      · exact ⟨rfl, rfl, rfl, rfl, rfl⟩
    have unshifted :
        publishedShift (assembledHolds deployment solver snapshot config) a = 0 := by
      apply publishedShift_eq_zero_iff.mpr
      intro uncommitted k same waits
      rcases frozenOrCarried with ⟨-, rfl⟩ | ⟨loose, rfl⟩
      · simp [Assignment.committed] at uncommitted
      · have unpinned : prev.isPinned = false := by
          simpa [Assignment.committed] using uncommitted
        exact rests ⟨prev, kept, loose, unpinned, k, same, waits⟩
    refine ⟨prev, kept.mem_previousAssignments, repeated, _, getElem?_plan_of_held located, ?_⟩
    exact repeated.trans ((sameWork_holdAssignment_iff _ _).mpr unshifted)

/-- Deliveries to one pad, in a place where all distances are zero. -/
def padDeployment : Deployment where
  digest := id
  geometry := padGeometry

/-- The pad with a delivery for each of the given tasks. -/
def padDeliveries (taskIds : List String) : PlanningSnapshot where
  snapshotId := "snapshot-deliveries"
  effectiveAt := 0
  locations := [{ locationId := "pad", lat := 50, lon := 30 }]
  assets := taskIds.map fun id => { assetId := "drone-" ++ id }
  tasks := taskIds.map fun id =>
    { taskId := id, operationType := uavOperation, locationRef := "pad" }

/-- Rebuild for the given deliveries; new ones are flown at one fixed time. -/
def padReplan (taskIds : List String) (now start : Instant) : Replan where
  snapshot := padDeliveries taskIds
  now := now
  solver := SolverStages.serving fun _ => some (start, start + 600)
  stamp := { revisionId := "rev-1", generatedAt := now }

/-- A new delivery takes the corridor of a carried-forward one, which is held behind it. -/
theorem carried_flight_is_moved :
    let baseline := padDeployment.publish none (padReplan ["b", "c", "d", "e"] 0 10000)
    let replan := padReplan ["a", "b", "c", "d", "e"] 60 10000
    ¬ PreservedVerbatim padDeployment replan.solver replan.snapshot
      (sessionConfig (some baseline) replan.now) replan.stamp := by
  intro baseline replan verbatim
  have planned : ((rollingPartition padDeployment.settings.rolling padDeployment.order
      replan.snapshot (sessionConfig (some baseline) replan.now)).held[3]?).map
        (·.plannedStart) = some 10000 := by
    decide +kernel
  have moved : ((padDeployment.publish (some baseline) replan).plan.assignments[3]?).map
      (·.plannedStart) = some 10660 := by
    decide +kernel
  obtain ⟨carried, located, start⟩ := Option.map_eq_some_iff.mp planned
  obtain ⟨prev, -, repeated, published, found, unmoved⟩ := verbatim 3 carried located
  have published_start : published.plannedStart = 10660 := by
    have shown := congrArg (Option.map (·.plannedStart)) found
    exact Option.some.inj (shown.symm.trans moved)
  have same := unmoved.plannedStart.trans repeated.plannedStart.symm
  rw [published_start, start] at same
  exact absurd same (by decide +kernel)

/-- Every assignment of the revision is for a task of the snapshot it was built from. -/
def NoGhosts (rev : Revision) : Prop := ∀ a ∈ rev.plan.assignments, a.taskId ∈ rev.snapshot.taskIds

instance (rev : Revision) : Decidable (NoGhosts rev) :=
  inferInstanceAs (Decidable (∀ a ∈ rev.plan.assignments, _))

/-- The parent's work inside the freeze window is still work of the new snapshot. -/
def ImminentWorkRemains (settings : RollingSettings) (last : Option Revision) (replan : Replan) :
    Prop :=
  ∀ id, Imminent settings replan.snapshot (sessionConfig last replan.now) id →
    id ∈ replan.snapshot.taskIds

/-- One rebuild publishes no ghost exactly when imminent work of its parent remains. -/
theorem noGhosts_publish_iff (deployment : Deployment) (last : Option Revision) (replan : Replan) :
    NoGhosts (deployment.publish last replan) ↔
      ImminentWorkRemains deployment.settings.rolling last replan := by
  constructor
  · intro clean id imminent
    by_contra removed
    have freezes : Freezes deployment.settings.rolling replan.snapshot
        (sessionConfig last replan.now) id :=
      ⟨.inr imminent, fun _ _ current => absurd current removed⟩
    obtain ⟨prev, found, -⟩ := imminent
    obtain ⟨-, rfl⟩ := previousByTask_spec found
    obtain ⟨a, member, same⟩ := assignedIn_plan_iff.mpr (.inl ⟨prev, .frozen found freezes, rfl⟩)
    exact removed (same ▸ clean a member)
  · intro remains a member
    have assigned : AssignedIn (deployment.publish last replan).plan a.taskId := ⟨a, member, rfl⟩
    rcases assignedIn_plan_iff.mp assigned with ⟨prev, kept, same⟩ | ⟨package, dispatched, same⟩
    · rw [← same]
      cases kept with
      | frozen _ freezes =>
        rcases freezes.1 with ⟨task, taskMember, -, sameTask⟩ | imminent
        · exact PlanningSnapshot.mem_taskIds.mpr ⟨task, taskMember, sameTask⟩
        · exact remains _ imminent
      | carried _ _ current _ _ => exact current
    · exact same ▸ (resolves_of_mem_solveDispatch dispatched).1

/-- A run of revisions publishes no ghost if and only if at every step the imminent work of the
parent remains work of the new snapshot. -/
theorem noGhosts_iff (deployment : Deployment)
    {past : List (LabeledSystem.Transition (Option Revision) Replan)} {last : Option Revision}
    (run : deployment.session.Run past last) :
    (∀ taken ∈ past, ∀ rev, taken.target = some rev → NoGhosts rev) ↔
      ∀ taken ∈ past,
        ImminentWorkRemains deployment.settings.rolling taken.source taken.label := by
  have step : ∀ taken ∈ past, ∀ rev, taken.target = some rev ↔
      rev = deployment.publish taken.source taken.label := by
    intro taken member rev
    have published : some (some (deployment.publish taken.source taken.label)) =
        some taken.target := run.step_of_mem member
    rw [← Option.some.inj published, Option.some.injEq, eq_comm]
  constructor
  · intro clean taken member
    exact (noGhosts_publish_iff deployment _ _).mp
      (clean taken member _ ((step taken member _).mpr rfl))
  · intro remains taken member rev published
    rw [(step taken member rev).mp published]
    exact (noGhosts_publish_iff deployment _ _).mpr (remains taken member)

/-- A baseline with the given deliveries and a second revision with others, ten minutes later. -/
def padRun (first second : List String) (start : Instant) :
    List (LabeledSystem.Transition (Option Revision) Replan) :=
  let baseline := padDeployment.publish none (padReplan first 0 start)
  [⟨none, padReplan first 0 start, some baseline⟩,
    ⟨some baseline, padReplan second 600 start,
      some (padDeployment.publish (some baseline) (padReplan second 600 start))⟩]

theorem padRun_run (first second : List String) (start : Instant) :
    padDeployment.session.Run (padRun first second start)
      (some (padDeployment.publish (some (padDeployment.publish none (padReplan first 0 start)))
        (padReplan second 600 start))) :=
  .step (.step (.initial rfl) rfl) rfl

theorem noGhosts_iff_pad :
    (∀ taken ∈ padRun ["a"] ["a", "b"] 1200, ∀ rev, taken.target = some rev → NoGhosts rev) ↔
      ∀ taken ∈ padRun ["a"] ["a", "b"] 1200,
        ImminentWorkRemains padDeployment.settings.rolling taken.source taken.label :=
  noGhosts_iff padDeployment (padRun_run ["a"] ["a", "b"] 1200)

/-- A delivery completed within the freeze window stays assigned in the next revision. -/
theorem completed_delivery_stays_assigned :
    ¬ ∀ (deployment : Deployment)
      (past : List (LabeledSystem.Transition (Option Revision) Replan)) (last : Option Revision),
      deployment.session.Run past last →
        ∀ taken ∈ past, ∀ rev, taken.target = some rev → NoGhosts rev := by
  intro clean
  have ghostless := clean padDeployment _ _ (padRun_run ["a", "b"] ["b"] 1200) _
    (List.mem_cons_of_mem _ List.mem_cons_self) _ rfl
  exact absurd ghostless (by decide +kernel)

end FlOp.Rolling
