import FlOp.Rolling.Continuity

/-! # Precedence across revisions

The solver orders the tasks of one batch; a predecessor outside the batch counts as done. A
revision mixes preserved and newly solved work, and the airspace pass moves both, so precedence
holds along a run whose rebuilds treat each dependent pair alike.
-/

namespace FlOp.Rolling

open Adapters Canonical FlOp.Core Library Planning Solver

/-- The task waits for the other one, which its reference names. -/
def DependsOn (t p : Task) : Prop := t.dependsOnTaskRef = some p.taskId ∧ p.taskId ≠ ""

instance (t p : Task) : Decidable (DependsOn t p) :=
  inferInstanceAs (Decidable (_ ∧ _))

/-- Every assignment of the predecessor ends before every assignment of the task starts. -/
def FinishesFirst (assignments : List Assignment) (t p : Task) : Prop :=
  ∀ a ∈ assignments, a.taskId = t.taskId → ∀ b ∈ assignments, b.taskId = p.taskId →
    b.plannedFinish ≤ a.plannedStart

/-- Every assigned task of the snapshot has its predecessor there assigned and finished before it
starts. -/
def PrecedenceRespected (rev : Revision) : Prop :=
  ∀ t ∈ rev.snapshot.tasks, ∀ p ∈ rev.snapshot.tasks, DependsOn t p →
    (AssignedIn rev.plan t.taskId → AssignedIn rev.plan p.taskId) ∧
      FinishesFirst rev.plan.assignments t p

instance (assignments : List Assignment) (t p : Task) :
    Decidable (FinishesFirst assignments t p) :=
  inferInstanceAs (Decidable (∀ a ∈ assignments, a.taskId = t.taskId → ∀ b ∈ assignments, _))

instance (rev : Revision) : Decidable (PrecedenceRespected rev) :=
  inferInstanceAs (Decidable (∀ t ∈ rev.snapshot.tasks, ∀ p ∈ rev.snapshot.tasks, _))

/-- A solve serves a task only after its predecessor, if it is given both. -/
def ServesInOrder (tasks : List TaskRow) (dispatch : List DispatchPackage) : Prop :=
  ∀ row ∈ tasks, ∀ other ∈ tasks, row.dependsOnTaskRef = other.taskId → other.taskId ≠ "" →
    ∀ package ∈ dispatch, package.taskId = row.taskId →
      DispatchedIn dispatch other.taskId ∧
        ∀ earlier ∈ dispatch, earlier.taskId = other.taskId →
          earlier.scheduledEnd ≤ package.scheduledStart

instance (tasks : List TaskRow) (dispatch : List DispatchPackage) :
    Decidable (ServesInOrder tasks dispatch) :=
  inferInstanceAs (Decidable (∀ row ∈ tasks, ∀ other ∈ tasks, _))

/-- How a rebuild has to treat the dependent pairs of its snapshot. -/
structure PairsStayOrdered (deployment : Deployment) (last : Option Revision) (replan : Replan) :
    Prop where
  /-- The predecessor of a re-solved task is re-solved too, or preserved and done by now. -/
  resolved : ∀ t ∈ replan.snapshot.tasks, ∀ p ∈ replan.snapshot.tasks, DependsOn t p →
    deployment.TaskResolved last replan t.taskId →
      deployment.TaskResolved last replan p.taskId ∨
        deployment.TaskKept last replan p.taskId ∧ ∀ b, deployment.WorkKept last replan b →
          b.taskId = p.taskId → b.plannedFinish ≤ (replan.now.truncated : ℚ)
  /-- The predecessor of a preserved task is preserved too; the pair was one in the parent's
  snapshot already, or its work is in order as it stands. -/
  preserved : ∀ t ∈ replan.snapshot.tasks, ∀ p ∈ replan.snapshot.tasks, DependsOn t p →
    deployment.TaskKept last replan t.taskId →
      deployment.TaskKept last replan p.taskId ∧ ∀ a b, deployment.WorkKept last replan a →
        a.taskId = t.taskId → deployment.WorkKept last replan b → b.taskId = p.taskId →
          b.plannedFinish ≤ a.plannedStart ∨ ∃ rev, last = some rev ∧
            ∃ t' ∈ rev.snapshot.tasks, ∃ p' ∈ rev.snapshot.tasks, t'.taskId = t.taskId ∧
              p'.taskId = p.taskId ∧ DependsOn t' p'
  /-- No hold moves a predecessor past its dependent. -/
  unpushed : ∀ t ∈ replan.snapshot.tasks, ∀ p ∈ replan.snapshot.tasks, DependsOn t p →
    let airspace := deployment.settings.airspace
    let near := lateralNear airspace deployment.geometry
    let list := deployment.assembledFor last replan
    let flights := aerialFlights deployment.geometry replan.snapshot list
    ∀ a ∈ list, a.taskId = t.taskId → ∀ b ∈ list, b.taskId = p.taskId →
      b.plannedFinish ≤ a.plannedStart →
        ¬ Outdoes (ShiftedBy airspace near flights b) (ShiftedBy airspace near flights a)
          (a.plannedStart - b.plannedFinish)

section Step

/-- A dependent pair reaches the solver as two rows, the first referring to the second. -/
private theorem rows_of_dependsOn {t p : Task} (depends : DependsOn t p) :
    (TaskRow.ofTask t).dependsOnTaskRef = (TaskRow.ofTask p).taskId := by
  rw [TaskRow.ofTask, depends.1]
  rfl

variable {deployment : Deployment} {last : Option Revision} {replan : Replan} {t p : Task}

/-- Work that is in order before the holds is in order after them. -/
private theorem finishesFirst_publish (ordered : PairsStayOrdered deployment last replan)
    (tMember : t ∈ replan.snapshot.tasks) (pMember : p ∈ replan.snapshot.tasks)
    (depends : DependsOn t p)
    (before : FinishesFirst (deployment.assembledFor last replan) t p) :
    FinishesFirst (deployment.publish last replan).plan.assignments t p := by
  have published : (deployment.publish last replan).plan.assignments = _ :=
    plan_assignments replan.stamp
  rw [published]
  intro a aMember aSame b bMember bSame
  obtain ⟨dependent, dependentMember, rfl⟩ := List.mem_map.mp aMember
  obtain ⟨predecessor, predecessorMember, rfl⟩ := List.mem_map.mp bMember
  rw [holdAssignment_taskId] at aSame bSame
  have planned := before dependent dependentMember aSame predecessor predecessorMember bSame
  have unpushed := ordered.unpushed t tMember p pMember depends dependent dependentMember aSame
    predecessor predecessorMember bSame planned
  have shifts : publishedShift (assembledHolds deployment replan.solver replan.snapshot
      (sessionConfig last replan.now)) predecessor -
        publishedShift (assembledHolds deployment replan.solver replan.snapshot
          (sessionConfig last replan.now)) dependent ≤
            dependent.plannedStart - predecessor.plannedFinish :=
    not_lt.mp fun past => unpushed
      ((outdoes_iff (shiftedBy_gauges _ _ _ predecessor) (shiftedBy_gauges _ _ _ dependent)).mpr
        past)
  rw [holdAssignment_plannedStart, holdAssignment_plannedFinish]
  linarith

/-- A rebuild assigns the predecessor of every task it assigns. -/
private theorem assignedIn_predecessor (solves : deployment.Solves ServesInOrder last replan)
    (ordered : PairsStayOrdered deployment last replan)
    (tMember : t ∈ replan.snapshot.tasks) (pMember : p ∈ replan.snapshot.tasks)
    (depends : DependsOn t p)
    (assigned : AssignedIn (deployment.publish last replan).plan t.taskId) :
    AssignedIn (deployment.publish last replan).plan p.taskId := by
  apply assignedIn_plan_iff.mpr
  rcases assignedIn_plan_iff.mp assigned with kept | ⟨package, dispatched, same⟩
  · exact .inl (ordered.preserved t tMember p pMember depends kept).1
  · have tResolved := same ▸ resolves_of_mem_solveDispatch dispatched
    rcases ordered.resolved t tMember p pMember depends tResolved with pResolved | ⟨kept, -⟩
    · exact .inr (solves _ (mem_solveCall_tasks.mpr ⟨t, tMember, rfl, tResolved⟩) _
        (mem_solveCall_tasks.mpr ⟨p, pMember, rfl, pResolved⟩) (rows_of_dependsOn depends)
        depends.2 package dispatched same).1
    · exact .inl kept

/-- A rebuild that treats dependent pairs alike assembles them in order. -/
private theorem finishesFirst_assembled
    (inherits : ∀ rev, last = some rev → PrecedenceRespected rev)
    (solves : deployment.Solves ServesInOrder last replan)
    (ordered : PairsStayOrdered deployment last replan)
    (tMember : t ∈ replan.snapshot.tasks) (pMember : p ∈ replan.snapshot.tasks)
    (depends : DependsOn t p) : FinishesFirst (deployment.assembledFor last replan) t p := by
  intro a aMember aSame b bMember bSame
  rcases mem_assembled aMember with ⟨dependent, kept, work⟩ | ⟨package, dispatched, work⟩
  · -- the task is kept, so its predecessor is, and the parent had them in order
    rw [work.plannedStart]
    have same : dependent.taskId = t.taskId := work.taskId.symm.trans aSame
    obtain ⟨pKept, inOrder⟩ := ordered.preserved t tMember p pMember depends ⟨dependent, kept, same⟩
    rcases mem_assembled bMember with ⟨earlier, earlierKept, earlierWork⟩ | ⟨q, qMember, qWork⟩
    · rw [earlierWork.plannedFinish]
      have earlierSame : earlier.taskId = p.taskId := earlierWork.taskId.symm.trans bSame
      rcases inOrder dependent earlier kept same earlierKept earlierSame with
        done | ⟨rev, rfl, t', t'Member, p', p'Member, tSame, pSame, parents⟩
      · exact done
      · exact (inherits rev rfl t' t'Member p' p'Member parents).2 dependent
          kept.mem_previousAssignments (same.trans tSame.symm) earlier
          earlierKept.mem_previousAssignments (earlierSame.trans pSame.symm)
    · have qSame : q.taskId = p.taskId := qWork.taskId.symm.trans bSame
      have pResolved := qSame ▸ resolves_of_mem_solveDispatch qMember
      exact absurd pKept pResolved.not_keepsTask
  · -- the task is dispatched: its predecessor is in the same batch or done by now
    have starts : a.plannedStart = package.scheduledStart := work.plannedStart
    have same : package.taskId = t.taskId := work.taskId.symm.trans aSame
    have tResolved := same ▸ resolves_of_mem_solveDispatch dispatched
    rcases mem_assembled bMember with ⟨earlier, earlierKept, earlierWork⟩ | ⟨q, qMember, qWork⟩
    · rw [earlierWork.plannedFinish]
      have earlierSame : earlier.taskId = p.taskId := earlierWork.taskId.symm.trans bSame
      rcases ordered.resolved t tMember p pMember depends tResolved with pResolved | ⟨-, done⟩
      · exact absurd ⟨earlier, earlierKept, earlierSame⟩ pResolved.not_keepsTask
      · have origin := start_of_mem_solveDispatch dispatched
        rw [sessionConfig_nowFor] at origin
        rw [starts]
        exact (done earlier earlierKept earlierSame).trans origin
    · have finishes : b.plannedFinish = q.scheduledEnd := qWork.plannedFinish
      have qSame : q.taskId = p.taskId := qWork.taskId.symm.trans bSame
      have pResolved := qSame ▸ resolves_of_mem_solveDispatch qMember
      rw [starts, finishes]
      exact (solves _ (mem_solveCall_tasks.mpr ⟨t, tMember, rfl, tResolved⟩) _
        (mem_solveCall_tasks.mpr ⟨p, pMember, rfl, pResolved⟩) (rows_of_dependsOn depends)
        depends.2 package dispatched same).2 q qMember qSame

end Step

/-- Along every run whose rebuilds keep dependent pairs ordered, each revision assigns the
predecessor of every assigned task and finishes it first. -/
theorem precedenceRespected_of_reachable (deployment : Deployment) {last : Option Revision}
    (run : deployment.session.ReachableWhere (fun last replan =>
      deployment.Solves ServesInOrder last replan ∧ PairsStayOrdered deployment last replan)
        last) :
    ∀ rev, last = some rev → PrecedenceRespected rev := by
  apply run.invariant (fun last => ∀ rev, last = some rev → PrecedenceRespected rev)
  · intro start initial rev published
    rw [initial] at published
    contradiction
  · intro source replan target inherits allowed step rev published
    obtain ⟨solves, ordered⟩ := allowed
    have next : some (deployment.publish source replan) = target := Option.some.inj step
    rw [published] at next
    obtain rfl := Option.some.inj next
    intro t tMember p pMember depends
    constructor
    · exact assignedIn_predecessor solves ordered tMember pMember depends
    · apply finishesFirst_publish ordered tMember pMember depends
      exact finishesFirst_assembled inherits solves ordered tMember pMember depends

/-- A field that is ploughed and then sown. -/
def fieldSnapshot : PlanningSnapshot where
  snapshotId := "snapshot-field"
  effectiveAt := 0
  assets := [{ assetId := "drone-plough" }, { assetId := "drone-sow" }]
  tasks := [{ taskId := "plough" }, { taskId := "sow", dependsOnTaskRef := some "plough" }]

/-- Rebuild for the field with the given windows. -/
def fieldReplan (plough sow : Option (Instant × Instant)) (now : Instant) : Replan where
  snapshot := fieldSnapshot
  now := now
  solver := SolverStages.serving fun id => if id = "plough" then plough else sow
  stamp := { revisionId := "rev-1", generatedAt := now }

theorem precedenceRespected_of_reachable_field :
    PrecedenceRespected (padDeployment.publish none
      (fieldReplan (some (10000, 13600)) (some (13600, 15000)) 0)) := by
  refine precedenceRespected_of_reachable padDeployment (.step (.initial rfl) ⟨?_, ?_⟩ rfl) _ rfl
  · decide +kernel
  · constructor
    · intro t _ p pMember _ _
      refine .inl ⟨PlanningSnapshot.mem_taskIds.mpr ⟨p, pMember, rfl⟩, ?_, not_keepsTask_baseline⟩
      rintro ⟨⟨task, member, started, -⟩ | ⟨prev, found, -⟩, -⟩
      · revert task
        decide
      · contradiction
    · intro t _ p _ _ kept
      exact absurd kept not_keepsTask_baseline
    · intro t _ p _ _ airspace near list flights a aMember _ b bMember _ done
      have grounded : ∀ c ∈ list, publishedShift (airspaceHolds airspace near flights) c = 0 := by
        decide +kernel
      rw [outdoes_iff (shiftedBy_gauges _ _ _ b) (shiftedBy_gauges _ _ _ a), grounded a aMember,
        grounded b bMember]
      linarith

/-- Sowing is solved again next to the preserved ploughing and overtakes it. -/
theorem dependent_overtakes_preserved :
    ¬ ∀ (deployment : Deployment) (last : Option Revision),
      deployment.session.ReachableWhere (deployment.Solves ServesInOrder) last →
        ∀ rev, last = some rev → PrecedenceRespected rev := by
  intro respected
  have ordered := respected padDeployment _
    (.step (.step (.initial rfl) (l := fieldReplan (some (10000, 13600)) none 0)
      (by decide +kernel) rfl) (l := fieldReplan none (some (10000, 11000)) 600)
        (by decide +kernel) rfl) _ rfl
  exact absurd ordered (by decide +kernel)

end FlOp.Rolling
