import FlOp.Rolling.Continuity

/-! # Alternatives across revisions

The solver serves at most one member of a group among the tasks it is given, and a revision adds
preserved work to what it serves. Groups stay exclusive along every run whose rebuilds neither
split a group between preserved and re-solved tasks nor join preserved tasks into a new one.
-/

namespace FlOp.Rolling

open Canonical FlOp.Core Library Solver

/-- Two tasks are alternatives of one group. -/
def Alternatives (t u : Task) : Prop :=
  t.alternativeGroupRef ≠ "" ∧ u.alternativeGroupRef = t.alternativeGroupRef

instance (t u : Task) : Decidable (Alternatives t u) :=
  inferInstanceAs (Decidable (_ ∧ _))

/-- The plan lists the group as unassigned: a record carries its name, and no task outside the
group is called so. -/
def ReportsGroup (rev : Revision) (group : String) : Prop :=
  (∃ record ∈ rev.plan.unassignedTasks, record.taskId = group) ∧
    ∀ task ∈ rev.snapshot.tasks, task.taskId = group → task.alternativeGroupRef = group

/-- A revision serves at most one task of each group of its snapshot and reports only groups it
serves no task of. -/
structure AlternativesExclusive (rev : Revision) : Prop where
  assignsOne : ∀ t ∈ rev.snapshot.tasks, ∀ u ∈ rev.snapshot.tasks, Alternatives t u →
    AssignedIn rev.plan t.taskId → AssignedIn rev.plan u.taskId → t.taskId = u.taskId
  reportsUnserved : ∀ t ∈ rev.snapshot.tasks, t.alternativeGroupRef ≠ "" →
    ReportsGroup rev t.alternativeGroupRef → ¬ AssignedIn rev.plan t.taskId

/-- A solve serves at most one member of every group among the tasks it is given. -/
def ServesOneAlternative (tasks : List TaskRow) (dispatch : List DispatchPackage) : Prop :=
  ∀ row ∈ tasks, ∀ other ∈ tasks, row.alternativeGroupRef ≠ "" →
    other.alternativeGroupRef = row.alternativeGroupRef → DispatchedIn dispatch row.taskId →
      DispatchedIn dispatch other.taskId → row.taskId = other.taskId

instance (tasks : List TaskRow) (dispatch : List DispatchPackage) :
    Decidable (ServesOneAlternative tasks dispatch) :=
  inferInstanceAs (Decidable (∀ row ∈ tasks, ∀ other ∈ tasks, _ → _ → _ → _ → _))

/-- How a rebuild has to treat the groups of its snapshot. -/
structure GroupsStayWhole (deployment : Deployment) (last : Option Revision) (replan : Replan) :
    Prop where
  /-- No group has a preserved member next to a re-solved one. -/
  undivided : ∀ t ∈ replan.snapshot.tasks, ∀ u ∈ replan.snapshot.tasks, Alternatives t u →
    deployment.TaskKept last replan t.taskId → ¬ deployment.TaskResolved last replan u.taskId
  /-- Preserved tasks of one group were alternatives in the parent's snapshot already. -/
  inherited : ∀ t ∈ replan.snapshot.tasks, ∀ u ∈ replan.snapshot.tasks, Alternatives t u →
    deployment.TaskKept last replan t.taskId → deployment.TaskKept last replan u.taskId →
      t.taskId = u.taskId ∨ ∃ rev, last = some rev ∧ ∃ t' ∈ rev.snapshot.tasks,
        ∃ u' ∈ rev.snapshot.tasks, t'.taskId = t.taskId ∧ u'.taskId = u.taskId ∧
          Alternatives t' u'
  /-- Re-solved tasks of one id name one group. -/
  unambiguous : ∀ t ∈ replan.snapshot.tasks, ∀ u ∈ replan.snapshot.tasks,
    deployment.TaskResolved last replan t.taskId → t.taskId = u.taskId →
      t.alternativeGroupRef = u.alternativeGroupRef

section Step

variable {deployment : Deployment} {last : Option Revision} {replan : Replan}

/-- A re-solved task is filed under its own group. -/
private theorem groupByTask_of_resolves
    (whole : GroupsStayWhole deployment last replan) {t : Task}
    (member : t ∈ replan.snapshot.tasks)
    (resolves : deployment.TaskResolved last replan t.taskId) :
    (groupByTask (solveCall deployment replan.snapshot (sessionConfig last replan.now)).tasks).get?
      t.taskId = some t.alternativeGroupRef := by
  have given : TaskRow.ofTask t ∈
      (solveCall deployment replan.snapshot (sessionConfig last replan.now)).tasks :=
    mem_solveCall_tasks.mpr ⟨t, member, rfl, resolves⟩
  have filed := (Dict.isSome_get?_collect (·.taskId) (·.alternativeGroupRef) _ t.taskId).mpr
    ⟨_, given, rfl⟩
  obtain ⟨group, found⟩ := Option.isSome_iff_exists.mp filed
  obtain ⟨row, rowGiven, sameId, sameGroup⟩ := Dict.exists_of_get?_collect found
  obtain ⟨u, uMember, rfl, -⟩ := mem_solveCall_tasks.mp rowGiven
  have group_eq := whole.unambiguous t member u uMember resolves sameId.symm
  rw [groupByTask, found, group_eq, ← sameGroup]
  rfl

private theorem assignsOne_publish (inherits : ∀ rev, last = some rev → AlternativesExclusive rev)
    (solves : deployment.Solves ServesOneAlternative last replan)
    (whole : GroupsStayWhole deployment last replan)
    {t u : Task} (tMember : t ∈ replan.snapshot.tasks) (uMember : u ∈ replan.snapshot.tasks)
    (alternatives : Alternatives t u)
    (tAssigned : AssignedIn (deployment.publish last replan).plan t.taskId)
    (uAssigned : AssignedIn (deployment.publish last replan).plan u.taskId) :
    t.taskId = u.taskId := by
  have swapped : Alternatives u t :=
    ⟨alternatives.2 ▸ alternatives.1, alternatives.2.symm⟩
  rcases assignedIn_plan_iff.mp tAssigned with tKept | ⟨p, pMember, pSame⟩
  · rcases assignedIn_plan_iff.mp uAssigned with uKept | ⟨q, qMember, qSame⟩
    · rcases whole.inherited t tMember u uMember alternatives tKept uKept with
        same | ⟨rev, rfl, t', t'Member, u', u'Member, tSame, uSame, parents⟩
      · exact same
      · rw [← tSame, ← uSame]
        exact (inherits rev rfl).assignsOne t' t'Member u' u'Member parents
          (tSame ▸ assignedIn_parent tKept) (uSame ▸ assignedIn_parent uKept)
    · have uResolves := qSame ▸ resolves_of_mem_solveDispatch qMember
      exact absurd uResolves (whole.undivided t tMember u uMember alternatives tKept)
  · have tResolves := pSame ▸ resolves_of_mem_solveDispatch pMember
    rcases assignedIn_plan_iff.mp uAssigned with uKept | ⟨q, qMember, qSame⟩
    · exact absurd tResolves (whole.undivided u uMember t tMember swapped uKept)
    · have uResolves := qSame ▸ resolves_of_mem_solveDispatch qMember
      exact solves _ (mem_solveCall_tasks.mpr ⟨t, tMember, rfl, tResolves⟩) _
        (mem_solveCall_tasks.mpr ⟨u, uMember, rfl, uResolves⟩) alternatives.1 alternatives.2
        ⟨p, pMember, pSame⟩ ⟨q, qMember, qSame⟩

private theorem reportsUnserved_publish
    (whole : GroupsStayWhole deployment last replan)
    {t : Task} (tMember : t ∈ replan.snapshot.tasks) (grouped : t.alternativeGroupRef ≠ "")
    (reports : ReportsGroup (deployment.publish last replan) t.alternativeGroupRef) :
    ¬ AssignedIn (deployment.publish last replan).plan t.taskId := by
  obtain ⟨⟨unassigned, listed, named⟩, own⟩ := reports
  obtain ⟨dispatch, record, reported, sameRecord⟩ := mem_plan_unassignedTasks listed
  rw [named] at sameRecord
  intro assigned
  rcases runSolverChain_infeasible _ reported with
    ⟨keyed, unserved⟩ | ⟨unkeyed, groupless, row, given, rowNamed⟩
  · -- a failed group has a re-solved member, so `t` is dispatched and serves the group
    rw [sameRecord] at keyed unserved
    obtain ⟨-, id, filed⟩ := mem_keys_membersByGroup.mp keyed
    obtain ⟨row, given, -, sameGroup⟩ := Dict.exists_of_get?_collect filed
    obtain ⟨u, uMember, rfl, resolves⟩ := mem_solveCall_tasks.mp given
    rcases assignedIn_plan_iff.mp assigned with kept | ⟨package, packageMember, samePackage⟩
    · exact whole.undivided t tMember u uMember ⟨grouped, sameGroup⟩ kept resolves
    · have tResolves := samePackage ▸ resolves_of_mem_solveDispatch packageMember
      rw [dispatch] at packageMember
      apply unserved
      apply mem_servedGroups packageMember grouped
      rw [samePackage]
      exact groupByTask_of_resolves whole tMember tResolves
  · -- any other record is about a re-solved task, whose group then has members
    obtain ⟨u, uMember, rfl, resolves⟩ := mem_solveCall_tasks.mp given
    have filed := groupByTask_of_resolves whole uMember resolves
    rw [sameRecord] at unkeyed groupless rowNamed
    rcases rowNamed with sameId | ⟨-, sameGroup⟩
    · have ownGroup := own u uMember sameId
      have sameTask : u.taskId = t.alternativeGroupRef := sameId
      rw [sameTask, ownGroup] at filed
      rw [Dict.getD, filed] at groupless
      exact grouped groupless
    · have ownGroup : u.alternativeGroupRef = t.alternativeGroupRef := sameGroup
      rw [ownGroup] at filed
      exact unkeyed (mem_keys_membersByGroup.mpr ⟨grouped, _, filed⟩)

end Step

/-- Along every run whose rebuilds keep groups whole, each revision assigns at most one task of a
group and reports a group only when it assigns none of its tasks. -/
theorem alternativesExclusive_of_reachable (deployment : Deployment) {last : Option Revision}
    (run : deployment.session.ReachableWhere (fun last replan =>
      deployment.Solves ServesOneAlternative last replan ∧
        GroupsStayWhole deployment last replan) last) :
    ∀ rev, last = some rev → AlternativesExclusive rev := by
  apply run.invariant (fun last => ∀ rev, last = some rev → AlternativesExclusive rev)
  · intro start initial rev published
    rw [initial] at published
    contradiction
  · intro source replan target inherits allowed step rev published
    obtain ⟨solves, whole⟩ := allowed
    have next : some (deployment.publish source replan) = target := Option.some.inj step
    rw [published] at next
    obtain rfl := Option.some.inj next
    constructor
    · intro t tMember u uMember alternatives tAssigned uAssigned
      exact assignsOne_publish inherits solves whole tMember uMember alternatives tAssigned
        uAssigned
    · intro t tMember grouped reports
      exact reportsUnserved_publish whole tMember grouped reports

/-- One parcel that either a drone or a van delivers. -/
def parcelSnapshot : PlanningSnapshot where
  snapshotId := "snapshot-parcel"
  effectiveAt := 0
  assets := [{ assetId := "drone-by-drone" }, { assetId := "drone-by-van" }]
  tasks := [{ taskId := "by-drone", alternativeGroupRef := "parcel" },
    { taskId := "by-van", alternativeGroupRef := "parcel" }]

/-- Rebuild for the parcel with a solver that serves one way of delivery only. -/
def parcelReplan (served : String) (now : Instant) : Replan where
  snapshot := parcelSnapshot
  now := now
  solver := SolverStages.serving fun id => if id = served then some (10000, 10600) else none
  stamp := { revisionId := "rev-1", generatedAt := now }

theorem alternativesExclusive_of_reachable_parcel :
    AlternativesExclusive (padDeployment.publish none (parcelReplan "by-drone" 0)) := by
  refine alternativesExclusive_of_reachable padDeployment (.step (.initial rfl) ⟨?_, ?_⟩ rfl) _ rfl
  · decide +kernel
  · constructor
    · intro t _ u _ _ kept
      exact absurd kept not_keepsTask_baseline
    · intro t _ u _ _ kept
      exact absurd kept not_keepsTask_baseline
    · intro t tMember u uMember _ _
      have sameGroup : ∀ task ∈ parcelSnapshot.tasks, task.alternativeGroupRef = "parcel" := by
        decide
      rw [sameGroup t tMember, sameGroup u uMember]

/-- A parcel is assigned both ways: the losing variant of preserved work is solved again. -/
theorem losing_variant_is_assigned :
    ¬ ∀ (deployment : Deployment) (last : Option Revision),
      deployment.session.ReachableWhere (deployment.Solves ServesOneAlternative) last →
        ∀ rev, last = some rev → AlternativesExclusive rev := by
  intro exclusive
  have both := exclusive padDeployment _
    (.step (.step (.initial rfl) (l := parcelReplan "by-drone" 0) (by decide +kernel) rfl)
      (l := parcelReplan "by-van" 600) (by decide +kernel) rfl) _ rfl
  have same := both.assignsOne _ List.mem_cons_self _ (List.mem_cons_of_mem _ List.mem_cons_self)
    (by decide) (by decide +kernel) (by decide +kernel)
  exact absurd same (by decide)

end FlOp.Rolling
