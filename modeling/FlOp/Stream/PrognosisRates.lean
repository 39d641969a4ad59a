import FlOp.Rolling.Continuity
import FlOp.Stream.Prognosis
import Mathlib.Data.List.Chain
import Mathlib.Order.Interval.Finset.Nat

/-! # What the prognosis rates count

A prognosis is a service task from the revision that first derives it to the last one that still
does. The rates of a run are shares of its prognoses, and unchanged by further revisions in which
the same tasks stay active, exactly if no service task was withdrawn or escalated.
-/

namespace FlOp.Stream

open Canonical FlOp.Core Library Rolling Solver

/-- Service tasks that the monitoring of a snapshot derived. -/
def derivedIds (snapshot : PlanningSnapshot) : Finset String :=
  (serviceTaskReasons snapshot).keys.toFinset

/-- The revisions of a stream from its baseline on, each reconciled with the one before. -/
structure StreamRun where
  history : List Rolling.Revision
  chained : history.IsChain Reconciled

/-- The same service tasks stay active in the added revision. -/
structure StaysActive (rev added : Rolling.Revision) : Prop where
  listed : serviceTaskIds added.plan = serviceTaskIds rev.plan
  derived : serviceTaskReasons added.snapshot = serviceTaskReasons rev.snapshot
  kept : actionTaskIds added.plan .serviceWithdrawn = []
  calm : actionTaskIds added.plan .serviceEscalated = []

/-- No listed service task disappears, and no task is escalated that was not before. -/
structure Steady (prev rev : Rolling.Revision) : Prop where
  remain : ∀ id ∈ serviceTaskIds prev.plan, id ∈ rev.snapshot.taskIds
  calm : ∀ task ∈ rev.snapshot.tasks, escalated task = true → ∀ reason,
    (serviceTaskReasons prev.snapshot).get? task.taskId = some reason →
      containsText escalatedReasonPrefix reason = true

namespace StreamRun

variable (typesOf : PlanningSnapshot → Dict String String) (run : StreamRun)

/-- The log of a run; its baseline is not recorded. -/
def log : List OutcomeRecord :=
  run.history.tail.map fun rev => recordPrognosisOutcomes rev.plan (typesOf rev.snapshot)

def accuracy : Accuracy := prognosisAccuracy (run.log typesOf)

def derivedAt (i : ℕ) : Finset String :=
  ((run.history[i]?).map fun rev => derivedIds rev.snapshot).getD ∅

def actedAt (action : CorrectiveActionType) (i : ℕ) : List String :=
  ((run.history[i]?).map fun rev => actionTaskIds rev.plan action).getD []

/-- The distinct prognoses: each service task with a revision that derives it while the one before
does not. -/
def prognoses : Finset (ℕ × String) :=
  (Finset.range run.history.length).biUnion fun i =>
    ((run.derivedAt i).filter fun id => i = 0 ∨ id ∉ run.derivedAt (i - 1)).image (i, ·)

/-- The prognosis lasts to a revision after which an action is recorded for it. -/
def Meets (action : CorrectiveActionType) (prognosis : ℕ × String) : Prop :=
  ∃ j < run.history.length, prognosis.1 ≤ j ∧
    (∀ k ∈ Finset.Icc prognosis.1 j, prognosis.2 ∈ run.derivedAt k) ∧
      prognosis.2 ∈ run.actedAt action (j + 1)

instance (action : CorrectiveActionType) (prognosis : ℕ × String) :
    Decidable (run.Meets action prognosis) :=
  inferInstanceAs (Decidable (∃ j < _, _))

/-- The share of the prognoses that met an action. -/
def share (action : CorrectiveActionType) : ℚ :=
  (run.prognoses.filter fun prognosis => run.Meets action prognosis).card / run.prognoses.card

/-- A longer run has one revision more, in which the same service tasks stay active. -/
def Prolongs (run longer : StreamRun) : Prop :=
  ∃ past rev added later, run.history = past ++ rev :: later ∧
    longer.history = past ++ rev :: added :: later ∧ StaysActive rev added

/-- The rates are the shares of withdrawn and of escalated prognoses, and further revisions in
which the same service tasks stay active do not change them. -/
structure CountsPrognoses : Prop where
  falsePositives : (run.accuracy typesOf).falsePositiveRate = run.share .serviceWithdrawn
  falseNegatives : (run.accuracy typesOf).falseNegativeRate = run.share .serviceEscalated
  prolonged : ∀ longer, Relation.ReflTransGen Prolongs run longer →
    (longer.accuracy typesOf).falsePositiveRate = (run.accuracy typesOf).falsePositiveRate ∧
      (longer.accuracy typesOf).falseNegativeRate = (run.accuracy typesOf).falseNegativeRate

end StreamRun

/-- Revisions published one after the other are a run. -/
def publishAll (deployment : Deployment) (last : Option Rolling.Revision) :
    List Replan → List Rolling.Revision
  | [] => []
  | replan :: rest =>
    let rev := deployment.publish last replan
    rev :: publishAll deployment (some rev) rest

theorem publishAll_chained (deployment : Deployment) (replans : List Replan)
    (last : Option Rolling.Revision) :
    (publishAll deployment last replans).IsChain Reconciled := by
  induction replans generalizing last with
  | nil => exact .nil
  | cons replan rest ih =>
    rw [publishAll]
    cases rest with
    | nil => exact .singleton _
    | cons next later =>
      have chained := ih (some (deployment.publish last replan))
      rw [publishAll] at chained ⊢
      exact .cons_cons (publish_reconciled deployment _ next) chained

/-- The run of a deployed planner, whatever it is given to plan. -/
def StreamRun.ofReplans (deployment : Deployment) (replans : List Replan) : StreamRun where
  history := publishAll deployment none replans
  chained := publishAll_chained deployment replans none

/-- A reconciled revision is steady exactly if it records no service action. -/
theorem steady_iff {prev rev : Rolling.Revision} (reconciled : Reconciled prev rev) :
    Steady prev rev ↔ actionTaskIds rev.plan .serviceWithdrawn = [] ∧
      actionTaskIds rev.plan .serviceEscalated = [] := by
  simp only [List.eq_nil_iff_forall_not_mem, reconciled.mem_withdrawn, reconciled.mem_escalated]
  constructor
  · intro steady
    refine ⟨fun id gone => gone.2 (steady.remain id gone.1), ?_⟩
    rintro _ ⟨task, listed, risen, rfl, reason, known, fresh⟩
    have before := steady.calm task listed risen reason known
    rw [fresh] at before
    exact absurd before Bool.false_ne_true
  · rintro ⟨kept, calm⟩
    refine ⟨fun id listed => ?_, fun task listed risen reason known => ?_⟩
    · by_contra gone
      exact kept id ⟨listed, gone⟩
    · by_contra fresh
      exact calm task.taskId
        ⟨task, listed, risen, rfl, reason, known, Bool.not_eq_true _ ▸ fresh⟩

/-! ## A revision in which nothing happens -/

/-- A revision with the same plan and the same derived service tasks. -/
def repeated (rev : Rolling.Revision) : Rolling.Revision where
  snapshot := { rev.snapshot with
    tasks := ((serviceTaskReasons rev.snapshot).entries.map fun entry =>
        { taskId := entry.1, orderId := "monitoring-", sourceRef := entry.2 }) ++
      (sorted (serviceTaskIds rev.plan)).map fun id => { taskId := id } }
  plan := { rev.plan with correctiveActions := [] }

theorem serviceTaskReasons_repeated (rev : Rolling.Revision) :
    serviceTaskReasons (repeated rev).snapshot = serviceTaskReasons rev.snapshot := by
  have derived : ((repeated rev).snapshot.tasks.filter fun task =>
      startsWith "monitoring-" task.orderId) =
        (serviceTaskReasons rev.snapshot).entries.map fun entry =>
          { taskId := entry.1, orderId := "monitoring-", sourceRef := entry.2 } := by
    change List.filter _ (_ ++ _) = _
    rw [List.filter_append, List.filter_eq_self.mpr, List.filter_eq_nil_iff.mpr, List.append_nil]
    · intro task listed
      obtain ⟨_, -, rfl⟩ := List.mem_map.mp listed
      change ¬ startsWith "monitoring-" "" = true
      decide
    · intro task listed
      obtain ⟨_, -, rfl⟩ := List.mem_map.mp listed
      change startsWith "monitoring-" "monitoring-" = true
      decide
  rw [serviceTaskReasons, derived, Dict.collect_map]
  exact Dict.collect_entries _

theorem repeated_reconciled (rev : Rolling.Revision) : Reconciled rev (repeated rev) := by
  constructor
  · change [] = (sorted (serviceTaskIds rev.plan \ (repeated rev).snapshot.taskIds)).map _
    have none : serviceTaskIds rev.plan \ (repeated rev).snapshot.taskIds = ∅ := by
      refine Finset.sdiff_eq_empty_iff_subset.mpr fun id listed => ?_
      refine PlanningSnapshot.mem_taskIds.mpr ⟨{ taskId := id }, ?_, rfl⟩
      exact List.mem_append_right _ (List.mem_map.mpr ⟨id, mem_sorted.mpr listed, rfl⟩)
    rw [none, sorted_eq_nil.mpr rfl, List.map_nil]
  · rw [escalatedServiceTasks]
    change [] = List.filterMap _ _
    refine (List.filterMap_eq_nil_iff.mpr fun task member => ?_).symm
    obtain ⟨listed, risen⟩ := List.mem_filter.mp member
    rcases List.mem_append.mp listed with derived | plain
    · obtain ⟨⟨id, reason⟩, entry, rfl⟩ := List.mem_map.mp derived
      have known := (Dict.get?_eq_some_iff _ id reason).mpr entry
      have before : containsText escalatedReasonPrefix reason = true :=
        ((Bool.and_eq_true _ _).mp risen).2
      simp only [known, before, if_true]
    · obtain ⟨id, -, rfl⟩ := List.mem_map.mp plain
      have plainly : (startsWith monitoringSourcePrefix "" &&
          containsText escalatedReasonPrefix "") = false := by decide
      exact absurd (plainly.symm.trans risen) Bool.false_ne_true

theorem repeated_staysActive (rev : Rolling.Revision) : StaysActive rev (repeated rev) where
  listed := rfl
  derived := serviceTaskReasons_repeated rev
  kept := rfl
  calm := rfl

/-- What follows a revision can also follow its repetition. -/
theorem reconciled_after_repeated {rev next : Rolling.Revision} (reconciled : Reconciled rev next) :
    Reconciled (repeated rev) next := by
  refine ⟨?_, ?_⟩
  · rw [serviceTaskReasons_repeated]
    exact reconciled.withdrawals
  · rw [serviceTaskReasons_repeated]
    exact reconciled.escalations

namespace StreamRun

variable {typesOf : PlanningSnapshot → Dict String String} {run longer : StreamRun}

/-- Any revision of a run may be repeated. -/
theorem exists_prolonged {rev : Rolling.Revision} (member : rev ∈ run.history) :
    ∃ past later, ∃ longer : StreamRun, run.history = past ++ rev :: later ∧
      longer.history = past ++ rev :: repeated rev :: later ∧ Prolongs run longer := by
  obtain ⟨past, later, split⟩ := List.append_of_mem member
  have chained := run.chained
  rw [split] at chained
  obtain ⟨before, after⟩ := List.isChain_split.mp chained
  have more : (past ++ rev :: repeated rev :: later).IsChain Reconciled := by
    refine List.isChain_append_cons_cons.mpr ⟨before, repeated_reconciled rev, ?_⟩
    cases later with
    | nil => exact .singleton _
    | cons next rest =>
      obtain ⟨follows, rest⟩ := List.isChain_cons_cons.mp after
      exact .cons_cons (reconciled_after_repeated follows) rest
  exact ⟨past, later, ⟨_, more⟩, split, rfl, past, rev, repeated rev, later, split, rfl,
    repeated_staysActive rev⟩

/-- A longer run has one record more, of the service tasks that stay active. -/
theorem perm_log {past later : List Rolling.Revision} {rev added : Rolling.Revision}
    (split : run.history = past ++ rev :: later)
    (more : longer.history = past ++ rev :: added :: later) :
    (longer.log typesOf).Perm
      (recordPrognosisOutcomes added.plan (typesOf added.snapshot) :: run.log typesOf) := by
  rw [log, log, split, more, ← List.map_cons (f := fun rev : Rolling.Revision =>
    recordPrognosisOutcomes rev.plan (typesOf rev.snapshot))]
  refine List.Perm.map _ ?_
  cases past with
  | nil => exact .refl _
  | cons first past =>
    change (past ++ rev :: added :: later).Perm (added :: (past ++ rev :: later))
    rw [List.append_cons past rev (added :: later), List.append_cons past rev later]
    exact List.perm_middle

theorem totalCounts_perm_cons {log longer : List OutcomeRecord} {record : OutcomeRecord}
    (same : longer.Perm (record :: log)) :
    totalCounts longer =
      { active := record.nServiceActive + (totalCounts log).active
        withdrawn := record.nServiceWithdrawn + (totalCounts log).withdrawn
        escalated := record.nServiceEscalated + (totalCounts log).escalated } := by
  rw [totalCounts, (same.map _).sum_eq, (same.map _).sum_eq, (same.map _).sum_eq]
  rfl

/-- A revision in which the same tasks stay active counts them as observed once more. -/
theorem totalCounts_prolonged {past later : List Rolling.Revision} {rev added : Rolling.Revision}
    (split : run.history = past ++ rev :: later)
    (more : longer.history = past ++ rev :: added :: later) (stays : StaysActive rev added) :
    totalCounts (longer.log typesOf) =
      { active := (serviceTaskIds rev.plan).card + (totalCounts (run.log typesOf)).active
        withdrawn := (totalCounts (run.log typesOf)).withdrawn
        escalated := (totalCounts (run.log typesOf)).escalated } := by
  rw [totalCounts_perm_cons (perm_log split more)]
  change OutcomeCounts.mk ((serviceTaskIds added.plan).card + _)
    ((actionTaskIds added.plan .serviceWithdrawn).length + _)
    ((actionTaskIds added.plan .serviceEscalated).length + _) = _
  rw [stays.listed, stays.kept, stays.calm, List.length_nil, Nat.zero_add, Nat.zero_add]

/-- A recorded revision has a predecessor in the history. -/
theorem exists_previous {rev : Rolling.Revision} (member : rev ∈ run.history.tail) :
    ∃ i prev, run.history[i]? = some prev ∧ run.history[i + 1]? = some rev ∧
      Reconciled prev rev := by
  obtain ⟨i, found⟩ := List.mem_iff_getElem?.mp member
  rw [List.getElem?_tail] at found
  obtain ⟨within, here⟩ := List.getElem?_eq_some_iff.mp found
  have chained := List.isChain_iff_getElem.mp run.chained i within
  rw [here] at chained
  exact ⟨i, _, List.getElem?_eq_getElem _, found, chained⟩

/-- A count adds up to zero exactly if every revision after the first one has none. -/
theorem total_eq_zero (count : OutcomeRecord → ℕ) :
    ((run.log typesOf).map count).sum = 0 ↔ ∀ rev ∈ run.history.tail,
      count (recordPrognosisOutcomes rev.plan (typesOf rev.snapshot)) = 0 := by
  rw [List.sum_eq_zero_iff_forall_eq_nat, log, List.map_map]
  simp only [List.forall_mem_map, Function.comp_apply]

theorem withdrawn_eq_zero :
    (totalCounts (run.log typesOf)).withdrawn = 0 ↔
      ∀ rev ∈ run.history.tail, actionTaskIds rev.plan .serviceWithdrawn = [] := by
  refine (total_eq_zero (·.nServiceWithdrawn)).trans ?_
  simp only [recordPrognosisOutcomes, List.length_eq_zero_iff]

theorem escalated_eq_zero :
    (totalCounts (run.log typesOf)).escalated = 0 ↔
      ∀ rev ∈ run.history.tail, actionTaskIds rev.plan .serviceEscalated = [] := by
  refine (total_eq_zero (·.nServiceEscalated)).trans ?_
  simp only [recordPrognosisOutcomes, List.length_eq_zero_iff]

theorem active_eq_zero :
    (totalCounts (run.log typesOf)).active = 0 ↔
      ∀ rev ∈ run.history.tail, serviceTaskIds rev.plan = ∅ := by
  refine (total_eq_zero (·.nServiceActive)).trans ?_
  simp only [recordPrognosisOutcomes, Finset.card_eq_zero]

/-- A run is steady throughout exactly if it records neither a withdrawal nor an escalation. -/
theorem steady_iff_totals :
    run.history.IsChain Steady ↔ (totalCounts (run.log typesOf)).withdrawn = 0 ∧
      (totalCounts (run.log typesOf)).escalated = 0 := by
  rw [withdrawn_eq_zero, escalated_eq_zero]
  constructor
  · intro steady
    have quiet : ∀ rev ∈ run.history.tail, actionTaskIds rev.plan .serviceWithdrawn = [] ∧
        actionTaskIds rev.plan .serviceEscalated = [] := by
      intro rev member
      obtain ⟨i, prev, before, here, reconciled⟩ := run.exists_previous member
      obtain ⟨within, rfl⟩ := List.getElem?_eq_some_iff.mp here
      obtain ⟨_, rfl⟩ := List.getElem?_eq_some_iff.mp before
      exact (steady_iff reconciled).mp (List.isChain_iff_getElem.mp steady i within)
    exact ⟨fun rev member => (quiet rev member).1, fun rev member => (quiet rev member).2⟩
  · rintro ⟨kept, calm⟩
    refine List.isChain_iff_getElem.mpr fun i within => ?_
    have member : run.history[i + 1] ∈ run.history.tail := by
      refine List.mem_iff_getElem?.mpr ⟨i, ?_⟩
      rw [List.getElem?_tail, List.getElem?_eq_getElem within]
    exact (steady_iff (List.isChain_iff_getElem.mp run.chained i within)).mpr
      ⟨kept _ member, calm _ member⟩

/-- No prognosis meets an action that is never recorded. -/
theorem share_eq_zero {action : CorrectiveActionType}
    (never : ∀ rev ∈ run.history.tail, actionTaskIds rev.plan action = []) :
    run.share action = 0 := by
  have none : (run.prognoses.filter fun prognosis => run.Meets action prognosis) = ∅ := by
    refine Finset.filter_eq_empty_iff.mpr ?_
    rintro prognosis - ⟨j, -, -, -, acted⟩
    rw [actedAt] at acted
    cases found : run.history[j + 1]? with
    | none =>
      rw [found] at acted
      cases acted
    | some rev =>
      rw [found] at acted
      rw [← List.getElem?_tail] at found
      have empty := never rev (List.mem_iff_getElem?.mpr ⟨j, found⟩)
      change _ ∈ actionTaskIds rev.plan action at acted
      rw [empty] at acted
      cases acted
  rw [share, none, Finset.card_empty, Nat.cast_zero, zero_div]

/-- A derived service task belongs to a prognosis that lasts to it. -/
theorem exists_prognosis {id : String} {i : ℕ} (derived : id ∈ run.derivedAt i) :
    ∃ start ≤ i, (start, id) ∈ run.prognoses ∧
      ∀ k ∈ Finset.Icc start i, id ∈ run.derivedAt k := by
  have within : ∀ {j}, id ∈ run.derivedAt j → j < run.history.length := by
    intro j here
    by_contra outside
    rw [derivedAt, List.getElem?_eq_none (not_lt.mp outside)] at here
    cases here
  have begins : ∀ {j}, id ∈ run.derivedAt j → (j = 0 ∨ id ∉ run.derivedAt (j - 1)) →
      (j, id) ∈ run.prognoses := fun {j} here new =>
    Finset.mem_biUnion.mpr ⟨j, Finset.mem_range.mpr (within here),
      Finset.mem_image.mpr ⟨id, Finset.mem_filter.mpr ⟨here, new⟩, rfl⟩⟩
  induction i with
  | zero =>
    refine ⟨0, le_rfl, begins derived (.inl rfl), fun k between => ?_⟩
    rw [Finset.Icc_self, Finset.mem_singleton] at between
    exact between ▸ derived
  | succ i ih =>
    by_cases before : id ∈ run.derivedAt i
    · obtain ⟨start, early, counted, lasts⟩ := ih before
      refine ⟨start, by omega, counted, fun k between => ?_⟩
      rw [Finset.mem_Icc] at between
      rcases Nat.le_succ_iff.mp between.2 with earlier | rfl
      · exact lasts k (Finset.mem_Icc.mpr ⟨between.1, earlier⟩)
      · exact derived
    · refine ⟨i + 1, le_rfl, begins derived (.inr before), fun k between => ?_⟩
      rw [Finset.Icc_self, Finset.mem_singleton] at between
      exact between ▸ derived

/-- A recorded escalation is that of a prognosis. -/
theorem share_escalated_pos {rev : Rolling.Revision} {id : String}
    (member : rev ∈ run.history.tail)
    (risen : id ∈ actionTaskIds rev.plan .serviceEscalated) : 0 < run.share .serviceEscalated := by
  obtain ⟨i, prev, before, here, reconciled⟩ := run.exists_previous member
  obtain ⟨-, -, -, -, reason, known, -⟩ := reconciled.mem_escalated.mp risen
  have derived : id ∈ run.derivedAt i := by
    rw [derivedAt, before]
    refine List.mem_toFinset.mpr ((Dict.mem_keys_iff _ _).mpr ?_)
    rw [known]
    rfl
  obtain ⟨start, early, counted, lasts⟩ := run.exists_prognosis derived
  have meets : run.Meets .serviceEscalated (start, id) := by
    refine ⟨i, (List.getElem?_eq_some_iff.mp before).1, early, lasts, ?_⟩
    rw [actedAt, here]
    exact risen
  refine div_pos ?_ ?_
  · exact_mod_cast Finset.card_pos.mpr ⟨_, Finset.mem_filter.mpr ⟨counted, meets⟩⟩
  · exact_mod_cast Finset.card_pos.mpr ⟨_, counted⟩

/-- Only a count of zero keeps its share when more is observed. -/
private theorem eq_zero_of_share_unchanged (observed : ℕ) {count more : ℕ} (extra : 0 < more)
    (same : (count : ℚ) / ((more + observed : ℕ) : ℚ) = count / (observed : ℚ)) : count = 0 := by
  by_contra some
  have positive : (0 : ℚ) < count := by exact_mod_cast Nat.pos_of_ne_zero some
  have larger : (0 : ℚ) < ((more + observed : ℕ) : ℚ) := by exact_mod_cast (by omega)
  by_cases nothing : observed = 0
  · rw [nothing, Nat.cast_zero, div_zero] at same
    exact absurd same (div_pos positive (by simpa [nothing] using larger)).ne'
  · have base : (0 : ℚ) < (observed : ℚ) := by exact_mod_cast Nat.pos_of_ne_zero nothing
    rw [div_eq_div_iff larger.ne' base.ne'] at same
    have equal := mul_left_cancel₀ positive.ne' same
    have counts : observed = more + observed := by exact_mod_cast equal
    omega

/-- Longer runs have the same withdrawals and escalations. -/
theorem totals_of_prolonged (more : Relation.ReflTransGen Prolongs run longer) :
    (totalCounts (longer.log typesOf)).withdrawn = (totalCounts (run.log typesOf)).withdrawn ∧
      (totalCounts (longer.log typesOf)).escalated = (totalCounts (run.log typesOf)).escalated := by
  induction more with
  | refl => exact ⟨rfl, rfl⟩
  | tail _ last ih =>
    obtain ⟨past, rev, added, later, split, inserted, stays⟩ := last
    rw [totalCounts_prolonged split inserted stays]
    exact ih

/-- A revision with active service tasks may be repeated, which changes positive rates. -/
theorem totals_of_listed {rev : Rolling.Revision} (counts : run.CountsPrognoses typesOf)
    (member : rev ∈ run.history) (active : (serviceTaskIds rev.plan).Nonempty) :
    (totalCounts (run.log typesOf)).withdrawn = 0 ∧
      (totalCounts (run.log typesOf)).escalated = 0 := by
  obtain ⟨past, later, longer, split, inserted, prolongs⟩ := exists_prolonged member
  have extra := Finset.card_pos.mpr active
  have totals := @totalCounts_prolonged typesOf _ _ _ _ _ _ split inserted
    (repeated_staysActive rev)
  obtain ⟨positives, negatives⟩ := counts.prolonged longer (.single prolongs)
  rw [accuracy, accuracy, prognosisAccuracy_falsePositiveRate,
    prognosisAccuracy_falsePositiveRate, totals] at positives
  rw [accuracy, accuracy, prognosisAccuracy_falseNegativeRate,
    prognosisAccuracy_falseNegativeRate, totals] at negatives
  generalize totalCounts (run.log typesOf) = seen at positives negatives ⊢
  constructor
  · apply eq_zero_of_share_unchanged (seen.active + seen.withdrawn) extra
    push_cast
    rw [← add_assoc]
    exact_mod_cast positives
  · apply eq_zero_of_share_unchanged (seen.active + seen.withdrawn) extra
    push_cast
    rw [← add_assoc]
    exact_mod_cast negatives

/-- Where nothing is listed, nothing is observed and no rate is positive. -/
theorem totals_of_unlisted (counts : run.CountsPrognoses typesOf)
    (nothing : ∀ rev ∈ run.history, serviceTaskIds rev.plan = ∅) :
    (totalCounts (run.log typesOf)).withdrawn = 0 ∧
      (totalCounts (run.log typesOf)).escalated = 0 := by
  have withdrawn : (totalCounts (run.log typesOf)).withdrawn = 0 := by
    refine withdrawn_eq_zero.mpr fun rev member => ?_
    obtain ⟨i, prev, before, -, reconciled⟩ := run.exists_previous member
    refine List.eq_nil_iff_forall_not_mem.mpr fun id gone => ?_
    have here := (reconciled.mem_withdrawn.mp gone).1
    rw [nothing prev (List.mem_of_getElem? before)] at here
    exact absurd here (Finset.notMem_empty id)
  have active : (totalCounts (run.log typesOf)).active = 0 :=
    active_eq_zero.mpr fun rev member => nothing rev (List.mem_of_mem_tail member)
  refine ⟨withdrawn, escalated_eq_zero.mpr fun rev member => ?_⟩
  refine List.eq_nil_iff_forall_not_mem.mpr fun id risen => ?_
  have share := share_escalated_pos member risen
  rw [← counts.falseNegatives, accuracy, prognosisAccuracy_falseNegativeRate, active,
    withdrawn, Nat.cast_zero, add_zero, div_zero] at share
  exact lt_irrefl _ share

/-- The rates of a run count its prognoses, however long they stay active, if and only if from each
revision to the next no listed service task disappears and none is newly escalated. -/
theorem countsPrognoses_iff (typesOf : PlanningSnapshot → Dict String String) (run : StreamRun) :
    run.CountsPrognoses typesOf ↔ run.history.IsChain Steady := by
  rw [@steady_iff_totals typesOf run]
  constructor
  · intro counts
    by_cases listed : ∃ rev ∈ run.history, (serviceTaskIds rev.plan).Nonempty
    · obtain ⟨rev, member, active⟩ := listed
      exact totals_of_listed counts member active
    · exact totals_of_unlisted counts fun rev member =>
        Finset.not_nonempty_iff_eq_empty.mp fun active => listed ⟨rev, member, active⟩
  · rintro ⟨withdrawn, escalated⟩
    have quiet : ∀ longer : StreamRun, (totalCounts (longer.log typesOf)).withdrawn = 0 ∧
        (totalCounts (longer.log typesOf)).escalated = 0 →
          (longer.accuracy typesOf).falsePositiveRate = 0 ∧
            (longer.accuracy typesOf).falseNegativeRate = 0 := by
      rintro longer ⟨none, calm⟩
      rw [accuracy, prognosisAccuracy_falsePositiveRate, prognosisAccuracy_falseNegativeRate, none,
        calm, Nat.cast_zero, zero_div]
      exact ⟨rfl, rfl⟩
    obtain ⟨positives, negatives⟩ := quiet run ⟨withdrawn, escalated⟩
    refine ⟨?_, ?_, fun longer more => ?_⟩
    · rw [positives, share_eq_zero (withdrawn_eq_zero.mp withdrawn)]
    · rw [negatives, share_eq_zero (escalated_eq_zero.mp escalated)]
    · obtain ⟨sameWithdrawn, sameEscalated⟩ := @totals_of_prolonged typesOf _ _ more
      rw [positives, negatives]
      exact quiet longer ⟨sameWithdrawn.trans withdrawn, sameEscalated.trans escalated⟩

end StreamRun

/-- A rebuild while the monitoring derives service for the given stations, planned hours ahead. -/
def stationReplan (stations : List String) (now : Instant) : Replan where
  snapshot :=
    { snapshotId := "snapshot-stations"
      effectiveAt := now
      assets := stations.map fun id => { assetId := "drone-service-" ++ id }
      tasks := stations.map fun id =>
        { taskId := "service-" ++ id
          orderId := "monitoring-" ++ id
          sourceRef := "monitoring:" ++ id ++ ":battery-low:15.0pct" } }
  now := now
  solver := SolverStages.serving fun _ => some (40000, 43600)
  stamp := { revisionId := "rev-1", generatedAt := now }

/-- A station's service is derived at the baseline and in one more revision, then withdrawn. -/
def withdrawnStation : StreamRun :=
  .ofReplans padDeployment
    [stationReplan ["probe-1"] 0, stationReplan ["probe-1"] 600, stationReplan [] 1200]

/-- The only prognosis of the run is withdrawn, but half of the observations are not. -/
theorem withdrawn_station_rate :
    (withdrawnStation.accuracy fun _ => .empty).falsePositiveRate = 1 / 2 ∧
      withdrawnStation.share .serviceWithdrawn = 1 ∧
        ¬ withdrawnStation.CountsPrognoses fun _ => .empty := by
  have half : (withdrawnStation.accuracy fun _ => .empty).falsePositiveRate = 1 / 2 := by
    decide +kernel
  have whole : withdrawnStation.share .serviceWithdrawn = 1 := by decide +kernel
  refine ⟨half, whole, fun counts => ?_⟩
  have same := counts.falsePositives
  rw [half, whole] at same
  exact absurd same (by norm_num)

end FlOp.Stream
