import FlOp.Solver.Chain
import FlOp.Solver.TaskLedger

/-! # Accounting after the collapse of alternatives

The chain accounts for a task without alternatives by one package or one record, and for a group by
one package of a member or one record of the group. The collapse turns a ledger in which groups are
settled loosely into one that accounts for them.
-/

namespace FlOp.Solver

open Canonical FlOp.Core Library

/-- The alternative group of a task, empty for none and for an unknown task. -/
def groupOf (tasks : List TaskRow) (taskId : String) : String :=
  (groupByTask tasks).getD taskId ""

/-- The task is a member of the group. -/
def MemberOf (tasks : List TaskRow) (name taskId : String) : Prop :=
  ∃ row ∈ tasks, row.taskId = taskId ∧ row.alternativeGroupRef = name

instance (tasks : List TaskRow) (name taskId : String) : Decidable (MemberOf tasks name taskId) :=
  inferInstanceAs (Decidable (∃ row ∈ tasks, _))

/-- Every task without alternatives has one package or one record. Every group has one package of a
member and no record, or no package and one record under its name or that of a member. -/
structure ChainAccounts (tasks : List TaskRow) (dispatch infeasible : List String) : Prop where
  alone : ∀ row ∈ tasks, row.alternativeGroupRef = "" →
    dispatch.count row.taskId + infeasible.count row.taskId = 1
  groups : ∀ row ∈ tasks, row.alternativeGroupRef ≠ "" →
    dispatch.countP (fun id => MemberOf tasks row.alternativeGroupRef id) +
      infeasible.countP (fun id => id = row.alternativeGroupRef ∨
        MemberOf tasks row.alternativeGroupRef id) = 1

section Groups

variable {tasks : List TaskRow} {dispatch : List DispatchPackage}
  {infeasible : List InfeasibleRecord} {record : InfeasibleRecord} {row : TaskRow} {name : String}

theorem groupOf_of_mem (unique : (tasks.map (·.taskId)).Nodup) (member : row ∈ tasks) :
    groupOf tasks row.taskId = row.alternativeGroupRef := by
  have keyed := (Dict.isSome_get?_collect (·.taskId) (·.alternativeGroupRef) tasks row.taskId).mpr
    ⟨row, member, rfl⟩
  obtain ⟨group, found⟩ := Option.isSome_iff_exists.mp keyed
  obtain ⟨other, otherMember, same, rfl⟩ := Dict.exists_of_get?_collect found
  rw [groupOf, groupByTask, Dict.getD, found, Option.getD_some]
  exact congrArg TaskRow.alternativeGroupRef (List.inj_on_of_nodup_map unique otherMember member same)

/-- A task with a group is given. -/
theorem exists_of_groupOf {taskId : String} (grouped : groupOf tasks taskId ≠ "") :
    ∃ row ∈ tasks, row.taskId = taskId ∧ row.alternativeGroupRef = groupOf tasks taskId := by
  unfold groupOf at *
  cases found : (groupByTask tasks).get? taskId with
  | none => exact absurd (by rw [Dict.getD, found, Option.getD_none]) grouped
  | some group =>
    obtain ⟨row, member, same, rfl⟩ := Dict.exists_of_get?_collect found
    exact ⟨row, member, same, by rw [Dict.getD, found, Option.getD_some]⟩

theorem memberOf_iff (unique : (tasks.map (·.taskId)).Nodup) (nonempty : name ≠ "")
    {taskId : String} : MemberOf tasks name taskId ↔ groupOf tasks taskId = name := by
  constructor
  · rintro ⟨row, member, rfl, rfl⟩
    exact groupOf_of_mem unique member
  · rintro rfl
    exact exists_of_groupOf nonempty

/-- The groups that have members. -/
theorem mem_keys_iff_exists_row (unique : (tasks.map (·.taskId)).Nodup) :
    name ∈ (membersByGroup tasks).keys ↔
      name ≠ "" ∧ ∃ row ∈ tasks, row.alternativeGroupRef = name := by
  rw [mem_keys_membersByGroup]
  refine and_congr_right fun nonempty => ⟨?_, ?_⟩
  · rintro ⟨taskId, found⟩
    obtain ⟨row, member, -, same⟩ := Dict.exists_of_get?_collect found
    exact ⟨row, member, same⟩
  · rintro ⟨row, member, rfl⟩
    have filed := groupOf_of_mem unique member
    rw [groupOf, Dict.getD] at filed
    cases found : (groupByTask tasks).get? row.taskId with
    | none =>
      rw [found] at filed
      exact absurd filed.symm nonempty
    | some group =>
      rw [found] at filed
      exact ⟨row.taskId, found.trans (congrArg some filed)⟩

/-- A task that has the name of a group is one of it. -/
theorem group_of_named (naming : GroupsNameMembers (groupOf tasks) (tasks.map (·.taskId)))
    (unique : (tasks.map (·.taskId)).Nodup) (member : row ∈ tasks)
    (grouped : row.alternativeGroupRef ≠ "") {other : TaskRow} (otherMember : other ∈ tasks)
    (same : other.taskId = row.alternativeGroupRef) :
    other.alternativeGroupRef = row.alternativeGroupRef := by
  have filed := groupOf_of_mem unique member
  have named := naming row.taskId (List.mem_map_of_mem member) (by rwa [filed])
    (by rw [filed, ← same]; exact List.mem_map_of_mem otherMember)
  rw [filed, ← same, groupOf_of_mem unique otherMember] at named
  exact named.trans same

/-- The name of a group is filed under the group or under none. -/
theorem groupOf_name (naming : GroupsNameMembers (groupOf tasks) (tasks.map (·.taskId)))
    (unique : (tasks.map (·.taskId)).Nodup) (member : row ∈ tasks)
    (grouped : row.alternativeGroupRef ≠ "") :
    groupOf tasks row.alternativeGroupRef = "" ∨
      groupOf tasks row.alternativeGroupRef = row.alternativeGroupRef := by
  by_cases none : groupOf tasks row.alternativeGroupRef = ""
  · exact .inl none
  · obtain ⟨other, otherMember, same, filed⟩ := exists_of_groupOf none
    exact .inr (filed.symm.trans (group_of_named naming unique member grouped otherMember same))

/-- A record belongs to a group if it names the group or a member. -/
theorem failureGroup_eq_iff (naming : GroupsNameMembers (groupOf tasks) (tasks.map (·.taskId)))
    (unique : (tasks.map (·.taskId)).Nodup) (member : row ∈ tasks)
    (grouped : row.alternativeGroupRef ≠ "") :
    failureGroup tasks record = row.alternativeGroupRef ↔
      record.taskId = row.alternativeGroupRef ∨
        groupOf tasks record.taskId = row.alternativeGroupRef := by
  change (if groupOf tasks record.taskId = "" ∧ record.taskId ∈ (membersByGroup tasks).keys
    then record.taskId else groupOf tasks record.taskId) = _ ↔ _
  split_ifs with label
  · refine ⟨.inl, fun named => named.resolve_right fun same => grouped ?_⟩
    rw [← same, label.1]
  · refine ⟨.inr, fun named => named.elim (fun same => ?_) id⟩
    have keyed := (mem_keys_iff_exists_row unique).mpr ⟨grouped, row, member, rfl⟩
    rw [same] at label ⊢
    exact (groupOf_name naming unique member grouped).resolve_left fun none =>
      label ⟨none, keyed⟩

theorem mem_servedGroups_iff (nonempty : name ≠ "") :
    name ∈ servedGroups dispatch tasks ↔
      ∃ id ∈ dispatch.map (·.taskId), groupOf tasks id = name := by
  simp only [servedGroups, Finset.mem_erase, List.mem_toFinset, List.mem_map,
    exists_exists_and_eq_and]
  exact and_iff_right nonempty

/-- The failed groups without a dispatched member, in the order in which they are reported. -/
def failedGroups (tasks : List TaskRow) (dispatch : List DispatchPackage)
    (infeasible : List InfeasibleRecord) : List String :=
  (sortBy Prod.fst (Dict.groupBy (failureGroup tasks) id (infeasible.filter fun record =>
    failureGroup tasks record ≠ "" ∧
      failureGroup tasks record ∉ servedGroups dispatch tasks)).entries).map Prod.fst

theorem nodup_failedGroups : (failedGroups tasks dispatch infeasible).Nodup :=
  (((perm_sortBy _ _).map _).nodup_iff).mpr (Dict.nodupKeys _)

theorem mem_failedGroups : name ∈ failedGroups tasks dispatch infeasible ↔
    name ≠ "" ∧ name ∉ servedGroups dispatch tasks ∧
      ∃ record ∈ infeasible, failureGroup tasks record = name := by
  rw [failedGroups, ((perm_sortBy _ _).map _).mem_iff]
  change name ∈ (Dict.groupBy _ _ _).keys ↔ _
  rw [Dict.mem_keys_groupBy]
  simp only [List.mem_filter, decide_eq_true_eq]
  constructor
  · rintro ⟨record, ⟨member, grouped, unserved⟩, rfl⟩
    exact ⟨grouped, unserved, record, member, rfl⟩
  · rintro ⟨grouped, unserved, record, member, rfl⟩
    exact ⟨record, ⟨member, grouped, unserved⟩, rfl⟩

/-- The collapse passes on the records of no group and adds one for each failed group. -/
theorem taskId_collapse : (collapseAlternativeInfeasible dispatch infeasible tasks).map (·.taskId) =
    (infeasible.filter fun record => failureGroup tasks record = "").map (·.taskId) ++
      failedGroups tasks dispatch infeasible := by
  unfold collapseAlternativeInfeasible
  split
  · next groupless =>
    have ungrouped : ∀ record : InfeasibleRecord, failureGroup tasks record = "" := by
      intro record
      by_contra grouped
      have keyed := failureGroup_mem_keys grouped
      rw [groupless] at keyed
      exact List.not_mem_nil keyed
    have none : failedGroups tasks dispatch infeasible = [] := by
      apply List.eq_nil_iff_forall_not_mem.mpr
      intro name listed
      obtain ⟨nonempty, -, record, -, rfl⟩ := mem_failedGroups.mp listed
      exact nonempty (ungrouped record)
    rw [none, List.append_nil, List.filter_eq_self.mpr fun record _ =>
      decide_eq_true (ungrouped record)]
  · rw [List.map_append, List.map_map]
    rfl

/-- The collapse passes on the records of a task without alternatives. -/
theorem count_collapse (naming : GroupsNameMembers (groupOf tasks) (tasks.map (·.taskId)))
    (unique : (tasks.map (·.taskId)).Nodup) (member : row ∈ tasks)
    (single : row.alternativeGroupRef = "") :
    ((collapseAlternativeInfeasible dispatch infeasible tasks).map (·.taskId)).count row.taskId =
      (infeasible.map (·.taskId)).count row.taskId := by
  have filed := groupOf_of_mem unique member
  have unkeyed : row.taskId ∉ (membersByGroup tasks).keys := by
    intro keyed
    obtain ⟨nonempty, other, otherMember, same⟩ := (mem_keys_iff_exists_row unique).mp keyed
    have named := group_of_named naming unique otherMember (same ▸ nonempty) member same.symm
    exact nonempty (same.symm.trans (named.symm.trans single))
  have passed : ∀ record ∈ infeasible, record.taskId = row.taskId →
      failureGroup tasks record = "" := by
    intro record _ same
    change (if groupOf tasks record.taskId = "" ∧ record.taskId ∈ (membersByGroup tasks).keys
      then record.taskId else groupOf tasks record.taskId) = ""
    rw [if_neg (by rw [same]; exact fun label => unkeyed label.2), same, filed, single]
  have unlisted : row.taskId ∉ failedGroups tasks dispatch infeasible := by
    intro listed
    obtain ⟨nonempty, -, record, -, same⟩ := mem_failedGroups.mp listed
    exact unkeyed (same ▸ failureGroup_mem_keys (same ▸ nonempty))
  rw [taskId_collapse, List.count_append, List.count_eq_zero.mpr unlisted, Nat.add_zero,
    List.count_eq_countP, List.count_eq_countP, List.countP_map, List.countP_map, List.countP_filter]
  apply List.countP_congr
  intro record listed
  simp only [Function.comp_apply, beq_iff_eq, Bool.and_eq_true, decide_eq_true_eq]
  exact and_iff_left_of_imp (passed record listed)

/-- The collapse leaves one record of a failed group and none of another one. -/
theorem countP_collapse (naming : GroupsNameMembers (groupOf tasks) (tasks.map (·.taskId)))
    (unique : (tasks.map (·.taskId)).Nodup) (member : row ∈ tasks)
    (grouped : row.alternativeGroupRef ≠ "") :
    ((collapseAlternativeInfeasible dispatch infeasible tasks).map (·.taskId)).countP
        (fun id => id = row.alternativeGroupRef ∨ MemberOf tasks row.alternativeGroupRef id) =
      (failedGroups tasks dispatch infeasible).count row.alternativeGroupRef := by
  have passed : ((infeasible.filter fun record => failureGroup tasks record = "").map
      (·.taskId)).countP (fun id => id = row.alternativeGroupRef ∨
        MemberOf tasks row.alternativeGroupRef id) = 0 := by
    rw [List.countP_eq_zero]
    intro id listed belongs
    obtain ⟨record, kept, rfl⟩ := List.mem_map.mp listed
    have ungrouped := of_decide_eq_true (List.mem_filter.mp kept).2
    have belongs := of_decide_eq_true belongs
    rw [memberOf_iff unique grouped] at belongs
    exact grouped (((failureGroup_eq_iff naming unique member grouped).mpr belongs).symm.trans
      ungrouped)
  rw [taskId_collapse, List.countP_append, passed, Nat.zero_add, List.count_eq_countP]
  apply List.countP_congr
  intro name listed
  obtain ⟨nonempty, -, record, -, same⟩ := mem_failedGroups.mp listed
  simp only [decide_eq_true_eq, beq_iff_eq]
  refine or_iff_left_of_imp fun belongs => ?_
  have keyed : name ∈ (membersByGroup tasks).keys :=
    same ▸ failureGroup_mem_keys (same ▸ nonempty)
  obtain ⟨-, other, otherMember, rfl⟩ := (mem_keys_iff_exists_row unique).mp keyed
  rw [memberOf_iff unique grouped] at belongs
  exact ((groupOf_name naming unique otherMember nonempty).resolve_left
    fun none => grouped (belongs.symm.trans none)).symm.trans belongs

end Groups

/-- No task without alternatives and no whole group is among the lost tasks. -/
def LosesAlternatives (tasks : List TaskRow) (lost : List String) : Prop :=
  ∀ row ∈ tasks, row.taskId ∈ lost → row.alternativeGroupRef ≠ "" ∧
    ∃ other ∈ tasks, other.alternativeGroupRef = row.alternativeGroupRef ∧ other.taskId ∉ lost

section Accounting

variable {tasks : List TaskRow} {dispatch : List DispatchPackage}
  {infeasible : List InfeasibleRecord} {kept lost : List String}

theorem countP_memberOf (unique : (tasks.map (·.taskId)).Nodup) {name : String}
    (nonempty : name ≠ "") (ids : List String) :
    ids.countP (fun id => MemberOf tasks name id) =
      ids.countP (fun id => groupOf tasks id = name) :=
  List.countP_congr fun id _ => by
    simp only [decide_eq_true_eq, memberOf_iff unique nonempty]

/-- A task that is not lost is kept. -/
theorem mem_kept (parts : (kept ++ lost).Perm (tasks.map (·.taskId))) {row : TaskRow}
    (member : row ∈ tasks) (unlost : row.taskId ∉ lost) : row.taskId ∈ kept :=
  (List.mem_append.mp (parts.symm.subset (List.mem_map_of_mem member))).resolve_right unlost

/-- If alternatives only were lost, of no group all, the collapse accounts for all tasks. -/
theorem ChainAccounts.of_settles (unique : (tasks.map (·.taskId)).Nodup)
    (naming : GroupsNameMembers (groupOf tasks) (tasks.map (·.taskId)))
    (parts : (kept ++ lost).Perm (tasks.map (·.taskId)))
    (settles : Settles (groupOf tasks) kept (dispatch.map (·.taskId)) (infeasible.map (·.taskId)))
    (complete : LosesAlternatives tasks lost) :
    ChainAccounts tasks (dispatch.map (·.taskId))
      ((collapseAlternativeInfeasible dispatch infeasible tasks).map (·.taskId)) where
  alone row member single := by
    have unlost : row.taskId ∉ lost := fun missing => (complete row member missing).1 single
    rw [count_collapse naming unique member single]
    exact settles.alone row.taskId (mem_kept parts member unlost)
      (by rw [groupOf_of_mem unique member, single])
  groups row member grouped := by
    obtain ⟨other, otherMember, same, unlost⟩ : ∃ other ∈ tasks,
        other.alternativeGroupRef = row.alternativeGroupRef ∧ other.taskId ∉ lost := by
      by_cases missing : row.taskId ∈ lost
      · exact (complete row member missing).2
      · exact ⟨row, member, rfl, missing⟩
    have filed := groupOf_of_mem unique otherMember
    rw [same] at filed
    have atMostOne := settles.together row.alternativeGroupRef grouped
    rw [countP_memberOf unique grouped, countP_collapse naming unique member grouped]
    by_cases dispatched : ∃ id ∈ dispatch.map (·.taskId),
        groupOf tasks id = row.alternativeGroupRef
    · obtain ⟨id, listed, idFiled⟩ := dispatched
      have positive : 0 < (dispatch.map (·.taskId)).countP
          (fun id => groupOf tasks id = row.alternativeGroupRef) :=
        List.countP_pos_iff.mpr ⟨id, listed, decide_eq_true idFiled⟩
      have unfailed : row.alternativeGroupRef ∉ failedGroups tasks dispatch infeasible :=
        fun failed => (mem_failedGroups.mp failed).2.1
          ((mem_servedGroups_iff grouped).mpr ⟨id, listed, idFiled⟩)
      rw [List.count_eq_zero.mpr unfailed]
      omega
    · have none : (dispatch.map (·.taskId)).countP
          (fun id => groupOf tasks id = row.alternativeGroupRef) = 0 := by
        rw [List.countP_eq_zero]
        exact fun id listed idFiled => dispatched ⟨id, listed, of_decide_eq_true idFiled⟩
      have failed : row.alternativeGroupRef ∈ failedGroups tasks dispatch infeasible := by
        refine mem_failedGroups.mpr
          ⟨grouped, fun named => dispatched ((mem_servedGroups_iff grouped).mp named), ?_⟩
        rcases settles.reported other.taskId (mem_kept parts otherMember unlost)
            (by rwa [filed]) with ⟨id, listed, idFiled⟩ | ⟨id, listed, idFiled⟩
        · exact absurd ⟨id, listed, idFiled.trans filed⟩ dispatched
        · obtain ⟨record, recorded, rfl⟩ := List.mem_map.mp listed
          rw [filed] at idFiled
          exact ⟨record, recorded, (failureGroup_eq_iff naming unique member grouped).mpr idFiled⟩
      rw [none, List.count_eq_one_of_mem nodup_failedGroups failed]

/-- A record about kept tasks is not filed under a group without a kept member. -/
theorem failureGroup_ne_of_kept (unique : (tasks.map (·.taskId)).Nodup)
    (naming : GroupsNameMembers (groupOf tasks) (tasks.map (·.taskId)))
    (given : kept ⊆ tasks.map (·.taskId)) {row : TaskRow} (member : row ∈ tasks)
    (grouped : row.alternativeGroupRef ≠ "")
    (none : ∀ task ∈ kept, groupOf tasks task ≠ row.alternativeGroupRef)
    {record : InfeasibleRecord} (about : record.taskId ∈ kept ∨
      ∃ task ∈ kept, groupOf tasks task ≠ "" ∧ groupOf tasks task = record.taskId) :
    failureGroup tasks record ≠ row.alternativeGroupRef := by
  rw [Ne, failureGroup_eq_iff naming unique member grouped]
  rintro (named | filed)
  · rcases about with inside | ⟨task, inside, -, label⟩
    · obtain ⟨other, otherMember, otherNamed⟩ := List.mem_map.mp (given inside)
      have filed := group_of_named naming unique member grouped otherMember
        (otherNamed.trans named)
      exact none record.taskId inside
        (by rw [← otherNamed, groupOf_of_mem unique otherMember, filed])
    · exact none task inside (label.trans named)
  · rcases about with inside | ⟨task, inside, nonempty, label⟩
    · exact none record.taskId inside filed
    · obtain ⟨other, otherMember, -, same⟩ := exists_of_groupOf nonempty
      rw [← label] at filed
      rcases groupOf_name naming unique otherMember (same ▸ nonempty) with unfiled | itself
      · rw [same, filed] at unfiled
        exact grouped unfiled
      · rw [same, filed] at itself
        exact none task inside itself.symm

/-- A lost task without alternatives, or a lost group, is not accounted for. The records may be
more than the ledger has, as long as they are about tasks that are kept. -/
theorem ChainAccounts.losesAlternatives {recorded twice : List String}
    (unique : (tasks.map (·.taskId)).Nodup)
    (naming : GroupsNameMembers (groupOf tasks) (tasks.map (·.taskId)))
    (parts : (kept ++ lost).Perm (tasks.map (·.taskId)))
    (settles : Settles (groupOf tasks) kept (dispatch.map (·.taskId)) recorded)
    (records : (infeasible.map (·.taskId)).Perm (twice ++ recorded)) (known : twice ⊆ kept)
    (accounts : ChainAccounts tasks (dispatch.map (·.taskId))
      ((collapseAlternativeInfeasible dispatch infeasible tasks).map (·.taskId))) :
    LosesAlternatives tasks lost := by
  intro row member missing
  have disjoint : kept.Disjoint lost :=
    (List.nodup_append'.mp (parts.nodup_iff.mpr unique)).2.2
  have given : kept ⊆ tasks.map (·.taskId) :=
    fun id inside => parts.subset (List.mem_append_left _ inside)
  have grouped : row.alternativeGroupRef ≠ "" := by
    intro single
    have once := accounts.alone row member single
    have none := settles.count_of_other naming given (List.mem_map_of_mem member)
      (by rw [groupOf_of_mem unique member, single]) fun inside => disjoint inside missing
    have unrepeated : twice.count row.taskId = 0 :=
      List.count_eq_zero.mpr fun again => disjoint (known again) missing
    rw [count_collapse naming unique member single, records.count_eq, List.count_append] at once
    omega
  refine ⟨grouped, ?_⟩
  by_contra all
  have keptRow : ∀ task ∈ kept, groupOf tasks task ≠ row.alternativeGroupRef := by
    intro task inside same
    obtain ⟨other, otherMember, rfl, label⟩ := exists_of_groupOf (same ▸ grouped)
    exact all ⟨other, otherMember, label.trans same, disjoint inside⟩
  have undispatched : (dispatch.map (·.taskId)).countP
      (fun id => groupOf tasks id = row.alternativeGroupRef) = 0 := by
    rw [List.countP_eq_zero]
    intro id listed same
    exact keptRow id (settles.dispatched_known listed) (of_decide_eq_true same)
  have unreported : row.alternativeGroupRef ∉ failedGroups tasks dispatch infeasible := by
    intro failed
    obtain ⟨-, -, record, listed, same⟩ := mem_failedGroups.mp failed
    refine failureGroup_ne_of_kept unique naming given member grouped keptRow ?_ same
    rcases List.mem_append.mp (records.subset (List.mem_map_of_mem listed)) with again | once
    · exact .inl (known again)
    · exact settles.recorded_known record.taskId once
  have one := accounts.groups row member grouped
  rw [countP_memberOf unique grouped, countP_collapse naming unique member grouped, undispatched,
    List.count_eq_zero.mpr unreported] at one
  exact absurd one (by decide)

/-- After the collapse a ledger of the kept tasks, with records made twice, accounts for all tasks
exactly if alternatives only were lost, of no group all, and alternatives only were recorded
twice. -/
theorem chainAccounts_iff {recorded twice : List String}
    (unique : (tasks.map (·.taskId)).Nodup)
    (naming : GroupsNameMembers (groupOf tasks) (tasks.map (·.taskId)))
    (parts : (kept ++ lost).Perm (tasks.map (·.taskId)))
    (settles : Settles (groupOf tasks) kept (dispatch.map (·.taskId)) recorded)
    (records : (infeasible.map (·.taskId)).Perm (twice ++ recorded)) (known : twice ⊆ kept) :
    ChainAccounts tasks (dispatch.map (·.taskId))
        ((collapseAlternativeInfeasible dispatch infeasible tasks).map (·.taskId)) ↔
      LosesAlternatives tasks lost ∧ ∀ id ∈ twice, groupOf tasks id ≠ "" := by
  constructor
  · intro accounts
    refine ⟨accounts.losesAlternatives unique naming parts settles records known, ?_⟩
    intro id again single
    obtain ⟨row, member, rfl⟩ :=
      List.mem_map.mp (parts.subset (List.mem_append_left _ (known again)))
    have ungrouped : row.alternativeGroupRef = "" := by
      rw [← groupOf_of_mem unique member, single]
    have once := accounts.alone row member ungrouped
    have settled := settles.alone row.taskId (known again) single
    have repeated : 0 < twice.count row.taskId := List.count_pos_iff.mpr again
    rw [count_collapse naming unique member ungrouped, records.count_eq,
      List.count_append] at once
    omega
  · rintro ⟨complete, grouped⟩
    have again := (settles.record_again known grouped).perm (.refl _) (.refl _) records.symm
    exact .of_settles unique naming parts again complete

end Accounting

end FlOp.Solver
