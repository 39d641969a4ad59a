import Mathlib.Data.List.Count
import Mathlib.Data.List.Nodup
import Mathlib.Data.List.Perm.Basic

/-! # The ledger of tasks

Tasks that stand alone are dispatched or recorded once. Of the members of a group at most one is
dispatched; if none is, some record names a member or the group itself. Ledgers of separate tasks
add up as long as no group is dispatched from two of them.
-/

namespace FlOp.Solver

/-- Of distinct items at most one has a property that no two of them share. -/
theorem countP_le_one {α : Type*} {items : List α} (p : α → Bool) (nodup : items.Nodup)
    (same : ∀ a ∈ items, ∀ b ∈ items, p a = true → p b = true → a = b) : items.countP p ≤ 1 := by
  induction items with
  | nil => exact Nat.zero_le _
  | cons head rest ih =>
    obtain ⟨fresh, nodup⟩ := List.nodup_cons.mp nodup
    by_cases holds : p head = true
    · have none : rest.countP p = 0 := List.countP_eq_zero.mpr fun other later otherHolds =>
        fresh (same head List.mem_cons_self other (List.mem_cons_of_mem _ later) holds
          otherHolds ▸ later)
      rw [List.countP_cons_of_pos holds]
      omega
    · rw [List.countP_cons_of_neg holds]
      exact ih nodup fun a memberA b memberB =>
        same a (List.mem_cons_of_mem _ memberA) b (List.mem_cons_of_mem _ memberB)

/-- A task that has the name of a group is one of it. -/
def GroupsNameMembers (group : String → String) (tasks : List String) : Prop :=
  ∀ task ∈ tasks, group task ≠ "" → group task ∈ tasks → group (group task) = group task

/-- No group has tasks in both lists. -/
def SeparateGroups (group : String → String) (first second : List String) : Prop :=
  ∀ id ∈ first, ∀ other ∈ second, group id ≠ "" → group id ≠ group other

theorem SeparateGroups.symm {group : String → String} {first second : List String}
    (separate : SeparateGroups group first second) : SeparateGroups group second first :=
  fun other otherListed id listed grouped same =>
    separate id listed other otherListed (same ▸ grouped) same.symm

theorem SeparateGroups.subset {group : String → String} {first second less fewer : List String}
    (separate : SeparateGroups group first second) (part : less ⊆ first)
    (partOther : fewer ⊆ second) : SeparateGroups group less fewer :=
  fun id listed other otherListed => separate id (part listed) other (partOther otherListed)

theorem GroupsNameMembers.subset {group : String → String} {tasks others : List String}
    (naming : GroupsNameMembers group tasks) (part : others ⊆ tasks) :
    GroupsNameMembers group others :=
  fun task member grouped listed => naming task (part member) grouped (part listed)

/-- What was dispatched and recorded of some tasks; the empty group stands for none. -/
structure Settles (group : String → String) (tasks dispatched recorded : List String) : Prop where
  dispatched_known : dispatched ⊆ tasks
  recorded_known : ∀ id ∈ recorded,
    id ∈ tasks ∨ ∃ task ∈ tasks, group task ≠ "" ∧ group task = id
  alone : ∀ task ∈ tasks, group task = "" → dispatched.count task + recorded.count task = 1
  together : ∀ name, name ≠ "" → dispatched.countP (fun id => group id = name) ≤ 1
  reported : ∀ task ∈ tasks, group task ≠ "" →
    (∃ id ∈ dispatched, group id = group task) ∨
      ∃ id ∈ recorded, id = group task ∨ group id = group task

namespace Settles

variable {group : String → String} {tasks others dispatched recorded moreDispatched moreRecorded :
  List String}

/-- Nothing is settled about no tasks. -/
theorem nil (group : String → String) : Settles group [] [] [] where
  dispatched_known := List.nil_subset _
  recorded_known := by simp
  alone := by simp
  together := by simp
  reported := by simp

/-- Tasks that are all recorded. -/
theorem ofRecorded (nodup : tasks.Nodup) : Settles group tasks [] tasks where
  dispatched_known := List.nil_subset _
  recorded_known id member := .inl member
  alone task member _ := by rw [List.count_nil, List.count_eq_one_of_mem nodup member]
  together _ _ := by simp
  reported task member _ := .inr ⟨task, member, .inr rfl⟩

/-- The order does not matter. -/
theorem perm (settles : Settles group tasks dispatched recorded) (sameTasks : tasks.Perm others)
    (sameDispatched : dispatched.Perm moreDispatched) (sameRecorded : recorded.Perm moreRecorded) :
    Settles group others moreDispatched moreRecorded where
  dispatched_known id member :=
    sameTasks.subset (settles.dispatched_known (sameDispatched.symm.subset member))
  recorded_known id member := by
    rcases settles.recorded_known id (sameRecorded.symm.subset member) with
      known | ⟨task, known, named⟩
    · exact .inl (sameTasks.subset known)
    · exact .inr ⟨task, sameTasks.subset known, named⟩
  alone task member single := by
    rw [← sameDispatched.count_eq, ← sameRecorded.count_eq]
    exact settles.alone task (sameTasks.symm.subset member) single
  together name named := by
    rw [← sameDispatched.countP_eq]
    exact settles.together name named
  reported task member grouped := by
    rcases settles.reported task (sameTasks.symm.subset member) grouped with
      ⟨id, listed, same⟩ | ⟨id, listed, same⟩
    · exact .inl ⟨id, sameDispatched.subset listed, same⟩
    · exact .inr ⟨id, sameRecorded.subset listed, same⟩

/-- A task without alternatives is not dispatched or recorded in a ledger of other tasks. -/
theorem count_of_other (settles : Settles group tasks dispatched recorded)
    (naming : GroupsNameMembers group others) (part : tasks ⊆ others) {task : String}
    (member : task ∈ others) (single : group task = "") (apart : task ∉ tasks) :
    dispatched.count task = 0 ∧ recorded.count task = 0 := by
  refine ⟨List.count_eq_zero.mpr fun listed => apart (settles.dispatched_known listed),
    List.count_eq_zero.mpr fun listed => ?_⟩
  rcases settles.recorded_known task listed with known | ⟨task', known, grouped, rfl⟩
  · exact apart known
  · exact grouped ((naming task' (part known) grouped member).symm.trans single)

/-- The ledgers of separate tasks add up. -/
theorem append (settles : Settles group tasks dispatched recorded)
    (settlesOthers : Settles group others moreDispatched moreRecorded)
    (disjoint : tasks.Disjoint others) (naming : GroupsNameMembers group (tasks ++ others))
    (separate : SeparateGroups group dispatched moreDispatched) :
    Settles group (tasks ++ others) (dispatched ++ moreDispatched)
      (recorded ++ moreRecorded) where
  dispatched_known := List.append_subset.mpr
    ⟨List.Subset.trans settles.dispatched_known (List.subset_append_left _ _),
      List.Subset.trans settlesOthers.dispatched_known (List.subset_append_right _ _)⟩
  recorded_known id member := by
    rcases List.mem_append.mp member with first | second
    · rcases settles.recorded_known id first with known | ⟨task, known, label⟩
      · exact .inl (List.mem_append_left _ known)
      · exact .inr ⟨task, List.mem_append_left _ known, label⟩
    · rcases settlesOthers.recorded_known id second with known | ⟨task, known, label⟩
      · exact .inl (List.mem_append_right _ known)
      · exact .inr ⟨task, List.mem_append_right _ known, label⟩
  alone task member single := by
    rw [List.count_append, List.count_append]
    rcases List.mem_append.mp member with first | second
    · have here := settles.alone task first single
      have there := settlesOthers.count_of_other naming (List.subset_append_right _ _) member
        single (disjoint first)
      omega
    · have here := settlesOthers.alone task second single
      have there := settles.count_of_other naming (List.subset_append_left _ _) member single
        fun known => disjoint known second
      omega
  together name nonempty := by
    rw [List.countP_append]
    have first := settles.together name nonempty
    have second := settlesOthers.together name nonempty
    by_cases served : ∃ id ∈ dispatched, group id = name
    · obtain ⟨id, listed, rfl⟩ := served
      have none : moreDispatched.countP (fun other => group other = group id) = 0 := by
        rw [List.countP_eq_zero]
        intro other otherListed same
        exact separate id listed other otherListed nonempty (of_decide_eq_true same).symm
      omega
    · have none : dispatched.countP (fun id => group id = name) = 0 := by
        rw [List.countP_eq_zero]
        intro id listed same
        exact served ⟨id, listed, of_decide_eq_true same⟩
      omega
  reported task member grouped := by
    rcases List.mem_append.mp member with first | second
    · rcases settles.reported task first grouped with ⟨id, listed, same⟩ | ⟨id, listed, same⟩
      · exact .inl ⟨id, List.mem_append_left _ listed, same⟩
      · exact .inr ⟨id, List.mem_append_left _ listed, same⟩
    · rcases settlesOthers.reported task second grouped with
        ⟨id, listed, same⟩ | ⟨id, listed, same⟩
      · exact .inl ⟨id, List.mem_append_right _ listed, same⟩
      · exact .inr ⟨id, List.mem_append_right _ listed, same⟩

/-- Alternatives may be recorded again. -/
theorem record_again {extra : List String} (settles : Settles group tasks dispatched recorded)
    (known : extra ⊆ tasks) (grouped : ∀ id ∈ extra, group id ≠ "") :
    Settles group tasks dispatched (extra ++ recorded) where
  dispatched_known := settles.dispatched_known
  recorded_known id member := by
    rcases List.mem_append.mp member with again | old
    · exact .inl (known again)
    · exact settles.recorded_known id old
  alone task member single := by
    have absent : task ∉ extra := fun again => grouped task again single
    have before := settles.alone task member single
    rw [List.count_append, List.count_eq_zero.mpr absent]
    omega
  together := settles.together
  reported task member named := by
    rcases settles.reported task member named with served | ⟨id, listed, same⟩
    · exact .inl served
    · exact .inr ⟨id, List.mem_append_right _ listed, same⟩

/-- Dispatches that are withdrawn are recorded instead. -/
theorem withdraw {kept withdrawn : List String}
    (settles : Settles group tasks dispatched recorded)
    (parts : (kept ++ withdrawn).Perm dispatched) :
    Settles group tasks kept (recorded ++ withdrawn) where
  dispatched_known id member :=
    settles.dispatched_known (parts.subset (List.mem_append_left _ member))
  recorded_known id member := by
    rcases List.mem_append.mp member with old | new
    · exact settles.recorded_known id old
    · exact .inl (settles.dispatched_known (parts.subset (List.mem_append_right _ new)))
  alone task member single := by
    have counts := parts.count_eq task
    have before := settles.alone task member single
    rw [List.count_append] at counts ⊢
    omega
  together name nonempty := by
    have counts := parts.countP_eq (p := fun id => decide (group id = name))
    have before := settles.together name nonempty
    rw [List.countP_append] at counts
    omega
  reported task member grouped := by
    rcases settles.reported task member grouped with ⟨id, listed, same⟩ | ⟨id, listed, same⟩
    · rcases List.mem_append.mp (parts.symm.subset listed) with still | gone
      · exact .inl ⟨id, still, same⟩
      · exact .inr ⟨id, List.mem_append_right _ gone, .inr same⟩
    · exact .inr ⟨id, List.mem_append_left _ listed, same⟩

end Settles

end FlOp.Solver
