import FlOp.Solver.Rows

/-! # Precedence between tasks

A task whose reference names a task of the planning input is served after it or not at all.
Before the solve, dependents of excluded tasks are excluded in turn; after it, dispatches
whose predecessor was not served are withdrawn until none is left.
-/

namespace FlOp.Solver

open Canonical FlOp.Core Library

/-- Dependents of an already excluded task. -/
def DependsOnExcluded (excluded : Finset String) (order : TaskRow) : Prop :=
  order.dependsOnTaskRef ≠ "" ∧ order.dependsOnTaskRef ∈ excluded

instance (excluded : Finset String) (order : TaskRow) :
    Decidable (DependsOnExcluded excluded order) :=
  inferInstanceAs (Decidable (_ ∧ _))

def dependencyRecord (order : TaskRow) : InfeasibleRecord where
  taskId := order.taskId
  reasonCode := .predecessorUnserved
  detail := "predecessor " ++ order.dependsOnTaskRef ++ " excluded before solve"

/-- One pass over the kept orders; an order excluded early in the pass excludes later ones. -/
def dependencySweep (excluded : Finset String) :
    List TaskRow → Finset String × List TaskRow × List InfeasibleRecord
  | [] => (excluded, [], [])
  | order :: rest =>
    if DependsOnExcluded excluded order then
      let swept := dependencySweep (insert order.taskId excluded) rest
      (swept.1, swept.2.1, dependencyRecord order :: swept.2.2)
    else
      let swept := dependencySweep excluded rest
      (swept.1, order :: swept.2.1, swept.2.2)

/-- Repeat the pass while it excludes something. -/
def dependencyLoop : ℕ → Finset String → List TaskRow → List TaskRow × List InfeasibleRecord
  | 0, _, kept => (kept, [])
  | fuel + 1, excluded, kept =>
    let swept := dependencySweep excluded kept
    if swept.2.2 = [] then (swept.2.1, [])
    else
      let later := dependencyLoop fuel swept.1 swept.2.1
      (later.1, swept.2.2 ++ later.2)

/-- Cascade-exclude tasks whose predecessor was excluded before solving. Every pass but the
last one drops an order, so the number of orders bounds the passes. -/
def applyDependencyFilter (orders : List TaskRow) (excludedTaskIds : Finset String) :
    List TaskRow × List InfeasibleRecord :=
  dependencyLoop (orders.length + 1) excludedTaskIds orders

private theorem dependencySweep_sublist (excluded : Finset String) (orders : List TaskRow) :
    (dependencySweep excluded orders).2.1.Sublist orders := by
  induction orders generalizing excluded with
  | nil => exact List.Sublist.refl _
  | cons order rest ih =>
    unfold dependencySweep
    split_ifs
    · exact (ih _).cons order
    · exact (ih _).cons_cons order

private theorem dependencySweep_records {excluded : Finset String} {orders : List TaskRow}
    {record : InfeasibleRecord} (member : record ∈ (dependencySweep excluded orders).2.2) :
    ∃ order ∈ orders, order.taskId = record.taskId := by
  induction orders generalizing excluded with
  | nil => simp [dependencySweep] at member
  | cons order rest ih =>
    unfold dependencySweep at member
    split_ifs at member
    · rcases List.mem_cons.mp member with rfl | later
      · exact ⟨order, List.mem_cons_self, rfl⟩
      · obtain ⟨row, rowMember, same⟩ := ih later
        exact ⟨row, List.mem_cons_of_mem _ rowMember, same⟩
    · obtain ⟨row, rowMember, same⟩ := ih member
      exact ⟨row, List.mem_cons_of_mem _ rowMember, same⟩

private theorem dependencyLoop_spec (fuel : ℕ) (excluded : Finset String) (kept : List TaskRow) :
    (dependencyLoop fuel excluded kept).1.Sublist kept ∧
      ∀ record ∈ (dependencyLoop fuel excluded kept).2,
        ∃ order ∈ kept, order.taskId = record.taskId := by
  induction fuel generalizing excluded kept with
  | zero => simp [dependencyLoop]
  | succ fuel ih =>
    have swept := dependencySweep_sublist excluded kept
    simp only [dependencyLoop]
    split_ifs
    · exact ⟨swept, by simp⟩
    · obtain ⟨later, records⟩ := ih (dependencySweep excluded kept).1 (dependencySweep excluded kept).2.1
      refine ⟨later.trans swept, fun record member => ?_⟩
      rcases List.mem_append.mp member with first | rest
      · exact dependencySweep_records first
      · obtain ⟨order, orderMember, same⟩ := records record rest
        exact ⟨order, swept.subset orderMember, same⟩

/-- One pass excludes exactly the orders it records, and keeps the others. -/
private theorem dependencySweep_excludes (excluded : Finset String) (orders : List TaskRow) :
    (dependencySweep excluded orders).1 =
        excluded ∪ ((dependencySweep excluded orders).2.2.map (·.taskId)).toFinset ∧
      (dependencySweep excluded orders).2.1.length +
        (dependencySweep excluded orders).2.2.length = orders.length := by
  induction orders generalizing excluded with
  | nil => simp [dependencySweep]
  | cons order rest ih =>
    unfold dependencySweep
    split_ifs
    · obtain ⟨insertion, lengths⟩ := ih (insert order.taskId excluded)
      refine ⟨?_, ?_⟩
      · rw [insertion]
        ext id
        simp only [dependencyRecord, List.map_cons, List.toFinset_cons, Finset.mem_union,
          Finset.mem_insert]
        tauto
      · simp only [List.length_cons]
        omega
    · obtain ⟨insertion, lengths⟩ := ih excluded
      refine ⟨insertion, ?_⟩
      simp only [List.length_cons]
      omega

/-- A pass that records nothing found no dependent of an excluded task. -/
private theorem dependencySweep_settled {excluded : Finset String} {orders : List TaskRow}
    (none : (dependencySweep excluded orders).2.2 = []) :
    ∀ order ∈ orders, ¬ DependsOnExcluded excluded order := by
  induction orders with
  | nil => simp
  | cons order rest ih =>
    unfold dependencySweep at none
    split_ifs at none with dependent
    intro other member
    rcases List.mem_cons.mp member with rfl | later
    · exact dependent
    · exact ih none other later

private theorem dependencyLoop_closed (fuel : ℕ) (excluded : Finset String) (kept : List TaskRow)
    (enough : kept.length < fuel) :
    ∀ order ∈ (dependencyLoop fuel excluded kept).1, ¬ DependsOnExcluded
      (excluded ∪ ((dependencyLoop fuel excluded kept).2.map (·.taskId)).toFinset) order := by
  induction fuel generalizing excluded kept with
  | zero => exact absurd enough (Nat.not_lt_zero _)
  | succ fuel ih =>
    obtain ⟨insertion, lengths⟩ := dependencySweep_excludes excluded kept
    by_cases none : (dependencySweep excluded kept).2.2 = []
    · have settled : dependencyLoop (fuel + 1) excluded kept =
          ((dependencySweep excluded kept).2.1, []) := by
        simp only [dependencyLoop, none, if_true]
      intro order member
      rw [settled] at member ⊢
      simp only [List.map_nil, List.toFinset_nil, Finset.union_empty]
      exact dependencySweep_settled none order ((dependencySweep_sublist _ _).subset member)
    · -- a recorded order left the list, so the remaining fuel suffices
      have positive := List.length_pos_of_ne_nil none
      have rest := ih (dependencySweep excluded kept).1 (dependencySweep excluded kept).2.1
        (by omega)
      rw [insertion, Finset.union_assoc, ← List.toFinset_append, ← List.map_append,
        ← insertion] at rest
      simpa only [dependencyLoop, none, if_false] using rest

/-- No kept order depends on an order that was excluded before or by the filter. -/
theorem applyDependencyFilter_closed (orders : List TaskRow) (excluded : Finset String) :
    ∀ order ∈ (applyDependencyFilter orders excluded).1, ¬ DependsOnExcluded
      (excluded ∪ ((applyDependencyFilter orders excluded).2.map (·.taskId)).toFinset) order :=
  dependencyLoop_closed _ _ _ (Nat.lt_succ_self _)

/-- The filter keeps orders it was given, in their order. -/
theorem applyDependencyFilter_sublist (orders : List TaskRow) (excluded : Finset String) :
    (applyDependencyFilter orders excluded).1.Sublist orders :=
  (dependencyLoop_spec _ _ _).1

/-- Every record of the filter is about an order it was given. -/
theorem applyDependencyFilter_records {orders : List TaskRow} {excluded : Finset String}
    {record : InfeasibleRecord} (member : record ∈ (applyDependencyFilter orders excluded).2) :
    ∃ order ∈ orders, order.taskId = record.taskId :=
  (dependencyLoop_spec _ _ _).2 record member

private theorem perm_dependencySweep (excluded : Finset String) (orders : List TaskRow) :
    ((dependencySweep excluded orders).2.1.map (·.taskId) ++
      (dependencySweep excluded orders).2.2.map (·.taskId)).Perm (orders.map (·.taskId)) := by
  induction orders generalizing excluded with
  | nil => exact .refl _
  | cons order rest ih =>
    unfold dependencySweep
    split_ifs
    · exact List.perm_middle.trans ((ih _).cons _)
    · exact (ih _).cons _

private theorem perm_dependencyLoop (fuel : ℕ) (excluded : Finset String) (kept : List TaskRow) :
    ((dependencyLoop fuel excluded kept).1.map (·.taskId) ++
      (dependencyLoop fuel excluded kept).2.map (·.taskId)).Perm (kept.map (·.taskId)) := by
  induction fuel generalizing excluded kept with
  | zero => exact .of_eq (List.append_nil _)
  | succ fuel ih =>
    have swept := perm_dependencySweep excluded kept
    simp only [dependencyLoop]
    split_ifs with none
    · rwa [none] at swept
    · have later := ih (dependencySweep excluded kept).1 (dependencySweep excluded kept).2.1
      refine List.Perm.trans ?_ ((later.append_right _).trans swept)
      rw [List.map_append, List.append_assoc]
      exact List.perm_append_comm.append_left _

/-- The filter keeps or records every order. -/
theorem perm_applyDependencyFilter (orders : List TaskRow) (excluded : Finset String) :
    ((applyDependencyFilter orders excluded).1.map (·.taskId) ++
      (applyDependencyFilter orders excluded).2.map (·.taskId)).Perm (orders.map (·.taskId)) :=
  perm_dependencyLoop _ _ _

/-- What the outcome check knows of the solved orders. -/
structure Precedence where
  present : Finset String
  predecessorOf : Dict String String

def Precedence.ofOrders (orders : List TaskRow) : Precedence where
  present := (orders.map (·.taskId)).toFinset
  predecessorOf := Dict.collect (·.taskId) (·.dependsOnTaskRef) orders

/-- A dispatch whose predecessor is among the orders but not among the served tasks. -/
def Precedence.Violates (prec : Precedence) (served : List String) (package : DispatchPackage) :
    Prop :=
  let predecessor := prec.predecessorOf.getD package.taskId ""
  predecessor ≠ "" ∧ predecessor ∈ prec.present ∧ predecessor ∉ served

instance (prec : Precedence) (served : List String) (package : DispatchPackage) :
    Decidable (prec.Violates served package) :=
  inferInstanceAs (Decidable (_ ∧ _ ∧ _))

def Precedence.outcomeRecord (prec : Precedence) (package : DispatchPackage) :
    InfeasibleRecord where
  taskId := package.taskId
  clusterId := package.clusterId
  reasonCode := .predecessorUnserved
  detail := "predecessor " ++ prec.predecessorOf.getD package.taskId "" ++
    " not served in this plan"

/-- Withdraw violating dispatches round by round; each round but the last withdraws one. -/
def outcomeLoop (prec : Precedence) :
    ℕ → List DispatchPackage → List DispatchPackage × List InfeasibleRecord
  | 0, dispatch => (dispatch, [])
  | fuel + 1, dispatch =>
    let served := dispatch.map (·.taskId)
    let violating := dispatch.filter fun package => prec.Violates served package
    if violating = [] then (dispatch, [])
    else
      let later := outcomeLoop prec fuel
        (dispatch.filter fun package => ¬ prec.Violates served package)
      (later.1, violating.map prec.outcomeRecord ++ later.2)

/-- Post-solve safety net: a dependent may not outlive an unserved predecessor. -/
def enforceDependencyOutcomes (dispatch : List DispatchPackage)
    (infeasible : List InfeasibleRecord) (orders : List TaskRow) :
    List DispatchPackage × List InfeasibleRecord :=
  let enforced := outcomeLoop (Precedence.ofOrders orders) dispatch.length dispatch
  (enforced.1, infeasible ++ enforced.2)

private theorem outcomeLoop_spec (prec : Precedence) (fuel : ℕ) (dispatch : List DispatchPackage) :
    (outcomeLoop prec fuel dispatch).1.Sublist dispatch ∧
      ∀ record ∈ (outcomeLoop prec fuel dispatch).2,
        ∃ package ∈ dispatch, package.taskId = record.taskId := by
  induction fuel generalizing dispatch with
  | zero => simp [outcomeLoop]
  | succ fuel ih =>
    simp only [outcomeLoop]
    split_ifs
    · simp
    · obtain ⟨later, records⟩ := ih (dispatch.filter fun package =>
        ¬ prec.Violates (dispatch.map (·.taskId)) package)
      refine ⟨later.trans List.filter_sublist, fun record member => ?_⟩
      rcases List.mem_append.mp member with first | rest
      · obtain ⟨package, violating, rfl⟩ := List.mem_map.mp first
        exact ⟨package, (List.mem_filter.mp violating).1, rfl⟩
      · obtain ⟨package, packageMember, same⟩ := records record rest
        exact ⟨package, (List.mem_filter.mp packageMember).1, same⟩

private theorem outcomeLoop_closed (prec : Precedence) (fuel : ℕ) (dispatch : List DispatchPackage)
    (enough : dispatch.length ≤ fuel) :
    ∀ package ∈ (outcomeLoop prec fuel dispatch).1,
      ¬ prec.Violates ((outcomeLoop prec fuel dispatch).1.map (·.taskId)) package := by
  induction fuel generalizing dispatch with
  | zero =>
    obtain rfl : dispatch = [] := List.length_eq_zero_iff.mp (Nat.le_zero.mp enough)
    simp [outcomeLoop]
  | succ fuel ih =>
    by_cases settled : (dispatch.filter fun package =>
        prec.Violates (dispatch.map (·.taskId)) package) = []
    · have kept : outcomeLoop prec (fuel + 1) dispatch = (dispatch, []) := by
        simp only [outcomeLoop, settled, if_true]
      rw [kept]
      simpa [List.filter_eq_nil_iff] using settled
    · -- a withdrawn dispatch shortens the list, so the remaining fuel suffices
      have shorter : (dispatch.filter fun package =>
          ¬ prec.Violates (dispatch.map (·.taskId)) package).length < dispatch.length := by
        obtain ⟨package, member⟩ := List.exists_mem_of_ne_nil _ settled
        have parts := List.length_eq_length_filter_add
          (fun package => decide (prec.Violates (dispatch.map (·.taskId)) package)) (l := dispatch)
        have positive := List.length_pos_of_mem member
        simp only [decide_not]
        omega
      have rest := ih (dispatch.filter fun package =>
        ¬ prec.Violates (dispatch.map (·.taskId)) package) (by omega)
      simpa only [outcomeLoop, settled, if_false] using rest

private theorem perm_outcomeLoop (prec : Precedence) (fuel : ℕ) (dispatch : List DispatchPackage) :
    ((outcomeLoop prec fuel dispatch).1.map (·.taskId) ++
      (outcomeLoop prec fuel dispatch).2.map (·.taskId)).Perm (dispatch.map (·.taskId)) := by
  induction fuel generalizing dispatch with
  | zero => exact .of_eq (List.append_nil _)
  | succ fuel ih =>
    simp only [outcomeLoop]
    split_ifs
    · exact .of_eq (List.append_nil _)
    · have later := ih (dispatch.filter fun package =>
        ¬ prec.Violates (dispatch.map (·.taskId)) package)
      have parts := (List.filter_append_perm (fun package =>
        decide (prec.Violates (dispatch.map (·.taskId)) package)) dispatch).map (·.taskId)
      simp only [List.map_append, List.map_map, ← decide_not] at parts ⊢
      refine List.Perm.trans ?_ parts
      refine List.perm_append_comm_assoc _ _ _ |>.trans ?_
      exact later.append_left _

/-- Every withdrawn dispatch is recorded. -/
theorem perm_enforceDependencyOutcomes (dispatch : List DispatchPackage)
    (infeasible : List InfeasibleRecord) (orders : List TaskRow) :
    ∃ withdrawn : List InfeasibleRecord,
      (enforceDependencyOutcomes dispatch infeasible orders).2 = infeasible ++ withdrawn ∧
        ((enforceDependencyOutcomes dispatch infeasible orders).1.map (·.taskId) ++
          withdrawn.map (·.taskId)).Perm (dispatch.map (·.taskId)) :=
  ⟨_, rfl, perm_outcomeLoop _ _ _⟩

/-- Enforcement only withdraws dispatches. -/
theorem enforceDependencyOutcomes_sublist (dispatch : List DispatchPackage)
    (infeasible : List InfeasibleRecord) (orders : List TaskRow) :
    (enforceDependencyOutcomes dispatch infeasible orders).1.Sublist dispatch :=
  (outcomeLoop_spec _ _ _).1

/-- Every record after enforcement was there before or is about a withdrawn dispatch. -/
theorem enforceDependencyOutcomes_records {dispatch : List DispatchPackage}
    {infeasible : List InfeasibleRecord} {orders : List TaskRow} {record : InfeasibleRecord}
    (member : record ∈ (enforceDependencyOutcomes dispatch infeasible orders).2) :
    record ∈ infeasible ∨ ∃ package ∈ dispatch, package.taskId = record.taskId := by
  rcases List.mem_append.mp member with old | extra
  · exact .inl old
  · exact .inr ((outcomeLoop_spec _ _ _).2 record extra)

/-- After enforcement no dispatch outlives an unserved predecessor of the solved orders. -/
theorem enforceDependencyOutcomes_closed (dispatch : List DispatchPackage)
    (infeasible : List InfeasibleRecord) (orders : List TaskRow) :
    ∀ package ∈ (enforceDependencyOutcomes dispatch infeasible orders).1,
      ¬ (Precedence.ofOrders orders).Violates
        ((enforceDependencyOutcomes dispatch infeasible orders).1.map (·.taskId)) package :=
  outcomeLoop_closed _ _ _ le_rfl

end FlOp.Solver
