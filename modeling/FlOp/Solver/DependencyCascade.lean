import FlOp.Solver.TaskRelations

/-! # Least and greatest sets along references

Both sides of the solve repeat a pass until it changes nothing. Before it, the excluded orders are
the least set that holds every order with a path to an excluded task. After it, the dispatches left
are the greatest set in which every task has the predecessor it needs.
-/

namespace FlOp.Solver

open Canonical FlOp.Core Library

/-! ## Before the solve -/

/-- The repeated pass without a bound on how often it is repeated. -/
inductive DependencyPasses : Finset String → List TaskRow →
    List TaskRow × List InfeasibleRecord → Prop where
  | settled {excluded : Finset String} {kept : List TaskRow}
      (unchanged : (dependencySweep excluded kept).2.2 = []) :
      DependencyPasses excluded kept ((dependencySweep excluded kept).2.1, [])
  | again {excluded : Finset String} {kept : List TaskRow}
      {later : List TaskRow × List InfeasibleRecord}
      (changed : (dependencySweep excluded kept).2.2 ≠ [])
      (rest : DependencyPasses (dependencySweep excluded kept).1
        (dependencySweep excluded kept).2.1 later) :
      DependencyPasses excluded kept (later.1, (dependencySweep excluded kept).2.2 ++ later.2)

/-- One or more references lead from the order, through orders of the input, to an excluded id. -/
inductive ReachesExcluded (orders : List TaskRow) (excluded : Finset String) : TaskRow → Prop where
  | refers {order : TaskRow} (depends : DependsOnExcluded excluded order) :
      ReachesExcluded orders excluded order
  | through {order next : TaskRow} (named : order.dependsOnTaskRef ≠ "")
      (member : next ∈ orders) (same : next.taskId = order.dependsOnTaskRef)
      (later : ReachesExcluded orders excluded next) : ReachesExcluded orders excluded order

section Filter

variable {orders : List TaskRow} {excluded : Finset String}

/-- Every id was excluded from the start or is the id of an order that reaches such an id. -/
private def Cascaded (orders : List TaskRow) (excluded known : Finset String) : Prop :=
  ∀ id ∈ known, id ∈ excluded ∨
    ∃ order ∈ orders, order.taskId = id ∧ ReachesExcluded orders excluded order

private theorem Cascaded.reaches {known : Finset String} (sound : Cascaded orders excluded known)
    {order : TaskRow} (depends : DependsOnExcluded known order) :
    ReachesExcluded orders excluded order := by
  obtain ⟨named, member⟩ := depends
  rcases sound _ member with old | ⟨next, inOrders, same, later⟩
  · exact .refers ⟨named, old⟩
  · exact .through named inOrders same later

/-- One pass splits the orders, and what it withdraws reaches an excluded id. -/
private theorem dependencySweep_splits {known : Finset String} {kept : List TaskRow}
    (among : kept ⊆ orders) (sound : Cascaded orders excluded known) :
    Cascaded orders excluded (dependencySweep known kept).1 ∧
      ∃ withdrawn : List TaskRow,
        (dependencySweep known kept).2.2 = withdrawn.map dependencyRecord ∧
        ((dependencySweep known kept).2.1 ++ withdrawn).Perm kept ∧
        ∀ order ∈ withdrawn, ReachesExcluded orders excluded order := by
  induction kept generalizing known with
  | nil => exact ⟨sound, [], rfl, .refl _, by simp⟩
  | cons order rest ih =>
    obtain ⟨inOrders, later⟩ := List.cons_subset.mp among
    unfold dependencySweep
    split_ifs with depends
    · have reaches := sound.reaches depends
      have grown : Cascaded orders excluded (insert order.taskId known) := by
        intro id member
        rcases Finset.mem_insert.mp member with rfl | old
        · exact .inr ⟨order, inOrders, rfl, reaches⟩
        · exact sound id old
      obtain ⟨sound', withdrawn, records, split, reach⟩ := ih later grown
      refine ⟨sound', order :: withdrawn, congrArg _ records, ?_, ?_⟩
      · exact List.perm_middle.trans (split.cons _)
      · exact List.forall_mem_cons.mpr ⟨reaches, reach⟩
    · obtain ⟨sound', withdrawn, records, split, reach⟩ := ih later sound
      exact ⟨sound', withdrawn, records, split.cons _, reach⟩

private theorem DependencyPasses.splits {known : Finset String} {kept : List TaskRow}
    {result : List TaskRow × List InfeasibleRecord} (passes : DependencyPasses known kept result)
    (among : kept ⊆ orders) (sound : Cascaded orders excluded known) :
    ∃ withdrawn : List TaskRow, result.2 = withdrawn.map dependencyRecord ∧
      (result.1 ++ withdrawn).Perm kept ∧
      ∀ order ∈ withdrawn, ReachesExcluded orders excluded order := by
  induction passes with
  | @settled known kept unchanged =>
    obtain ⟨-, withdrawn, records, split, reach⟩ := dependencySweep_splits among sound
    exact ⟨withdrawn, unchanged.symm.trans records, split, reach⟩
  | @again known kept later changed rest ih =>
    obtain ⟨sound', first, records, split, reach⟩ := dependencySweep_splits among sound
    have remaining : (dependencySweep known kept).2.1 ⊆ orders := fun order member =>
      among (split.subset (List.mem_append_left _ member))
    obtain ⟨others, recordsLater, splitLater, reachLater⟩ := ih remaining sound'
    refine ⟨first ++ others, ?_, ?_, ?_⟩
    · rw [records, recordsLater, List.map_append]
    · -- the orders withdrawn first come behind those the later passes kept
      have swapped : (later.1 ++ (first ++ others)).Perm ((later.1 ++ others) ++ first) := by
        rw [List.append_assoc]
        exact List.perm_append_comm.append_left _
      exact swapped.trans ((splitLater.append_right _).trans split)
    · intro order member
      rcases List.mem_append.mp member with early | late
      · exact reach order early
      · exact reachLater order late

private theorem dependencyPasses_loop (fuel : ℕ) (known : Finset String) (kept : List TaskRow)
    (enough : kept.length < fuel) :
    DependencyPasses known kept (dependencyLoop fuel known kept) := by
  induction fuel generalizing known kept with
  | zero => exact absurd enough (Nat.not_lt_zero _)
  | succ fuel ih =>
    simp only [dependencyLoop]
    split_ifs with unchanged
    · exact .settled unchanged
    · apply DependencyPasses.again unchanged
      apply ih
      -- a pass that records an order leaves a shorter list
      have whole : Cascaded kept known known := fun id member => .inl member
      obtain ⟨-, withdrawn, records, split, -⟩ :=
        dependencySweep_splits (List.Subset.refl kept) whole
      have recorded := List.length_pos_of_ne_nil unchanged
      have lengths := split.length_eq
      rw [records, List.length_map] at recorded
      rw [List.length_append] at lengths
      omega

/-- The filter comes to an end, and splits the orders into those that reach an excluded id and
those that do not. -/
theorem dependency_filter_least_cascade (orders : List TaskRow) (excluded : Finset String) :
    DependencyPasses excluded orders (applyDependencyFilter orders excluded) ∧
      (applyDependencyFilter orders excluded).1.Sublist orders ∧
      ∃ withdrawn : List TaskRow,
        (applyDependencyFilter orders excluded).2 = withdrawn.map dependencyRecord ∧
        ((applyDependencyFilter orders excluded).1 ++ withdrawn).Perm orders ∧
        ∀ order ∈ orders,
          (order ∈ (applyDependencyFilter orders excluded).1 ↔
            ¬ ReachesExcluded orders excluded order) ∧
          (order ∈ withdrawn ↔ ReachesExcluded orders excluded order) := by
  have passes : DependencyPasses excluded orders (applyDependencyFilter orders excluded) :=
    dependencyPasses_loop _ _ _ (Nat.lt_succ_self _)
  have start : Cascaded orders excluded excluded := fun id member => .inl member
  obtain ⟨withdrawn, records, split, reach⟩ := passes.splits (List.Subset.refl orders) start
  have settled := applyDependencyFilter_closed orders excluded
  have unreached : ∀ order, ReachesExcluded orders excluded order →
      order ∉ (applyDependencyFilter orders excluded).1 := by
    intro order reaches kept
    induction reaches with
    | @refers order depends =>
      exact settled order kept ⟨depends.1, Finset.mem_union_left _ depends.2⟩
    | @through order next named member same later ih =>
      -- the order it names is not kept, so it is among the recorded ones
      have gone : next ∈ withdrawn :=
        (List.mem_append.mp (split.symm.subset member)).resolve_left ih
      apply settled order kept
      refine ⟨named, Finset.mem_union_right _ (List.mem_toFinset.mpr ?_)⟩
      rw [records, List.map_map, ← same]
      exact List.mem_map_of_mem gone
  refine ⟨passes, applyDependencyFilter_sublist orders excluded, withdrawn, records, split, ?_⟩
  intro order member
  have sides := List.mem_append.mp (split.symm.subset member)
  constructor
  · constructor
    · exact fun kept reaches => unreached order reaches kept
    · exact fun apart => sides.resolve_right fun gone => apart (reach order gone)
  · exact ⟨reach order, fun reaches => sides.resolve_left (unreached order reaches)⟩

end Filter

/-! ## After the solve -/

/-- The withdrawal rounds without a bound on their number. -/
inductive OutcomeRounds (prec : Precedence) : List DispatchPackage →
    List DispatchPackage × List InfeasibleRecord → Prop where
  | settled {dispatch : List DispatchPackage}
      (none : (dispatch.filter fun package =>
        prec.Violates (dispatch.map (·.taskId)) package) = []) :
      OutcomeRounds prec dispatch (dispatch, [])
  | again {dispatch : List DispatchPackage} {later : List DispatchPackage × List InfeasibleRecord}
      (some : (dispatch.filter fun package =>
        prec.Violates (dispatch.map (·.taskId)) package) ≠ [])
      (rest : OutcomeRounds prec (dispatch.filter fun package =>
        ¬ prec.Violates (dispatch.map (·.taskId)) package) later) :
      OutcomeRounds prec dispatch (later.1, (dispatch.filter fun package =>
        prec.Violates (dispatch.map (·.taskId)) package).map prec.outcomeRecord ++ later.2)

/-- The reference of a task; of two orders with its id the last one counts. -/
def predecessorRef (orders : List TaskRow) (taskId : String) : String :=
  ((orders.reverse.find? fun order => order.taskId = taskId).map (·.dependsOnTaskRef)).getD ""

/-- Every task whose predecessor is among the orders has it dispatched as well. -/
def OutcomesClosed (orders : List TaskRow) (dispatch : List DispatchPackage) : Prop :=
  ∀ package ∈ dispatch, predecessorRef orders package.taskId ≠ "" →
    (∃ order ∈ orders, order.taskId = predecessorRef orders package.taskId) →
      ∃ other ∈ dispatch, other.taskId = predecessorRef orders package.taskId

section Outcomes

variable {orders : List TaskRow}

private theorem violates_ofOrders {served : List String} {package : DispatchPackage} :
    (Precedence.ofOrders orders).Violates served package ↔
      predecessorRef orders package.taskId ≠ "" ∧
      (∃ order ∈ orders, order.taskId = predecessorRef orders package.taskId) ∧
      predecessorRef orders package.taskId ∉ served := by
  have looked : (Dict.collect (·.taskId) (·.dependsOnTaskRef) orders).getD package.taskId "" =
      predecessorRef orders package.taskId := by
    rw [Dict.getD, Dict.get?_collect]
    rfl
  simp only [Precedence.Violates, Precedence.ofOrders, looked, List.mem_toFinset, List.mem_map]

private theorem outcomesClosed_iff {dispatch : List DispatchPackage} :
    OutcomesClosed orders dispatch ↔ ∀ package ∈ dispatch,
      ¬ (Precedence.ofOrders orders).Violates (dispatch.map (·.taskId)) package := by
  simp only [OutcomesClosed, violates_ofOrders, List.mem_map, not_and, not_not]

/-- A package that violates among more dispatches violates among fewer. -/
private theorem Precedence.Violates.anti {prec : Precedence} {few many : List DispatchPackage}
    (subset : few ⊆ many) {package : DispatchPackage}
    (violates : prec.Violates (many.map (·.taskId)) package) :
    prec.Violates (few.map (·.taskId)) package := by
  obtain ⟨named, present, unserved⟩ := violates
  exact ⟨named, present, fun served => unserved (List.map_subset _ subset served)⟩

private theorem outcomeRounds_loop (prec : Precedence) (fuel : ℕ)
    (dispatch : List DispatchPackage) (enough : dispatch.length ≤ fuel) :
    OutcomeRounds prec dispatch (outcomeLoop prec fuel dispatch) := by
  induction fuel generalizing dispatch with
  | zero =>
    obtain rfl : dispatch = [] := List.length_eq_zero_iff.mp (Nat.le_zero.mp enough)
    exact .settled rfl
  | succ fuel ih =>
    simp only [outcomeLoop]
    split_ifs with none
    · exact .settled none
    · apply OutcomeRounds.again none
      apply ih
      have parts := List.length_eq_length_filter_add
        (fun package => decide (prec.Violates (dispatch.map (·.taskId)) package)) (l := dispatch)
      have positive := List.length_pos_of_ne_nil none
      simp only [decide_not]
      omega

private theorem OutcomeRounds.withdraws {prec : Precedence} {dispatch : List DispatchPackage}
    {result : List DispatchPackage × List InfeasibleRecord}
    (rounds : OutcomeRounds prec dispatch result) :
    ∃ withdrawn : List DispatchPackage, result.2 = withdrawn.map prec.outcomeRecord ∧
      (result.1 ++ withdrawn).Perm dispatch := by
  induction rounds with
  | @settled dispatch none => exact ⟨[], rfl, .of_eq (List.append_nil _)⟩
  | @again dispatch later some rest ih =>
    obtain ⟨others, records, split⟩ := ih
    refine ⟨(dispatch.filter fun package =>
      prec.Violates (dispatch.map (·.taskId)) package) ++ others, ?_, ?_⟩
    · rw [records, List.map_append]
    · have parts := List.filter_append_perm (fun package =>
        decide (prec.Violates (dispatch.map (·.taskId)) package)) dispatch
      simp only [← decide_not] at parts
      refine List.Perm.trans ?_ parts
      exact (List.perm_append_comm_assoc _ _ _).trans (split.append_left _)

/-- No round takes a package out of a closed part of the dispatches. -/
private theorem OutcomeRounds.keeps {prec : Precedence} {dispatch : List DispatchPackage}
    {result : List DispatchPackage × List InfeasibleRecord}
    (rounds : OutcomeRounds prec dispatch result) {part : List DispatchPackage}
    (subset : part ⊆ dispatch)
    (closed : ∀ package ∈ part, ¬ prec.Violates (part.map (·.taskId)) package) :
    part ⊆ result.1 := by
  induction rounds with
  | settled none => exact subset
  | @again dispatch later some rest ih =>
    apply ih
    intro package member
    apply List.mem_filter.mpr
    refine ⟨subset member, decide_eq_true fun violates => ?_⟩
    exact closed package member (violates.anti subset)

/-- Enforcement comes to an end. It leaves the largest closed part of the dispatches, in their
order, and records each package it withdraws once. -/
theorem outcomes_greatest_closed (dispatch : List DispatchPackage)
    (infeasible : List InfeasibleRecord) (orders : List TaskRow) :
    ∃ enforced : List DispatchPackage × List InfeasibleRecord,
      OutcomeRounds (Precedence.ofOrders orders) dispatch enforced ∧
      enforceDependencyOutcomes dispatch infeasible orders =
        (enforced.1, infeasible ++ enforced.2) ∧
      enforced.1.Sublist dispatch ∧ OutcomesClosed orders enforced.1 ∧
      (∀ part, part ⊆ dispatch → OutcomesClosed orders part → part ⊆ enforced.1) ∧
      ∃ withdrawn : List DispatchPackage,
        (enforced.1 ++ withdrawn).Perm dispatch ∧
        enforced.2.map (fun record => (record.taskId, record.clusterId, record.reasonCode)) =
          withdrawn.map fun package =>
            (package.taskId, package.clusterId, ReasonCode.predecessorUnserved) := by
  have rounds := outcomeRounds_loop (Precedence.ofOrders orders) dispatch.length dispatch le_rfl
  refine ⟨_, rounds, rfl, enforceDependencyOutcomes_sublist dispatch infeasible orders, ?_, ?_, ?_⟩
  · exact outcomesClosed_iff.mpr (enforceDependencyOutcomes_closed dispatch infeasible orders)
  · intro part subset closed
    exact rounds.keeps subset (outcomesClosed_iff.mp closed)
  · obtain ⟨withdrawn, records, split⟩ := rounds.withdraws
    refine ⟨withdrawn, split, ?_⟩
    rw [records, List.map_map]
    rfl

end Outcomes

end FlOp.Solver
