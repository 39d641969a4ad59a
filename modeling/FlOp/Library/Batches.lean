import Mathlib.Data.List.Lattice
import Mathlib.Data.List.SplitBy

/-! # Batches and checkpoints

A step may fail and says whether it changed the state. Inputs are taken in batches, and the state
after a batch that changed something is a checkpoint. How the inputs are batched does not change
where a run ends; it only decides which of the states on the way are seen.
-/

namespace FlOp.Library.Batches

variable {σ ι : Type*}

/-- Apply a batch in order; the flags tell which inputs changed something. -/
def runBatch (step : σ → ι → Option (σ × Bool)) : σ → List ι → Option (σ × List Bool)
  | s, [] => some (s, [])
  | s, input :: rest =>
    (step s input).bind fun (next, changed) =>
      (runBatch step next rest).map fun (final, later) => (final, changed :: later)

/-- Apply batches in order; a state is kept after each batch that changed something. -/
def checkpoints (step : σ → ι → Option (σ × Bool)) : σ → List (List ι) → Option (σ × List σ)
  | s, [] => some (s, [])
  | s, batch :: rest =>
    (runBatch step s batch).bind fun (next, changed) =>
      (checkpoints step next rest).map fun (final, later) =>
        (final, if true ∈ changed then next :: later else later)

/-- A step that changed nothing says so truthfully. -/
def Quiet (step : σ → ι → Option (σ × Bool)) : Prop :=
  ∀ s input t, step s input = some (t, false) → t = s

section Runs

variable {step : σ → ι → Option (σ × Bool)} {s t : σ} {first second : List ι}
  {batches later : List (List ι)} {changed : List Bool} {states : List σ}

theorem runBatch_cons_eq_some {input : ι} :
    runBatch step s (input :: first) = some (t, changed) ↔
      ∃ next flag flags, step s input = some (next, flag) ∧
        runBatch step next first = some (t, flags) ∧ changed = flag :: flags := by
  rw [runBatch, Option.bind_eq_some_iff]
  constructor
  · rintro ⟨⟨next, flag⟩, stepped, mapped⟩
    obtain ⟨⟨final, flags⟩, ran, same⟩ := Option.map_eq_some_iff.mp mapped
    obtain ⟨rfl, rfl⟩ := Prod.mk.inj same
    exact ⟨next, flag, flags, stepped, ran, rfl⟩
  · rintro ⟨next, flag, flags, stepped, ran, rfl⟩
    exact ⟨(next, flag), stepped, Option.map_eq_some_iff.mpr ⟨(t, flags), ran, rfl⟩⟩

theorem length_runBatch (ran : runBatch step s first = some (t, changed)) :
    changed.length = first.length := by
  induction first generalizing s changed with
  | nil => exact congrArg List.length (Prod.mk.inj (Option.some.inj ran)).2.symm
  | cons input rest ih =>
    obtain ⟨next, flag, flags, -, later, rfl⟩ := runBatch_cons_eq_some.mp ran
    rw [List.length_cons, List.length_cons, ih later]

/-- A run is cut anywhere. -/
theorem runBatch_append_eq_some :
    runBatch step s (first ++ second) = some (t, changed) ↔
      ∃ middle flags more, runBatch step s first = some (middle, flags) ∧
        runBatch step middle second = some (t, more) ∧ changed = flags ++ more := by
  induction first generalizing s changed with
  | nil =>
    constructor
    · intro ran
      exact ⟨s, [], changed, rfl, ran, rfl⟩
    · rintro ⟨middle, flags, more, ended, ran, rfl⟩
      obtain ⟨rfl, rfl⟩ := Prod.mk.inj (Option.some.inj ended)
      exact ran
  | cons input rest ih =>
    rw [List.cons_append, runBatch_cons_eq_some]
    constructor
    · rintro ⟨next, flag, flags, stepped, ran, rfl⟩
      obtain ⟨middle, before, more, start, finish, rfl⟩ := ih.mp ran
      exact ⟨middle, flag :: before, more,
        runBatch_cons_eq_some.mpr ⟨next, flag, before, stepped, start, rfl⟩, finish, rfl⟩
    · rintro ⟨middle, flags, more, start, finish, rfl⟩
      obtain ⟨next, flag, before, stepped, ran, rfl⟩ := runBatch_cons_eq_some.mp start
      exact ⟨next, flag, before ++ more, stepped, ih.mpr ⟨middle, before, more, ran, finish, rfl⟩,
        rfl⟩

/-- A batch that says it changed nothing left the state as it was. -/
theorem eq_of_unchanged (quiet : Quiet step) (ran : runBatch step s first = some (t, changed))
    (unchanged : true ∉ changed) : t = s := by
  induction first generalizing s changed with
  | nil => exact (Prod.mk.inj (Option.some.inj ran)).1.symm
  | cons input rest ih =>
    obtain ⟨next, flag, flags, stepped, later, rfl⟩ := runBatch_cons_eq_some.mp ran
    obtain ⟨head, tail⟩ := not_or.mp (List.mem_cons.not.mp unchanged)
    obtain rfl : flag = false := by simpa using head
    rw [ih later tail, quiet s input next stepped]

theorem checkpoints_cons_eq_some {batch : List ι} :
    checkpoints step s (batch :: batches) = some (t, states) ↔
      ∃ next changed rest, runBatch step s batch = some (next, changed) ∧
        checkpoints step next batches = some (t, rest) ∧
        states = if true ∈ changed then next :: rest else rest := by
  rw [checkpoints, Option.bind_eq_some_iff]
  constructor
  · rintro ⟨⟨next, changed⟩, ran, mapped⟩
    obtain ⟨⟨final, rest⟩, followed, same⟩ := Option.map_eq_some_iff.mp mapped
    obtain ⟨rfl, rfl⟩ := Prod.mk.inj same
    exact ⟨next, changed, rest, ran, followed, rfl⟩
  · rintro ⟨next, changed, rest, ran, followed, rfl⟩
    exact ⟨(next, changed), ran, Option.map_eq_some_iff.mpr ⟨(t, rest), followed, rfl⟩⟩

theorem checkpoints_append_eq_some :
    checkpoints step s (batches ++ later) = some (t, states) ↔
      ∃ middle before after, checkpoints step s batches = some (middle, before) ∧
        checkpoints step middle later = some (t, after) ∧ states = before ++ after := by
  induction batches generalizing s states with
  | nil =>
    constructor
    · intro ran
      exact ⟨s, [], states, rfl, ran, rfl⟩
    · rintro ⟨middle, before, after, ended, ran, rfl⟩
      obtain ⟨rfl, rfl⟩ := Prod.mk.inj (Option.some.inj ended)
      exact ran
  | cons batch rest ih =>
    rw [List.cons_append, checkpoints_cons_eq_some]
    constructor
    · rintro ⟨next, changed, states, ran, followed, rfl⟩
      obtain ⟨middle, before, after, start, finish, rfl⟩ := ih.mp followed
      refine ⟨middle, if true ∈ changed then next :: before else before, after,
        checkpoints_cons_eq_some.mpr ⟨next, changed, before, ran, start, rfl⟩, finish, ?_⟩
      split <;> rfl
    · rintro ⟨middle, before, after, start, finish, rfl⟩
      obtain ⟨next, changed, states, ran, followed, rfl⟩ := checkpoints_cons_eq_some.mp start
      refine ⟨next, changed, states ++ after, ran,
        ih.mpr ⟨middle, states, after, followed, finish, rfl⟩, ?_⟩
      split <;> rfl

/-- The batches of a run end where one batch of all inputs ends, and see no state exactly if that
batch changes nothing. -/
theorem runBatch_flatten (ran : checkpoints step s batches = some (t, states)) :
    ∃ changed, runBatch step s batches.flatten = some (t, changed) ∧
      (states = [] ↔ true ∉ changed) := by
  induction batches generalizing s states with
  | nil =>
    obtain ⟨rfl, rfl⟩ := Prod.mk.inj (Option.some.inj ran)
    exact ⟨[], rfl, by simp⟩
  | cons batch rest ih =>
    obtain ⟨next, changed, states, first, followed, rfl⟩ := checkpoints_cons_eq_some.mp ran
    obtain ⟨more, later, unseen⟩ := ih followed
    refine ⟨changed ++ more,
      runBatch_append_eq_some.mpr ⟨next, changed, more, first, later, rfl⟩, ?_⟩
    rw [List.mem_append, not_or, ← unseen]
    split
    · next moved => simp [moved]
    · next unchanged => simp [unchanged]

/-- The last state that was seen is the one the run ends in. -/
theorem getLastD_checkpoints (quiet : Quiet step)
    (ran : checkpoints step s batches = some (t, states)) : states.getLastD s = t := by
  induction batches generalizing s states with
  | nil =>
    obtain ⟨rfl, rfl⟩ := Prod.mk.inj (Option.some.inj ran)
    rfl
  | cons batch rest ih =>
    obtain ⟨next, changed, states, first, followed, rfl⟩ := checkpoints_cons_eq_some.mp ran
    split
    · rw [List.getLastD_cons]
      exact ih followed
    · next unchanged =>
      rw [← eq_of_unchanged quiet first unchanged]
      exact ih followed

/-- One batch in the place of several sees at most the last state they see. -/
theorem checkpoints_flatten (quiet : Quiet step)
    (ran : checkpoints step s batches = some (t, states)) :
    ∃ seen, checkpoints step s [batches.flatten] = some (t, seen) ∧ seen.Sublist states := by
  obtain ⟨changed, whole, unseen⟩ := runBatch_flatten ran
  refine ⟨if true ∈ changed then [t] else [],
    checkpoints_cons_eq_some.mpr ⟨t, changed, [], whole, rfl, rfl⟩, ?_⟩
  split
  · next moved =>
    have last := getLastD_checkpoints quiet ran
    cases states with
    | nil => exact (unseen.mp rfl moved).elim
    | cons head tail =>
      rw [List.getLastD_cons] at last
      exact List.singleton_sublist.mpr (last ▸ List.getLastD_mem_cons)
  · exact List.nil_sublist states

/-! ## Coarser batches -/

/-- Each batch of the one is some batches of the other in a row. -/
def Coarsens (fine coarse : List (List ι)) : Prop :=
  ∃ groups : List (List (List ι)), groups.flatten = fine ∧ groups.map List.flatten = coarse

theorem Coarsens.refl (batches : List (List ι)) : Coarsens batches batches := by
  refine ⟨batches.map fun batch => [batch], ?_, ?_⟩
  · induction batches with
    | nil => rfl
    | cons batch rest ih => rw [List.map_cons, List.flatten_cons, ih, List.singleton_append]
  · rw [List.map_map]
    refine (List.map_congr_left fun batch _ => ?_).trans (List.map_id batches)
    exact List.append_nil batch

theorem Coarsens.append {fine coarse finer coarser : List (List ι)} (first : Coarsens fine coarse)
    (second : Coarsens finer coarser) : Coarsens (fine ++ finer) (coarse ++ coarser) := by
  obtain ⟨groups, rfl, rfl⟩ := first
  obtain ⟨more, rfl, rfl⟩ := second
  exact ⟨groups ++ more, List.flatten_append, List.map_append⟩

/-- Coarser batches end in the same state and see some of the states the finer ones see. -/
theorem Coarsens.checkpoints {fine coarse : List (List ι)} (coarsens : Coarsens fine coarse)
    (quiet : Quiet step) (ran : checkpoints step s fine = some (t, states)) :
    ∃ seen, checkpoints step s coarse = some (t, seen) ∧ seen.Sublist states := by
  obtain ⟨groups, rfl, rfl⟩ := coarsens
  induction groups generalizing s states with
  | nil => exact ⟨states, ran, List.Sublist.refl states⟩
  | cons group rest ih =>
    rw [List.flatten_cons] at ran
    obtain ⟨middle, before, after, first, followed, rfl⟩ := checkpoints_append_eq_some.mp ran
    obtain ⟨seen, once, kept⟩ := checkpoints_flatten quiet first
    obtain ⟨more, later, others⟩ := ih followed
    refine ⟨seen ++ more, ?_, kept.append others⟩
    rw [List.map_cons, ← List.singleton_append]
    exact checkpoints_append_eq_some.mpr ⟨middle, seen, more, once, later, rfl⟩

end Runs

section Splits

variable {joins wider : ι → ι → Bool}

/-- Runs of joined inputs, split where one is not joined to the next, are within the runs of the
whole. -/
theorem coarsens_splitBy {fine : List (List ι)} (filled : [] ∉ fine)
    (chains : ∀ batch ∈ fine, batch.IsChain fun a b => joins a b) :
    Coarsens fine (fine.flatten.splitBy joins) := by
  induction fine with
  | nil => exact Coarsens.refl []
  | cons batch rest ih =>
    obtain ⟨here, later⟩ := not_or.mp (List.mem_cons.not.mp filled)
    obtain ⟨chain, chains⟩ := List.forall_mem_cons.mp chains
    have whole := ih later chains
    have alone : batch.splitBy joins = [batch] := List.splitBy_of_isChain (Ne.symm here) chain
    rw [List.flatten_cons]
    by_cases joined : ∀ x ∈ batch.getLast?, ∀ y ∈ rest.flatten.head?, joins x y = true
    · cases split : rest.flatten.splitBy joins with
      | nil =>
        rw [List.splitBy_eq_nil] at split
        have none : rest = [] := by
          cases rest with
          | nil => rfl
          | cons next others =>
            have empty := (List.append_eq_nil_iff.mp split).1
            exact (later (empty ▸ List.mem_cons_self)).elim
        rw [split, List.append_nil, alone, none]
        exact Coarsens.refl [batch]
      | cons first others =>
        obtain ⟨groups, same, flattened⟩ := whole
        rw [split] at flattened
        obtain ⟨group, more, rfl, rfl, rfl⟩ := List.map_eq_cons_iff.mp flattened
        obtain ⟨parts, nonempty, linked, apart⟩ := List.splitBy_eq_iff.mp split
        have merged : (batch ++ rest.flatten).splitBy joins =
            (batch ++ group.flatten) :: more.map List.flatten := by
          obtain ⟨head, tail⟩ := not_or.mp (List.mem_cons.not.mp nonempty)
          obtain ⟨first, others⟩ := List.forall_mem_cons.mp linked
          have starts : rest.flatten.head? = group.flatten.head? := by
            rw [parts, List.flatten_cons, List.head?_append_of_ne_nil _ (Ne.symm head)]
          refine List.splitBy_eq_iff.mpr ⟨?_, ?_, ?_, ?_⟩
          · rw [parts, List.flatten_cons, List.flatten_cons, List.append_assoc]
          · rw [List.mem_cons, not_or]
            exact ⟨fun empty => here (List.append_eq_nil_iff.mp empty.symm).1.symm, tail⟩
          · refine List.forall_mem_cons.mpr ⟨?_, others⟩
            rw [starts] at joined
            exact List.isChain_append.mpr ⟨chain, first, joined⟩
          · obtain ⟨next, more⟩ := List.isChain_cons.mp apart
            refine List.isChain_cons.mpr ⟨fun other isNext => ?_, more⟩
            obtain ⟨ends, begins, differ⟩ := next other isNext
            refine ⟨List.append_ne_nil_of_right_ne_nil batch ends, begins, ?_⟩
            rw [List.getLast_append_of_ne_nil _ ends]
            exact differ
        rw [merged]
        exact ⟨(batch :: group) :: more, by rw [List.flatten_cons, List.cons_append, ← same]; rfl,
          rfl⟩
    · push Not at joined
      obtain ⟨x, last, y, first, apart⟩ := joined
      have cut : ∀ a ∈ batch.getLast?, ∀ b ∈ rest.flatten.head?, joins a b = false := by
        intro a isLast b isFirst
        rw [Option.mem_unique isLast last, Option.mem_unique isFirst first]
        exact Bool.eq_false_iff.mpr apart
      rw [List.splitBy_append cut, alone, ← List.singleton_append]
      exact (Coarsens.refl [batch]).append whole

theorem flatten_flatMap_splitBy (polls : List (List ι)) :
    (polls.flatMap (List.splitBy joins)).flatten = polls.flatten := by
  induction polls with
  | nil => rfl
  | cons poll rest ih =>
    rw [List.flatMap_cons, List.flatten_append, List.flatten_splitBy, ih, List.flatten_cons]

/-- Splitting longer stretches where fewer neighbours are joined gives coarser batches. -/
theorem Coarsens.splitBy {fine coarse : List (List ι)} (coarsens : Coarsens fine coarse)
    (wider_joins : ∀ a b, joins a b = true → wider a b = true) :
    Coarsens (fine.flatMap (List.splitBy joins)) (coarse.flatMap (List.splitBy wider)) := by
  obtain ⟨groups, rfl, rfl⟩ := coarsens
  induction groups with
  | nil => exact Coarsens.refl []
  | cons group rest ih =>
    have filled : [] ∉ group.flatMap (List.splitBy joins) := by
      rw [List.mem_flatMap]
      rintro ⟨poll, -, empty⟩
      exact List.nil_notMem_splitBy joins poll empty
    have chains : ∀ batch ∈ group.flatMap (List.splitBy joins),
        batch.IsChain fun a b => wider a b := by
      intro batch member
      obtain ⟨poll, -, part⟩ := List.mem_flatMap.mp member
      exact (List.isChain_of_mem_splitBy part).imp fun a b => wider_joins a b
    have here := coarsens_splitBy filled chains
    rw [flatten_flatMap_splitBy] at here
    rw [List.flatten_cons, List.flatMap_append, List.map_cons, List.flatMap_cons]
    exact here.append ih

end Splits

end FlOp.Library.Batches
