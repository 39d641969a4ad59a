import Mathlib.Data.List.Basic

/-! # Labelled transition systems and their runs

A system fixes its initial states and its labelled steps. A run records every step it took,
so a property of whole runs can be compared with a condition on their steps, and an invariant
may be established for the runs whose steps all met a side condition.
-/

namespace FlOp.Library

/-- A transition system; nothing is assumed about determinism or finiteness. -/
structure LabeledSystem (σ ℓ : Type*) where
  Initial : σ → Prop
  Step : σ → ℓ → σ → Prop

namespace LabeledSystem

variable {σ ℓ : Type*} (sys : LabeledSystem σ ℓ)

/-- One recorded step: the state it left, its label and the state it entered. -/
structure Transition (σ ℓ : Type*) where
  source : σ
  label : ℓ
  target : σ

/-- The steps taken from an initial state, oldest first, and the state they lead to. -/
inductive Run : List (Transition σ ℓ) → σ → Prop
  | initial {s : σ} (start : sys.Initial s) : Run [] s
  | step {past : List (Transition σ ℓ)} {s t : σ} {l : ℓ} (run : Run past s)
      (step : sys.Step s l t) : Run (past ++ [⟨s, l, t⟩]) t

/-- States reached by runs whose every step met `ok`, judged on its source and label alone. -/
inductive ReachableWhere (ok : σ → ℓ → Prop) : σ → Prop
  | initial {s : σ} (start : sys.Initial s) : ReachableWhere ok s
  | step {s t : σ} {l : ℓ} (run : ReachableWhere ok s) (allowed : ok s l)
      (step : sys.Step s l t) : ReachableWhere ok t

/-- Reachability without a side condition. -/
abbrev Reachable : σ → Prop := sys.ReachableWhere fun _ _ => True

variable {sys}

/-- The induction shared by every invariant: initial states have it and allowed steps keep it. -/
theorem ReachableWhere.invariant {ok : σ → ℓ → Prop} (inv : σ → Prop)
    (initial : ∀ s, sys.Initial s → inv s)
    (preserved : ∀ s l t, inv s → ok s l → sys.Step s l t → inv t)
    {s : σ} (run : sys.ReachableWhere ok s) : inv s := by
  induction run with
  | initial start => exact initial _ start
  | step _ allowed step ih => exact preserved _ _ _ ih allowed step

/-- An invariant already established may be used while a second one is carried along. -/
theorem ReachableWhere.invariant_using {ok : σ → ℓ → Prop} {known : σ → Prop} (inv : σ → Prop)
    (knows : ∀ s, sys.ReachableWhere ok s → known s)
    (initial : ∀ s, sys.Initial s → inv s)
    (preserved : ∀ s l t, known s → inv s → ok s l → sys.Step s l t → inv t)
    {s : σ} (run : sys.ReachableWhere ok s) : inv s := by
  induction run with
  | initial start => exact initial _ start
  | step run allowed step ih => exact preserved _ _ _ (knows _ run) ih allowed step

/-- Every step recorded by a run is a step of the system. -/
theorem Run.step_of_mem {past : List (Transition σ ℓ)} {s : σ} (run : sys.Run past s)
    {taken : Transition σ ℓ} (member : taken ∈ past) :
    sys.Step taken.source taken.label taken.target := by
  induction run with
  | initial => simp at member
  | step _ step ih =>
    rcases List.mem_append.mp member with earlier | last
    · exact ih earlier
    · rw [List.mem_singleton.mp last]
      exact step

/-- In a run whose steps were all allowed, what an invariant gives at each step holds of every
step the run took. -/
theorem Run.forall_of_invariant {ok : σ → ℓ → Prop} {P : Transition σ ℓ → Prop} (inv : σ → Prop)
    (initial : ∀ s, sys.Initial s → inv s)
    (preserved : ∀ s l t, inv s → ok s l → sys.Step s l t → inv t)
    (holds : ∀ s l t, inv s → ok s l → sys.Step s l t → P ⟨s, l, t⟩)
    {past : List (Transition σ ℓ)} {s : σ} (run : sys.Run past s)
    (allowed : ∀ taken ∈ past, ok taken.source taken.label) : ∀ taken ∈ past, P taken := by
  have both : inv s ∧ ∀ taken ∈ past, P taken := by
    induction run with
    | initial start => exact ⟨initial _ start, fun _ member => absurd member List.not_mem_nil⟩
    | @step past s t l run step ih =>
      obtain ⟨invariant, earlier⟩ := ih fun taken member =>
        allowed taken (List.mem_append_left _ member)
      have ok := allowed ⟨s, l, t⟩ (by simp)
      refine ⟨preserved _ _ _ invariant ok step, fun taken member => ?_⟩
      rcases List.mem_append.mp member with old | last
      · exact earlier taken old
      · rw [List.mem_singleton.mp last]
        exact holds _ _ _ invariant ok step
  exact both.2

/-- The system of a partial step function: a label is enabled where the function is defined. -/
def ofStep (Initial : σ → Prop) (step : σ → ℓ → Option σ) : LabeledSystem σ ℓ where
  Initial := Initial
  Step s l t := step s l = some t

section Execution

variable (ok : σ → ℓ → Prop) [∀ s l, Decidable (ok s l)] (step : σ → ℓ → Option σ)

/-- Execute a list of labels, failing at the first one that is not allowed or not enabled. -/
def exec : List ℓ → σ → Option σ
  | [], s => some s
  | l :: rest, s => if ok s l then (step s l).bind (exec rest) else none

variable {ok step} {Initial : σ → Prop} {labels : List ℓ} {s t : σ}

theorem exec_append (first later : List ℓ) :
    exec ok step (first ++ later) s = (exec ok step first s).bind (exec ok step later) := by
  induction first generalizing s with
  | nil => rfl
  | cons l rest ih =>
    simp only [List.cons_append, LabeledSystem.exec]
    split
    · rw [Option.bind_assoc]
      exact congrArg _ (funext fun _ => ih)
    · rfl

/-- Execution continues a run whose steps were all allowed. -/
theorem ReachableWhere.exec (run : (ofStep Initial step).ReachableWhere ok s)
    (executed : exec ok step labels s = some t) : (ofStep Initial step).ReachableWhere ok t := by
  induction labels generalizing s with
  | nil =>
    obtain rfl : s = t := Option.some.inj executed
    exact run
  | cons l rest ih =>
    unfold LabeledSystem.exec at executed
    split_ifs at executed with allowed
    obtain ⟨next, first, later⟩ := Option.bind_eq_some_iff.mp executed
    exact ih (.step run allowed first) later

end Execution

end LabeledSystem

end FlOp.Library
