import FlOp.Library.Dijkstra
import Mathlib.Algebra.BigOperators.Group.List.Basic
import Mathlib.Data.List.Chain

/-! # Shortest chains of points

Points in a list are the nodes of a graph by their positions; an edge joins two different positions
whose points may follow one another, and weighs what lies between them. Walks of the graph are the
chains of these points, up to repetitions of a point.
-/

namespace FlOp.Library

open Dijkstra

variable {α W : Type*} [AddCommMonoid W]

/-- What lies between the neighbours of a chain, together. -/
def chainLength (length : α → α → W) (l : List α) : W :=
  ((l.zip l.tail).map fun step => length step.1 step.2).sum

section Length

variable {length : α → α → W} {a b : α} {l : List α}

@[simp] theorem chainLength_singleton : chainLength length [a] = 0 := rfl

theorem chainLength_cons_cons :
    chainLength length (a :: b :: l) = length a b + chainLength length (b :: l) := by
  simp [chainLength]

/-- A point added behind a chain lengthens it by its distance from the last one. -/
theorem chainLength_concat (last : l.getLast? = some a) :
    chainLength length (l ++ [b]) = chainLength length l + length a b := by
  induction l with
  | nil => cases last
  | cons first rest ih =>
    cases rest with
    | nil =>
      obtain rfl := Option.some.inj last
      simp [chainLength]
    | cons second rest =>
      rw [List.getLast?_cons_cons] at last
      rw [List.cons_append, List.cons_append, chainLength_cons_cons, ← List.cons_append, ih last,
        chainLength_cons_cons, add_assoc]

end Length

/-- The edges of a graph on the positions of some points. -/
def IsPositionGraph (graph : Dijkstra.Graph ℕ W) (points : List α) (Adj : α → α → Prop)
    (length : α → α → W) : Prop :=
  ∀ i j weight, (j, weight) ∈ graph i ↔ ∃ a b, points[i]? = some a ∧ points[j]? = some b ∧
    i ≠ j ∧ Adj a b ∧ weight = length a b

namespace IsPositionGraph

variable {graph : Dijkstra.Graph ℕ W} {points : List α} {Adj : α → α → Prop} {length : α → α → W}

/-- The points at which a walk arrives are a chain as long as its total weight. -/
theorem chain_of_walk (edges : IsPositionGraph graph points Adj length) {i j : ℕ} {a : α}
    (starts : points[i]? = some a) {steps : List (ℕ × ℕ)} {total : W}
    (walk : Walk graph i j steps total) :
    let l := (i :: steps.map Prod.snd).filterMap fun k => points[k]?
    (∃ b, points[j]? = some b ∧ l.getLast? = some b) ∧ l.head? = some a ∧ l.IsChain Adj ∧
      chainLength length l = total := by
  induction walk with
  | nil => simp [starts, chainLength]
  | @snoc u v steps total weight walk edge ih =>
    obtain ⟨⟨b, atU, last⟩, head, chain, long⟩ := ih
    obtain ⟨b', c, atU', atV, -, adjacent, rfl⟩ := (edges u v weight).mp edge
    obtain rfl := Option.some.inj (atU.symm.trans atU')
    have extended : ((i :: (steps ++ [(u, v)]).map Prod.snd).filterMap fun k => points[k]?) =
        ((i :: steps.map Prod.snd).filterMap fun k => points[k]?) ++ [c] := by
      simp [atV, starts]
    intro l
    have same : l = ((i :: steps.map Prod.snd).filterMap fun k => points[k]?) ++ [c] := extended
    rw [same]
    refine ⟨⟨c, atV, by simp⟩, ?_, ?_, ?_⟩
    · rw [List.head?_append, head]
      rfl
    · rw [List.isChain_append]
      refine ⟨chain, List.isChain_singleton _, fun x atEnd y atStart => ?_⟩
      rw [last] at atEnd
      cases atEnd
      cases atStart
      exact adjacent
    · rw [chainLength_concat last, long]

/-- A chain of the points is a walk of its length, from any walk to its first point on. -/
theorem walk_of_chain [DecidableEq α] (edges : IsPositionGraph graph points Adj length)
    (self : ∀ a, length a a = 0) {source i : ℕ} {a : α} {l : List α} (starts : points[i]? = some a)
    (chain : (a :: l).IsChain Adj) (inside : ∀ p ∈ l, p ∈ points) {steps : List (ℕ × ℕ)} {total : W}
    (walk : Walk graph source i steps total) :
    ∃ j steps', (∃ b, points[j]? = some b ∧ (a :: l).getLast? = some b) ∧
      Walk graph source j steps' (total + chainLength length (a :: l)) := by
  induction l generalizing i a steps total with
  | nil =>
    refine ⟨i, steps, ⟨a, starts, rfl⟩, ?_⟩
    rwa [chainLength_singleton, add_zero]
  | cons b rest ih =>
    obtain ⟨insideFirst, insideRest⟩ := List.forall_mem_cons.mp inside
    rw [List.isChain_cons_cons] at chain
    rw [chainLength_cons_cons, List.getLast?_cons_cons, ← add_assoc]
    by_cases same : a = b
    · subst same
      rw [self, add_zero]
      exact ih starts chain.2 insideRest walk
    · obtain ⟨j, atJ⟩ := List.mem_iff_getElem?.mp insideFirst
      have apart : i ≠ j := by
        rintro rfl
        exact same (Option.some.inj (starts.symm.trans atJ))
      have edge : (j, length a b) ∈ graph i :=
        (edges i j _).mpr ⟨a, b, starts, atJ, apart, chain.1, rfl⟩
      exact ih atJ chain.2 insideRest (walk.snoc edge)

end IsPositionGraph

end FlOp.Library
