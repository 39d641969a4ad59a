import Mathlib.Algebra.BigOperators.Group.List.Basic
import Mathlib.Algebra.Order.BigOperators.Group.List
import Mathlib.Algebra.Order.Group.Defs
import Mathlib.Data.Finset.Card
import Mathlib.Data.Finset.Image
import Mathlib.Data.List.Nodup
import Mathlib.Tactic.Abel

/-! # Greedy colouring

The nodes of a graph are coloured one after another, each with a colour picked in view of those
given so far. If no pick repeats the colour of a neighbour, no two neighbours have one colour; and
a node with fewer neighbours than there are colours always has such a pick.
-/

namespace FlOp.Library

variable {ι κ : Type*} [DecidableEq ι]

/-- Colour the nodes in list order. -/
def colour (pick : (ι → Option κ) → ι → κ) (given : ι → Option κ) : List ι → ι → Option κ
  | [] => given
  | i :: rest => colour pick (Function.update given i (some (pick given i))) rest

variable {pick : (ι → Option κ) → ι → κ} {given : ι → Option κ} {order : List ι} {i j : ι}

theorem colour_of_notMem (absent : i ∉ order) : colour pick given order i = given i := by
  induction order generalizing given with
  | nil => rfl
  | cons first rest ih =>
    rw [List.mem_cons, not_or] at absent
    rw [colour, ih absent.2, Function.update_of_ne absent.1]

theorem isSome_colour (member : i ∈ order) : (colour pick given order i).isSome := by
  induction order generalizing given with
  | nil => cases member
  | cons first rest ih =>
    rw [colour]
    by_cases later : i ∈ rest
    · exact ih later
    · obtain rfl := (List.mem_cons.mp member).resolve_right later
      rw [colour_of_notMem later, Function.update_self]
      rfl

/-- Neighbours are coloured differently, those coloured before included. -/
theorem colour_proper {Adj : ι → ι → Prop} (symmetric : ∀ i j, Adj i j → Adj j i)
    (free : ∀ given i j, Adj i j → given j ≠ some (pick given i)) (nodup : order.Nodup)
    (unseen : ∀ k ∈ order, given k = none)
    (proper : ∀ i j, Adj i j → i ≠ j → (given i).isSome → given i ≠ given j) :
    ∀ i j, Adj i j → i ≠ j → (colour pick given order i).isSome →
      colour pick given order i ≠ colour pick given order j := by
  induction order generalizing given with
  | nil => exact proper
  | cons first rest ih =>
    rw [List.nodup_cons] at nodup
    obtain ⟨unseenFirst, unseenRest⟩ := List.forall_mem_cons.mp unseen
    refine ih nodup.2 ?_ ?_
    · intro k later
      have other : k ≠ first := fun same => nodup.1 (same ▸ later)
      rw [Function.update_of_ne other, unseenRest k later]
    · intro i j adjacent apart coloured
      by_cases here : i = first
      · subst here
        rw [Function.update_self, Function.update_of_ne (Ne.symm apart)]
        exact (free given i j adjacent).symm
      · rw [Function.update_of_ne here] at coloured ⊢
        by_cases there : j = first
        · subst there
          rw [Function.update_self]
          exact free given j i (symmetric i j adjacent)
        · rw [Function.update_of_ne there]
          exact proper i j adjacent apart coloured

omit [DecidableEq ι] in
/-- Fewer neighbours than colours leave a colour that none of them has. -/
theorem exists_free_colour {colours : ℕ} {given : ι → Option ℕ} {nearby : Finset ι}
    (few : nearby.card < colours) : ∃ c < colours, ∀ k ∈ nearby, given k ≠ some c := by
  by_contra! taken
  have covered : (Finset.range colours).image some ⊆ nearby.image given := by
    intro c member
    obtain ⟨c, inside, rfl⟩ := Finset.mem_image.mp member
    obtain ⟨k, listed, used⟩ := taken c (Finset.mem_range.mp inside)
    exact Finset.mem_image.mpr ⟨k, listed, used⟩
  have fits := (Finset.card_le_card covered).trans Finset.card_image_le
  rw [Finset.card_image_of_injective _ (Option.some_injective ℕ), Finset.card_range] at fits
  omega

end FlOp.Library

/-! # Serving requests from a stock

Requests are served in turn, each that what is left covers; the others take nothing.
-/

namespace FlOp.Library

variable {T : Type*} [AddCommGroup T] [LinearOrder T]

/-- What is left of a stock after some requests. -/
def leftAfter (stock : T) (requests : List T) : T :=
  requests.foldl (fun left request => if request ≤ left then left - request else left) stock

/-- The requests that are served. -/
def served : T → List T → List T
  | _, [] => []
  | stock, request :: rest =>
    if request ≤ stock then request :: served (stock - request) rest else served stock rest

@[simp] theorem leftAfter_nil (stock : T) : leftAfter stock [] = stock := rfl

theorem leftAfter_cons (stock request : T) (rest : List T) :
    leftAfter stock (request :: rest) =
      leftAfter (if request ≤ stock then stock - request else stock) rest := rfl

theorem leftAfter_append (stock : T) (first second : List T) :
    leftAfter stock (first ++ second) = leftAfter (leftAfter stock first) second :=
  List.foldl_append

theorem leftAfter_concat (stock request : T) (requests : List T) :
    leftAfter stock (requests ++ [request]) =
      if request ≤ leftAfter stock requests then leftAfter stock requests - request
      else leftAfter stock requests := by
  rw [leftAfter_append]
  rfl

/-- What is not left was served. -/
theorem leftAfter_eq (stock : T) (requests : List T) :
    leftAfter stock requests = stock - (served stock requests).sum := by
  induction requests generalizing stock with
  | nil => simp [served]
  | cons request rest ih =>
    rw [leftAfter_cons, ih, served]
    split_ifs
    · rw [List.sum_cons]
      abel
    · rfl

variable [IsOrderedAddMonoid T]

/-- Requests that are not negative only take. -/
theorem leftAfter_le {stock : T} {requests : List T} (nonneg : ∀ request ∈ requests, 0 ≤ request) :
    leftAfter stock requests ≤ stock := by
  induction requests generalizing stock with
  | nil => exact le_rfl
  | cons request rest ih =>
    obtain ⟨first, later⟩ := List.forall_mem_cons.mp nonneg
    rw [leftAfter_cons]
    split_ifs
    · exact (ih later).trans (sub_le_self stock first)
    · exact ih later

/-- A stock that covers all requests serves them all. -/
theorem leftAfter_of_covered {stock : T} {requests : List T}
    (nonneg : ∀ request ∈ requests, 0 ≤ request) (covered : requests.sum ≤ stock) :
    leftAfter stock requests = stock - requests.sum := by
  induction requests generalizing stock with
  | nil => simp
  | cons request rest ih =>
    obtain ⟨first, later⟩ := List.forall_mem_cons.mp nonneg
    rw [List.sum_cons] at covered ⊢
    have fits : request ≤ stock := (le_add_of_nonneg_right (List.sum_nonneg later)).trans covered
    rw [leftAfter_cons, if_pos fits, ih later (le_sub_iff_add_le'.mpr covered)]
    abel

end FlOp.Library
