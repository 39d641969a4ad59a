import Mathlib.Data.List.Forall2
import Mathlib.Order.Lattice
import Mathlib.Order.SuccPred.Basic

/-! # Computations that can fail

A sequence of fallible steps succeeds exactly if each step does on what the last one gave.
-/

namespace FlOp.Library.Fallible

variable {ε α β : Type*}

/-- A step succeeds after another exactly if both do. -/
theorem bind_eq_ok {x : Except ε α} {f : α → Except ε β} {b : β} :
    x.bind f = .ok b ↔ ∃ a, x = .ok a ∧ f a = .ok b := by
  cases x with
  | error message => simp [Except.bind]
  | ok a => simp [Except.bind]

/-- A total function of a result succeeds exactly if there is a result. -/
theorem map_eq_ok {x : Except ε α} {f : α → β} {b : β} :
    x.map f = .ok b ↔ ∃ a, x = .ok a ∧ f a = b := by
  cases x with
  | error message => simp [Except.map]
  | ok a => simp [Except.map]

/-- A fallible map succeeds exactly if it does on every item. -/
theorem mapM_eq_ok {f : α → Except ε β} {items : List α} {results : List β} :
    items.mapM f = .ok results ↔ List.Forall₂ (fun item result => f item = .ok result) items
      results := by
  induction items generalizing results with
  | nil =>
    rw [List.mapM_nil, List.forall₂_nil_left_iff]
    exact ⟨fun run => (Except.ok.inj run).symm, fun same => same ▸ rfl⟩
  | cons item rest ih =>
    rw [List.mapM_cons]
    constructor
    · intro run
      obtain ⟨result, first, later⟩ := bind_eq_ok.mp run
      obtain ⟨others, mapped, same⟩ := bind_eq_ok.mp later
      obtain rfl := Except.ok.inj same
      exact .cons first (ih.mp mapped)
    · intro pairs
      cases pairs with
      | cons first later =>
        exact bind_eq_ok.mpr ⟨_, first, bind_eq_ok.mpr ⟨_, ih.mpr later, rfl⟩⟩

/-- Every left item of two related lists is related to a right one. -/
theorem exists_right_of_forall₂ {R : α → β → Prop} {items : List α} {results : List β}
    (pairs : List.Forall₂ R items results) {item : α} (member : item ∈ items) :
    ∃ result ∈ results, R item result := by
  induction pairs with
  | nil => cases member
  | cons first _ ih =>
    rcases List.mem_cons.mp member with rfl | later
    · exact ⟨_, List.mem_cons_self, first⟩
    · obtain ⟨result, found, made⟩ := ih later
      exact ⟨result, List.mem_cons_of_mem _ found, made⟩

/-- Two relations between the same lists hold of the same pairs. -/
theorem exists_both_of_forall₂ {R S : α → β → Prop} {items : List α} {results : List β}
    (first : List.Forall₂ R items results) (second : List.Forall₂ S items results) {item : α}
    (member : item ∈ items) : ∃ result, R item result ∧ S item result := by
  induction first with
  | nil => cases member
  | cons here _ ih =>
    obtain ⟨here', later'⟩ := List.forall₂_cons.mp second
    rcases List.mem_cons.mp member with rfl | later
    · exact ⟨_, here, here'⟩
    · exact ih later' later

/-- Items that are each related to something are related to a list. -/
theorem exists_forall₂ {R : α → β → Prop} {items : List α}
    (each : ∀ item ∈ items, ∃ result, R item result) :
    ∃ results, List.Forall₂ R items results := by
  induction items with
  | nil => exact ⟨[], List.Forall₂.nil⟩
  | cons first rest ih =>
    obtain ⟨here, later⟩ := List.forall_mem_cons.mp each
    obtain ⟨result, related⟩ := here
    obtain ⟨results, all⟩ := ih later
    exact ⟨result :: results, List.Forall₂.cons related all⟩

/-- Every item of a successful fallible map has its result among the results. -/
theorem exists_result_of_mapM {f : α → Except ε β} {items : List α} {results : List β}
    (run : items.mapM f = .ok results) {item : α} (member : item ∈ items) :
    ∃ result ∈ results, f item = .ok result :=
  exists_right_of_forall₂ (mapM_eq_ok.mp run) member

/-- Every result of a successful fallible map comes from an item. -/
theorem exists_item_of_mapM {f : α → Except ε β} {items : List α} {results : List β}
    (run : items.mapM f = .ok results) {result : β} (member : result ∈ results) :
    ∃ item ∈ items, f item = .ok result :=
  exists_right_of_forall₂ (mapM_eq_ok.mp run).flip member

/-- An optional map succeeds exactly if it does on every item. -/
theorem mapM_eq_some {f : α → Option β} {items : List α} {results : List β} :
    items.mapM f = some results ↔ List.Forall₂ (fun item result => f item = some result) items
      results := by
  induction items generalizing results with
  | nil =>
    rw [List.mapM_nil, List.forall₂_nil_left_iff]
    exact ⟨fun run => (Option.some.inj run).symm, fun same => same ▸ rfl⟩
  | cons item rest ih =>
    rw [List.mapM_cons]
    constructor
    · intro run
      obtain ⟨result, first, later⟩ := Option.bind_eq_some_iff.mp run
      obtain ⟨others, mapped, same⟩ := Option.bind_eq_some_iff.mp later
      obtain rfl := Option.some.inj same
      exact .cons first (ih.mp mapped)
    · intro pairs
      cases pairs with
      | cons first later =>
        exact Option.bind_eq_some_iff.mpr
          ⟨_, first, Option.bind_eq_some_iff.mpr ⟨_, ih.mpr later, rfl⟩⟩

/-- Every item of a successful optional map has its result among the results. -/
theorem exists_some_of_mapM {f : α → Option β} {items : List α} {results : List β}
    (run : items.mapM f = some results) {item : α} (member : item ∈ items) :
    ∃ result ∈ results, f item = some result :=
  exists_right_of_forall₂ (mapM_eq_some.mp run) member

/-- All items succeed together exactly when each of them does. -/
theorem isSome_mapM {f : α → Option β} {items : List α} :
    (items.mapM f).isSome ↔ ∀ item ∈ items, (f item).isSome := by
  constructor
  · intro all item member
    obtain ⟨results, run⟩ := Option.isSome_iff_exists.mp all
    obtain ⟨result, -, found⟩ := exists_some_of_mapM run member
    rw [found]
    rfl
  · intro each
    rw [Option.isSome_iff_exists]
    refine ⟨items.pmap (fun item some => (f item).get some) each, mapM_eq_some.mpr ?_⟩
    induction items with
    | nil => exact List.Forall₂.nil
    | cons first rest ih =>
      obtain ⟨here, later⟩ := List.forall_mem_cons.mp each
      exact List.Forall₂.cons (Option.some_get here).symm (ih later)

/-- The items that pass a fallible test, in their order. -/
def selectM (test : α → Option Bool) : List α → Option (List α)
  | [] => some []
  | item :: rest => (test item).bind fun passes =>
    (selectM test rest).map fun selected => if passes then item :: selected else selected

theorem selectM_congr {test other : α → Option Bool} {items : List α}
    (same : ∀ item ∈ items, test item = other item) : selectM test items = selectM other items := by
  induction items with
  | nil => rfl
  | cons first rest ih =>
    obtain ⟨here, later⟩ := List.forall_mem_cons.mp same
    rw [selectM, selectM, here, ih later]

theorem sublist_of_selectM {test : α → Option Bool} {items selected : List α}
    (run : selectM test items = some selected) : selected.Sublist items := by
  induction items generalizing selected with
  | nil =>
    obtain rfl := Option.some.inj run
    exact List.Sublist.refl _
  | cons first rest ih =>
    obtain ⟨passes, -, run⟩ := Option.bind_eq_some_iff.mp run
    obtain ⟨later, chosen, rfl⟩ := Option.map_eq_some_iff.mp run
    cases passes with
    | false => exact (ih chosen).cons first
    | true => exact (ih chosen).cons_cons first

/-- Selecting from two lists selects from each. -/
theorem selectM_append {test : α → Option Bool} (items others : List α) :
    selectM test (items ++ others) =
      (selectM test items).bind fun selected => (selectM test others).map (selected ++ ·) := by
  induction items with
  | nil => exact (Option.map_id' (x := selectM test others)).symm
  | cons first rest ih =>
    rw [List.cons_append, selectM, selectM, ih]
    rcases test first with _ | _ | _
    · rfl
    · cases selectM test rest <;> cases selectM test others <;> rfl
    · cases selectM test rest <;> cases selectM test others <;> rfl

/-- A selection that fails fails with further items as well. -/
theorem selectM_append_eq_none {test : α → Option Bool} {items : List α} (others : List α)
    (failed : selectM test items = none) : selectM test (items ++ others) = none := by
  induction items with
  | nil => cases failed
  | cons first rest ih =>
    rw [selectM, Option.bind_eq_none_iff] at failed
    rw [List.cons_append, selectM, Option.bind_eq_none_iff]
    intro passes tested
    rw [ih (Option.map_eq_none_iff.mp (failed passes tested)), Option.map_none]

/-- Further items leave the selection as it is exactly when each of them is tested and fails. -/
theorem selectM_append_eq_iff {test : α → Option Bool} {items others selected : List α}
    (run : selectM test items = some selected) :
    selectM test (items ++ others) = some selected ↔ ∀ item ∈ others, test item = some false := by
  induction items generalizing selected with
  | nil =>
    obtain rfl := Option.some.inj run
    rw [List.nil_append]
    induction others with
    | nil => simp [selectM]
    | cons first rest ih =>
      rw [List.forall_mem_cons, ← ih, selectM]
      rcases test first with _ | _ | _
      · simp
      · simp
      · cases selectM test rest <;> simp
  | cons first rest ih =>
    obtain ⟨passes, tested, run⟩ := Option.bind_eq_some_iff.mp run
    obtain ⟨later, selected_rest, rfl⟩ := Option.map_eq_some_iff.mp run
    rw [List.cons_append, selectM, tested, ← ih selected_rest]
    cases selectM test (rest ++ others) <;> cases passes <;> simp

theorem mapM_congr {f g : α → Option β} {items : List α} (same : ∀ item ∈ items, f item = g item) :
    items.mapM f = items.mapM g := by
  induction items with
  | nil => rfl
  | cons first rest ih =>
    obtain ⟨here, later⟩ := List.forall_mem_cons.mp same
    rw [List.mapM_cons, List.mapM_cons, here, ih later]

/-- Two passes that cannot fail before the second one are one. -/
theorem mapM_bind_mapM {γ : Type*} {f : α → Option β} {g : β → Option γ} {h : α → Option γ}
    {items : List α}
    (first : ∀ item ∈ items, (f item).isSome)
    (second : ∀ item ∈ items, ∀ result, f item = some result → g result = h item) :
    ∃ results, items.mapM f = some results ∧ results.mapM g = items.mapM h := by
  obtain ⟨results, run⟩ := Option.isSome_iff_exists.mp (isSome_mapM.mpr first)
  refine ⟨results, run, ?_⟩
  have pairs := mapM_eq_some.mp run
  clear run
  induction pairs with
  | nil => rfl
  | @cons item result rest others same later ih =>
    have here := second item List.mem_cons_self result same
    rw [List.mapM_cons, List.mapM_cons, here, ih (fun other member => first other (.tail _ member))
      (fun other member => second other (.tail _ member))]

/-- With enough fuel, and from then on, a computation ends with the result. -/
def EndsWith (f : ℕ → Option α) (a : α) : Prop := ∃ enough, ∀ fuel, enough ≤ fuel → f fuel = some a

namespace EndsWith

variable {f : ℕ → Option α} {a : α}

theorem pure (a : α) : EndsWith (fun _ => some a) a := ⟨0, fun _ _ => rfl⟩

/-- A computation that needs no fuel. -/
theorem of_forall (found : ∀ fuel, f fuel = some a) : EndsWith f a := ⟨0, fun fuel _ => found fuel⟩

theorem congr {g : ℕ → Option α} (ends : EndsWith f a) (same : ∀ fuel, g fuel = f fuel) :
    EndsWith g a := by
  obtain ⟨enough, runs⟩ := ends
  exact ⟨enough, fun fuel more => (same fuel).trans (runs fuel more)⟩

theorem map (ends : EndsWith f a) (g : α → β) : EndsWith (fun fuel => (f fuel).map g) (g a) := by
  obtain ⟨enough, runs⟩ := ends
  refine ⟨enough, fun fuel more => ?_⟩
  change (f fuel).map g = some (g a)
  rw [runs fuel more, Option.map_some]

theorem bind {g : ℕ → α → Option β} {b : β} (ends : EndsWith f a)
    (next : EndsWith (fun fuel => g fuel a) b) :
    EndsWith (fun fuel => (f fuel).bind (g fuel)) b := by
  obtain ⟨enough, runs⟩ := ends
  obtain ⟨enoughNext, runsNext⟩ := next
  refine ⟨max enough enoughNext, fun fuel more => ?_⟩
  change (f fuel).bind (g fuel) = some b
  rw [runs fuel ((le_max_left _ _).trans more), Option.bind_some]
  exact runsNext fuel ((le_max_right _ _).trans more)

/-- A result that is found once and is kept with more fuel is what the computation ends with. -/
theorem of_found (kept : ∀ fuel a, f fuel = some a → f (fuel + 1) = some a) {fuel : ℕ}
    (found : f fuel = some a) : EndsWith f a := by
  refine ⟨fuel, fun more enough => ?_⟩
  induction more, enough using Nat.le_induction with
  | base => exact found
  | succ n _ ih => exact kept n a ih

/-- A computation ends with one result only. -/
theorem unique {b : α} (first : EndsWith f a) (second : EndsWith f b) : a = b := by
  obtain ⟨enough, runs⟩ := first
  obtain ⟨enough', runs'⟩ := second
  have same := (runs _ (le_max_left enough enough')).symm.trans (runs' _ (le_max_right _ _))
  exact Option.some.inj same

end EndsWith

/-- Where each item ends with a result, all of them together do. -/
theorem exists_mapM_endsWith {f : ℕ → α → Option β} {R : α → β → Prop} {items : List α}
    (each : ∀ item ∈ items, ∃ result, EndsWith (fun fuel => f fuel item) result ∧ R item result) :
    ∃ results, EndsWith (fun fuel => items.mapM (f fuel)) results ∧
      List.Forall₂ R items results := by
  induction items with
  | nil => exact ⟨[], .pure [], .nil⟩
  | cons first rest ih =>
    obtain ⟨here, later⟩ := List.forall_mem_cons.mp each
    obtain ⟨result, ends, holds⟩ := here
    obtain ⟨results, endsRest, holdsRest⟩ := ih later
    refine ⟨result :: results, ?_, .cons holds holdsRest⟩
    simp only [List.mapM_cons]
    exact ends.bind (endsRest.bind (.pure _))

/-- Where more fuel keeps every result, it keeps the results of a list. -/
theorem mapM_kept {f : ℕ → α → Option β} {fuel : ℕ}
    (kept : ∀ item result, f fuel item = some result → f (fuel + 1) item = some result)
    {items : List α} {results : List β} (found : items.mapM (f fuel) = some results) :
    items.mapM (f (fuel + 1)) = some results := by
  induction items generalizing results with
  | nil => exact found
  | cons first rest ih =>
    rw [List.mapM_cons] at found ⊢
    obtain ⟨result, here, found⟩ := Option.bind_eq_some_iff.mp found
    obtain ⟨others, later, same⟩ := Option.bind_eq_some_iff.mp found
    rw [kept first result here, ih later]
    exact same

end FlOp.Library.Fallible
