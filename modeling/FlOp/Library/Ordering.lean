import Mathlib.Data.Finset.Basic
import Mathlib.Data.Finset.Dedup
import Mathlib.Data.List.Sort
import Mathlib.Order.Lex

/-! # Sorting and iterating finite collections

Sorting is stable insertion by a key. A finite set has no order of its own: `sorted` lists it
in increasing order, and `SetOrder` names an iteration order of which nothing is known except
that it visits every member once.
-/

namespace FlOp.Library

variable {α β : Type*}

/-- Sort by a key; items with equal keys keep their order. -/
def sortBy [LinearOrder β] (key : α → β) (items : List α) : List α :=
  items.insertionSort fun a b => key a ≤ key b

section SortBy

variable [LinearOrder β] (key : α → β) (items : List α)

theorem perm_sortBy : (sortBy key items).Perm items :=
  List.perm_insertionSort _ items

@[simp] theorem mem_sortBy {item : α} : item ∈ sortBy key items ↔ item ∈ items :=
  (perm_sortBy key items).mem_iff

/-- Keys never decrease along a sorted list. -/
theorem pairwise_sortBy : (sortBy key items).Pairwise fun a b => key a ≤ key b := by
  have total : Std.Total fun a b : α => key a ≤ key b := ⟨fun a b => le_total (key a) (key b)⟩
  have trans : IsTrans α fun a b => key a ≤ key b := ⟨fun _ _ _ => le_trans⟩
  exact List.pairwise_insertionSort _ items

/-- Sorting by the items themselves forgets the order they came in. -/
theorem sortBy_id_eq_of_perm [LinearOrder α] {items others : List α} (same : others.Perm items) :
    sortBy id others = sortBy id items := by
  refine List.Perm.eq_of_pairwise (fun a b _ _ => le_antisymm) (pairwise_sortBy id others)
    (pairwise_sortBy id items) ?_
  exact ((perm_sortBy id others).trans same).trans (perm_sortBy id items).symm

theorem nodup_sortBy (nodup : items.Nodup) : (sortBy key items).Nodup :=
  (perm_sortBy key items).nodup_iff.mpr nodup

end SortBy

/-- A running best that an item with an equal key replaces. -/
def betterBy [LinearOrder β] (key : α → β) : Option α → α → α
  | none, item => item
  | some held, item => if key held ≤ key item then item else held

/-- The last item with the greatest key. -/
def lastMaxBy [LinearOrder β] (key : α → β) (items : List α) : Option α :=
  items.foldl (fun best item => some (betterBy key best item)) none

section LastMaxBy

variable [LinearOrder β] {key : α → β} {items : List α}

theorem lastMaxBy_concat (items : List α) (last : α) :
    lastMaxBy key (items ++ [last]) = some (betterBy key (lastMaxBy key items) last) := by
  rw [lastMaxBy, List.foldl_append]
  rfl

theorem lastMaxBy_eq_none : lastMaxBy key items = none ↔ items = [] := by
  rcases List.eq_nil_or_concat' items with rfl | ⟨before, last, rfl⟩
  · exact iff_of_true rfl rfl
  · rw [lastMaxBy_concat]
    exact iff_of_false (Option.some_ne_none _) (List.append_ne_nil_of_right_ne_nil _ (by simp))

/-- The item found is listed, and no key is greater than its own. -/
theorem mem_of_lastMaxBy {best : α} (found : lastMaxBy key items = some best) :
    best ∈ items ∧ ∀ item ∈ items, key item ≤ key best := by
  induction items using List.reverseRecOn generalizing best with
  | nil => cases found
  | append_singleton before last ih =>
    rw [lastMaxBy_concat, Option.some.injEq] at found
    subst found
    simp only [List.mem_append, List.mem_singleton, or_imp, forall_and, forall_eq]
    cases held : lastMaxBy key before with
    | none =>
      rw [lastMaxBy_eq_none] at held
      subst held
      exact ⟨Or.inr rfl, fun item absurd => (List.not_mem_nil absurd).elim, le_refl _⟩
    | some best =>
      obtain ⟨member, greatest⟩ := ih held
      rw [betterBy]
      split
      · next replaced =>
        exact ⟨Or.inr rfl, fun item listed => (greatest item listed).trans replaced, le_rfl⟩
      · next kept => exact ⟨Or.inl member, greatest, (lt_of_not_ge kept).le⟩

/-- A last item that no key exceeds is found. -/
theorem lastMaxBy_concat_of_le {last : α} (greatest : ∀ item ∈ items, key item ≤ key last) :
    lastMaxBy key (items ++ [last]) = some last := by
  rw [lastMaxBy_concat]
  cases held : lastMaxBy key items with
  | none => rfl
  | some best => rw [betterBy, if_pos (greatest best (mem_of_lastMaxBy held).1)]

end LastMaxBy

/-- The first item with the greatest key. -/
def firstMaxBy [LinearOrder β] (key : α → β) : List α → Option α
  | [] => none
  | item :: rest =>
    match firstMaxBy key rest with
    | none => some item
    | some best => if key item < key best then some best else some item

theorem isSome_firstMaxBy [LinearOrder β] (key : α → β) {items : List α} (nonempty : items ≠ []) :
    (firstMaxBy key items).isSome := by
  cases items with
  | nil => exact absurd rfl nonempty
  | cons item rest =>
    unfold firstMaxBy
    cases firstMaxBy key rest with
    | none => rfl
    | some best =>
      dsimp only
      split_ifs <;> rfl

theorem mem_of_firstMaxBy [LinearOrder β] {key : α → β} {items : List α} {best : α}
    (found : firstMaxBy key items = some best) : best ∈ items := by
  induction items with
  | nil => cases found
  | cons item rest ih =>
    unfold firstMaxBy at found
    cases later : firstMaxBy key rest with
    | none =>
      rw [later] at found
      exact Option.some.inj found ▸ List.mem_cons_self
    | some other =>
      simp only [later] at found
      split_ifs at found
      · exact List.mem_cons_of_mem _ (ih (later.trans found))
      · exact Option.some.inj found ▸ List.mem_cons_self

/-- No item has a greater key. -/
theorem le_of_firstMaxBy [LinearOrder β] {key : α → β} {items : List α} {best : α}
    (found : firstMaxBy key items = some best) : ∀ item ∈ items, key item ≤ key best := by
  induction items generalizing best with
  | nil => cases found
  | cons item rest ih =>
    unfold firstMaxBy at found
    intro other member
    cases later : firstMaxBy key rest with
    | none =>
      have empty : rest = [] := by
        by_contra nonempty
        simpa [later] using isSome_firstMaxBy key nonempty
      rw [later] at found
      obtain rfl := Option.some.inj found
      rw [empty, List.mem_singleton] at member
      exact (congrArg key member).le
    | some greatest =>
      simp only [later] at found
      rcases List.mem_cons.mp member with rfl | inRest
      · split_ifs at found with less
        · exact Option.some.inj found ▸ less.le
        · exact Option.some.inj found ▸ le_rfl
      · split_ifs at found with less
        · exact Option.some.inj found ▸ ih later other inRest
        · exact Option.some.inj found ▸ (ih later other inRest).trans (not_lt.mp less)

/-- An item added at the end takes over only with a greater key. -/
theorem firstMaxBy_concat [LinearOrder β] (key : α → β) (items : List α) (last : α) :
    firstMaxBy key (items ++ [last]) =
      match firstMaxBy key items with
      | none => some last
      | some best => if key best < key last then some last else some best := by
  induction items with
  | nil => rfl
  | cons item rest ih =>
    rw [List.cons_append, firstMaxBy, firstMaxBy, ih]
    cases found : firstMaxBy key rest with
    | none => rfl
    | some best =>
      dsimp only
      by_cases higher : key best < key last
      · by_cases first : key item < key best
        · simp [higher, first, first.trans higher]
        · simp [higher, first]
      · by_cases first : key item < key best
        · simp [higher, first]
        · have lower : ¬ key item < key last := fun less =>
            higher ((not_lt.mp first).trans_lt less)
          simp [higher, first, lower]

section Extremes

variable [LinearOrder α] {l : List α} {a : α}

/-- Lists whose elements are bounded below by those of the other have the same least element. -/
theorem min?_eq_min? {m : List α} (left : ∀ a ∈ l, ∃ b ∈ m, b ≤ a)
    (right : ∀ b ∈ m, ∃ a ∈ l, a ≤ b) : l.min? = m.min? := by
  cases found : m.min? with
  | none =>
    rw [List.min?_eq_none_iff] at found ⊢
    refine List.eq_nil_iff_forall_not_mem.mpr fun a member => ?_
    obtain ⟨b, inside, -⟩ := left a member
    simp [found] at inside
  | some low =>
    obtain ⟨member, least⟩ := List.min?_eq_some_iff.mp found
    obtain ⟨a, inside, le⟩ := right low member
    obtain ⟨b, other, below⟩ := left a inside
    obtain rfl : a = low := le_antisymm le ((least b other).trans below)
    refine List.min?_eq_some_iff.mpr ⟨inside, fun c held => ?_⟩
    obtain ⟨d, lower, under⟩ := left c held
    exact (least d lower).trans under

/-- Lists whose elements are bounded above by those of the other have the same greatest element. -/
theorem max?_eq_max? {m : List α} (left : ∀ a ∈ l, ∃ b ∈ m, a ≤ b)
    (right : ∀ b ∈ m, ∃ a ∈ l, b ≤ a) : l.max? = m.max? := by
  cases found : m.max? with
  | none =>
    rw [List.max?_eq_none_iff] at found ⊢
    refine List.eq_nil_iff_forall_not_mem.mpr fun a member => ?_
    obtain ⟨b, inside, -⟩ := left a member
    simp [found] at inside
  | some high =>
    obtain ⟨member, greatest⟩ := List.max?_eq_some_iff.mp found
    obtain ⟨a, inside, le⟩ := right high member
    obtain ⟨b, other, above⟩ := left a inside
    obtain rfl : a = high := le_antisymm (above.trans (greatest b other)) le
    refine List.max?_eq_some_iff.mpr ⟨inside, fun c held => ?_⟩
    obtain ⟨d, upper, under⟩ := left c held
    exact under.trans (greatest d upper)

/-- The least element, with a default for none, is at most any element. -/
theorem min?_getD_le (default : α) (member : a ∈ l) : l.min?.getD default ≤ a := by
  cases found : l.min? with
  | none => simp [List.min?_eq_none_iff.mp found] at member
  | some low => exact (List.min?_eq_some_iff.mp found).2 a member

/-- The greatest element, with a default for none, is at least any element. -/
theorem le_max?_getD (default : α) (member : a ∈ l) : a ≤ l.max?.getD default := by
  cases found : l.max? with
  | none => simp [List.max?_eq_none_iff.mp found] at member
  | some high => exact (List.max?_eq_some_iff.mp found).2 a member

theorem min?_getD_eq (default : α) (member : a ∈ l) (least : ∀ b ∈ l, a ≤ b) :
    l.min?.getD default = a := by
  rw [List.min?_eq_some_iff.mpr ⟨member, least⟩]
  rfl

theorem max?_getD_eq (default : α) (member : a ∈ l) (greatest : ∀ b ∈ l, b ≤ a) :
    l.max?.getD default = a := by
  rw [List.max?_eq_some_iff.mpr ⟨member, greatest⟩]
  rfl

theorem min?_getD_mem (default : α) (nonempty : l ≠ []) : l.min?.getD default ∈ l := by
  cases found : l.min? with
  | none => exact absurd (List.min?_eq_none_iff.mp found) nonempty
  | some low => exact List.min?_mem found

theorem max?_getD_mem (default : α) (nonempty : l ≠ []) : l.max?.getD default ∈ l := by
  cases found : l.max? with
  | none => exact absurd (List.max?_eq_none_iff.mp found) nonempty
  | some high => exact List.max?_mem found

/-- The least element does not exceed the greatest one. -/
theorem min?_getD_le_max?_getD (l : List α) (default : α) :
    l.min?.getD default ≤ l.max?.getD default := by
  rcases l with _ | ⟨first, rest⟩
  · exact le_refl default
  · exact (min?_getD_le default List.mem_cons_self).trans (le_max?_getD default List.mem_cons_self)

end Extremes

/-- What holds between neighbours and is transitive holds between any two in order. -/
theorem pairwise_of_neighbours {R : α → α → Prop} (trans : ∀ {a b c}, R a b → R b c → R a c)
    {l : List α} (neighbours : ∀ step ∈ l.zip l.tail, R step.1 step.2) : l.Pairwise R := by
  induction l with
  | nil => exact List.Pairwise.nil
  | cons first rest ih =>
    cases rest with
    | nil => exact List.pairwise_singleton R first
    | cons second rest =>
      have next : R first second := neighbours (first, second) List.mem_cons_self
      have later := ih fun step member => neighbours step (List.mem_cons_of_mem _ member)
      refine List.pairwise_cons.mpr ⟨fun other member => ?_, later⟩
      rcases List.mem_cons.mp member with rfl | inRest
      · exact next
      · exact trans next ((List.pairwise_cons.mp later).1 other inRest)

section Sorted

variable [LinearOrder α]

private theorem insertionSort_eq_of_perm {l₁ l₂ : List α} (same : l₁.Perm l₂) :
    l₁.insertionSort (· ≤ ·) = l₂.insertionSort (· ≤ ·) :=
  sortBy_id_eq_of_perm same

/-- The members of a finite set in increasing order. -/
def sorted (s : Finset α) : List α :=
  Quot.liftOn s.val (fun l => l.insertionSort (· ≤ ·)) fun _ _ => insertionSort_eq_of_perm

private theorem coe_sorted (s : Finset α) : (sorted s : Multiset α) = s.val := by
  obtain ⟨⟨l⟩, nodup⟩ := s
  exact Quot.sound (List.perm_insertionSort _ l)

@[simp] theorem mem_sorted {s : Finset α} {a : α} : a ∈ sorted s ↔ a ∈ s := by
  rw [← Multiset.mem_coe, coe_sorted, Finset.mem_val]

theorem nodup_sorted (s : Finset α) : (sorted s).Nodup := by
  rw [← Multiset.coe_nodup, coe_sorted]
  exact s.nodup

@[simp] theorem sorted_eq_nil {s : Finset α} : sorted s = [] ↔ s = ∅ := by
  rw [← Multiset.coe_eq_zero, coe_sorted, Finset.val_eq_zero]

theorem pairwise_sorted (s : Finset α) : (sorted s).Pairwise (· < ·) := by
  have le : (sorted s).Pairwise (· ≤ ·) := by
    obtain ⟨⟨l⟩, nodup⟩ := s
    exact List.pairwise_insertionSort (· ≤ ·) l
  exact (le.and (nodup_sorted s)).imp fun {a b} ordered => lt_of_le_of_ne ordered.1 ordered.2

/-- An increasing list of a set's members is the set in increasing order. -/
theorem sorted_eq {s : Finset α} {l : List α} (increasing : l.Pairwise (· < ·))
    (members : ∀ a, a ∈ s ↔ a ∈ l) : sorted s = l := by
  have nodup : l.Nodup := increasing.imp fun less => less.ne
  have same : (sorted s).Perm l := by
    rw [List.perm_ext_iff_of_nodup (nodup_sorted s) nodup]
    exact fun a => mem_sorted.trans (members a)
  refine List.Perm.eq_of_pairwise ?_ (pairwise_sorted s) increasing same
  exact fun a b _ _ less greater => absurd (less.trans greater) (lt_irrefl a)

/-- Nothing lies between two neighbours of an increasing list. -/
theorem between_of_neighbours {l : List α} (increasing : l.Pairwise (· < ·)) {a b : α}
    (neighbours : (a, b) ∈ l.zip l.tail) :
    a ∈ l ∧ b ∈ l ∧ a < b ∧ ∀ c ∈ l, c ≤ a ∨ b ≤ c := by
  induction l with
  | nil => cases neighbours
  | cons first rest ih =>
    rw [List.pairwise_cons] at increasing
    obtain ⟨least, later⟩ := increasing
    cases rest with
    | nil => cases neighbours
    | cons second rest =>
      rw [List.tail_cons, List.zip_cons_cons] at neighbours
      rcases List.mem_cons.mp neighbours with same | behind
      · obtain ⟨rfl, rfl⟩ := Prod.mk.inj same
        have ahead := least b List.mem_cons_self
        refine ⟨List.mem_cons_self, List.mem_cons_of_mem _ List.mem_cons_self, ahead, ?_⟩
        intro c member
        rcases List.mem_cons.mp member with rfl | inRest
        · exact .inl le_rfl
        · rcases List.mem_cons.mp inRest with rfl | inTail
          · exact .inr le_rfl
          · exact .inr (le_of_lt ((List.pairwise_cons.mp later).1 c inTail))
      · obtain ⟨aInside, bInside, ordered, between⟩ := ih later behind
        refine ⟨List.mem_cons_of_mem _ aInside, List.mem_cons_of_mem _ bInside, ordered, ?_⟩
        intro c member
        rcases List.mem_cons.mp member with rfl | inRest
        · exact .inl (le_of_lt (least a aInside))
        · exact between c inRest

end Sorted

/-- An iteration order for finite sets: each member once, in an unspecified order. -/
structure SetOrder (α : Type*) where
  toList : Finset α → List α
  nodup : ∀ s, (toList s).Nodup
  mem : ∀ s a, a ∈ toList s ↔ a ∈ s

attribute [simp] SetOrder.mem

/-- Increasing order is one possible iteration order. -/
def SetOrder.increasing [LinearOrder α] : SetOrder α where
  toList := sorted
  nodup := nodup_sorted
  mem _ _ := mem_sorted

end FlOp.Library
