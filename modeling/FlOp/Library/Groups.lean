import FlOp.Library.Dict
import FlOp.Library.Fallible
import Mathlib.Algebra.Order.BigOperators.Group.List
import Mathlib.Data.Finset.Card
import Mathlib.Data.List.ProdSigma
import Mathlib.Tactic.Ring

/-! # Counting

Counts kept in a dictionary, pairs counted by rows or by columns, and the two ways of counting a
list compared: bounds that hold item by item are met together exactly if each of them is.
-/

namespace FlOp.Library

variable {κ α β : Type*}

section Counters

variable [DecidableEq κ]

/-- Add to the count of a key. -/
def Dict.bump (d : Dict κ ℕ) (k : κ) (n : ℕ) : Dict κ ℕ := d.set k (d.getD k 0 + n)

theorem Dict.getD_bump (d : Dict κ ℕ) (k : κ) (n : ℕ) (key : κ) :
    (d.bump k n).getD key 0 = d.getD key 0 + if key = k then n else 0 := by
  rw [bump, getD_set]
  split_ifs with same
  · rw [same]
  · rfl

/-- Adding to the counts of a list of keys. -/
theorem Dict.getD_foldl_bump (n : ℕ) (keys : List κ) (d : Dict κ ℕ) (key : κ) :
    (keys.foldl (fun d k => d.bump k n) d).getD key 0 = d.getD key 0 + n * keys.count key := by
  induction keys generalizing d with
  | nil => rfl
  | cons first rest ih =>
    rw [List.foldl_cons, ih, getD_bump, List.count_cons]
    by_cases same : first = key
    · simp only [same, if_pos, beq_self_eq_true]
      ring
    · rw [if_neg (Ne.symm same), if_neg (by simpa using same)]
      rfl

end Counters

/-- Pairs counted column by column. -/
theorem countP_product (p : α × β → Bool) (rows : List α) (columns : List β) :
    (rows ×ˢ columns).countP p =
      (columns.map fun column => rows.countP fun row => p (row, column)).sum := by
  induction rows with
  | nil => simp
  | cons row rest ih =>
    rw [List.product_cons, List.countP_append, ih, List.countP_map]
    clear ih
    induction columns with
    | nil => rfl
    | cons column others ih =>
      rw [List.countP_cons, List.map_cons, List.map_cons, List.sum_cons, List.sum_cons,
        List.countP_cons, ← ih, Function.comp_apply]
      omega

/-- Sums with bounds that hold item by item are equal exactly if the items are. -/
theorem sum_eq_sum_iff_of_le {f g : α → ℕ} {items : List α} (le : ∀ a ∈ items, f a ≤ g a) :
    (items.map f).sum = (items.map g).sum ↔ ∀ a ∈ items, f a = g a := by
  induction items with
  | nil => simp
  | cons first rest ih =>
    obtain ⟨here, later⟩ := List.forall_mem_cons.mp le
    have below := List.sum_le_sum later
    rw [List.forall_mem_cons, ← ih later, List.map_cons, List.map_cons, List.sum_cons,
      List.sum_cons]
    omega

/-- A stronger test counts as many items exactly if it is no stronger on them. -/
theorem countP_eq_countP_iff_of_imp {p q : α → Bool} {items : List α}
    (imp : ∀ a ∈ items, p a → q a) :
    items.countP p = items.countP q ↔ ∀ a ∈ items, q a → p a := by
  induction items with
  | nil => simp
  | cons first rest ih =>
    obtain ⟨here, later⟩ := List.forall_mem_cons.mp imp
    have below := List.countP_mono_left later
    rw [List.forall_mem_cons, ← ih later, List.countP_cons, List.countP_cons]
    cases strong : p first <;> cases weak : q first
    · simp
    · simp only [Bool.false_eq_true, if_false, if_true, imp_false, not_true, false_and, iff_false]
      omega
    · exact absurd (here strong) (by simp [weak])
    · simp

/-- A test that cannot fail filters. -/
theorem selectM_eq_filter {test : α → Option Bool} {keeps : α → Bool} {items : List α}
    (total : ∀ item ∈ items, test item = some (keeps item)) :
    Fallible.selectM test items = some (items.filter keeps) := by
  induction items with
  | nil => rfl
  | cons first rest ih =>
    obtain ⟨here, later⟩ := List.forall_mem_cons.mp total
    rw [Fallible.selectM, here, ih later, List.filter_cons]
    rfl

theorem isSome_selectM {test : α → Option Bool} {items : List α} :
    (Fallible.selectM test items).isSome ↔ ∀ item ∈ items, (test item).isSome := by
  induction items with
  | nil => simp [Fallible.selectM]
  | cons first rest ih =>
    rw [List.forall_mem_cons, ← ih, Fallible.selectM]
    cases test first <;> simp

end FlOp.Library

/-! # Groups of a list in the order of their keys

Grouping by a key and listing the groups by increasing keys partitions a list: every item is in the
group of its key, later groups have larger keys, and within a group the items keep their order.
-/

namespace FlOp.Library

variable {α κ : Type*} [LinearOrder κ] {key : α → κ} {items : List α}

/-- The groups of a list, by increasing keys. -/
def groups (key : α → κ) (items : List α) : List (List α) :=
  (Dict.groupBy key id items).sortKeys.values

/-- The items of one key. -/
def groupOf (key : α → κ) (items : List α) (k : κ) : List α := items.filter fun item => key item = k

/-- The keys of a list, in increasing order. -/
def sortedKeys (key : α → κ) (items : List α) : List κ :=
  (Dict.groupBy key id items).sortKeys.keys

theorem mem_sortedKeys {k : κ} : k ∈ sortedKeys key items ↔ ∃ item ∈ items, key item = k := by
  rw [sortedKeys, Dict.mem_keys_iff, Dict.get?_sortKeys, ← Dict.mem_keys_iff,
    Dict.mem_keys_groupBy]

theorem pairwise_sortedKeys : (sortedKeys key items).Pairwise (· < ·) := by
  have sorted : (sortedKeys key items).Pairwise (· ≤ ·) :=
    (pairwise_sortBy Prod.fst _).map _ fun _ _ le => le
  exact sorted.imp₂ (fun _ _ le other => lt_of_le_of_ne le other)
    (Dict.groupBy key id items).sortKeys.nodupKeys

/-- The groups are those of the keys. -/
theorem groups_eq : groups key items = (sortedKeys key items).map (groupOf key items) := by
  have stored : ∀ k ∈ (Dict.groupBy key id items).sortKeys.keys,
      (Dict.groupBy key id items).sortKeys.get? k = some (groupOf key items k) := by
    intro k member
    rw [Dict.mem_keys_iff, Dict.get?_sortKeys, Option.isSome_iff_exists] at member
    obtain ⟨group, found⟩ := member
    rw [Dict.get?_sortKeys, found, groupOf,
      Dict.mem_entries_groupBy ((Dict.get?_eq_some_iff _ _ _).mp found), List.map_id]
  rw [groups, Dict.values, Dict.entries_eq_map stored, List.map_map]
  rfl

theorem mem_groupOf {k : κ} {item : α} :
    item ∈ groupOf key items k ↔ item ∈ items ∧ key item = k := by
  rw [groupOf, List.mem_filter, decide_eq_true_iff]

/-- The group of an item's key has a last item. -/
theorem exists_getLast?_groupOf {item : α} (member : item ∈ items) :
    ∃ other, (groupOf key items (key item)).getLast? = some other := by
  have inside : item ∈ groupOf key items (key item) := mem_groupOf.mpr ⟨member, rfl⟩
  cases shape : groupOf key items (key item) with
  | nil => simp [shape] at inside
  | cons head rest => exact ⟨_, List.getLast?_eq_some_getLast (List.cons_ne_nil head rest)⟩

/-- Every item is in the group of its key. -/
theorem groupOf_mem_groups {item : α} (member : item ∈ items) :
    groupOf key items (key item) ∈ groups key items := by
  rw [groups_eq]
  exact List.mem_map_of_mem (mem_sortedKeys.mpr ⟨item, member, rfl⟩)

theorem exists_of_mem_groups {group : List α} (member : group ∈ groups key items) :
    ∃ item ∈ items, group = groupOf key items (key item) := by
  rw [groups_eq] at member
  obtain ⟨k, listed, rfl⟩ := List.mem_map.mp member
  obtain ⟨item, inside, rfl⟩ := mem_sortedKeys.mp listed
  exact ⟨item, inside, rfl⟩

/-- Later groups have larger keys. -/
theorem pairwise_groups : (groups key items).Pairwise fun earlier later =>
    ∀ a ∈ earlier, ∀ b ∈ later, key a < key b := by
  rw [groups_eq, List.pairwise_map]
  refine pairwise_sortedKeys.imp fun less a inFirst b inSecond => ?_
  rw [(mem_groupOf.mp inFirst).2, (mem_groupOf.mp inSecond).2]
  exact less

/-- There are no more groups than keys. -/
theorem length_groups_le {keys : Finset κ} (inside : ∀ item ∈ items, key item ∈ keys) :
    (groups key items).length ≤ keys.card := by
  have nodup : (sortedKeys key items).Nodup := pairwise_sortedKeys.imp ne_of_lt
  rw [groups_eq, List.length_map, ← List.toFinset_card_of_nodup nodup]
  refine Finset.card_le_card fun k member => ?_
  obtain ⟨item, listed, rfl⟩ := mem_sortedKeys.mp (List.mem_toFinset.mp member)
  exact inside item listed

/-- The groups hold every item once. -/
theorem perm_flatten_groups : (groups key items).flatten.Perm items := by
  have entries := (perm_sortBy Prod.fst (Dict.groupBy key id items).entries).map Prod.snd
  have grouped := Dict.perm_flatten_groupBy key id items
  rw [List.map_id] at grouped
  exact entries.flatten.trans grouped

/-- An item with the least key is in the first group. -/
theorem head?_groups {first : α} (member : first ∈ items)
    (least : ∀ item ∈ items, key first ≤ key item) :
    (groups key items).head? = some (groupOf key items (key first)) := by
  have listed : key first ∈ sortedKeys key items := mem_sortedKeys.mpr ⟨first, member, rfl⟩
  rw [groups_eq, List.head?_map]
  cases shape : sortedKeys key items with
  | nil =>
    rw [shape] at listed
    cases listed
  | cons k rest =>
    have increasing : (sortedKeys key items).Pairwise (· < ·) := pairwise_sortedKeys
    rw [shape] at listed increasing
    obtain ⟨item, inside, same⟩ := mem_sortedKeys.mp (shape ▸ List.mem_cons_self : k ∈ _)
    rcases List.mem_cons.mp listed with rfl | later
    · rfl
    · have below := List.rel_of_pairwise_cons increasing later
      exact absurd (least item inside) (by rw [same]; exact not_le.mpr below)

end FlOp.Library
