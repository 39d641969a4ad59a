import FlOp.Library.Fallible
import Mathlib.Data.List.Duplicate
import Mathlib.Data.List.Forall2
import Mathlib.Data.List.Perm.Subperm

/-! # Generators that can fail

A generator yields items and may end in an error. A loop over it handles what is yielded first: an
error of the loop's own body comes before the one that ends the generator.
-/

namespace FlOp.Library

variable {ε α β : Type*}

/-- What a generator yields, and the error that ends it, if any. -/
structure Yielded (ε α : Type*) where
  items : List α
  failure : Option ε

namespace Yielded

/-- A loop over what is yielded. -/
def forEach (yielded : Yielded ε α) (step : β → α → Except ε β) (init : β) : Except ε β :=
  (yielded.items.foldlM step init).bind fun result =>
    match yielded.failure with
    | none => .ok result
    | some error => .error error

/-- A loop that appends one result for every item. -/
def collect (yielded : Yielded ε α) (f : α → Except ε β) : Except ε (List β) :=
  yielded.forEach (fun results item => (f item).map fun result => results ++ [result]) []

/-- What is yielded, after something else. -/
def after (yielded : Yielded ε α) (earlier : List α) : Yielded ε α :=
  { yielded with items := earlier ++ yielded.items }

theorem forEach_eq_ok {yielded : Yielded ε α} {step : β → α → Except ε β} {init result : β} :
    yielded.forEach step init = .ok result ↔
      yielded.failure = none ∧ yielded.items.foldlM step init = .ok result := by
  rw [forEach, Fallible.bind_eq_ok]
  cases yielded.failure with
  | none => simp
  | some error => simp

/-- Appending results one by one maps the items. -/
theorem foldlM_append_eq_ok {f : α → Except ε β} {items : List α} {earlier results : List β} :
    items.foldlM (fun results item => (f item).map fun result => results ++ [result]) earlier =
      .ok results ↔ ∃ own, items.mapM f = .ok own ∧ results = earlier ++ own := by
  induction items generalizing earlier with
  | nil =>
    constructor
    · intro run
      obtain rfl := Except.ok.inj run
      exact ⟨[], rfl, (List.append_nil _).symm⟩
    · rintro ⟨own, run, rfl⟩
      obtain rfl := Except.ok.inj run
      rw [List.reverse_nil, List.append_nil]
      rfl
  | cons item rest ih =>
    rw [List.foldlM_cons, List.mapM_cons]
    constructor
    · intro run
      obtain ⟨extended, first, later⟩ := Fallible.bind_eq_ok.mp run
      obtain ⟨result, made, rfl⟩ := Fallible.map_eq_ok.mp first
      obtain ⟨own, mapped, rfl⟩ := ih.mp later
      refine ⟨result :: own, ?_, by rw [List.append_assoc, List.singleton_append]⟩
      exact Fallible.bind_eq_ok.mpr ⟨result, made, Fallible.bind_eq_ok.mpr ⟨own, mapped, rfl⟩⟩
    · rintro ⟨all, run, rfl⟩
      obtain ⟨result, made, later⟩ := Fallible.bind_eq_ok.mp run
      obtain ⟨own, mapped, same⟩ := Fallible.bind_eq_ok.mp later
      obtain rfl := Except.ok.inj same
      refine Fallible.bind_eq_ok.mpr ⟨earlier ++ [result], ?_, ih.mpr ⟨own, mapped, ?_⟩⟩
      · exact Fallible.map_eq_ok.mpr ⟨result, made, rfl⟩
      · rw [List.append_assoc, List.singleton_append]

/-- A loop collects exactly if the generator ends without error and every item has a result. -/
theorem collect_eq_ok {yielded : Yielded ε α} {f : α → Except ε β} {results : List β} :
    yielded.collect f = .ok results ↔
      yielded.failure = none ∧ yielded.items.mapM f = .ok results := by
  rw [collect, forEach_eq_ok, foldlM_append_eq_ok]
  simp

end Yielded

end FlOp.Library

/-! # Named entries

A list of named fields is listed once by a list of named entries if every field has an entry of its
own and its name is that of no other entry.
-/

namespace FlOp.Library

variable {N T : Type*} {fields entries : List (N × T)}

/-- Every field has an entry of its own, and no other entry has its name. -/
structure ListsOnce (fields entries : List (N × T)) : Prop where
  listed : fields.Subperm entries
  once : ∀ field ∈ fields, ¬ List.Duplicate field.1 (entries.map Prod.fst)

namespace ListsOnce

theorem mem_entries (lists : ListsOnce fields entries) {field : N × T} (member : field ∈ fields) :
    field ∈ entries :=
  lists.listed.subset member

/-- The names of fields that are listed once are distinct. -/
theorem nodup (lists : ListsOnce fields entries) : (fields.map Prod.fst).Nodup := by
  classical
  rw [List.nodup_iff_forall_not_duplicate]
  intro name twice
  obtain ⟨field, member, rfl⟩ := List.mem_map.mp twice.mem
  have own := lists.once field member
  rw [List.duplicate_iff_two_le_count] at own twice
  obtain ⟨part, perm, sub⟩ := lists.listed
  rw [← (perm.map Prod.fst).count_eq] at twice
  exact own (Nat.le_trans twice ((sub.map Prod.fst).count_le field.1))

/-- The only entry with a field's name is the field. -/
theorem eq_of_mem (lists : ListsOnce fields entries) {field entry : N × T}
    (member : field ∈ fields) (listed : entry ∈ entries) (same : entry.1 = field.1) :
    entry = field := by
  by_contra other
  refine lists.once field member ?_
  have held := lists.mem_entries member
  obtain ⟨before, after, rfl⟩ := List.append_of_mem held
  rw [List.map_append, List.map_cons, List.duplicate_iff_sublist]
  rcases List.mem_append.mp listed with early | late
  · have first : [field.1].Sublist (before.map Prod.fst) :=
      List.singleton_sublist.mpr (List.mem_map.mpr ⟨entry, early, same⟩)
    exact first.append (List.singleton_sublist.mpr List.mem_cons_self)
  · rcases List.mem_cons.mp late with here | later
    · exact absurd here other
    · have second : [field.1].Sublist (after.map Prod.fst) :=
        List.singleton_sublist.mpr (List.mem_map.mpr ⟨entry, later, same⟩)
      exact (List.Sublist.cons_cons field.1 second).trans (List.sublist_append_right _ _)

/-- Fields with distinct names are listed once before entries of other names. -/
theorem of_append {others : List (N × T)} (distinct : (fields.map Prod.fst).Nodup)
    (apart : ∀ other ∈ others, other.1 ∉ fields.map Prod.fst) :
    ListsOnce fields (fields ++ others) where
  listed := (List.sublist_append_left _ _).subperm
  once field member twice := by
    classical
    have inside : (fields.map Prod.fst).count field.1 ≤ 1 :=
      List.nodup_iff_count_le_one.mp distinct field.1
    have outside : (others.map Prod.fst).count field.1 = 0 := by
      refine List.count_eq_zero_of_not_mem fun listed => ?_
      obtain ⟨other, held, same⟩ := List.mem_map.mp listed
      exact apart other held (same ▸ List.mem_map_of_mem member)
    rw [List.duplicate_iff_two_le_count, List.map_append, List.count_append] at twice
    omega

theorem perm {others : List (N × T)} (lists : ListsOnce fields entries)
    (same : entries.Perm others) : ListsOnce fields others where
  listed := lists.listed.trans same.subperm
  once field member twice := by
    classical
    rw [List.duplicate_iff_two_le_count, ← (same.map Prod.fst).count_eq,
      ← List.duplicate_iff_two_le_count] at twice
    exact lists.once field member twice

/-- Entries beside fields that are listed once have other names. -/
theorem apart {others : List (N × T)} (lists : ListsOnce fields (fields ++ others)) :
    ∀ other ∈ others, other.1 ∉ fields.map Prod.fst := by
  intro other held inside
  obtain ⟨field, member, same⟩ := List.mem_map.mp inside
  refine lists.once field member ?_
  rw [List.duplicate_iff_sublist, List.map_append]
  have first : [field.1].Sublist (fields.map Prod.fst) :=
    List.singleton_sublist.mpr (List.mem_map_of_mem member)
  have second : [field.1].Sublist (others.map Prod.fst) :=
    List.singleton_sublist.mpr (List.mem_map.mpr ⟨other, held, same.symm⟩)
  exact first.append second

end ListsOnce

/-- Fields list themselves once exactly if their names are distinct. -/
theorem listsOnce_self_iff : ListsOnce fields fields ↔ (fields.map Prod.fst).Nodup := by
  refine ⟨ListsOnce.nodup, fun distinct => ⟨List.Subperm.refl _, fun field _ twice => ?_⟩⟩
  exact twice.not_nodup distinct

/-! ## Choosing from a list -/

namespace Listing

/-- Choosing fewer items, and smaller ones, from the same list. -/
theorem sublistForall₂_filterMap {R : β → β → Prop} {fewer more : α → Option β}
    (related : ∀ a b, fewer a = some b → ∃ c, more a = some c ∧ R b c) (items : List α) :
    List.SublistForall₂ R (items.filterMap fewer) (items.filterMap more) := by
  induction items with
  | nil => exact .nil
  | cons a rest ih =>
    rw [List.filterMap_cons, List.filterMap_cons]
    cases chosen : fewer a with
    | none =>
      cases more a with
      | none => exact ih
      | some c => exact .cons_right ih
    | some b =>
      obtain ⟨c, chosenToo, smaller⟩ := related a b chosen
      rw [chosenToo]
      exact .cons smaller ih

theorem sublist_filterMap {fewer more : α → Option β}
    (related : ∀ a b, fewer a = some b → more a = some b) (items : List α) :
    (items.filterMap fewer).Sublist (items.filterMap more) := by
  obtain ⟨_, same, sublist⟩ := List.sublistForall₂_iff.mp
    (sublistForall₂_filterMap (fun a b chosen => ⟨b, related a b chosen, rfl⟩) items)
  rw [List.forall₂_eq_eq_eq] at same
  exact same ▸ sublist

/-- Of a list without repetition one item is chosen alone exactly if no other passes. -/
theorem filter_eq_singleton_iff {test : α → Bool} {items : List α} (distinct : items.Nodup) {a : α}
    (listed : a ∈ items) (passes : test a = true) :
    items.filter test = [a] ↔ ∀ b ∈ items, b ≠ a → test b = false := by
  constructor
  · intro alone b member differs
    by_contra taken
    have chosen : b ∈ items.filter test :=
      List.mem_filter.mpr ⟨member, Bool.not_eq_false _ ▸ taken⟩
    rw [alone, List.mem_singleton] at chosen
    exact differs chosen
  · intro others
    refine List.perm_singleton.mp ((List.perm_ext_iff_of_nodup (distinct.filter test)
      (List.nodup_singleton a)).mpr fun b => ?_)
    rw [List.mem_filter, List.mem_singleton]
    constructor
    · rintro ⟨member, taken⟩
      by_contra differs
      rw [others b member differs] at taken
      cases taken
    · rintro rfl
      exact ⟨listed, passes⟩

end Listing

end FlOp.Library
