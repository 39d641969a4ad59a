import FlOp.Library.Ordering
import Mathlib.Data.List.Nodup
import Mathlib.Data.List.Perm.Basic

/-! # Insertion-ordered dictionaries

A dictionary keeps its entries in the order in which their keys first arrived; writing a key
again replaces its value in place. Every dictionary carries the proof that its keys are
distinct, so a lookup and a scan of the entries cannot disagree.
-/

namespace FlOp.Library

/-- Texts in pairs and paths of texts are compared lawfully. -/
instance lawfulBEq_pair : LawfulBEq (String × String) := inferInstance

instance lawfulBEq_path : LawfulBEq (List String) := inferInstance

/-- Entries in insertion order, one for each key. -/
structure Dict (κ ν : Type*) where
  entries : List (κ × ν)
  nodupKeys : (entries.map Prod.fst).Nodup
deriving DecidableEq, Repr

namespace Dict

variable {κ ν α β : Type*} [DecidableEq κ]

/-- Replace the value of a present key in place; append a new key at the end. -/
def setEntries (k : κ) (v : ν) : List (κ × ν) → List (κ × ν)
  | [] => [(k, v)]
  | entry :: rest => if entry.1 = k then (k, v) :: rest else entry :: setEntries k v rest

private theorem mem_keys_setEntries (k : κ) (v : ν) (entries : List (κ × ν)) (key : κ) :
    key ∈ (setEntries k v entries).map Prod.fst ↔ key = k ∨ key ∈ entries.map Prod.fst := by
  induction entries with
  | nil => simp [setEntries]
  | cons entry rest ih =>
    unfold setEntries
    split
    · rename_i same
      simp only [List.map_cons, List.mem_cons, same]
      tauto
    · simp only [List.map_cons, List.mem_cons, ih]
      tauto

private theorem nodup_setEntries (k : κ) (v : ν) {entries : List (κ × ν)}
    (nodup : (entries.map Prod.fst).Nodup) : ((setEntries k v entries).map Prod.fst).Nodup := by
  induction entries with
  | nil => simp [setEntries]
  | cons entry rest ih =>
    rw [List.map_cons, List.nodup_cons] at nodup
    unfold setEntries
    split
    · rename_i same
      rw [List.map_cons, List.nodup_cons]
      exact ⟨same ▸ nodup.1, nodup.2⟩
    · rename_i other
      rw [List.map_cons, List.nodup_cons]
      refine ⟨fun member => ?_, ih nodup.2⟩
      rcases (mem_keys_setEntries k v rest entry.1).mp member with same | old
      · exact other same
      · exact nodup.1 old

/-- The dictionary without entries. -/
def empty : Dict κ ν := ⟨[], List.nodup_nil⟩

/-- Write one key. -/
def set (d : Dict κ ν) (k : κ) (v : ν) : Dict κ ν :=
  ⟨setEntries k v d.entries, nodup_setEntries k v d.nodupKeys⟩

/-- The value stored for a key. -/
def get? (d : Dict κ ν) (k : κ) : Option ν :=
  (d.entries.find? fun entry => entry.1 = k).map Prod.snd

/-- The value stored for a key, or the given default. -/
def getD (d : Dict κ ν) (k : κ) (default : ν) : ν :=
  (d.get? k).getD default

def keys (d : Dict κ ν) : List κ := d.entries.map Prod.fst

def values (d : Dict κ ν) : List ν := d.entries.map Prod.snd

/-- Append to the list kept under a key, starting an empty one for a new key. -/
def push (d : Dict κ (List ν)) (k : κ) (v : ν) : Dict κ (List ν) :=
  d.set k (d.getD k [] ++ [v])

/-- Drop a key, if it is there. -/
def erase (d : Dict κ ν) (k : κ) : Dict κ ν :=
  ⟨d.entries.filter fun entry => entry.1 ≠ k, d.nodupKeys.sublist (List.filter_sublist.map _)⟩

/-- A dictionary comprehension: later elements replace earlier ones of the same key. -/
def collect (key : α → κ) (value : α → ν) (items : List α) : Dict κ ν :=
  items.foldl (fun d item => d.set (key item) (value item)) empty

/-- Keep the entries that pass a test. -/
def filter (d : Dict κ ν) (keep : κ × ν → Bool) : Dict κ ν :=
  ⟨d.entries.filter keep, d.nodupKeys.sublist (List.filter_sublist.map _)⟩

/-- The same keys with other values. -/
def mapValues (d : Dict κ ν) (f : ν → α) : Dict κ α :=
  ⟨d.entries.map fun entry => (entry.1, f entry.2), by
    rw [List.map_map]
    exact d.nodupKeys⟩

/-- Write every entry of another dictionary. -/
def update (d other : Dict κ ν) : Dict κ ν :=
  other.entries.foldl (fun written entry => written.set entry.1 entry.2) d

/-- Group the items by key, keys in order of first appearance and items in list order. -/
def groupBy (key : α → κ) (value : α → ν) (items : List α) : Dict κ (List ν) :=
  items.foldl (fun d item => d.push (key item) (value item)) empty

/-- The same entries in the order of their keys. -/
def sortKeys [LinearOrder κ] (d : Dict κ ν) : Dict κ ν :=
  ⟨sortBy Prod.fst d.entries,
    ((perm_sortBy Prod.fst d.entries).map Prod.fst).nodup_iff.mpr d.nodupKeys⟩

@[simp] theorem get?_empty (k : κ) : (empty : Dict κ ν).get? k = none := rfl

omit [DecidableEq κ] in
@[simp] theorem keys_empty : (empty : Dict κ ν).keys = [] := rfl

theorem find?_setEntries (k : κ) (v : ν) (entries : List (κ × ν)) (key : κ) :
    ((setEntries k v entries).find? fun entry => entry.1 = key).map Prod.snd =
      if key = k then some v else (entries.find? fun entry => entry.1 = key).map Prod.snd := by
  induction entries with
  | nil =>
    by_cases same : key = k
    · simp [setEntries, same]
    · simp [setEntries, same, Ne.symm same]
  | cons entry rest ih =>
    unfold setEntries
    by_cases head : entry.1 = k
    · rw [if_pos head]
      by_cases same : key = k
      · simp [same]
      · have skipped : ¬ entry.1 = key := fun equal => same (equal.symm.trans head)
        simp [same, Ne.symm same, skipped]
    · rw [if_neg head]
      by_cases found : entry.1 = key
      · have differs : ¬ key = k := fun equal => head (found.trans equal)
        simp [found, differs]
      · simpa [found] using ih

theorem get?_set (d : Dict κ ν) (k : κ) (v : ν) (key : κ) :
    (d.set k v).get? key = if key = k then some v else d.get? key :=
  find?_setEntries k v d.entries key

theorem getD_set (d : Dict κ ν) (k : κ) (v : ν) (key : κ) (default : ν) :
    (d.set k v).getD key default = if key = k then v else d.getD key default := by
  unfold getD
  rw [get?_set]
  split <;> rfl

/-- A lookup succeeds exactly on the stored entries. -/
theorem get?_eq_some_iff (d : Dict κ ν) (k : κ) (v : ν) :
    d.get? k = some v ↔ (k, v) ∈ d.entries := by
  obtain ⟨entries, nodup⟩ := d
  simp only [get?]
  induction entries with
  | nil => simp
  | cons entry rest ih =>
    rw [List.map_cons, List.nodup_cons] at nodup
    by_cases same : entry.1 = k
    · have absent : (k, v) ∉ rest := fun member =>
        nodup.1 (same ▸ List.mem_map.mpr ⟨(k, v), member, rfl⟩)
      simp [same, absent, Prod.ext_iff, eq_comm]
    · have differs : (k, v) ≠ entry := fun equal => same (congrArg Prod.fst equal).symm
      simp [same, differs, ih nodup.2]

@[simp] theorem get?_sortKeys [LinearOrder κ] (d : Dict κ ν) (k : κ) :
    d.sortKeys.get? k = d.get? k := by
  ext v
  rw [get?_eq_some_iff, get?_eq_some_iff]
  exact mem_sortBy _ _

@[simp] theorem get?_mapValues (d : Dict κ ν) (f : ν → α) (k : κ) :
    (d.mapValues f).get? k = (d.get? k).map f := by
  rw [get?, get?, mapValues, List.find?_map, Option.map_map, Option.map_map]
  rfl

omit [DecidableEq κ] in
/-- A dictionary without entries is the empty one. -/
theorem eq_empty_of_isEmpty {d : Dict κ ν} (none : d.entries.isEmpty = true) : d = empty := by
  obtain ⟨entries, nodup⟩ := d
  obtain rfl : entries = [] := List.isEmpty_iff.mp none
  rfl

/-- The values are those that a lookup finds. -/
theorem mem_values_iff (d : Dict κ ν) (v : ν) : v ∈ d.values ↔ ∃ k, d.get? k = some v := by
  simp only [get?_eq_some_iff, values, List.mem_map, Prod.exists, exists_eq_right]

theorem mem_keys_iff (d : Dict κ ν) (k : κ) : k ∈ d.keys ↔ (d.get? k).isSome := by
  rw [Option.isSome_iff_exists]
  simp only [get?_eq_some_iff, keys, List.mem_map, Prod.exists, exists_and_right, exists_eq_right]

theorem mem_keys_set (d : Dict κ ν) (k : κ) (v : ν) (key : κ) :
    key ∈ (d.set k v).keys ↔ key = k ∨ key ∈ d.keys :=
  mem_keys_setEntries k v d.entries key

/-- Values that are a function of the key tell the entries. -/
theorem entries_eq_map {d : Dict κ ν} {value : κ → ν}
    (stored : ∀ k ∈ d.keys, d.get? k = some (value k)) :
    d.entries = d.keys.map fun k => (k, value k) := by
  rw [keys, List.map_map]
  refine (List.map_id _).symm.trans (List.map_congr_left fun entry member => ?_)
  have found := stored entry.1 (List.mem_map_of_mem member)
  have located := (d.get?_eq_some_iff entry.1 entry.2).mpr member
  rw [located] at found
  exact Prod.ext rfl (Option.some.inj found)

private theorem get?_foldl_set (key : α → κ) (value : α → ν) (items : List α) (d : Dict κ ν)
    (k : κ) :
    (items.foldl (fun d item => d.set (key item) (value item)) d).get? k =
      ((items.reverse.find? fun item => key item = k).map value).or (d.get? k) := by
  induction items generalizing d with
  | nil => simp
  | cons item rest ih =>
    rw [List.foldl_cons, ih, List.reverse_cons, List.find?_append, get?_set]
    cases rest.reverse.find? fun item => key item = k with
    | some later => simp
    | none =>
      by_cases same : key item = k
      · simp [same]
      · simp [same, Ne.symm same]

/-- A comprehension maps each key to the value of the last item that has it. -/
theorem get?_collect (key : α → κ) (value : α → ν) (items : List α) (k : κ) :
    (collect key value items).get? k =
      (items.reverse.find? fun item => key item = k).map value := by
  rw [collect, get?_foldl_set, get?_empty, Option.or_none]

theorem collect_map (key : α → κ) (value : α → ν) (f : β → α) (items : List β) :
    collect key value (items.map f) = collect (key ∘ f) (value ∘ f) items := by
  rw [collect, List.foldl_map]
  rfl

/-- A comprehension over items of different keys holds each of them. -/
theorem get?_collect_of_mem {key : α → κ} {value : α → ν} {items : List α}
    (nodup : (items.map key).Nodup) {item : α} (member : item ∈ items) :
    (collect key value items).get? (key item) = some (value item) := by
  rw [get?_collect]
  cases found : items.reverse.find? fun other => key other = key item with
  | none =>
    have absent := List.find?_eq_none.mp found item (List.mem_reverse.mpr member)
    exact absurd (decide_eq_true rfl) absent
  | some other =>
    have same : key other = key item := by simpa using List.find?_some found
    have listed := List.mem_reverse.mp (List.mem_of_find?_eq_some found)
    rw [List.inj_on_of_nodup_map nodup listed member same]
    rfl

/-- Every value a comprehension holds comes from an item with that key. -/
theorem exists_of_get?_collect {key : α → κ} {value : α → ν} {items : List α} {k : κ} {v : ν}
    (found : (collect key value items).get? k = some v) :
    ∃ item ∈ items, key item = k ∧ value item = v := by
  rw [get?_collect, Option.map_eq_some_iff] at found
  obtain ⟨item, located, rfl⟩ := found
  refine ⟨item, List.mem_reverse.mp (List.mem_of_find?_eq_some located), ?_, rfl⟩
  simpa using List.find?_some located

/-- A comprehension over pairs of different keys holds exactly these pairs. -/
theorem get?_collect_eq_some_iff {items : List (κ × ν)} (nodup : (items.map Prod.fst).Nodup)
    (k : κ) (v : ν) : (collect Prod.fst Prod.snd items).get? k = some v ↔ (k, v) ∈ items := by
  constructor
  · intro found
    obtain ⟨item, member, rfl, rfl⟩ := exists_of_get?_collect found
    exact member
  · intro member
    exact get?_collect_of_mem nodup member

/-- A comprehension has exactly the keys of its items. -/
theorem isSome_get?_collect (key : α → κ) (value : α → ν) (items : List α) (k : κ) :
    ((collect key value items).get? k).isSome ↔ ∃ item ∈ items, key item = k := by
  rw [get?_collect, Option.isSome_map, List.find?_isSome]
  simp

/-- A lookup succeeds among the kept entries exactly if the stored entry passes the test. -/
theorem get?_filter_eq_some_iff (d : Dict κ ν) (keep : κ × ν → Bool) (k : κ) (v : ν) :
    (d.filter keep).get? k = some v ↔ d.get? k = some v ∧ keep (k, v) = true := by
  rw [get?_eq_some_iff, get?_eq_some_iff]
  exact List.mem_filter

/-- Steps that write a key write the same value to it, if they write one, so the last of them does
not matter. -/
theorem get?_foldl_step {step : Dict κ ν → α → Dict κ ν} (hit : α → Prop) [DecidablePred hit]
    (value : Option ν) {k : κ} {items : List α}
    (steps : ∀ item ∈ items, ∀ d : Dict κ ν,
      (step d item).get? k = if hit item then value.or (d.get? k) else d.get? k)
    (d : Dict κ ν) :
    (items.foldl step d).get? k =
      if ∃ item ∈ items, hit item then value.or (d.get? k) else d.get? k := by
  induction items generalizing d with
  | nil => simp
  | cons item rest ih =>
    obtain ⟨first, later⟩ := List.forall_mem_cons.mp steps
    rw [List.foldl_cons, ih later, first]
    by_cases hits : hit item
    · have some : ∃ other ∈ item :: rest, hit other := ⟨item, List.mem_cons_self, hits⟩
      rw [if_pos hits, if_pos some]
      split
      · rw [← Option.or_assoc, Option.or_self]
      · rfl
    · simp [hits]

/-- Writing what each key chooses, if it chooses something. -/
theorem get?_foldl_choose (choose : κ → Option ν) (keys : List κ) (d : Dict κ ν) (k : κ) :
    (keys.foldl (fun d key => (choose key).elim d (d.set key)) d).get? k =
      if k ∈ keys then (choose k).or (d.get? k) else d.get? k := by
  refine (get?_foldl_step (· = k) (choose k) ?_ d).trans (by simp)
  intro key _ d
  cases chosen : choose key with
  | none =>
    split
    · next same => rw [← same, chosen]; rfl
    · rfl
  | some v =>
    rw [Option.elim_some, get?_set]
    split
    · next same =>
      subst same
      rw [if_pos rfl, chosen]
      rfl
    · next other => rw [if_neg (Ne.symm other)]

/-- Steps that each rewrite the value of one key, all keys different, rewrite each value once. -/
theorem getD_foldl_rewrite {step : Dict κ ν → α → Dict κ ν} (key : α → κ) (rewrite : α → ν → ν)
    {default : ν} {items : List α} (nodup : (items.map key).Nodup)
    (steps : ∀ item ∈ items, ∀ (d : Dict κ ν) (k : κ), (step d item).getD k default =
      if k = key item then rewrite item (d.getD k default) else d.getD k default)
    (d : Dict κ ν) :
    (∀ item ∈ items, (items.foldl step d).getD (key item) default =
      rewrite item (d.getD (key item) default)) ∧
    ∀ k ∉ items.map key, (items.foldl step d).getD k default = d.getD k default := by
  induction items generalizing d with
  | nil => simp
  | cons first rest ih =>
    rw [List.map_cons, List.nodup_cons] at nodup
    obtain ⟨head, later⟩ := List.forall_mem_cons.mp steps
    obtain ⟨rewritten, kept⟩ := ih nodup.2 later (step d first)
    constructor
    · intro item member
      rw [List.foldl_cons]
      rcases List.mem_cons.mp member with rfl | inRest
      · rw [kept _ nodup.1, head, if_pos rfl]
      · have other : key item ≠ key first := fun same =>
          nodup.1 (List.mem_map.mpr ⟨item, inRest, same⟩)
        rw [rewritten item inRest, head, if_neg other]
    · intro k absent
      rw [List.map_cons, List.mem_cons, not_or] at absent
      rw [List.foldl_cons, kept k absent.2, head, if_neg absent.1]

omit [DecidableEq κ] in
/-- Steps that write present keys only keep the keys. -/
theorem mem_keys_foldl {step : Dict κ ν → α → Dict κ ν} (key : α → κ) {items : List α}
    (steps : ∀ item ∈ items, ∀ d : Dict κ ν, key item ∈ d.keys →
      ∀ k, k ∈ (step d item).keys ↔ k ∈ d.keys)
    {d : Dict κ ν} (present : ∀ item ∈ items, key item ∈ d.keys) (k : κ) :
    k ∈ (items.foldl step d).keys ↔ k ∈ d.keys := by
  induction items generalizing d with
  | nil => exact Iff.rfl
  | cons first rest ih =>
    obtain ⟨head, later⟩ := List.forall_mem_cons.mp steps
    obtain ⟨here, others⟩ := List.forall_mem_cons.mp present
    have next := ih later fun item member => (head d here _).mpr (others item member)
    exact next.trans (head d here k)

/-- Steps over the entries of a dictionary that each act on one key act on every key once. -/
theorem read_foldl_entries {σ ω : Type*} (read : σ → κ → ω) {step : σ → κ × ν → σ}
    (combine : κ → ω → ν → ω)
    (steps : ∀ s entry k, read (step s entry) k =
      if entry.1 = k then combine k (read s k) entry.2 else read s k)
    (other : Dict κ ν) (s : σ) (k : κ) :
    read (other.entries.foldl step s) k =
      (other.get? k).elim (read s k) (combine k (read s k)) := by
  obtain ⟨entries, nodup⟩ := other
  rw [get?]
  dsimp only
  induction entries generalizing s with
  | nil => rfl
  | cons entry rest ih =>
    rw [List.map_cons, List.nodup_cons] at nodup
    rw [List.foldl_cons, ih _ nodup.2, steps]
    by_cases same : entry.1 = k
    · subst same
      have absent : (rest.find? fun other => other.1 = entry.1) = none := by
        rw [List.find?_eq_none]
        intro other member equal
        exact nodup.1 (List.mem_map.mpr ⟨other, member, of_decide_eq_true equal⟩)
      simp [absent]
    · simp [same]

theorem get?_update (d other : Dict κ ν) (k : κ) :
    (d.update other).get? k = (other.get? k).or (d.get? k) := by
  have written : ∀ (d : Dict κ ν) (entry : κ × ν) (k : κ), (d.set entry.1 entry.2).get? k =
      if entry.1 = k then some entry.2 else d.get? k := by
    intro d entry k
    rw [get?_set]
    exact if_congr eq_comm rfl rfl
  rw [update, read_foldl_entries get? (fun _ _ v => some v) written]
  cases other.get? k <;> rfl

/-- Lists appended key by key, where the key is one to keep. -/
theorem getD_foldl_append (keep : κ → Prop) [DecidablePred keep] (d other : Dict κ (List ν))
    (k : κ) :
    (other.entries.foldl (fun d entry =>
      if keep entry.1 then d.set entry.1 (d.getD entry.1 [] ++ entry.2) else d) d).getD k [] =
      d.getD k [] ++ if keep k then other.getD k [] else [] := by
  have steps : ∀ (d : Dict κ (List ν)) (entry : κ × List ν) (k : κ),
      (if keep entry.1 then d.set entry.1 (d.getD entry.1 [] ++ entry.2) else d).getD k [] =
        if entry.1 = k then d.getD k [] ++ (if keep k then entry.2 else []) else d.getD k [] := by
    intro d entry k
    by_cases same : entry.1 = k
    · subst same
      by_cases kept : keep entry.1
      · simp [kept, getD_set]
      · simp [kept]
    · by_cases kept : keep entry.1
      · simp [kept, same, getD_set, Ne.symm same]
      · simp [kept, same]
  refine (read_foldl_entries (fun d k => d.getD k [])
    (fun k found more => found ++ if keep k then more else []) steps other d k).trans ?_
  rw [getD.eq_1 other]
  cases other.get? k with
  | none => simp
  | some more => rfl

/-- A new key is written at the end. -/
theorem entries_set_of_not_mem {d : Dict κ ν} {k : κ} (fresh : k ∉ d.keys) (v : ν) :
    (d.set k v).entries = d.entries ++ [(k, v)] := by
  have appended : ∀ entries : List (κ × ν), k ∉ entries.map Prod.fst →
      setEntries k v entries = entries ++ [(k, v)] := by
    intro entries
    induction entries with
    | nil => exact fun _ => rfl
    | cons entry rest ih =>
      intro absent
      rw [List.map_cons, List.mem_cons, not_or] at absent
      rw [setEntries, if_neg (Ne.symm absent.1), ih absent.2, List.cons_append]
  exact appended d.entries fresh

/-- New keys are written at the end, in their order. -/
theorem entries_update_of_disjoint {d other : Dict κ ν}
    (fresh : ∀ k ∈ other.keys, k ∉ d.keys) :
    (d.update other).entries = d.entries ++ other.entries := by
  obtain ⟨entries, nodup⟩ := other
  rw [update]
  simp only [keys] at fresh
  induction entries generalizing d with
  | nil => exact (List.append_nil _).symm
  | cons entry rest ih =>
    rw [List.map_cons, List.nodup_cons] at nodup
    rw [List.map_cons, List.forall_mem_cons] at fresh
    rw [List.foldl_cons, ih nodup.2, entries_set_of_not_mem fresh.1, List.append_assoc,
      List.singleton_append]
    intro k member stored
    rcases (mem_keys_set d _ _ k).mp stored with rfl | old
    · exact nodup.1 member
    · exact fresh.2 k member old

theorem getD_push (d : Dict κ (List ν)) (k : κ) (v : ν) (key : κ) :
    (d.push k v).getD key [] = if key = k then d.getD key [] ++ [v] else d.getD key [] := by
  unfold push getD
  rw [get?_set]
  by_cases same : key = k
  · subst same
    simp
  · simp [same]

/-- What the lists hold after one is written was written or held before. -/
theorem mem_flatten_set {d : Dict κ (List ν)} {k : κ} {written : List ν} {v : ν}
    (member : v ∈ (d.set k written).values.flatten) : v ∈ written ∨ v ∈ d.values.flatten := by
  obtain ⟨group, listed, inside⟩ := List.mem_flatten.mp member
  obtain ⟨⟨key, _⟩, entry, rfl⟩ := List.mem_map.mp listed
  have found := ((d.set k written).get?_eq_some_iff key _).mpr entry
  rw [get?_set] at found
  split_ifs at found with same
  · cases found
    exact .inl inside
  · refine .inr (List.mem_flatten.mpr ⟨_, List.mem_map.mpr ⟨_, ?_, rfl⟩, inside⟩)
    exact (d.get?_eq_some_iff key _).mp found

/-- A list looked up with an element in it is one of the values. -/
theorem getD_mem_values {d : Dict κ (List ν)} {k : κ} {v : ν} (member : v ∈ d.getD k []) :
    d.getD k [] ∈ d.values := by
  unfold getD at member ⊢
  cases found : d.get? k with
  | none =>
    rw [found] at member
    exact absurd member List.not_mem_nil
  | some group => exact List.mem_map.mpr ⟨_, (d.get?_eq_some_iff k group).mp found, rfl⟩

/-- Pushing adds one element to the contents of the lists. -/
theorem perm_flatten_push (d : Dict κ (List ν)) (k : κ) (v : ν) :
    (d.push k v).values.flatten.Perm (v :: d.values.flatten) := by
  obtain ⟨entries, nodup⟩ := d
  simp only [push, set, values, getD, get?]
  clear nodup
  induction entries with
  | nil => simp [setEntries]
  | cons entry rest ih =>
    unfold setEntries
    by_cases head : entry.1 = k
    · simp only [head, if_pos, List.find?_cons, decide_true, Option.map_some, Option.getD_some,
        List.map_cons, List.flatten_cons, List.append_assoc, List.singleton_append]
      exact List.perm_middle
    · simp only [head, if_neg, List.find?_cons, decide_false, List.map_cons, List.flatten_cons,
        not_false_eq_true]
      exact (ih.append_left entry.2).trans List.perm_middle

/-- Erasing a key removes its list from the contents. -/
theorem perm_flatten_erase (d : Dict κ (List ν)) (k : κ) :
    d.values.flatten.Perm (d.getD k [] ++ (d.erase k).values.flatten) := by
  obtain ⟨entries, nodup⟩ := d
  simp only [erase, values, getD, get?]
  induction entries with
  | nil => simp
  | cons entry rest ih =>
    rw [List.map_cons, List.nodup_cons] at nodup
    by_cases head : entry.1 = k
    · have others : rest.filter (fun other => !decide (other.1 = k)) = rest := by
        rw [List.filter_eq_self]
        intro other member
        rw [Bool.not_eq_true', decide_eq_false_iff_not]
        intro same
        exact nodup.1 (List.mem_map.mpr ⟨other, member, same.trans head.symm⟩)
      simp [head, others]
    · simp only [head, List.find?_cons, decide_false, List.filter_cons, ne_eq, not_false_eq_true,
        decide_true, if_true, List.map_cons, List.flatten_cons]
      refine ((ih nodup.2).append_left entry.2).trans ?_
      rw [← List.append_assoc, ← List.append_assoc]
      exact List.perm_append_comm.append_right _

theorem get?_erase (d : Dict κ ν) (k key : κ) :
    (d.erase k).get? key = if key = k then none else d.get? key := by
  cases found : d.get? key with
  | none =>
    rw [ite_self, Option.eq_none_iff_forall_not_mem]
    intro v stored
    obtain ⟨member, -⟩ := List.mem_filter.mp ((get?_eq_some_iff _ _ _).mp stored)
    rw [(get?_eq_some_iff d key v).mpr member] at found
    cases found
  | some v =>
    have member := (get?_eq_some_iff d key v).mp found
    by_cases same : key = k
    · rw [if_pos same, Option.eq_none_iff_forall_not_mem]
      intro other stored
      obtain ⟨-, kept⟩ := List.mem_filter.mp ((get?_eq_some_iff _ _ _).mp stored)
      exact of_decide_eq_true kept same
    · rw [if_neg same, get?_eq_some_iff]
      exact List.mem_filter.mpr ⟨member, decide_eq_true same⟩

/-- Writing a new key adds its list to the contents. -/
theorem perm_flatten_set {d : Dict κ (List ν)} {k : κ} (absent : d.get? k = none)
    (written : List ν) : (d.set k written).values.flatten.Perm (written ++ d.values.flatten) := by
  obtain ⟨entries, nodup⟩ := d
  simp only [get?, Option.map_eq_none_iff, List.find?_eq_none, decide_eq_true_eq] at absent
  simp only [set, values]
  clear nodup
  induction entries with
  | nil => simp [setEntries]
  | cons entry rest ih =>
    have rest' := ih fun other member => absent other (List.mem_cons_of_mem _ member)
    rw [setEntries, if_neg (absent entry List.mem_cons_self), List.map_cons, List.flatten_cons,
      List.map_cons, List.flatten_cons]
    refine (rest'.append_left entry.2).trans ?_
    rw [← List.append_assoc, ← List.append_assoc]
    exact List.perm_append_comm.append_right _

/-- Writing a present key changes no key. -/
theorem keys_set {d : Dict κ ν} {k : κ} (present : k ∈ d.keys) (v : ν) :
    (d.set k v).keys = d.keys := by
  obtain ⟨entries, nodup⟩ := d
  simp only [keys, set] at present ⊢
  clear nodup
  induction entries with
  | nil => cases present
  | cons entry rest ih =>
    unfold setEntries
    split
    · next same => rw [List.map_cons, List.map_cons, same]
    · next other =>
      rw [List.map_cons, List.mem_cons] at present
      rw [List.map_cons, List.map_cons, ih (present.resolve_left (Ne.symm other))]

/-- Writing a new key puts its entry last. -/
theorem entries_set_new {d : Dict κ ν} {k : κ} (absent : k ∉ d.keys) (v : ν) :
    (d.set k v).entries = d.entries ++ [(k, v)] := by
  obtain ⟨entries, nodup⟩ := d
  simp only [keys, set] at absent ⊢
  clear nodup
  induction entries with
  | nil => rfl
  | cons entry rest ih =>
    rw [List.map_cons, List.mem_cons, not_or] at absent
    rw [setEntries, if_neg (Ne.symm absent.1), ih absent.2, List.cons_append]

/-- Writing a new key puts it last. -/
theorem keys_set_new {d : Dict κ ν} {k : κ} (absent : k ∉ d.keys) (v : ν) :
    (d.set k v).keys = d.keys ++ [k] := by
  rw [keys, entries_set_new absent, List.map_append, List.map_singleton, keys]

/-- A comprehension over distinct keys keeps every item in its place. -/
theorem entries_collect {key : α → κ} (value : α → ν) {items : List α}
    (nodup : (items.map key).Nodup) :
    (collect key value items).entries = items.map fun item => (key item, value item) := by
  have written : ∀ d : Dict κ ν, (d.keys ++ items.map key).Nodup →
      (items.foldl (fun d item => d.set (key item) (value item)) d).entries =
        d.entries ++ items.map fun item => (key item, value item) := by
    induction items with
    | nil => exact fun d _ => (List.append_nil _).symm
    | cons item rest ih =>
      intro d distinct
      rw [List.map_cons] at distinct nodup
      have absent : key item ∉ d.keys := fun member =>
        List.disjoint_of_nodup_append distinct member List.mem_cons_self
      rw [List.foldl_cons, ih (List.nodup_cons.mp nodup).2, entries_set_new absent, List.map_cons,
        List.append_assoc, List.singleton_append]
      rw [keys_set_new absent, List.append_assoc, List.singleton_append]
      exact distinct
  exact written empty nodup

/-- A comprehension over the entries of a dictionary gives it back. -/
theorem collect_entries (d : Dict κ ν) : collect Prod.fst Prod.snd d.entries = d := by
  have same : (collect Prod.fst Prod.snd d.entries).entries = d.entries := by
    rw [entries_collect Prod.snd d.nodupKeys]
    exact List.map_id _
  cases collected : collect Prod.fst Prod.snd d.entries with
  | mk entries nodup =>
    rw [collected] at same
    cases d
    cases same
    rfl

/-- A comprehension over distinct keys has them in their order. -/
theorem keys_collect_id (value : κ → ν) {items : List κ} (nodup : items.Nodup) :
    (collect id value items).keys = items := by
  rw [keys, entries_collect value (by rwa [List.map_id]), List.map_map]
  exact List.map_id _

/-- Empty lists hold nothing. -/
theorem flatten_collect_nil (key : α → κ) (items : List α) :
    (collect key (fun _ => ([] : List ν)) items).values.flatten = [] := by
  rw [List.flatten_eq_nil_iff]
  intro group listed
  obtain ⟨⟨k, _⟩, entry, rfl⟩ := List.mem_map.mp listed
  obtain ⟨_, -, -, same⟩ := exists_of_get?_collect ((get?_eq_some_iff _ k _).mpr entry)
  exact same.symm

/-- Looking up every key gives the values. -/
theorem map_getD_keys (d : Dict κ ν) (default : ν) :
    d.keys.map (d.getD · default) = d.values := by
  rw [keys, values, List.map_map]
  apply List.map_congr_left
  intro entry member
  rw [Function.comp_apply, getD, (get?_eq_some_iff d entry.1 entry.2).mpr member]
  rfl

/-- An element of the contents has one key, if the contents have no duplicates. -/
theorem eq_of_mem_lists {d : Dict κ (List ν)} (nodup : d.values.flatten.Nodup) {k key : κ}
    {group other : List ν} {v : ν} (found : d.get? k = some group) (member : v ∈ group)
    (foundOther : d.get? key = some other) (memberOther : v ∈ other) : k = key := by
  obtain ⟨entries, nodupKeys⟩ := d
  rw [get?_eq_some_iff] at found foundOther
  simp only [values] at nodup found foundOther
  clear nodupKeys
  induction entries with
  | nil => cases found
  | cons entry rest ih =>
    rw [List.map_cons, List.flatten_cons] at nodup
    have apart := List.disjoint_of_nodup_append nodup
    rcases List.mem_cons.mp found with rfl | later
    · rcases List.mem_cons.mp foundOther with same | laterOther
      · exact (congrArg Prod.fst same).symm
      · exact absurd (List.mem_flatten.mpr ⟨other, List.mem_map.mpr ⟨_, laterOther, rfl⟩,
          memberOther⟩) (apart member)
    · rcases List.mem_cons.mp foundOther with rfl | laterOther
      · exact absurd (List.mem_flatten.mpr ⟨group, List.mem_map.mpr ⟨_, later, rfl⟩, member⟩)
          (apart memberOther)
      · exact ih nodup.of_append_right later laterOther

/-- An element of the contents is in the list of some key. -/
theorem exists_of_mem_flatten {d : Dict κ (List ν)} {v : ν} (member : v ∈ d.values.flatten) :
    ∃ k group, d.get? k = some group ∧ v ∈ group := by
  obtain ⟨group, listed, inside⟩ := List.mem_flatten.mp member
  obtain ⟨⟨k, _⟩, entry, rfl⟩ := List.mem_map.mp listed
  exact ⟨k, _, (d.get?_eq_some_iff k _).mpr entry, inside⟩

private theorem getD_foldl_push (key : α → κ) (value : α → ν) (items : List α)
    (d : Dict κ (List ν)) (k : κ) :
    (items.foldl (fun d item => d.push (key item) (value item)) d).getD k [] =
      d.getD k [] ++ (items.filter fun item => key item = k).map value := by
  induction items generalizing d with
  | nil => simp
  | cons item rest ih =>
    rw [List.foldl_cons, ih, getD_push]
    by_cases same : key item = k
    · simp [same]
    · simp [same, Ne.symm same]

/-- Grouping collects, for each key, the values of its items in list order. -/
theorem getD_groupBy (key : α → κ) (value : α → ν) (items : List α) (k : κ) :
    (groupBy key value items).getD k [] = (items.filter fun item => key item = k).map value := by
  rw [groupBy, getD_foldl_push]
  simp [getD]

private theorem mem_keys_foldl_push (key : α → κ) (value : α → ν) (items : List α)
    (d : Dict κ (List ν)) (k : κ) :
    k ∈ (items.foldl (fun d item => d.push (key item) (value item)) d).keys ↔
      k ∈ d.keys ∨ ∃ item ∈ items, key item = k := by
  induction items generalizing d with
  | nil => simp
  | cons item rest ih =>
    have pushed : k ∈ (d.push (key item) (value item)).keys ↔ key item = k ∨ k ∈ d.keys := by
      rw [mem_keys_iff, mem_keys_iff, push, get?_set]
      by_cases same : k = key item
      · simp [same]
      · simp [same, Ne.symm same]
    rw [List.foldl_cons, ih, pushed]
    simp only [List.mem_cons, exists_eq_or_imp]
    tauto

/-- A grouping holds the values of its items. -/
theorem perm_flatten_groupBy (key : α → κ) (value : α → ν) (items : List α) :
    (groupBy key value items).values.flatten.Perm (items.map value) := by
  have pushed : ∀ d : Dict κ (List ν),
      (items.foldl (fun d item => d.push (key item) (value item)) d).values.flatten.Perm
        (items.map value ++ d.values.flatten) := by
    induction items with
    | nil => exact fun d => .refl _
    | cons item rest ih =>
      intro d
      refine (ih _).trans (((perm_flatten_push d _ _).append_left _).trans ?_)
      exact List.perm_middle
  refine (pushed empty).trans (.of_eq ?_)
  simp [values, empty]

/-- A grouping has exactly the keys of its items. -/
theorem mem_keys_groupBy (key : α → κ) (value : α → ν) (items : List α) (k : κ) :
    k ∈ (groupBy key value items).keys ↔ ∃ item ∈ items, key item = k := by
  rw [groupBy, mem_keys_foldl_push]
  simp

/-- Each entry of a grouping lists the values of the items with its key. -/
theorem mem_entries_groupBy {key : α → κ} {value : α → ν} {items : List α} {k : κ}
    {group : List ν} (member : (k, group) ∈ (groupBy key value items).entries) :
    group = (items.filter fun item => key item = k).map value := by
  have found := ((groupBy key value items).get?_eq_some_iff k group).mpr member
  rw [← getD_groupBy, getD, found, Option.getD_some]

end Dict

end FlOp.Library
