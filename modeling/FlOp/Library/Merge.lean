import FlOp.Library.Dict
import Mathlib.Data.List.Induction

/-! # Merging keyed collections

Lists merge by a key, the first item with a key staying. Dictionaries merge with a rule for the
two values of a shared key, new keys going to the end. Both merges are associative, order of the
result included, so a fold of merges may be bracketed in any way.
-/

namespace FlOp.Library

variable {α κ ν : Type*} [DecidableEq κ]

/-- Append the items of the second list whose key is new. The first list stays as it is. -/
def unionBy (key : α → κ) (primary secondary : List α) : List α :=
  secondary.foldl
    (fun merged item => if key item ∈ merged.map key then merged else merged ++ [item]) primary

section UnionBy

variable (key : α → κ)

@[simp] theorem unionBy_nil (primary : List α) : unionBy key primary [] = primary := rfl

/-- One more item is appended exactly if its key is new. -/
theorem unionBy_append_singleton (primary secondary : List α) (item : α) :
    unionBy key primary (secondary ++ [item]) =
      if key item ∈ (unionBy key primary secondary).map key then unionBy key primary secondary
      else unionBy key primary secondary ++ [item] := by
  rw [unionBy, List.foldl_append]
  rfl

/-- A union has the keys of both lists. -/
theorem mem_keys_unionBy (primary secondary : List α) (k : κ) :
    k ∈ (unionBy key primary secondary).map key ↔
      k ∈ primary.map key ∨ k ∈ secondary.map key := by
  induction secondary using List.reverseRecOn with
  | nil => simp
  | append_singleton rest item ih =>
    rw [unionBy_append_singleton, List.map_append, List.map_singleton, List.mem_append,
      List.mem_singleton, ← or_assoc, ← ih]
    split
    · next present => exact ⟨.inl, fun found => found.elim id fun same => same ▸ present⟩
    · next absent => rw [List.map_append, List.mem_append, List.map_singleton, List.mem_singleton]

/-- Where an item stands in the second list does not matter to what is merged after it. -/
theorem unionBy_assoc (first second third : List α) :
    unionBy key (unionBy key first second) third =
      unionBy key first (unionBy key second third) := by
  induction third using List.reverseRecOn with
  | nil => rfl
  | append_singleton rest item ih =>
    rw [unionBy_append_singleton, unionBy_append_singleton, ih]
    by_cases seen : key item ∈ (unionBy key second rest).map key
    · have inBoth := (mem_keys_unionBy key first (unionBy key second rest) _).mpr (.inr seen)
      rw [if_pos seen, if_pos inBoth]
    · rw [if_neg seen, unionBy_append_singleton]

/-- Items with distinct keys stay as they are. -/
theorem unionBy_of_nodup {items : List α} (distinct : (items.map key).Nodup) :
    unionBy key [] items = items := by
  induction items using List.reverseRecOn with
  | nil => rfl
  | append_singleton rest item ih =>
    rw [List.map_append, List.map_singleton, List.nodup_append] at distinct
    obtain ⟨before, -, apart⟩ := distinct
    rw [unionBy_append_singleton, ih before, if_neg]
    exact fun seen => apart _ seen _ (List.mem_singleton_self _) rfl

end UnionBy

namespace Dict

/-- Write a value; one that is stored already is combined with it. -/
def upsert (combine : ν → ν → ν) (d : Dict κ ν) (k : κ) (v : ν) : Dict κ ν :=
  match d.get? k with
  | none => d.set k v
  | some stored => d.set k (combine stored v)

/-- Write every entry of the other dictionary. -/
def mergeWith (combine : ν → ν → ν) (d other : Dict κ ν) : Dict κ ν :=
  other.entries.foldl (fun merged entry => merged.upsert combine entry.1 entry.2) d

/-- Write the items of a list under their own keys. -/
def collectWith (combine : ν → ν → ν) (key : ν → κ) (items : List ν) : Dict κ ν :=
  items.foldl (fun d item => d.upsert combine (key item) item) empty

/-- The entries are the keys with what a lookup finds. -/
theorem entries_eq_filterMap (d : Dict κ ν) :
    d.entries = d.keys.filterMap fun k => (d.get? k).map (Prod.mk k) := by
  rw [keys, List.filterMap_map]
  calc
    d.entries = d.entries.filterMap some := List.filterMap_some.symm
    _ = _ := List.filterMap_congr fun entry member => by
      simp [(d.get?_eq_some_iff entry.1 entry.2).mpr member]

/-- Dictionaries with the same keys in the same order and the same lookups are equal. -/
theorem ext_get? {d other : Dict κ ν} (keys : d.keys = other.keys)
    (lookups : ∀ k, d.get? k = other.get? k) : d = other := by
  have entries : d.entries = other.entries := by
    rw [entries_eq_filterMap, entries_eq_filterMap other, keys]
    exact List.filterMap_congr fun k _ => by rw [lookups]
  cases d
  cases other
  cases entries
  rfl

/-- The values are what the keys look up. -/
theorem filterMap_get?_keys (d : Dict κ ν) : d.keys.filterMap d.get? = d.values := by
  rw [values, entries_eq_filterMap, List.map_filterMap]
  exact List.filterMap_congr fun k _ => by simp [Option.map_map, Function.comp_def]

/-- Writing what is stored changes nothing. -/
theorem set_of_get? {d : Dict κ ν} {k : κ} {v : ν} (stored : d.get? k = some v) :
    d.set k v = d := by
  have present : k ∈ d.keys := by simp [mem_keys_iff, stored]
  refine ext_get? (keys_set present v) fun key => ?_
  rw [get?_set]
  split
  · next same => rw [same, stored]
  · rfl

section Upsert

variable (combine : ν → ν → ν)

theorem get?_upsert (d : Dict κ ν) (k : κ) (v : ν) (key : κ) :
    (d.upsert combine k v).get? key =
      if key = k then (d.get? k).merge combine (some v) else d.get? key := by
  unfold upsert
  cases found : d.get? k with
  | none => rw [get?_set, Option.merge_none_left]
  | some stored => rw [get?_set, Option.merge_some_some]

theorem keys_upsert (d : Dict κ ν) (k : κ) (v : ν) :
    (d.upsert combine k v).keys = if k ∈ d.keys then d.keys else d.keys ++ [k] := by
  unfold upsert
  cases found : d.get? k with
  | none =>
    have absent : k ∉ d.keys := by simp [mem_keys_iff, found]
    rw [if_neg absent, keys_set_new absent]
  | some stored =>
    have present : k ∈ d.keys := by simp [mem_keys_iff, found]
    rw [if_pos present, keys_set present]

theorem keys_mergeWith (d other : Dict κ ν) :
    (mergeWith combine d other).keys = unionBy id d.keys other.keys := by
  obtain ⟨entries, nodup⟩ := other
  simp only [mergeWith, keys]
  clear nodup
  induction entries using List.reverseRecOn with
  | nil => rfl
  | append_singleton rest entry ih =>
    have step := keys_upsert combine
      (rest.foldl (fun merged entry => merged.upsert combine entry.1 entry.2) d) entry.1 entry.2
    rw [List.foldl_append, List.foldl_cons, List.foldl_nil, List.map_append, List.map_singleton,
      unionBy_append_singleton, ← ih]
    rw [List.map_id]
    exact step.trans (by congr)

theorem get?_mergeWith (d other : Dict κ ν) (k : κ) :
    (mergeWith combine d other).get? k = (d.get? k).merge combine (other.get? k) := by
  have written : ∀ (d : Dict κ ν) (entry : κ × ν) (k : κ),
      (d.upsert combine entry.1 entry.2).get? k =
        if entry.1 = k then (d.get? k).merge combine (some entry.2) else d.get? k := by
    intro d entry k
    rw [get?_upsert]
    by_cases same : entry.1 = k
    · rw [if_pos same, if_pos same.symm, same]
    · rw [if_neg same, if_neg (Ne.symm same)]
  rw [mergeWith, read_foldl_entries get? (fun _ found v => found.merge combine (some v)) written]
  cases other.get? k with
  | none => exact (Option.merge_none_right ..).symm
  | some v => rfl

theorem empty_mergeWith (d : Dict κ ν) : mergeWith combine empty d = d := by
  refine ext_get? ?_ fun k => ?_
  · rw [keys_mergeWith, keys_empty, unionBy_of_nodup]
    rw [List.map_id]
    exact d.nodupKeys
  · rw [get?_mergeWith, get?_empty, Option.merge_none_left]

/-- Writing a list after what a dictionary holds is merging what the list makes. -/
theorem foldl_upsert [Std.Associative combine] (key : ν → κ) (items : List ν) (d : Dict κ ν) :
    items.foldl (fun d item => d.upsert combine (key item) item) d =
      mergeWith combine d (collectWith combine key items) := by
  induction items using List.reverseRecOn with
  | nil => rfl
  | append_singleton rest item ih =>
    have collected : collectWith combine key (rest ++ [item]) =
        (collectWith combine key rest).upsert combine (key item) item := by
      rw [collectWith, List.foldl_append]
      rfl
    rw [List.foldl_append, ih, collected, List.foldl_cons, List.foldl_nil]
    refine ext_get? ?_ fun k => ?_
    · simp only [keys_mergeWith, keys_upsert]
      by_cases seen : key item ∈ (collectWith combine key rest).keys
      · have inBoth := (mem_keys_unionBy id d.keys (collectWith combine key rest).keys
          (key item)).mpr (.inr (by rwa [List.map_id]))
        rw [List.map_id] at inBoth
        rw [if_pos seen, if_pos inBoth]
      · rw [if_neg seen, unionBy_append_singleton, List.map_id, id]
    · simp only [get?_mergeWith, get?_upsert]
      split
      · next same =>
        rw [same]
        exact (Option.associative_merge combine).assoc _ _ _
      · rfl

end Upsert

/-- An update is a merge in which the new value wins. -/
theorem update_eq_mergeWith (d other : Dict κ ν) :
    d.update other = mergeWith (fun _ new => new) d other := by
  have step : ∀ (d : Dict κ ν) k v, d.upsert (fun _ new => new) k v = d.set k v := by
    intro d k v
    unfold upsert
    cases d.get? k <;> rfl
  simp only [update, mergeWith, step]

section Associative

variable {combine : ν → ν → ν} [Std.Associative combine]

theorem mergeWith_assoc (first second third : Dict κ ν) :
    mergeWith combine (mergeWith combine first second) third =
      mergeWith combine first (mergeWith combine second third) := by
  refine ext_get? ?_ fun k => ?_
  · simp only [keys_mergeWith, unionBy_assoc]
  · simp only [get?_mergeWith]
    exact (Option.associative_merge combine).assoc _ _ _

/-- Collecting two lists in turn is merging what each makes. -/
theorem collectWith_append (key : ν → κ) (first second : List ν) :
    collectWith combine key (first ++ second) =
      mergeWith combine (collectWith combine key first) (collectWith combine key second) := by
  rw [collectWith, List.foldl_append, foldl_upsert]
  rfl

theorem update_assoc (first second third : Dict κ ν) :
    (first.update second).update third = first.update (second.update third) := by
  have associative : Std.Associative fun _ new : ν => new := ⟨fun _ _ _ => rfl⟩
  simp only [update_eq_mergeWith]
  exact mergeWith_assoc first second third

end Associative

/-- Every stored item has its key, if combining keeps the key of what was stored. -/
theorem key_of_get?_collectWith {combine : ν → ν → ν} {key : ν → κ}
    (stays : ∀ a b, key a = key b → key (combine a b) = key a) {items : List ν} {k : κ} {v : ν}
    (found : (collectWith combine key items).get? k = some v) : key v = k := by
  induction items using List.reverseRecOn generalizing k v with
  | nil => cases found
  | append_singleton rest item ih =>
    rw [collectWith, List.foldl_append, ← collectWith, List.foldl_cons, List.foldl_nil,
      get?_upsert] at found
    split_ifs at found with same
    · cases stored : (collectWith combine key rest).get? (key item) with
      | none =>
        rw [stored, Option.merge_none_left] at found
        exact Option.some.inj found ▸ same.symm
      | some old =>
        rw [stored, Option.merge_some_some] at found
        have keyOld := ih stored
        rw [← Option.some.inj found, stays old item keyOld, keyOld, same]
    · exact ih found

/-- Collecting the values again changes nothing. -/
theorem collectWith_values {combine : ν → ν → ν} {key : ν → κ}
    (stays : ∀ a b, key a = key b → key (combine a b) = key a) (items : List ν) :
    collectWith combine key (collectWith combine key items).values =
      collectWith combine key items := by
  have keyed : ∀ entry ∈ (collectWith combine key items).entries, key entry.2 = entry.1 :=
    fun entry member => key_of_get?_collectWith stays ((get?_eq_some_iff _ _ _).mpr member)
  calc
    _ = mergeWith combine empty (collectWith combine key items) := by
      rw [collectWith, values, List.foldl_map, mergeWith]
      exact List.foldl_ext _ _ _ fun d entry member => by rw [keyed entry member]
    _ = _ := empty_mergeWith combine _

end Dict

end FlOp.Library
