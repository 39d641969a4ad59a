import FlOp.Library.Dict
import FlOp.Library.Ordering
import Mathlib.Data.String.Basic

/-! # The object store

Objects are addressed by keys, here the segments of their paths below the store's own prefix. A run
counts as published once its commit marker is there; the publisher writes the marker last.
-/

namespace FlOp.Serving

open Library

/-- The segments of a path. -/
abbrev Key := List String

abbrev Bytes := List UInt8

/-- The objects of a store. -/
abbrev Bucket := Dict Key Bytes

/-- Name of the object that makes a run visible. -/
def commitMarker : String := "_COMMITTED"

/-- The keys below a path, in the order of their texts. -/
def listKeys (bucket : Bucket) (base : Key) : List Key :=
  sortBy (fun key => "/".intercalate key)
    (bucket.keys.filter fun key => base.isPrefixOf key ∧ base.length < key.length)

/-- The run a key marks as committed, if it is the marker of a run directly below a path. -/
def markedRun (base key : Key) : Option String :=
  match key.drop base.length with
  | [run, name] => if name = commitMarker then some run else none
  | _ => none

/-- `list_run_ids`: the runs directly below a path that carry a commit marker. -/
def listRunIds (bucket : Bucket) (subdir : Key) : List String :=
  sorted ((listKeys bucket subdir).filterMap (markedRun subdir)).toFinset

/-- The files of a run as puts below the run's path. -/
def filePuts (run : Key) (files : Dict Key Bytes) : List (Key × Bytes) :=
  files.entries.map fun file => (run ++ file.1, file.2)

/-- The puts of `publish_run`, in order: the files of the run and then its marker. -/
def publishRun (run : Key) (files : Dict Key Bytes) : List (Key × Bytes) :=
  filePuts run files ++ [(run ++ [commitMarker], [])]

/-- Perform puts in order. -/
def putAll (bucket : Bucket) (puts : List (Key × Bytes)) : Bucket :=
  puts.foldl (fun bucket put => bucket.set put.1 put.2) bucket

theorem mem_listKeys {bucket : Bucket} {base key : Key} :
    key ∈ listKeys bucket base ↔ key ∈ bucket.keys ∧ ∃ rel, rel ≠ [] ∧ key = base ++ rel := by
  simp only [listKeys, mem_sortBy, List.mem_filter, decide_eq_true_eq, List.isPrefixOf_iff_prefix,
    and_congr_right_iff]
  intro _
  constructor
  · rintro ⟨⟨rel, rfl⟩, longer⟩
    refine ⟨rel, ?_, rfl⟩
    rintro rfl
    simp at longer
  · rintro ⟨rel, below, rfl⟩
    have positive : 0 < rel.length := List.length_pos_iff.mpr below
    exact ⟨⟨rel, rfl⟩, by rw [List.length_append]; omega⟩

/-- A run is listed exactly if its marker is stored. -/
theorem mem_listRunIds {bucket : Bucket} {subdir : Key} {run : String} :
    run ∈ listRunIds bucket subdir ↔ subdir ++ [run, commitMarker] ∈ bucket.keys := by
  simp only [listRunIds, mem_sorted, List.mem_toFinset, List.mem_filterMap, mem_listKeys]
  constructor
  · rintro ⟨key, ⟨stored, rel, -, rfl⟩, marked⟩
    unfold markedRun at marked
    rw [List.drop_left] at marked
    split at marked
    · split_ifs at marked with marker
      cases marked
      exact marker ▸ stored
    · cases marked
  · intro stored
    refine ⟨_, ⟨stored, [run, commitMarker], by simp, rfl⟩, ?_⟩
    simp [markedRun]

theorem get?_putAll (puts : List (Key × Bytes)) (bucket : Bucket) (key : Key) :
    (putAll bucket puts).get? key =
      ((puts.reverse.find? fun put => put.1 = key).map (·.2)).or (bucket.get? key) := by
  induction puts generalizing bucket with
  | nil => simp [putAll]
  | cons put rest ih =>
    have step : putAll bucket (put :: rest) = putAll (bucket.set put.1 put.2) rest := rfl
    rw [step, ih, List.reverse_cons, List.find?_append, Option.map_or, Option.or_assoc,
      Dict.get?_set]
    congr 1
    by_cases same : put.1 = key
    · simp [same]
    · simp [same, Ne.symm same]

theorem mem_keys_putAll (puts : List (Key × Bytes)) (bucket : Bucket) (key : Key) :
    key ∈ (putAll bucket puts).keys ↔ key ∈ puts.map (·.1) ∨ key ∈ bucket.keys := by
  induction puts generalizing bucket with
  | nil => simp [putAll]
  | cons put rest ih =>
    have step : putAll bucket (put :: rest) = putAll (bucket.set put.1 put.2) rest := rfl
    rw [step, ih, Dict.mem_keys_set, List.map_cons, List.mem_cons]
    tauto

theorem mem_filePuts {run : Key} {files : Dict Key Bytes} {put : Key × Bytes} :
    put ∈ filePuts run files ↔ ∃ rel data, files.get? rel = some data ∧ put = (run ++ rel, data) := by
  simp only [filePuts, List.mem_map, Prod.exists, Dict.get?_eq_some_iff]
  simp only [eq_comm]

/-- Puts that write a key at most once, and with one value, give it that value. -/
theorem get?_putAll_of_mem {puts : List (Key × Bytes)} {bucket : Bucket} {key : Key}
    {data : Bytes} (member : (key, data) ∈ puts)
    (only : ∀ put ∈ puts, put.1 = key → put.2 = data) :
    (putAll bucket puts).get? key = some data := by
  rw [get?_putAll]
  have found : (puts.reverse.find? fun put => put.1 = key).isSome :=
    List.find?_isSome.mpr ⟨_, List.mem_reverse.mpr member, by simp⟩
  obtain ⟨put, located⟩ := Option.isSome_iff_exists.mp found
  have same : put.1 = key := by simpa using List.find?_some located
  rw [located, Option.map_some,
    only put (List.mem_reverse.mp (List.mem_of_find?_eq_some located)) same]
  rfl

/-- Puts under other keys leave a key as it is. -/
theorem get?_putAll_of_notMem {puts : List (Key × Bytes)} {bucket : Bucket} {key : Key}
    (absent : ∀ put ∈ puts, put.1 ≠ key) : (putAll bucket puts).get? key = bucket.get? key := by
  rw [get?_putAll]
  have missing : (puts.reverse.find? fun put => put.1 = key) = none :=
    List.find?_eq_none.mpr fun put member same =>
      absent put (List.mem_reverse.mp member) (of_decide_eq_true same)
  rw [missing, Option.map_none, Option.none_or]

/-- A new store holds the files that were put into it. -/
theorem get?_putAll_filePuts (run : Key) (files : Dict Key Bytes) (rel : Key) :
    (putAll .empty (filePuts run files)).get? (run ++ rel) = files.get? rel := by
  cases found : files.get? rel with
  | some data =>
    refine get?_putAll_of_mem (mem_filePuts.mpr ⟨rel, data, found, rfl⟩) ?_
    intro put member same
    obtain ⟨other, written, stored, rfl⟩ := mem_filePuts.mp member
    rw [List.append_cancel_left same, found] at stored
    exact (Option.some.inj stored).symm
  | none =>
    refine get?_putAll_of_notMem fun put member same => ?_
    obtain ⟨other, written, stored, rfl⟩ := mem_filePuts.mp member
    rw [List.append_cancel_left same, found] at stored
    cases stored

/-- A new store holds the files that were published to it, and the marker. -/
theorem get?_putAll_publishRun (run : Key) (files : Dict Key Bytes) (rel : Key) :
    (putAll .empty (publishRun run files)).get? (run ++ rel) =
      if rel = [commitMarker] then some [] else files.get? rel := by
  have last : putAll .empty (publishRun run files) =
      (putAll .empty (filePuts run files)).set (run ++ [commitMarker]) [] := by
    rw [publishRun, putAll, List.foldl_append]
    rfl
  rw [last, Dict.get?_set, get?_putAll_filePuts]
  simp only [List.append_cancel_left_eq]

/-- What is put for one of several runs below distinct paths is not disturbed by the others. -/
theorem get?_putAll_flatMap {ι : Type} {runs : List ι} (path : ι → Key)
    (puts : ι → List (Key × Bytes))
    (below : ∀ run ∈ runs, ∀ put ∈ puts run, path run <+: put.1)
    (apart : runs.Pairwise fun a b => ∀ key, path a <+: key → ¬ path b <+: key)
    {run : ι} (member : run ∈ runs) {key : Key} (under : path run <+: key) (bucket : Bucket) :
    (putAll bucket (runs.flatMap puts)).get? key = (putAll bucket (puts run)).get? key := by
  induction runs generalizing bucket with
  | nil => cases member
  | cons first rest ih =>
    rw [List.pairwise_cons] at apart
    have split : putAll bucket ((first :: rest).flatMap puts) =
        putAll (putAll bucket (puts first)) (rest.flatMap puts) := by
      rw [List.flatMap_cons, putAll, List.foldl_append]
      rfl
    rw [split]
    rcases List.mem_cons.mp member with rfl | later
    · refine get?_putAll_of_notMem fun put inRest same => ?_
      obtain ⟨other, listed, inside⟩ := List.mem_flatMap.mp inRest
      exact apart.1 other listed key under
        (same ▸ below other (List.mem_cons_of_mem _ listed) put inside)
    · have untouched : (putAll bucket (puts first)).get? key = bucket.get? key :=
        get?_putAll_of_notMem fun put inside same =>
          apart.1 run later key (same ▸ below first List.mem_cons_self put inside) under
      rw [ih (fun other listed => below other (List.mem_cons_of_mem _ listed)) apart.2 later,
        get?_putAll, untouched, ← get?_putAll]

end FlOp.Serving
