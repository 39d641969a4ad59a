import FlOp.Core.Text
import Mathlib.Data.List.Nodup

/-! # Durable event-id deduplication

The ids of published events are kept in a text file, one to a line, and loaded when a process
starts. Past a bound the file is rewritten with the newest ids. An id survives a restart only if
it reads back as the line it was written as.
-/

namespace FlOp.Stream

open FlOp.Core

/-- The non-empty ids not known before, each once and in order. -/
def newIds (known : List String) : List String → List String
  | [] => []
  | id :: rest =>
    if id = "" ∨ id ∈ known then newIds known rest else id :: newIds (known ++ [id]) rest

section NewIds

variable {known ids : List String} {id : String}

theorem mem_newIds : id ∈ newIds known ids ↔ id ∈ ids ∧ id ≠ "" ∧ id ∉ known := by
  induction ids generalizing known with
  | nil => simp [newIds]
  | cons head rest ih =>
    unfold newIds
    split_ifs with skipped
    · rw [ih]
      constructor
      · rintro ⟨member, fresh⟩
        exact ⟨List.mem_cons_of_mem _ member, fresh⟩
      · rintro ⟨member, nonempty, fresh⟩
        rcases List.mem_cons.mp member with rfl | later
        · exact absurd skipped (not_or.mpr ⟨nonempty, fresh⟩)
        · exact ⟨later, nonempty, fresh⟩
    · rw [List.mem_cons, ih]
      rw [not_or] at skipped
      constructor
      · rintro (rfl | ⟨member, nonempty, fresh⟩)
        · exact ⟨List.mem_cons_self, skipped⟩
        · exact ⟨List.mem_cons_of_mem _ member, nonempty,
            fun old => fresh (List.mem_append_left _ old)⟩
      · rintro ⟨member, nonempty, fresh⟩
        by_cases same : id = head
        · exact .inl same
        · refine .inr ⟨(List.mem_cons.mp member).resolve_left same, nonempty, ?_⟩
          simp [fresh, same]

theorem nodup_newIds (known ids : List String) : (newIds known ids).Nodup := by
  induction ids generalizing known with
  | nil => exact List.nodup_nil
  | cons head rest ih =>
    unfold newIds
    split_ifs
    · exact ih known
    · refine List.nodup_cons.mpr ⟨fun member => ?_, ih _⟩
      exact (mem_newIds.mp member).2.2 (by simp)

/-- Distinct unknown ids are all new. -/
theorem newIds_eq_self (nodup : ids.Nodup) (fresh : ∀ id ∈ ids, id ≠ "" ∧ id ∉ known) :
    newIds known ids = ids := by
  induction ids generalizing known with
  | nil => rfl
  | cons head rest ih =>
    have first := fresh head List.mem_cons_self
    rw [newIds, if_neg (not_or.mpr first), ih (List.nodup_cons.mp nodup).2]
    intro id member
    have differs : id ≠ head := fun same => (List.nodup_cons.mp nodup).1 (same ▸ member)
    have old := fresh id (List.mem_cons_of_mem _ member)
    exact ⟨old.1, by simp [old.2, differs]⟩

end NewIds

/-- The loaded store: the ids it knows, oldest first. -/
structure EventDedupStore where
  ids : List String
  nodup : ids.Nodup
deriving DecidableEq

namespace EventDedupStore

instance : Membership String EventDedupStore := ⟨fun store id => id ∈ store.ids⟩

instance (id : String) (store : EventDedupStore) : Decidable (id ∈ store) :=
  inferInstanceAs (Decidable (id ∈ store.ids))

/-- Load the ids of a file; a missing file has no text. -/
def load (file : List Char) : EventDedupStore where
  ids := newIds [] ((splitLines file).map fun line => String.ofList (strip line))
  nodup := nodup_newIds _ _

/-- The newest `n` ids: `ids[-n:]`, which is the whole list for zero. -/
def newest (n : ℕ) (ids : List String) : List String :=
  if n = 0 then ids else ids.drop (ids.length - n)

/-- The newest ids are a tail of the list: all of it, or no shorter than asked for. -/
theorem newest_spec {n : ℕ} {ids : List String} (enough : n ≤ ids.length) :
    ∃ older, ids = older ++ newest n ids ∧
      (older = [] ∨ 0 < n ∧ n ≤ (newest n ids).length) := by
  unfold newest
  split_ifs with none
  · exact ⟨[], rfl, .inl rfl⟩
  · refine ⟨ids.take (ids.length - n), (List.take_append_drop _ ids).symm, .inr ?_⟩
    rw [List.length_drop]
    omega

theorem mem_of_mem_newest {n : ℕ} {ids : List String} {id : String} (member : id ∈ newest n ids) :
    id ∈ ids := by
  unfold newest at member
  split_ifs at member
  · exact member
  · exact List.mem_of_mem_drop member

/-- The text of a file that holds the ids. -/
def fileOf (ids : List String) : List Char := joinLines (ids.map String.toList)

/-- Append the new ids to the file and the store; past the bound both keep the newest ids. -/
def recordPublished (maxIds : ℕ) (file : List Char) (store : EventDedupStore)
    (eventIds : List String) : List Char × EventDedupStore :=
  let added := newIds store.ids eventIds
  have nodup : (store.ids ++ added).Nodup := by
    refine List.nodup_append'.mpr ⟨store.nodup, nodup_newIds _ _, fun id old new => ?_⟩
    exact (mem_newIds.mp new).2.2 old
  if added = [] then (file, store)
  else if maxIds < (store.ids ++ added).length then
    (fileOf (newest maxIds (store.ids ++ added)),
      { ids := newest maxIds (store.ids ++ added)
        nodup := by
          unfold newest
          split_ifs
          · exact nodup
          · exact nodup.sublist (List.drop_sublist _ _) })
  else (file ++ fileOf added, { ids := store.ids ++ added, nodup := nodup })

end EventDedupStore

/-- An id that a line of text can carry. -/
def LineSafe (id : String) : Prop :=
  id ≠ "" ∧ (∀ c ∈ id.toList, isLineBreak c = false) ∧ strip id.toList = id.toList

-- the text is searched, not the alphabet
instance (id : String) : Decidable (LineSafe id) :=
  letI : Decidable (∀ c ∈ id.toList, isLineBreak c = false) := List.decidableBAll _ id.toList
  inferInstanceAs (Decidable (_ ∧ _ ∧ _))

/-- The store of a process, its file and everything recorded so far agree: the file holds the
known ids, which are recorded last, and ids were only dropped past the bound. -/
structure Journaled (maxIds : ℕ) (recorded : List String) (file : List Char)
    (ids : List String) : Prop where
  file_eq : file = EventDedupStore.fileOf ids
  nodup : ids.Nodup
  suffix : ∃ dropped, recorded = dropped ++ ids ∧
    (dropped = [] ∨ 0 < maxIds ∧ maxIds ≤ ids.length)

namespace Journaled

variable {maxIds : ℕ} {recorded ids : List String} {file : List Char}

theorem empty (maxIds : ℕ) : Journaled maxIds [] [] [] where
  file_eq := rfl
  nodup := List.nodup_nil
  suffix := ⟨[], rfl, .inl rfl⟩

theorem mem_recorded (journaled : Journaled maxIds recorded file ids) {id : String}
    (known : id ∈ ids) : id ∈ recorded := by
  obtain ⟨dropped, split, -⟩ := journaled.suffix
  exact split ▸ List.mem_append_right _ known

/-- The ids recorded last are known. -/
theorem known_of_recent (journaled : Journaled maxIds recorded file ids) {id : String}
    (recent : id ∈ EventDedupStore.newest maxIds recorded) : id ∈ ids := by
  obtain ⟨dropped, rfl, none | ⟨bounded, enough⟩⟩ := journaled.suffix
  · rw [none] at recent
    exact EventDedupStore.mem_of_mem_newest recent
  · have skipped : dropped.length ≤ (dropped ++ ids).length - maxIds := by
      rw [List.length_append]
      omega
    rw [EventDedupStore.newest, if_neg (by omega), List.drop_append,
      List.drop_eq_nil_of_le skipped, List.nil_append] at recent
    exact List.mem_of_mem_drop recent

/-- A process loads what its predecessor knew, if every id reads back as it was written. -/
theorem load (journaled : Journaled maxIds recorded file ids)
    (safe : ∀ id ∈ recorded, LineSafe id) : (EventDedupStore.load file).ids = ids := by
  have known := fun id member => safe id (journaled.mem_recorded member)
  have lines : splitLines file = ids.map String.toList := by
    rw [journaled.file_eq]
    apply splitLines_joinLines
    intro line member
    obtain ⟨id, idMember, rfl⟩ := List.mem_map.mp member
    exact (known id idMember).2.1
  have stripped : (ids.map String.toList).map (fun line => String.ofList (strip line)) = ids := by
    rw [List.map_map]
    calc ids.map ((fun line => String.ofList (strip line)) ∘ String.toList)
        = ids.map id := List.map_congr_left fun id member => by
          simp [(known id member).2.2]
      _ = ids := List.map_id ids
  have loaded : (EventDedupStore.load file).ids = newIds [] ids := by
    simp only [EventDedupStore.load, lines, stripped]
  rw [loaded]
  exact newIds_eq_self journaled.nodup fun id member => ⟨(known id member).1, List.not_mem_nil⟩

/-- Recording published ids extends the record by the new ones and keeps file and store in step. -/
theorem recordPublished {store : EventDedupStore} (maxIds : ℕ)
    (journaled : Journaled maxIds recorded file store.ids) (eventIds : List String) :
    Journaled maxIds (recorded ++ newIds store.ids eventIds)
      (store.recordPublished maxIds file eventIds).1
      (store.recordPublished maxIds file eventIds).2.ids := by
  obtain ⟨file_eq, nodup, dropped, split, bounded⟩ := journaled
  refine ⟨?_, (store.recordPublished maxIds file eventIds).2.nodup, ?_⟩
  · simp only [EventDedupStore.recordPublished]
    split_ifs
    · exact file_eq
    · rfl
    · simp only [file_eq, EventDedupStore.fileOf, joinLines, List.map_append, List.flatMap_append]
  · simp only [EventDedupStore.recordPublished]
    split_ifs with none exceeds <;> dsimp only
    · rw [none, List.append_nil]
      exact ⟨dropped, split, bounded⟩
    · obtain ⟨older, tail, whole | enough⟩ := EventDedupStore.newest_spec exceeds.le
      · rw [whole, List.nil_append] at tail
        rw [← tail, split, List.append_assoc]
        refine ⟨dropped, rfl, bounded.imp_right (And.imp_right fun enough => ?_)⟩
        exact enough.trans (List.length_append ▸ Nat.le_add_right _ _)
      · refine ⟨dropped ++ older, ?_, .inr enough⟩
        rw [split, List.append_assoc, List.append_assoc, ← tail]
    · refine ⟨dropped, by rw [split, List.append_assoc], ?_⟩
      refine bounded.imp_right (And.imp_right fun enough => ?_)
      exact enough.trans (List.length_append ▸ Nat.le_add_right _ _)

end Journaled

end FlOp.Stream
