import Mathlib.Data.List.Chain

/-! # Logs of records

A change log takes a record only if it reads differently from the last one. Along such a log a
relation between neighbours says the same as along all records that were offered to it.

A bounded log is cut back to its newest records now and then. Whoever reads no more records than it
keeps reads the same as from the whole log.
-/

namespace FlOp.Library

variable {α β : Type*}

/-- What holds between neighbours holds along the list. -/
theorem isChain_iff_neighbours {R : α → α → Prop} {l : List α} :
    l.IsChain R ↔ ∀ step ∈ l.zip l.tail, R step.1 step.2 := by
  induction l with
  | nil => simp
  | cons first rest ih =>
    cases rest with
    | nil => simp
    | cons second rest => simp [List.isChain_cons_cons, ih]

section Changes

variable [DecidableEq β] (key : α → β)

/-- Append a record unless it reads like the last one. -/
def appendNew (log : List α) (record : α) : List α :=
  if log.getLast?.map key = some (key record) then log else log ++ [record]

variable {key} {log : List α} {record : α}

/-- A change log only grows. -/
theorem prefix_appendNew : log <+: appendNew key log record := by
  unfold appendNew
  split
  · exact List.prefix_refl log
  · exact List.prefix_append log [record]

/-- The last entry reads like the record offered last. -/
theorem getLast?_appendNew : (appendNew key log record).getLast?.map key = some (key record) := by
  unfold appendNew
  split
  · next same => exact same
  · rw [List.getLast?_concat, Option.map_some]

/-- What holds between records that read the same holds along the log with a record offered exactly
if it holds along the log and from its end to the record. -/
theorem isChain_appendNew {R : α → α → Prop} (same : ∀ {a b}, key a = key b → R a b) :
    (appendNew key log record).IsChain R ↔
      log.IsChain R ∧ ∀ last ∈ log.getLast?, R last record := by
  unfold appendNew
  split
  · next repeated =>
    obtain ⟨last, ends, reads⟩ := Option.map_eq_some_iff.mp repeated
    rw [ends]
    refine ⟨fun chain => ⟨chain, ?_⟩, And.left⟩
    rintro _ ⟨⟩
    exact same reads
  · rw [List.isChain_append]
    simp

end Changes

section Newest

/-- The newest `count` records, or all of them if the count is zero. -/
def newest (count : ℕ) (log : List α) : List α :=
  if count = 0 then log else log.drop (log.length - count)

/-- The kept records are the newest ones of the log, and at least `limit` of them if any is
gone. -/
structure Retains (limit : ℕ) (kept log : List α) : Prop where
  suffix : kept <:+ log
  enough : kept = log ∨ 0 < limit ∧ limit ≤ kept.length

variable {limit count : ℕ} {kept log : List α}

theorem newest_suffix : newest count log <:+ log := by
  unfold newest
  split
  · exact List.suffix_refl log
  · exact List.drop_suffix _ log

theorem length_newest (positive : 0 < count) :
    (newest count log).length = min count log.length := by
  rw [newest, if_neg (by omega), List.length_drop]
  omega

theorem newest_of_length_le (fits : log.length ≤ count) : newest count log = log := by
  unfold newest
  split
  · rfl
  · rw [Nat.sub_eq_zero_of_le fits, List.drop_zero]

/-- The newest records of two logs that end alike are the same. -/
theorem newest_eq_of_suffix (suffix : kept <:+ log) (positive : 0 < count)
    (enough : count ≤ kept.length) : newest count kept = newest count log := by
  obtain ⟨older, rfl⟩ := suffix
  have past : (older ++ kept).length - count = older.length + (kept.length - count) := by
    rw [List.length_append]
    omega
  rw [newest, newest, if_neg (by omega), if_neg (by omega), past, List.drop_length_add_append]

namespace Retains

theorem refl : Retains limit log log := ⟨List.suffix_refl log, .inl rfl⟩

theorem append (retains : Retains limit kept log) (records : List α) :
    Retains limit (kept ++ records) (log ++ records) := by
  refine ⟨?_, ?_⟩
  · obtain ⟨older, rfl⟩ := retains.suffix
    exact ⟨older, (List.append_assoc older kept records).symm⟩
  · obtain rfl | ⟨positive, long⟩ := retains.enough
    · exact .inl rfl
    · exact .inr ⟨positive, by rw [List.length_append]; omega⟩

/-- Cutting back to `limit` records keeps that many. -/
theorem cut (retains : Retains limit kept log) : Retains limit (newest limit kept) log := by
  refine ⟨newest_suffix.trans retains.suffix, ?_⟩
  by_cases short : limit = 0 ∨ kept.length ≤ limit
  · have whole : newest limit kept = kept := by
      obtain rfl | fits := short
      · rfl
      · exact newest_of_length_le fits
    rw [whole]
    exact retains.enough
  · refine .inr ⟨by omega, ?_⟩
    rw [length_newest (by omega)]
    omega

/-- A reader of at most `limit` records reads the newest ones of the whole log. -/
theorem newest_eq (retains : Retains limit kept log)
    (few : limit = 0 ∨ 0 < count ∧ count ≤ limit) : newest count kept = newest count log := by
  obtain rfl | ⟨_, long⟩ := retains.enough
  · rfl
  · exact newest_eq_of_suffix retains.suffix (by omega) (by omega)

theorem lt_iff (retains : Retains limit kept log)
    (few : limit = 0 ∨ 0 < count ∧ count ≤ limit) :
    kept.length < count ↔ log.length < count := by
  obtain rfl | ⟨_, long⟩ := retains.enough
  · rfl
  · have shorter := retains.suffix.length_le
    omega

end Retains

end Newest

end FlOp.Library
