import FlOp.Library.LabeledSystem
import FlOp.Stream.Dedup

/-! # Durability of the published ids

The store of a process has three parts: the membership set, the ordered ids and the file. A call
marks its ids as members before it opens the file, so an open that fails leaves members that no
file holds. Calls, failures and restarts form a system whose promise is a bounded log: the newest
ids that were recorded successfully.
-/

namespace FlOp.Stream

open Library FlOp.Core

/-- Which files a call may open: the id file for appending, the temporary file for a rewrite. -/
structure FileAccess where
  appends : Bool := true
  rewrites : Bool := true
deriving DecidableEq

/-- The store of one process and the file under it. -/
structure StoreProcess where
  file : List Char
  ids : List String
  seen : List String
deriving DecidableEq

namespace StoreProcess

instance : Membership String StoreProcess := ⟨fun process id => id ∈ process.seen⟩

instance (id : String) (process : StoreProcess) : Decidable (id ∈ process) :=
  inferInstanceAs (Decidable (id ∈ process.seen))

/-- A new store over an existing file. -/
def restart (file : List Char) : StoreProcess where
  file := file
  ids := (EventDedupStore.load file).ids
  seen := (EventDedupStore.load file).ids

/-- Keep the newest ids, replacing the file. -/
def compact (maxIds : ℕ) (process : StoreProcess) : StoreProcess where
  file := EventDedupStore.fileOf (EventDedupStore.newest maxIds process.ids)
  ids := EventDedupStore.newest maxIds process.ids
  seen := EventDedupStore.newest maxIds process.ids

/-- Record published ids; the first component tells whether the call raised. -/
def recordPublished (maxIds : ℕ) (access : FileAccess) (eventIds : List String)
    (process : StoreProcess) : Bool × StoreProcess :=
  let added := newIds process.seen eventIds
  -- the membership set takes the ids while they are collected
  let marked := { process with seen := process.seen ++ added }
  if added = [] then (false, process)
  else if !access.appends then (true, marked)
  else
    let appended := { marked with
      file := process.file ++ EventDedupStore.fileOf added
      ids := process.ids ++ added }
    if appended.ids.length ≤ maxIds then (false, appended)
    else if !access.rewrites then (true, appended)
    else (false, appended.compact maxIds)

/-- The loaded store of a process that never failed, with its file. -/
def ofStore (file : List Char) (store : EventDedupStore) : StoreProcess where
  file := file
  ids := store.ids
  seen := store.ids

/-- While no open fails, a call does what the loaded store does. -/
theorem recordPublished_ofStore (maxIds : ℕ) (file : List Char) (store : EventDedupStore)
    {access : FileAccess} {eventIds : List String}
    (appends : newIds store.ids eventIds ≠ [] → access.appends = true)
    (rewrites : maxIds < (store.ids ++ newIds store.ids eventIds).length →
      access.rewrites = true) :
    (ofStore file store).recordPublished maxIds access eventIds =
      (false, ofStore (store.recordPublished maxIds file eventIds).1
        (store.recordPublished maxIds file eventIds).2) := by
  unfold recordPublished EventDedupStore.recordPublished
  by_cases none : newIds store.ids eventIds = []
  · simp [ofStore, none]
  · by_cases exceeds : maxIds < (store.ids ++ newIds store.ids eventIds).length
    · have within : ¬(store.ids ++ newIds store.ids eventIds).length ≤ maxIds := by omega
      simp only [ofStore, none, appends none, rewrites exceeds, exceeds, within, compact,
        Bool.not_true, if_true, if_false, Bool.false_eq_true]
    · have within : (store.ids ++ newIds store.ids eventIds).length ≤ maxIds := by omega
      simp only [ofStore, none, appends none, exceeds, within, Bool.not_true, if_true, if_false,
        Bool.false_eq_true]

/-- A call that raises has already changed the membership. -/
theorem mem_of_raised {maxIds : ℕ} {access : FileAccess} {eventIds : List String}
    {process : StoreProcess}
    (raised : (process.recordPublished maxIds access eventIds).1 = true) :
    ∃ id, id ∉ process ∧ id ∈ (process.recordPublished maxIds access eventIds).2 := by
  have marked : newIds process.seen eventIds ≠ [] ∧
      (process.recordPublished maxIds access eventIds).2.seen =
        process.seen ++ newIds process.seen eventIds := by
    revert raised
    unfold recordPublished
    dsimp only
    split_ifs with none <;> simp [none]
  obtain ⟨some, seen⟩ := marked
  obtain ⟨id, added⟩ := List.exists_mem_of_ne_nil _ some
  refine ⟨id, (mem_newIds.mp added).2.2, ?_⟩
  change id ∈ (process.recordPublished maxIds access eventIds).2.seen
  rw [seen]
  exact List.mem_append_right _ added

end StoreProcess

/-- The promise of a call: the newest ids of what was kept and what is new. -/
def retain (maxIds : ℕ) (kept eventIds : List String) : List String :=
  let entries := kept ++ newIds kept eventIds
  entries.drop (entries.length - maxIds)

theorem length_retain_le (maxIds : ℕ) (kept eventIds : List String) :
    (retain maxIds kept eventIds).length ≤ maxIds := by
  simp only [retain, List.length_drop]
  omega

/-- With a positive bound the loaded store keeps what was promised. -/
theorem recordPublished_ids {maxIds : ℕ} (file : List Char) {store : EventDedupStore}
    (eventIds : List String) (bounded : store.ids.length ≤ maxIds)
    (positive : newIds store.ids eventIds ≠ [] → 0 < maxIds) :
    (store.recordPublished maxIds file eventIds).2.ids = retain maxIds store.ids eventIds := by
  simp only [EventDedupStore.recordPublished, retain]
  split_ifs with none exceeds <;> dsimp only
  · rw [none, List.append_nil, Nat.sub_eq_zero_of_le bounded, List.drop_zero]
  · have nonzero : maxIds ≠ 0 := (positive none).ne'
    rw [EventDedupStore.newest, if_neg nonzero]
  · rw [Nat.sub_eq_zero_of_le (Nat.le_of_not_lt exceeds), List.drop_zero]

/-- A process on its file, and what the successful calls promised. -/
structure StoreRun where
  process : StoreProcess
  promised : List String
deriving DecidableEq

inductive StoreAction where
  | recordPublished (eventIds : List String) (access : FileAccess)
  | restart
deriving DecidableEq

/-- A call or a restart; only a call that returns adds to the promise. -/
def StoreRun.next (maxIds : ℕ) (s : StoreRun) : StoreAction → StoreRun
  | .recordPublished eventIds access =>
    { process := (s.process.recordPublished maxIds access eventIds).2
      promised :=
        if (s.process.recordPublished maxIds access eventIds).1 then s.promised
        else retain maxIds s.promised eventIds }
  | .restart => { s with process := .restart s.process.file }

/-- Stores that start without a file. -/
def storeSystem (maxIds : ℕ) : LabeledSystem StoreRun StoreAction :=
  .ofStep (· = ⟨.restart [], []⟩) fun s action => some (s.next maxIds action)

/-- A restart finds the promised ids; a call that raises changes no membership, and once it is
repeated its ids are on file. -/
def Durable (maxIds : ℕ) : LabeledSystem.Transition StoreRun StoreAction → Prop
  | ⟨_, .restart, target⟩ => ∀ id, id ∈ target.process ↔ id ∈ target.promised
  | ⟨source, .recordPublished eventIds access, target⟩ =>
    (source.process.recordPublished maxIds access eventIds).1 = true →
      (∀ id, id ∈ target.process ↔ id ∈ source.process) ∧
      (EventDedupStore.load
        (target.process.recordPublished maxIds { } eventIds).2.file).ids =
          retain maxIds target.promised eventIds

/-- The new ids of a call fit their lines, and the files the call needs can be opened. -/
def Recordable (maxIds : ℕ) (s : StoreRun) : StoreAction → Prop
  | .recordPublished eventIds access =>
    newIds s.process.seen eventIds ≠ [] →
      0 < maxIds ∧ access.appends = true ∧
      (maxIds < (s.process.ids ++ newIds s.process.seen eventIds).length →
        access.rewrites = true) ∧
      ∀ id ∈ newIds s.process.seen eventIds, LineSafe id
  | .restart => True

/-- Set, list, file and promise agree, within the bound, on ids that fit their lines. -/
structure StoreInStep (maxIds : ℕ) (s : StoreRun) : Prop where
  seen_eq : s.process.seen = s.process.ids
  promised_eq : s.promised = s.process.ids
  file_eq : s.process.file = EventDedupStore.fileOf s.process.ids
  nodup : s.process.ids.Nodup
  bounded : s.process.ids.length ≤ maxIds
  safe : ∀ id ∈ s.process.ids, LineSafe id

namespace StoreInStep

variable {maxIds : ℕ} {s : StoreRun}

theorem initial (maxIds : ℕ) : StoreInStep maxIds ⟨.restart [], []⟩ where
  seen_eq := rfl
  promised_eq := rfl
  file_eq := rfl
  nodup := List.nodup_nil
  bounded := Nat.zero_le _
  safe _ member := absurd member List.not_mem_nil

theorem journaled (inStep : StoreInStep maxIds s) :
    Journaled maxIds s.process.ids s.process.file s.process.ids where
  file_eq := inStep.file_eq
  nodup := inStep.nodup
  suffix := ⟨[], rfl, .inl rfl⟩

/-- The file of a process loads as the ids of that process. -/
theorem load (inStep : StoreInStep maxIds s) :
    (EventDedupStore.load s.process.file).ids = s.process.ids :=
  inStep.journaled.load inStep.safe

/-- A restart changes nothing. -/
theorem restart (inStep : StoreInStep maxIds s) : s.next maxIds .restart = s := by
  obtain ⟨⟨file, ids, seen⟩, promised⟩ := s
  have loaded := inStep.load
  have seen_eq := inStep.seen_eq
  dsimp only at loaded seen_eq
  simp only [StoreRun.next, StoreProcess.restart, loaded, seen_eq]

/-- A call that may be recorded returns with the new ids in all four places. -/
theorem recordPublished (inStep : StoreInStep maxIds s) {eventIds : List String}
    {access : FileAccess} (allowed : Recordable maxIds s (.recordPublished eventIds access)) :
    (s.process.recordPublished maxIds access eventIds).1 = false ∧
      StoreInStep maxIds (s.next maxIds (.recordPublished eventIds access)) := by
  let store : EventDedupStore := ⟨s.process.ids, inStep.nodup⟩
  have loaded : s.process = .ofStore s.process.file store := by
    obtain ⟨⟨file, ids, seen⟩, promised⟩ := s
    obtain rfl : seen = ids := inStep.seen_eq
    rfl
  have seen_eq : s.process.seen = store.ids := inStep.seen_eq
  have allowed' := allowed
  simp only [Recordable, seen_eq] at allowed'
  have called := StoreProcess.recordPublished_ofStore maxIds s.process.file store
    (fun some => (allowed' some).2.1) (fun exceeds => by
      have some : newIds store.ids eventIds ≠ [] := by
        intro none
        have bounded : store.ids.length ≤ maxIds := inStep.bounded
        rw [none, List.append_nil] at exceeds
        omega
      exact (allowed' some).2.2.1 exceeds)
  rw [← loaded] at called
  have ids : (store.recordPublished maxIds s.process.file eventIds).2.ids =
      retain maxIds store.ids eventIds :=
    recordPublished_ids s.process.file eventIds inStep.bounded fun some => (allowed' some).1
  have journaled : Journaled maxIds s.process.ids s.process.file store.ids := inStep.journaled
  have journal := journaled.recordPublished maxIds eventIds
  refine ⟨by rw [called], ?_⟩
  simp only [StoreRun.next, called, Bool.false_eq_true, if_false]
  refine ⟨rfl, ?_, journal.file_eq, journal.nodup, ?_, ?_⟩
  · rw [inStep.promised_eq]
    exact ids.symm
  · change (store.recordPublished maxIds s.process.file eventIds).2.ids.length ≤ maxIds
    rw [ids]
    exact length_retain_le _ _ _
  · intro id member
    change id ∈ (store.recordPublished maxIds s.process.file eventIds).2.ids at member
    rw [ids] at member
    rcases List.mem_append.mp (List.mem_of_mem_drop member) with old | new
    · exact inStep.safe id old
    · exact (allowed' (List.ne_nil_of_mem new)).2.2.2 id new

theorem next (inStep : StoreInStep maxIds s) {action : StoreAction}
    (allowed : Recordable maxIds s action) : StoreInStep maxIds (s.next maxIds action) := by
  cases action with
  | recordPublished => exact (inStep.recordPublished allowed).2
  | restart => rwa [inStep.restart]

theorem durable (inStep : StoreInStep maxIds s) {action : StoreAction}
    (allowed : Recordable maxIds s action) : Durable maxIds ⟨s, action, s.next maxIds action⟩ := by
  cases action with
  | recordPublished =>
    intro raised
    rw [(inStep.recordPublished allowed).1] at raised
    exact absurd raised Bool.false_ne_true
  | restart =>
    intro id
    change id ∈ (s.next maxIds .restart).process.seen ↔ id ∈ (s.next maxIds .restart).promised
    rw [inStep.restart, inStep.seen_eq, inStep.promised_eq]

end StoreInStep

def compactedRun : StoreRun :=
  ⟨⟨"evt-2\n".toList, ["evt-2"], ["evt-2"]⟩, ["evt-2"]⟩

end FlOp.Stream
