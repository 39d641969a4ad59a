import Mathlib.Data.List.Nodup
import Mathlib.Data.List.Range
import Mathlib.Logic.Function.Basic

/-! # Consumer groups

The consumers of a group share a log. The server hands every entry out to one of them and keeps it
pending there until it is acknowledged. A consumer reads its pending entries page by page, or takes
entries that were not handed out yet. What the server does inside is left open; its documented
behaviour is all that is used.
-/

namespace FlOp.Library

variable {μ κ σ : Type*}

/-- The entry comes after the cursor; without one every entry does. -/
def AfterCursor (cursor : Option ℕ) (id : ℕ) : Prop := ∀ last ∈ cursor, last < id

instance decidableAfterCursor (cursor : Option ℕ) (id : ℕ) : Decidable (AfterCursor cursor id) :=
  inferInstanceAs (Decidable (∀ last ∈ cursor, last < id))

/-- A server of consumer groups, with what it documents: `μ` are messages, `κ` consumer names and
`σ` the server's states. Entries are known by their positions in the log. -/
structure GroupServer (μ κ σ : Type*) [DecidableEq κ] where
  log : σ → List μ
  /-- How many entries have been handed out. -/
  handedOut : σ → ℕ
  /-- Entries handed out to a consumer and not acknowledged yet. -/
  pending : σ → κ → List ℕ
  add : σ → μ → σ
  readNew : σ → κ → ℕ → List ℕ × σ
  readPending : σ → κ → Option ℕ → ℕ → List ℕ
  acknowledge : σ → List ℕ → σ
  log_add (s : σ) (message : μ) : log (add s message) = log s ++ [message]
  handedOut_add (s : σ) (message : μ) : handedOut (add s message) = handedOut s
  pending_add (s : σ) (message : μ) : pending (add s message) = pending s
  log_readNew (s : σ) (consumer : κ) (count : ℕ) : log (readNew s consumer count).2 = log s
  /-- The next entries of the log, as many as there are. -/
  fst_readNew (s : σ) (consumer : κ) (count : ℕ) : (readNew s consumer count).1 =
    List.range' (handedOut s) (min count ((log s).length - handedOut s))
  handedOut_readNew (s : σ) (consumer : κ) (count : ℕ) :
    handedOut (readNew s consumer count).2 = handedOut s + (readNew s consumer count).1.length
  pending_readNew (s : σ) (consumer : κ) (count : ℕ) : pending (readNew s consumer count).2 =
    Function.update (pending s) consumer (pending s consumer ++ (readNew s consumer count).1)
  readPending_eq (s : σ) (consumer : κ) (cursor : Option ℕ) (count : ℕ) :
    readPending s consumer cursor count =
      ((pending s consumer).filter fun id => AfterCursor cursor id).take count
  log_acknowledge (s : σ) (ids : List ℕ) : log (acknowledge s ids) = log s
  handedOut_acknowledge (s : σ) (ids : List ℕ) : handedOut (acknowledge s ids) = handedOut s
  pending_acknowledge (s : σ) (ids : List ℕ) (consumer : κ) :
    pending (acknowledge s ids) consumer = (pending s consumer).filter fun id => id ∉ ids

attribute [simp] GroupServer.log_add GroupServer.handedOut_add GroupServer.pending_add
  GroupServer.log_readNew GroupServer.handedOut_readNew GroupServer.log_acknowledge
  GroupServer.handedOut_acknowledge

/-- Reading on from the end of what was read of an ascending list gives the rest. -/
theorem filter_afterCursor {front rest : List ℕ} (ascending : (front ++ rest).Pairwise (· < ·)) :
    ((front ++ rest).filter fun id => AfterCursor front.getLast? id) = rest := by
  obtain ⟨within, _, across⟩ := List.pairwise_append.mp ascending
  rw [List.filter_append, List.filter_eq_nil_iff.mpr, List.filter_eq_self.mpr, List.nil_append]
  · intro id later
    rw [decide_eq_true_iff]
    exact fun last ends => across last (List.mem_of_getLast? ends) id later
  · intro id earlier after
    rw [decide_eq_true_iff] at after
    obtain rfl | ⟨init, last, rfl⟩ := front.eq_nil_or_concat'
    · exact absurd earlier List.not_mem_nil
    · have behind : last < id := after last (by simp)
      rcases List.mem_append.mp earlier with before | same
      · exact absurd behind
          (not_lt_of_gt ((List.pairwise_append.mp within).2.2 id before last List.mem_cons_self))
      · exact absurd behind (List.mem_singleton.mp same).not_gt

namespace GroupServer

variable [DecidableEq κ] (server : GroupServer μ κ σ)

/-- Every entry handed out is pending with one consumer or was acknowledged once. -/
structure Accounted (s : σ) (acked : List ℕ) : Prop where
  within : server.handedOut s ≤ (server.log s).length
  ascending : ∀ consumer, (server.pending s consumer).Pairwise (· < ·)
  reached : ∀ consumer, ∀ id ∈ server.pending s consumer, id < server.handedOut s
  apart : ∀ consumer other, consumer ≠ other →
    List.Disjoint (server.pending s consumer) (server.pending s other)
  once : acked.Nodup
  settled : ∀ id ∈ acked, id < server.handedOut s ∧ ∀ consumer, id ∉ server.pending s consumer
  covered : ∀ id < server.handedOut s, id ∈ acked ∨ ∃ consumer, id ∈ server.pending s consumer

variable {server} {s : σ} {acked : List ℕ}

theorem mem_fst_readNew {consumer : κ} {count id : ℕ}
    (taken : id ∈ (server.readNew s consumer count).1) :
    server.handedOut s ≤ id ∧
      id < server.handedOut s + (server.readNew s consumer count).1.length := by
  rw [server.fst_readNew, List.mem_range'_1] at taken
  rw [server.fst_readNew, List.length_range']
  exact taken

namespace Accounted

theorem add (accounted : server.Accounted s acked) (message : μ) :
    server.Accounted (server.add s message) acked where
  within := by
    have within := accounted.within
    rw [server.handedOut_add, server.log_add, List.length_append]
    omega
  ascending := by simpa using accounted.ascending
  reached := by simpa using accounted.reached
  apart := by simpa using accounted.apart
  once := accounted.once
  settled := by simpa using accounted.settled
  covered := by simpa using accounted.covered

theorem readNew (accounted : server.Accounted s acked) (consumer : κ) (count : ℕ) :
    server.Accounted (server.readNew s consumer count).2 acked := by
  have fresh : ∀ id ∈ (server.readNew s consumer count).1, server.handedOut s ≤ id :=
    fun id taken => (mem_fst_readNew taken).1
  have member : ∀ other id, id ∈ server.pending (server.readNew s consumer count).2 other ↔
      id ∈ server.pending s other ∨
        other = consumer ∧ id ∈ (server.readNew s consumer count).1 := by
    intro other id
    rw [server.pending_readNew, Function.update_apply]
    split
    · next same => simp [same]
    · next differ => simp [differ]
  refine ⟨?_, ?_, ?_, ?_, accounted.once, ?_, ?_⟩
  · have within := accounted.within
    rw [server.handedOut_readNew, server.log_readNew, server.fst_readNew, List.length_range']
    omega
  · intro other
    rw [server.pending_readNew, Function.update_apply]
    split
    · refine List.pairwise_append.mpr ⟨accounted.ascending consumer, ?_, ?_⟩
      · rw [server.fst_readNew]
        exact List.pairwise_lt_range'
      · exact fun id old new taken =>
          (accounted.reached consumer id old).trans_le (fresh new taken)
    · exact accounted.ascending other
  · intro other id pending
    rw [server.handedOut_readNew]
    rcases (member other id).mp pending with old | ⟨-, taken⟩
    · exact (accounted.reached other id old).trans_le (Nat.le_add_right _ _)
    · exact (mem_fst_readNew taken).2
  · intro first second differ id inFirst inSecond
    rcases (member first id).mp inFirst with old | ⟨rfl, taken⟩ <;>
      rcases (member second id).mp inSecond with oldToo | ⟨rfl, takenToo⟩
    · exact accounted.apart first second differ old oldToo
    · exact absurd (accounted.reached first id old) (fresh id takenToo).not_gt
    · exact absurd (accounted.reached second id oldToo) (fresh id taken).not_gt
    · exact differ rfl
  · intro id old
    obtain ⟨reached, absent⟩ := accounted.settled id old
    refine ⟨?_, fun other pending => ?_⟩
    · rw [server.handedOut_readNew]
      exact reached.trans_le (Nat.le_add_right _ _)
    · rcases (member other id).mp pending with still | ⟨-, taken⟩
      · exact absent other still
      · exact absurd reached (fresh id taken).not_gt
  · intro id reached
    by_cases old : id < server.handedOut s
    · rcases accounted.covered id old with acked | ⟨other, pending⟩
      · exact .inl acked
      · exact .inr ⟨other, (member other id).mpr (.inl pending)⟩
    · refine .inr ⟨consumer, (member consumer id).mpr (.inr ⟨rfl, ?_⟩)⟩
      rw [server.handedOut_readNew, server.fst_readNew, List.length_range'] at reached
      rw [server.fst_readNew, List.mem_range'_1]
      omega

/-- Acknowledging what is pending with a consumer settles it. -/
theorem acknowledge (accounted : server.Accounted s acked) {consumer : κ} {ids : List ℕ}
    (held : ids = server.pending s consumer) :
    server.Accounted (server.acknowledge s ids) (acked ++ ids) := by
  have member : ∀ other id, id ∈ server.pending (server.acknowledge s ids) other ↔
      id ∈ server.pending s other ∧ id ∉ ids := by
    intro other id
    rw [server.pending_acknowledge, List.mem_filter, decide_eq_true_iff]
  subst held
  refine ⟨?_, ?_, ?_, ?_, ?_, ?_, ?_⟩
  · simpa using accounted.within
  · intro other
    rw [server.pending_acknowledge]
    exact (accounted.ascending other).filter _
  · intro other id pending
    rw [server.handedOut_acknowledge]
    exact accounted.reached other id ((member other id).mp pending).1
  · intro first second differ id inFirst inSecond
    exact accounted.apart first second differ ((member first id).mp inFirst).1
      ((member second id).mp inSecond).1
  · refine List.nodup_append.mpr ⟨accounted.once,
      (accounted.ascending consumer).imp fun before => before.ne, ?_⟩
    rintro id old _ pending rfl
    exact (accounted.settled id old).2 consumer pending
  · intro id settled
    rw [server.handedOut_acknowledge]
    rcases List.mem_append.mp settled with old | now
    · obtain ⟨reached, absent⟩ := accounted.settled id old
      exact ⟨reached, fun other pending => absent other ((member other id).mp pending).1⟩
    · exact ⟨accounted.reached consumer id now,
        fun other pending => ((member other id).mp pending).2 now⟩
  · intro id reached
    rw [server.handedOut_acknowledge] at reached
    by_cases now : id ∈ server.pending s consumer
    · exact .inl (List.mem_append_right _ now)
    · rcases accounted.covered id reached with old | ⟨other, pending⟩
      · exact .inl (List.mem_append_left _ old)
      · exact .inr ⟨other, (member other id).mpr ⟨pending, now⟩⟩

end Accounted

end GroupServer

/-- A server as the documentation describes it. -/
structure GroupLog (μ κ : Type*) where
  log : List μ := []
  handedOut : ℕ := 0
  pending : κ → List ℕ := fun _ => []

variable [DecidableEq κ]

/-- Hand the next entries of the log out to a consumer. -/
def GroupLog.handOut (s : GroupLog μ κ) (consumer : κ) (count : ℕ) : List ℕ × GroupLog μ κ :=
  let ids := List.range' s.handedOut (min count (s.log.length - s.handedOut))
  (ids, { s with
    handedOut := s.handedOut + ids.length
    pending := Function.update s.pending consumer (s.pending consumer ++ ids) })

/-- The documented behaviour can be had. -/
def groupLogServer : GroupServer μ κ (GroupLog μ κ) where
  log := GroupLog.log
  handedOut := GroupLog.handedOut
  pending := GroupLog.pending
  add s message := { s with log := s.log ++ [message] }
  readNew := GroupLog.handOut
  readPending s consumer cursor count :=
    ((s.pending consumer).filter fun id => AfterCursor cursor id).take count
  acknowledge s ids :=
    { s with pending := fun consumer => (s.pending consumer).filter fun id => id ∉ ids }
  log_add _ _ := rfl
  handedOut_add _ _ := rfl
  pending_add _ _ := rfl
  log_readNew _ _ _ := rfl
  fst_readNew _ _ _ := rfl
  handedOut_readNew _ _ _ := rfl
  pending_readNew _ _ _ := rfl
  readPending_eq _ _ _ _ := rfl
  log_acknowledge _ _ := rfl
  handedOut_acknowledge _ _ := rfl
  pending_acknowledge _ _ _ := rfl

end FlOp.Library
