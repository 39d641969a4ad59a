import FlOp.Library.LabeledSystem
import FlOp.Stream.Broker

/-! # Watch cycles over a broker

Every watch cycle opens a new source at the committed position, reads what is visible and commits
only if an event came out of it. A message is handled for good once a cycle that read it commits.
-/

namespace FlOp.Stream

open Library

/-- The broker-backed values of `EVENT_SOURCE_KIND`. -/
inductive EventSourceKind where
  | kafka
  | redis
deriving DecidableEq, Repr

def EventSourceKind.client : EventSourceKind → Client
  | kafka => kafkaClient
  | redis => redisClient

/-- What the broker answers during one iteration of a source. -/
inductive Script where
  | kafka (polls : List Poll)
  | redis (pages batches : List (List Message))

namespace Script

def kind : Script → EventSourceKind
  | kafka _ => .kafka
  | redis _ _ => .redis

/-- `list(event_source)`. -/
def iterate (codec : Codec) (maxEmptyPolls : Option ℕ) : Script → Iteration
  | kafka polls => BrokerEventSource.iterate codec maxEmptyPolls 0 polls
  | redis pages batches => RedisStreamEventSource.iterate codec maxEmptyPolls pages batches

/-- The messages an iteration gets to see unless it raises. -/
def polled (maxEmptyPolls : Option ℕ) : Script → List Message
  | kafka polls => BrokerEventSource.polled maxEmptyPolls 0 polls
  | redis pages batches => RedisStreamEventSource.polled maxEmptyPolls pages batches

theorem iterate_handles (codec : Codec) (maxEmptyPolls : Option ℕ) (script : Script) :
    Iteration.Handles script.kind.client codec (script.polled maxEmptyPolls)
      (script.iterate codec maxEmptyPolls) := by
  cases script with
  | kafka polls => exact BrokerEventSource.iterate_handles codec maxEmptyPolls 0 polls
  | redis pages batches =>
    exact RedisStreamEventSource.iterate_handles codec maxEmptyPolls pages batches

end Script

/-- The configured source of a watcher. -/
structure WatchSetup where
  codec : Codec
  kind : EventSourceKind
  maxEmptyPolls : Option ℕ := some 3

/-- The broker's log and committed position, what the source has been delivered (by offset) and
has yielded, and the error that ended the watcher. -/
structure Watch where
  log : List Message := []
  committed : ℕ := 0
  delivered : List ℕ := []
  yielded : List DecodedEvent := []
  raised : Option BodyError := none

inductive WatchAction where
  | produce (message : Message)
  | cycle (script : Script)

namespace Watch

/-- One watch cycle: a source that yielded an event is committed, any other is closed. -/
def cycle (s : Watch) (iteration : Iteration) : Watch :=
  { s with
    committed :=
      if iteration.raised = none ∧ !iteration.yielded.isEmpty then
        s.committed + iteration.read.length
      else s.committed
    delivered := s.delivered ++ List.range' s.committed iteration.read.length
    yielded := s.yielded ++ iteration.yielded
    raised := iteration.raised }

/-- Produce a message, or run a cycle that reads the log on from the committed position. -/
def step (setup : WatchSetup) (s : Watch) : WatchAction → Option Watch
  | .produce message => some { s with log := s.log ++ [message] }
  | .cycle script =>
    let iteration := script.iterate setup.codec setup.maxEmptyPolls
    if s.raised = none ∧ script.kind = setup.kind ∧
        iteration.read <+: s.log.drop s.committed then
      some (s.cycle iteration)
    else none

/-- The messages delivered, in order. -/
def messages (s : Watch) : List Message := s.delivered.filterMap (s.log[·]?)

end Watch

/-- Watchers that start on an empty log. -/
def watchSystem (setup : WatchSetup) : LabeledSystem Watch WatchAction :=
  .ofStep (· = { }) (Watch.step setup)

/-- The source never raised and yielded the events of the valid messages in order; what was
delivered is committed, and no malformed message was delivered twice. -/
structure Tolerant (codec : Codec) (s : Watch) : Prop where
  running : s.raised = none
  yielded_eq : s.yielded = s.messages.filterMap (eventOf codec)
  committed : ∀ offset ∈ s.delivered, offset < s.committed
  once : ∀ offset message, s.log[offset]? = some message → eventOf codec message = none →
    s.delivered.count offset ≤ 1

/-- A cycle meets no poisonous body, and a valid message if it meets any. -/
def Digestible (setup : WatchSetup) (_ : Watch) : WatchAction → Prop
  | .produce _ => True
  | .cycle script =>
    (∀ message ∈ script.polled setup.maxEmptyPolls,
      ¬Poison setup.kind.client setup.codec message.body) ∧
    (script.polled setup.maxEmptyPolls ≠ [] →
      ∃ message ∈ script.polled setup.maxEmptyPolls, eventOf setup.codec message ≠ none)

/-- The entries below a bound within a list are its head. -/
theorem filterMap_range_getElem? {α : Type*} {entries : List α} {n : ℕ}
    (within : n ≤ entries.length) : (List.range n).filterMap (entries[·]?) = entries.take n := by
  induction n with
  | zero => rw [List.range_zero, List.filterMap_nil, List.take_zero]
  | succ n ih =>
    have inside : n < entries.length := within
    rw [List.range_succ, List.filterMap_append, ih inside.le, List.take_add_one]
    simp [List.getElem?_eq_getElem inside]

/-- The watcher has read the log up to its committed position, each message once. -/
structure CaughtUp (codec : Codec) (s : Watch) : Prop where
  running : s.raised = none
  within : s.committed ≤ s.log.length
  delivered_eq : s.delivered = List.range s.committed
  yielded_eq : s.yielded = (s.log.take s.committed).filterMap (eventOf codec)

namespace CaughtUp

variable {setup : WatchSetup} {s t : Watch}

theorem produce (message : Message) (caughtUp : CaughtUp setup.codec s) :
    CaughtUp setup.codec { s with log := s.log ++ [message] } where
  running := caughtUp.running
  within := by
    have within := caughtUp.within
    simp only [List.length_append]
    omega
  delivered_eq := caughtUp.delivered_eq
  yielded_eq := by
    rw [caughtUp.yielded_eq, List.take_append_of_le_length caughtUp.within]

theorem cycle {script : Script} (caughtUp : CaughtUp setup.codec s)
    (digestible : Digestible setup s (.cycle script)) (same : script.kind = setup.kind)
    (visible : (script.iterate setup.codec setup.maxEmptyPolls).read <+: s.log.drop s.committed) :
    CaughtUp setup.codec (s.cycle (script.iterate setup.codec setup.maxEmptyPolls)) := by
  obtain ⟨clean, valid⟩ := digestible
  rw [← same] at clean
  have iterated := (script.iterate_handles setup.codec setup.maxEmptyPolls).sound clean
  rw [iterated] at visible ⊢
  generalize script.polled setup.maxEmptyPolls = polled at valid visible ⊢
  obtain ⟨running, within, delivered_eq, yielded_eq⟩ := caughtUp
  have committed : (s.cycle ⟨polled.filterMap (eventOf setup.codec), polled, none⟩).committed =
      s.committed + polled.length := by
    cases polled with
    | nil => rfl
    | cons head rest =>
      obtain ⟨message, member, some⟩ := valid (by simp)
      obtain ⟨event, found⟩ := Option.ne_none_iff_exists'.mp some
      have yields : event ∈ (head :: rest).filterMap (eventOf setup.codec) :=
        List.mem_filterMap.mpr ⟨message, member, found⟩
      simp [Watch.cycle, List.ne_nil_of_mem yields]
  have taken : polled = (s.log.drop s.committed).take polled.length :=
    List.prefix_iff_eq_take.mp visible
  have room : polled.length ≤ s.log.length - s.committed := by
    simpa using visible.length_le
  refine ⟨rfl, ?_, ?_, ?_⟩
  · rw [committed]
    simp only [Watch.cycle]
    omega
  · rw [committed]
    simp only [Watch.cycle, delivered_eq, List.range_eq_range']
    have appended := List.range'_append_1 (s := 0) (m := s.committed) (n := polled.length)
    rwa [Nat.zero_add] at appended
  · rw [committed]
    simp only [Watch.cycle, yielded_eq]
    rw [List.take_add, ← taken, List.filterMap_append]

theorem step {action : WatchAction} (caughtUp : CaughtUp setup.codec s)
    (digestible : Digestible setup s action) (taken : s.step setup action = some t) :
    CaughtUp setup.codec t := by
  cases action with
  | produce message =>
    obtain rfl := Option.some.inj taken
    exact caughtUp.produce message
  | cycle script =>
    simp only [Watch.step] at taken
    split at taken
    · next enabled =>
      obtain rfl := Option.some.inj taken
      exact caughtUp.cycle digestible enabled.2.1 enabled.2.2
    · cases taken

theorem tolerant (caughtUp : CaughtUp setup.codec s) : Tolerant setup.codec s := by
  obtain ⟨running, within, delivered_eq, yielded_eq⟩ := caughtUp
  refine ⟨running, ?_, ?_, ?_⟩
  · rw [yielded_eq, Watch.messages, delivered_eq, filterMap_range_getElem? within]
  · intro offset member
    rw [delivered_eq] at member
    exact List.mem_range.mp member
  · intro offset message _ _
    rw [delivered_eq]
    exact List.nodup_iff_count_le_one.mp List.nodup_range offset

end CaughtUp

/-- Along runs whose cycles are digestible, every reachable state is tolerant. -/
theorem tolerant_of_reachable {setup : WatchSetup} {s : Watch}
    (run : (watchSystem setup).ReachableWhere (Digestible setup) s) :
    Tolerant setup.codec s := by
  have caughtUp : CaughtUp setup.codec s := by
    apply run.invariant (CaughtUp setup.codec)
    · rintro s rfl
      exact ⟨rfl, Nat.zero_le _, rfl, rfl⟩
    · intro s action t caughtUp digestible taken
      exact caughtUp.step digestible taken
  exact caughtUp.tolerant

/-- A codec that decodes ASCII and knows two documents. -/
def cancellationCodec : Codec where
  decodeUtf8 raw :=
    (raw.mapM fun b => if b < 128 then some (Char.ofNat b.toNat) else none).map String.ofList
  loads text :=
    if text = "\x7b\"event_type\": \"order.cancelled\"\x7d" then
      .ok (.object [("event_type", .text "order.cancelled")])
    else if text = "\x7b\x7d" then .ok (.object [])
    else .error .valueError
  isoFormat _ := ""

def cancellationSetup (kind : EventSourceKind) : WatchSetup where
  codec := cancellationCodec
  kind := kind

def malformed : Message := ⟨.text "not-json", none⟩

def cancellation : Message :=
  ⟨.text "\x7b\"event_type\": \"order.cancelled\"\x7d", none⟩

/-- A malformed message that is read along with a valid one is committed with it. -/
theorem tolerant_of_reachable_skipped :
    Tolerant cancellationCodec (Watch.cycle { log := [malformed, cancellation] }
      ((Script.redis [] [[malformed, cancellation]]).iterate cancellationCodec (some 3))) := by
  let setup := cancellationSetup .redis
  have start : (watchSystem setup).ReachableWhere (Digestible setup) { } := .initial rfl
  have first := start.step (l := WatchAction.produce malformed) trivial rfl
  have second := first.step (l := WatchAction.produce cancellation) trivial rfl
  have readable : ∀ message ∈ [malformed, cancellation],
      (redisClient.read cancellationCodec message).toBool = true := by decide
  have digestible : Digestible setup { log := [malformed, cancellation] }
      (.cycle (.redis [] [[malformed, cancellation]])) := by
    constructor
    · intro message member poison
      obtain ⟨e, raised⟩ := Client.read_of_poison poison
      have read : (redisClient.read cancellationCodec message).toBool = true :=
        readable message member
      rw [show redisClient.read cancellationCodec message = .error e from raised] at read
      cases read
    · have valid : (eventOf cancellationCodec cancellation).isSome = true := by decide
      exact fun _ => ⟨cancellation, .tail _ (.head _), Option.isSome_iff_ne_none.mp valid⟩
  exact tolerant_of_reachable (second.step digestible rfl)

/-- One message that is no UTF-8 ends the watcher. -/
theorem undecodable_message_raises :
    ¬ ∀ s, (watchSystem (cancellationSetup .kafka)).Reachable s → Tolerant cancellationCodec s := by
  intro tolerant
  have start : (watchSystem (cancellationSetup .kafka)).Reachable { } := .initial rfl
  have produced := start.step (l := WatchAction.produce ⟨.bytes [0xff], none⟩) trivial rfl
  have read := produced.step (l := WatchAction.cycle (.kafka [.message ⟨.bytes [0xff], none⟩]))
    trivial rfl
  cases (tolerant _ read).running

-- a cycle that reads malformed messages only is repeated by the next one
example : (LabeledSystem.exec (fun _ _ => True) (Watch.step (cancellationSetup .kafka))
    [.produce malformed, .cycle (.kafka [.message malformed]), .cycle (.kafka [.message malformed])]
    { }).map Watch.delivered = some [0, 0] := by
  rfl

end FlOp.Stream
