import FlOp.Library.ConsumerGroup
import FlOp.Stream.PoisonTolerance

/-! # Planners sharing a Redis stream

Planning processes read one stream as consumers of a group. A source first reads what is pending
with its consumer, left there by a process that stopped, and then new entries. It acknowledges what
it read on commit, after it has been iterated to its end; a process that stops before leaves its
entries pending. Processes of different consumers run side by side.
-/

namespace FlOp.Stream

open Library

/-- Where a source stands: in the pending entries, after the last one read, or in the new ones,
after some empty reads. -/
inductive ReadPhase where
  | readPending (cursor : Option ℕ)
  | readNew (emptyPolls : ℕ)
deriving DecidableEq

/-- An open `RedisStreamEventSource`: its phase, the ids it collected and the events it yielded. -/
structure OpenSource where
  phase : ReadPhase := .readPending none
  ids : List ℕ := []
  yielded : List DecodedEvent := []

structure RedisSettings where
  codec : Codec
  count : ℕ := 10
  maxEmptyPolls : Option ℕ := some 3

/-- The server, the open source of each consumer, and the sources that were committed. -/
structure RedisGroup (σ : Type*) where
  server : σ
  sources : String → Option OpenSource := fun _ => none
  committed : List (String × OpenSource) := []

/-- What can happen next; closing a source is also what a crash does. -/
inductive GroupAction where
  | produce (message : Message)
  | iterate (consumer : String)
  | poll (consumer : String)
  | commit (consumer : String)
  | close (consumer : String)

namespace ReadPhase

/-- The iteration is over. -/
def ended (settings : RedisSettings) : ReadPhase → Bool
  | .readPending _ => false
  | .readNew emptyPolls => drained settings.maxEmptyPolls emptyPolls

/-- The phase after a read of some entries. -/
def next (ids : List ℕ) : ReadPhase → ReadPhase
  | .readPending cursor => if ids = [] then .readNew 0 else .readPending (ids.getLast?.or cursor)
  | .readNew emptyPolls => if ids = [] then .readNew (emptyPolls + 1) else .readNew 0

/-- The ids read so far are the pending ones up to where the phase stands. -/
def Covers (ids pending : List ℕ) : ReadPhase → Prop
  | .readPending cursor => cursor = ids.getLast? ∧ ids <+: pending
  | .readNew _ => ids = pending

/-- A bound on the reads still ahead of a phase, apart from those that hand new entries out. -/
def left (n unread : ℕ) : ReadPhase → ℕ
  | .readPending _ => unread + n + 2
  | .readNew emptyPolls => n + 1 - emptyPolls

variable {ids pending rest batch : List ℕ}

theorem Covers.front {phase : ReadPhase} (covers : phase.Covers ids pending) :
    ids <+: pending := by
  cases phase with
  | readPending cursor => exact covers.2
  | readNew emptyPolls => exact covers ▸ List.prefix_rfl

/-- The next page of pending entries is covered, and an empty page ends them. -/
theorem covers_next_page {count : ℕ} (positive : 0 < count) :
    ((ReadPhase.readPending ids.getLast?).next (rest.take count)).Covers
      (ids ++ rest.take count) (ids ++ rest) := by
  rw [next]
  split
  · next empty =>
    obtain rfl : rest = [] :=
      (List.take_eq_nil_iff.mp empty).resolve_left positive.ne'
    exact congrArg (ids ++ ·) List.take_nil
  · refine ⟨List.getLast?_append.symm, ?_⟩
    exact (List.prefix_append_right_inj ids).mpr (List.take_prefix count rest)

theorem covers_next_new {emptyPolls : ℕ} :
    ((ReadPhase.readNew emptyPolls).next batch).Covers (ids ++ batch) (ids ++ batch) := by
  rw [next]
  split <;> rfl

end ReadPhase

/-- A source after a read of some entries that yielded some events. -/
def OpenSource.receive (source : OpenSource) (ids : List ℕ) (events : List DecodedEvent) :
    OpenSource where
  phase := source.phase.next ids
  ids := source.ids ++ ids
  yielded := source.yielded ++ events

variable {σ : Type*}

namespace RedisGroup

variable (server : GroupServer Message String σ) (settings : RedisSettings)

/-- The messages of some entries. -/
def messages (s : σ) (ids : List ℕ) : List Message := ids.filterMap ((server.log s)[·]?)

/-- `_xreadgroup`: the entries read in a phase. -/
def xreadgroup (s : σ) (consumer : String) : ReadPhase → List ℕ × σ
  | .readPending cursor => (server.readPending s consumer cursor (max settings.count 1), s)
  | .readNew _ => server.readNew s consumer (max settings.count 1)

/-- One read of a source; a body no guard stands before ends the process. -/
def poll (group : RedisGroup σ) (consumer : String) (source : OpenSource) : RedisGroup σ :=
  let (ids, s) := xreadgroup server settings group.server consumer source.phase
  let read := redisClient.readBatch settings.codec (messages server s ids)
  { group with
    server := s
    sources := Function.update group.sources consumer
      (if read.raised = none then some (source.receive ids read.yielded) else none) }

/-- `commit`: acknowledge the entries read, if there are any. -/
def commit (group : RedisGroup σ) (consumer : String) (source : OpenSource) : RedisGroup σ where
  server := if source.ids = [] then group.server else server.acknowledge group.server source.ids
  sources := Function.update group.sources consumer none
  committed := group.committed ++ [(consumer, source)]

/-- One step. A source is committed only when it has been iterated to its end. -/
def step (group : RedisGroup σ) : GroupAction → Option (RedisGroup σ)
  | .produce message => some { group with server := server.add group.server message }
  | .iterate consumer =>
    if (group.sources consumer).isNone then
      some { group with sources := Function.update group.sources consumer (some {}) }
    else none
  | .poll consumer => (group.sources consumer).bind fun source =>
      if source.phase.ended settings then none
      else some (group.poll server settings consumer source)
  | .commit consumer => (group.sources consumer).bind fun source =>
      if source.phase.ended settings then some (group.commit server consumer source) else none
  | .close consumer => some { group with sources := Function.update group.sources consumer none }

/-- Runs from a server that nothing was added to yet. -/
def system : LabeledSystem (RedisGroup σ) GroupAction :=
  .ofStep (fun group => server.log group.server = [] ∧ server.handedOut group.server = 0 ∧
    (∀ consumer, server.pending group.server consumer = []) ∧
    (∀ consumer, group.sources consumer = none) ∧ group.committed = []) (step server settings)

/-- All entries acknowledged so far. -/
def acked (group : RedisGroup σ) : List ℕ := group.committed.flatMap fun run => run.2.ids

/-- A source has yielded the valid events of the entries it read, in order. -/
def Yields (s : σ) (source : OpenSource) : Prop :=
  source.yielded = (messages server s source.ids).filterMap (eventOf settings.codec)

/-- A source has read the pending entries of its consumer up to where it stands. -/
structure Follows (s : σ) (consumer : String) (source : OpenSource) : Prop where
  covers : source.phase.Covers source.ids (server.pending s consumer)
  yields : Yields server settings s source

/-- Every entry handed out is pending with one consumer or acknowledged by one committed source;
sources have read what is pending with their consumer, and have yielded its valid events. -/
structure Sound (group : RedisGroup σ) : Prop where
  accounted : server.Accounted group.server group.acked
  follows : ∀ consumer source, group.sources consumer = some source →
    Follows server settings group.server consumer source
  yielded : ∀ run ∈ group.committed, Yields server settings group.server run.2

variable {server settings} {s t : σ} {consumer : String} {source : OpenSource}

theorem Follows.ids_eq (follows : Follows server settings s consumer source)
    (ended : source.phase.ended settings) : source.ids = server.pending s consumer := by
  have covers := follows.covers
  cases phase : source.phase with
  | readPending cursor =>
    rw [phase] at ended
    exact absurd ended Bool.false_ne_true
  | readNew emptyPolls =>
    rw [phase] at covers
    exact covers

/-- What a source has read depends on its consumer's entries and their messages only. -/
theorem Follows.of_eq (follows : Follows server settings s consumer source)
    (pending : server.pending t consumer = server.pending s consumer)
    (messages : messages server t source.ids = messages server s source.ids) :
    Follows server settings t consumer source := by
  refine ⟨?_, ?_⟩
  · rw [pending]
    exact follows.covers
  · rw [Yields, messages]
    exact follows.yields

/-- A commit leaves the stream as it is. -/
theorem log_commit (group : RedisGroup σ) (consumer : String) (source : OpenSource) :
    server.log (group.commit server consumer source).server = server.log group.server := by
  unfold commit
  split
  · rfl
  · exact server.log_acknowledge _ _

theorem handedOut_commit (group : RedisGroup σ) (consumer : String) (source : OpenSource) :
    server.handedOut (group.commit server consumer source).server =
      server.handedOut group.server := by
  unfold commit
  split
  · rfl
  · exact server.handedOut_acknowledge _ _

theorem messages_of_log (same : server.log t = server.log s) (ids : List ℕ) :
    messages server t ids = messages server s ids := by
  rw [messages, messages, same]

/-- Entries of the log keep their messages when one is added. -/
theorem messages_add {ids : List ℕ} (within : ∀ id ∈ ids, id < (server.log s).length)
    (message : Message) : messages server (server.add s message) ids = messages server s ids := by
  refine List.filterMap_congr fun id listed => ?_
  rw [server.log_add]
  exact List.getElem?_append_left (within id listed)

/-- A batch that does not raise yields the events of its valid messages. -/
theorem yielded_readBatch {codec : Codec} {batch : List Message}
    (fine : (redisClient.readBatch codec batch).raised = none) :
    (redisClient.readBatch codec batch).yielded = batch.filterMap (eventOf codec) := by
  have handles := redisClient.readBatch_handles codec batch
  have clean : ∀ message ∈ batch, ¬ Poison redisClient codec message.body :=
    fun message listed poison => handles.raises ⟨message, listed, poison⟩ fine
  rw [handles.sound clean]

/-- Reading on follows the entries that are pending after the read. -/
theorem Follows.xreadgroup (follows : Follows server settings s consumer source) {ids : List ℕ}
    (ascending : (server.pending s consumer).Pairwise (· < ·))
    (taken : xreadgroup server settings s consumer source.phase = (ids, t))
    (fine : (redisClient.readBatch settings.codec (messages server t ids)).raised = none)
    (same : server.log t = server.log s) :
    Follows server settings t consumer (source.receive ids
      (redisClient.readBatch settings.codec (messages server t ids)).yielded) := by
  obtain ⟨covers, yields⟩ := follows
  refine ⟨?_, ?_⟩
  · rw [OpenSource.receive]
    cases phase : source.phase with
    | readPending cursor =>
      rw [phase] at covers taken
      obtain ⟨rfl, rest, pending⟩ := covers
      obtain ⟨page, rfl⟩ := Prod.mk.inj taken
      rw [server.readPending_eq, ← pending, filter_afterCursor (pending ▸ ascending)] at page
      rw [← pending, ← page]
      exact ReadPhase.covers_next_page (by omega)
    | readNew emptyPolls =>
      rw [phase] at covers taken
      obtain ⟨batch, state⟩ := Prod.ext_iff.mp taken
      have pending := congrFun (server.pending_readNew s consumer (max settings.count 1)) consumer
      simp only [RedisGroup.xreadgroup] at batch state
      rw [batch, state, Function.update_self, ← show source.ids = _ from covers] at pending
      rw [pending]
      exact ReadPhase.covers_next_new
  · rw [Yields, OpenSource.receive, yields, yielded_readBatch fine, messages_of_log same,
      messages_of_log same, messages, messages, messages, List.filterMap_append,
      List.filterMap_append]

/-- What one read does to the server: nothing, or it hands new entries out to the consumer. -/
theorem xreadgroup_cases {phase : ReadPhase} {ids : List ℕ}
    (taken : RedisGroup.xreadgroup server settings s consumer phase = (ids, t)) :
    t = s ∨ (ids, t) = server.readNew s consumer (max settings.count 1) := by
  cases phase with
  | readPending cursor => exact .inl (Prod.mk.inj taken).2.symm
  | readNew emptyPolls => exact .inr taken.symm

namespace Sound

variable {group next : RedisGroup σ}

theorem produce (sound : Sound server settings group) (message : Message) :
    Sound server settings { group with server := server.add group.server message } := by
  obtain ⟨accounted, follows, yielded⟩ := sound
  have known : ∀ id, (id < server.handedOut group.server) →
      id < (server.log group.server).length := fun id out => out.trans_le accounted.within
  refine ⟨accounted.add message, ?_, ?_⟩
  · intro consumer source opened
    have own := follows consumer source opened
    refine own.of_eq (congrFun (server.pending_add _ _) consumer) (messages_add ?_ message)
    exact fun id listed => known id (accounted.reached consumer id (own.covers.front.mem listed))
  · intro run listed
    rw [Yields, messages_add]
    · exact yielded run listed
    · intro id acked
      exact known id (accounted.settled id (List.mem_flatMap.mpr ⟨run, listed, acked⟩)).1

theorem iterate (sound : Sound server settings group) (consumer : String) :
    Sound server settings
      { group with sources := Function.update group.sources consumer (some {}) } := by
  refine ⟨sound.accounted, ?_, sound.yielded⟩
  intro other source opened
  dsimp only at opened
  rw [Function.update_apply] at opened
  split at opened
  · obtain rfl := Option.some_inj.mp opened
    exact ⟨⟨rfl, List.nil_prefix⟩, rfl⟩
  · exact sound.follows other source opened

theorem close (sound : Sound server settings group) (consumer : String) :
    Sound server settings
      { group with sources := Function.update group.sources consumer none } := by
  refine ⟨sound.accounted, ?_, sound.yielded⟩
  intro other source opened
  dsimp only at opened
  rw [Function.update_apply] at opened
  split at opened
  · exact (Option.some_ne_none _ opened.symm).elim
  · exact sound.follows other source opened

/-- A read concerns its own consumer only. -/
theorem poll (sound : Sound server settings group)
    (opened : group.sources consumer = some source) :
    Sound server settings (group.poll server settings consumer source) := by
  obtain ⟨accounted, follows, yielded⟩ := sound
  have own := follows consumer source opened
  unfold RedisGroup.poll
  cases taken : RedisGroup.xreadgroup server settings group.server consumer source.phase with
  | mk ids t =>
    have same : server.log t = server.log group.server := by
      rcases xreadgroup_cases taken with rfl | handed
      · rfl
      · rw [(Prod.mk.inj handed).2, server.log_readNew]
    have others : ∀ other ≠ consumer,
        server.pending t other = server.pending group.server other := by
      intro other differ
      rcases xreadgroup_cases taken with rfl | handed
      · rfl
      · rw [(Prod.mk.inj handed).2, server.pending_readNew, Function.update_of_ne differ]
    refine ⟨?_, ?_, ?_⟩
    · rcases xreadgroup_cases taken with rfl | handed
      · exact accounted
      · rw [(Prod.mk.inj handed).2]
        exact accounted.readNew consumer _
    · intro other state reading
      dsimp only at reading ⊢
      rw [Function.update_apply] at reading
      split at reading
      · next self =>
        split at reading
        · next fine =>
          obtain rfl := Option.some_inj.mp reading
          rw [self]
          exact own.xreadgroup (accounted.ascending consumer) taken fine same
        · exact (Option.some_ne_none _ reading.symm).elim
      · next differ =>
        exact (follows other state reading).of_eq (others other differ) (messages_of_log same _)
    · intro run listed
      rw [Yields, messages_of_log same]
      exact yielded run listed

/-- A committed source acknowledges exactly what is pending with its consumer. -/
theorem commit (sound : Sound server settings group)
    (opened : group.sources consumer = some source) (ended : source.phase.ended settings) :
    Sound server settings (group.commit server consumer source) := by
  obtain ⟨accounted, follows, yielded⟩ := sound
  have own := follows consumer source opened
  have held := own.ids_eq ended
  have acked : (group.commit server consumer source).acked = group.acked ++ source.ids := by
    simp [RedisGroup.acked, RedisGroup.commit]
  have same : server.log (group.commit server consumer source).server =
      server.log group.server := log_commit group consumer source
  refine ⟨?_, ?_, ?_⟩
  · rw [acked]
    unfold RedisGroup.commit
    split
    · next none => simpa [none] using accounted
    · exact accounted.acknowledge held
  · intro other state reading
    simp only [RedisGroup.commit, Function.update_apply] at reading
    split at reading
    · exact (Option.some_ne_none _ reading.symm).elim
    · next differ =>
      refine (follows other state reading).of_eq ?_ (messages_of_log same _)
      unfold RedisGroup.commit
      split
      · rfl
      · rw [server.pending_acknowledge, List.filter_eq_self]
        intro id pending
        rw [decide_eq_true_iff, held]
        exact fun acked => accounted.apart other consumer differ pending acked
  · intro run listed
    rw [Yields, messages_of_log same]
    rcases List.mem_append.mp listed with before | now
    · exact yielded run before
    · obtain rfl := List.mem_singleton.mp now
      exact own.yields

/-- Every step keeps the entries accounted for. -/
theorem step (sound : Sound server settings group) {action : GroupAction}
    (taken : group.step server settings action = some next) : Sound server settings next := by
  cases action with
  | produce message =>
    obtain rfl := Option.some_inj.mp taken
    exact sound.produce message
  | iterate consumer =>
    obtain ⟨-, made⟩ := Option.ite_none_right_eq_some.mp taken
    obtain rfl := Option.some_inj.mp made
    exact sound.iterate consumer
  | poll consumer =>
    obtain ⟨source, opened, polled⟩ := Option.bind_eq_some_iff.mp taken
    obtain ⟨-, made⟩ := Option.ite_none_left_eq_some.mp polled
    obtain rfl := Option.some_inj.mp made
    exact sound.poll opened
  | commit consumer =>
    obtain ⟨source, opened, committed⟩ := Option.bind_eq_some_iff.mp taken
    obtain ⟨ended, made⟩ := Option.ite_none_right_eq_some.mp committed
    obtain rfl := Option.some_inj.mp made
    exact sound.commit opened ended
  | close consumer =>
    obtain rfl := Option.some_inj.mp taken
    exact sound.close consumer

theorem initial (start : (system server settings).Initial group) :
    Sound server settings group := by
  obtain ⟨log, handedOut, pending, closed, committed⟩ := start
  have acked : group.acked = [] := by rw [RedisGroup.acked, committed, List.flatMap_nil]
  refine ⟨?_, ?_, ?_⟩
  · rw [acked]
    constructor <;> simp [pending, handedOut]
  · intro consumer source opened
    rw [closed consumer] at opened
    exact (Option.some_ne_none _ opened.symm).elim
  · rw [committed]
    exact fun _ listed => absurd listed List.not_mem_nil

end Sound

theorem sound_of_reachable {group : RedisGroup σ}
    (run : (system server settings).Reachable group) : Sound server settings group :=
  run.invariant (Sound server settings) (fun _ start => .initial start)
    fun _ _ _ sound _ taken => sound.step taken

/-- Where the entries of the stream are, and what became of them. -/
structure Delivers (server : GroupServer Message String σ) (settings : RedisSettings)
    (group : RedisGroup σ) : Prop where
  /-- An entry is not handed out yet, or acknowledged, or pending with exactly one consumer. -/
  placed : ∀ id < (server.log group.server).length,
    (server.handedOut group.server ≤ id ∧ id ∉ group.acked ∧
      ∀ consumer, id ∉ server.pending group.server consumer) ∨
    (id < server.handedOut group.server ∧ id ∈ group.acked ∧
      ∀ consumer, id ∉ server.pending group.server consumer) ∨
    (id < server.handedOut group.server ∧ id ∉ group.acked ∧
      ∃! consumer, id ∈ server.pending group.server consumer)
  /-- No entry is acknowledged by two sources, or twice by one. -/
  once : group.acked.Nodup
  /-- A committed source had yielded the valid events of its entries, in order. -/
  committed : ∀ run ∈ group.committed, Yields server settings group.server run.2
  /-- A source at its end has yielded the valid events of all its consumer's pending entries. -/
  caughtUp : ∀ consumer source, group.sources consumer = some source →
    source.phase.ended settings → source.ids = server.pending group.server consumer ∧
      Yields server settings group.server source

/-- However the consumers' reads, commits and crashes interleave, no entry is lost and none is
acknowledged twice or without its event having been yielded. -/
theorem delivers_of_reachable {group : RedisGroup σ}
    (run : (system server settings).Reachable group) : Delivers server settings group := by
  obtain ⟨accounted, follows, yielded⟩ := sound_of_reachable run
  refine ⟨?_, accounted.once, yielded, ?_⟩
  · intro id _
    by_cases acked : id ∈ group.acked
    · obtain ⟨out, absent⟩ := accounted.settled id acked
      exact .inr (.inl ⟨out, acked, absent⟩)
    · by_cases out : id < server.handedOut group.server
      · obtain ⟨consumer, pending⟩ := (accounted.covered id out).resolve_left acked
        refine .inr (.inr ⟨out, acked, consumer, pending, ?_⟩)
        intro other pendingToo
        by_contra differ
        exact accounted.apart other consumer differ pendingToo pending
      · refine .inl ⟨not_lt.mp out, acked, ?_⟩
        exact fun consumer pending => out (accounted.reached consumer id pending)
  · intro consumer source opened ended
    have own := follows consumer source opened
    exact ⟨own.ids_eq ended, own.yields⟩

/-- A consumer that stops keeps its entry, and the other one is handed the next. -/
theorem delivers_of_reachable_stopped :
    ∃ group : RedisGroup (GroupLog Message String),
      LabeledSystem.exec (fun _ _ => True) (step groupLogServer { codec := cancellationCodec })
        [.produce cancellation, .iterate "fl-op-1", .iterate "fl-op-2", .poll "fl-op-1",
          .poll "fl-op-1", .close "fl-op-1", .produce malformed, .poll "fl-op-2", .poll "fl-op-2"]
        { server := {} } = some group ∧
      Delivers groupLogServer { codec := cancellationCodec } group := by
  have start : (system groupLogServer { codec := cancellationCodec }).Reachable { server := {} } :=
    .initial ⟨rfl, rfl, fun _ => rfl, fun _ => rfl, rfl⟩
  obtain ⟨group, executed⟩ : ∃ group : RedisGroup (GroupLog Message String),
      LabeledSystem.exec (fun _ _ => True) (step groupLogServer { codec := cancellationCodec })
        [.produce cancellation, .iterate "fl-op-1", .iterate "fl-op-2", .poll "fl-op-1",
          .poll "fl-op-1", .close "fl-op-1", .produce malformed, .poll "fl-op-2", .poll "fl-op-2"]
        { server := {} } = some group := ⟨_, rfl⟩
  exact ⟨group, executed, delivers_of_reachable (start.exec executed)⟩

/-! ## Catching up -/

section CatchingUp

variable {group : RedisGroup σ} {n : ℕ}

/-- A bound on the reads still ahead of a source that nobody interferes with. -/
def readsLeft (server : GroupServer Message String σ) (n : ℕ) (s : σ) (consumer : String)
    (source : OpenSource) : ℕ :=
  ((server.log s).length - server.handedOut s) * (n + 2) +
    source.phase.left n ((server.pending s consumer).length - source.ids.length)

/-- Nothing but readable messages was added. -/
def Clean (server : GroupServer Message String σ) (settings : RedisSettings) (s : σ) : Prop :=
  ∀ message ∈ server.log s, ¬ Poison redisClient settings.codec message.body

/-- A source has met an empty read of new entries only once all are handed out. -/
def Late (server : GroupServer Message String σ) (s : σ) (source : OpenSource) : Prop :=
  ∀ emptyPolls, source.phase = .readNew (emptyPolls + 1) →
    server.handedOut s = (server.log s).length

/-- One read of a source at work on its own. -/
structure Advances (server : GroupServer Message String σ) (settings : RedisSettings) (n : ℕ)
    (consumer : String) (group next : RedisGroup σ) (source later : OpenSource) : Prop where
  step : group.step server settings (.poll consumer) = some next
  opened : next.sources consumer = some later
  committed : next.committed = group.committed
  log : server.log next.server = server.log group.server
  late : Late server next.server later
  closer : readsLeft server n next.server consumer later <
    readsLeft server n group.server consumer source
  handedOut : ∃ count, server.handedOut next.server = server.handedOut group.server + count ∧
    server.pending next.server consumer = server.pending group.server consumer ++
      List.range' (server.handedOut group.server) count

theorem raised_readBatch (clean : Clean server settings s) (ids : List ℕ) :
    (redisClient.readBatch settings.codec (messages server s ids)).raised = none := by
  have handles := redisClient.readBatch_handles settings.codec (messages server s ids)
  rw [handles.sound]
  intro message listed
  obtain ⟨id, -, found⟩ := List.mem_filterMap.mp listed
  exact clean message (List.mem_of_getElem? found)

/-- A read that raises nothing hands the source its entries. -/
theorem poll_of_clean {ids : List ℕ} (clean : Clean server settings t)
    (taken : RedisGroup.xreadgroup server settings group.server consumer source.phase = (ids, t)) :
    group.poll server settings consumer source = { group with
      server := t
      sources := Function.update group.sources consumer (some (source.receive ids
        (redisClient.readBatch settings.codec (messages server t ids)).yielded)) } := by
  simp only [poll, taken, raised_readBatch clean, if_true]

theorem exists_advances (limit : settings.maxEmptyPolls = some (n + 1))
    (clean : Clean server settings group.server) (sound : Sound server settings group)
    (opened : group.sources consumer = some source)
    (reading : ¬ source.phase.ended settings) :
    ∃ next later, Advances server settings n consumer group next source later := by
  have covers := (sound.follows consumer source opened).covers
  have ascending := sound.accounted.ascending consumer
  have within := sound.accounted.within
  have step : group.step server settings (.poll consumer) =
      some (group.poll server settings consumer source) := by
    rw [RedisGroup.step, opened, Option.bind_some, if_neg reading]
  cases phase : source.phase with
  | readPending cursor =>
    rw [phase] at covers
    obtain ⟨rfl, rest, pending⟩ := covers
    have page : xreadgroup server settings group.server consumer source.phase =
        (rest.take (max settings.count 1), group.server) := by
      rw [phase, xreadgroup, server.readPending_eq, ← pending,
        filter_afterCursor (pending ▸ ascending)]
    rw [poll_of_clean clean page] at step
    refine ⟨_, _, step, Function.update_self _ _ _, rfl, rfl, ?_, ?_, 0, rfl, ?_⟩
    · intro emptyPolls counted
      rw [OpenSource.receive, phase, ReadPhase.next] at counted
      split at counted <;> cases counted
    · rw [readsLeft, readsLeft, OpenSource.receive, phase, ← pending]
      by_cases last : rest.take (max settings.count 1) = []
      · simp only [ReadPhase.next, last, if_true, ReadPhase.left, List.length_append]
        omega
      · have more : 0 < (rest.take (max settings.count 1)).length := List.length_pos_iff.mpr last
        simp only [ReadPhase.next, last, if_false, ReadPhase.left, List.length_append]
        have part := (List.take_sublist (max settings.count 1) rest).length_le
        omega
    · rw [List.range'_zero, List.append_nil]
  | readNew emptyPolls =>
    have polls : emptyPolls < n + 1 := by
      simpa [ReadPhase.ended, phase, drained, limit] using reading
    have page : xreadgroup server settings group.server consumer source.phase =
        server.readNew group.server consumer (max settings.count 1) := by
      rw [phase, xreadgroup]
    have same := server.log_readNew group.server consumer (max settings.count 1)
    have taken := server.fst_readNew group.server consumer (max settings.count 1)
    have out := server.handedOut_readNew group.server consumer (max settings.count 1)
    have pending := congrFun
      (server.pending_readNew group.server consumer (max settings.count 1)) consumer
    rw [Function.update_self, taken] at pending
    rw [taken, List.length_range'] at out
    rw [poll_of_clean (by rw [Clean, same]; exact clean) page, taken] at step
    refine ⟨_, _, step, Function.update_self _ _ _, rfl, same, ?_, ?_, _, out, pending⟩
    · intro counted run
      rw [OpenSource.receive, phase, ReadPhase.next] at run
      split at run
      · next empty =>
        rw [List.range'_eq_nil_iff] at empty
        rw [out, same]
        omega
      · cases run
    · rw [readsLeft, readsLeft, OpenSource.receive, phase]
      dsimp only
      rw [same, out]
      by_cases last : min (max settings.count 1) ((server.log group.server).length -
          server.handedOut group.server) = 0
      · simp only [last, List.range'_zero, ReadPhase.next, if_true, ReadPhase.left, Nat.add_zero]
        omega
      · have ahead : (server.log group.server).length - (server.handedOut group.server +
            min (max settings.count 1) ((server.log group.server).length -
              server.handedOut group.server)) + 1 ≤
            (server.log group.server).length - server.handedOut group.server := by omega
        have fewer := Nat.mul_le_mul_right (n + 2) ahead
        rw [Nat.succ_mul] at fewer
        rw [ReadPhase.next, if_neg (by rwa [List.range'_eq_nil_iff]), ReadPhase.left,
          ReadPhase.left]
        omega

/-- Reading alone, a source gets to its end, and everything is handed out by then. -/
theorem exists_polls (limit : settings.maxEmptyPolls = some (n + 1))
    (clean : Clean server settings group.server) (sound : Sound server settings group)
    (opened : group.sources consumer = some source) (late : Late server group.server source) :
    ∃ polls next ending,
      LabeledSystem.exec (fun _ _ => True) (step server settings)
          (List.replicate polls (.poll consumer)) group = some next ∧
        next.sources consumer = some ending ∧ ending.phase.ended settings ∧
        next.committed = group.committed ∧
        server.log next.server = server.log group.server ∧
        server.handedOut next.server = (server.log group.server).length ∧
        server.pending next.server consumer = server.pending group.server consumer ++
          List.range' (server.handedOut group.server)
            ((server.log group.server).length - server.handedOut group.server) := by
  induction left : readsLeft server n group.server consumer source using Nat.strong_induction_on
    generalizing group source with
  | _ bound ih =>
    subst left
    by_cases ended : source.phase.ended settings
    · have out : server.handedOut group.server = (server.log group.server).length := by
        cases phase : source.phase with
        | readPending cursor =>
          rw [phase] at ended
          exact absurd ended Bool.false_ne_true
        | readNew emptyPolls =>
          have polls : n + 1 ≤ emptyPolls := by
            simpa [ReadPhase.ended, phase, drained, limit] using ended
          obtain ⟨before, rfl⟩ : ∃ before, emptyPolls = before + 1 := ⟨emptyPolls - 1, by omega⟩
          exact late before phase
      refine ⟨0, group, source, rfl, opened, ended, rfl, rfl, out, ?_⟩
      rw [out, Nat.sub_self, List.range'_zero, List.append_nil]
    · obtain ⟨next, later, advances⟩ := exists_advances limit clean sound opened ended
      obtain ⟨count, out, pending⟩ := advances.handedOut
      have stillClean : Clean server settings next.server := by
        rw [Clean, advances.log]
        exact clean
      have stillSound := sound.step advances.step
      obtain ⟨polls, final, ending, executed, ends, done, committed, log, allOut, allPending⟩ :=
        ih _ advances.closer stillClean stillSound advances.opened advances.late rfl
      have within := stillSound.accounted.within
      rw [advances.log, out] at within
      refine ⟨polls + 1, final, ending, ?_, ends, done, committed.trans advances.committed,
        log.trans advances.log, by rw [allOut, advances.log], ?_⟩
      · rw [List.replicate_succ, LabeledSystem.exec, if_pos trivial, advances.step,
          Option.bind_some, executed]
      · rw [allPending, pending, List.append_assoc, advances.log, out, List.range'_append_1]
        congr 2
        omega

end CatchingUp

end RedisGroup

end FlOp.Stream
