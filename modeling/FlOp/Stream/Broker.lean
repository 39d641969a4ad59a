import FlOp.Stream.Source

/-! # Broker event sources

A message body passes byte decoding, JSON parsing and event validation. The two sources share
this chain and differ in how they poll and in which errors their guarded block catches: the
decoding of bytes lies outside the block in both. The codec itself is supplied from outside.
-/

namespace FlOp.Stream

/-- A parsed JSON value; an object holds each key once. -/
inductive Json where
  | null
  | boolean (value : Bool)
  | number (value : ℚ) (shown : String)
  | text (value : String)
  | array (items : List Json)
  | object (fields : List (String × Json))

namespace Json

/-- `bool(value)`. -/
def truthy : Json → Bool
  | null => false
  | boolean value => value
  | number value _ => value ≠ 0
  | text value => value ≠ ""
  | array items => !items.isEmpty
  | object fields => !fields.isEmpty

/-- `record.get(key, default)`. -/
def get (fields : List (String × Json)) (key : String) (absent : Json) : Json :=
  (fields.lookup key).getD absent

end Json

/-- What reading a body can raise; a decoding error of bytes or of JSON is a value error. -/
inductive BodyError where
  | valueError
  | typeError
  | attributeError
  | recursionError
deriving DecidableEq, Repr

/-- Decoding and time formatting of the standard library. -/
structure Codec where
  decodeUtf8 : List UInt8 → Option String
  loads : String → Except BodyError Json
  isoFormat : ℚ → String

def EventType.ofText : String → Option EventType
  | "task.started" => some .taskStarted
  | "task.progress" => some .taskProgress
  | "task.completed" => some .taskCompleted
  | "order.created" => some .orderCreated
  | "order.cancelled" => some .orderCancelled
  | "asset.unavailable" => some .assetUnavailable
  | "forecast.updated" => some .forecastUpdated
  | "observation.recorded" => some .observationRecorded
  | "entity.corrected" => some .entityCorrected
  | "inventory.adjusted" => some .inventoryAdjusted
  | _ => none

/-- An event as it leaves the parser; only its type has been checked. -/
structure DecodedEvent where
  eventId : Json
  eventType : EventType
  observedAt : Json
  entityRef : Json
  payload : Json
  ingestedAt : Json

/-- The payload of a record, from its own field or from embedded JSON. -/
def parsePayload (codec : Codec) (fields : List (String × Json)) : Except BodyError Json :=
  match Json.get fields "payload" .null with
  | .null =>
    match Json.get fields "payload_json" (.text "\x7b\x7d") with
    | .text raw => codec.loads raw
    | raw => .ok (if raw.truthy then raw else .object [])
  | payload => .ok payload

/-- The supported type of a record; looking a list or an object up in the set raises. -/
def parseEventType (fields : List (String × Json)) : Except BodyError EventType :=
  match Json.get fields "event_type" (.text "") with
  | .array _ | .object _ => .error .typeError
  | .text name => (EventType.ofText name).elim (.error .valueError) .ok
  | _ => .error .valueError

/-- Normalize a raw record; only an object has fields to get. -/
def parseEvent (codec : Codec) : Json → Except BodyError DecodedEvent
  | .object fields =>
    match parsePayload codec fields with
    | .error e => .error e
    | .ok payload =>
      match parseEventType fields with
      | .error e => .error e
      | .ok eventType => .ok {
          eventId := Json.get fields "event_id" (.text "")
          eventType := eventType
          observedAt := Json.get fields "observed_at" (.text "")
          entityRef := Json.get fields "entity_ref" (.text "")
          payload := payload
          ingestedAt := Json.get fields "ingested_at" (.text "") }
  | _ => .error .attributeError

/-- Fill a blank arrival time from the broker's, given in milliseconds. -/
def stampBrokerIngested (codec : Codec) (arrival : Option ℚ) (event : DecodedEvent) :
    DecodedEvent :=
  match arrival with
  | some ms =>
    if event.ingestedAt.truthy ∨ ms ≤ 0 then event
    else { event with ingestedAt := .text (codec.isoFormat (ms / 1000)) }
  | none => event

/-- A message body: missing, raw bytes, or text that the client has decoded. -/
inductive Body where
  | absent
  | bytes (raw : List UInt8)
  | text (value : String)
deriving DecidableEq

structure Message where
  body : Body
  arrival : Option ℚ := none
deriving DecidableEq

/-- Parse a decoded body. -/
def parseText (codec : Codec) (text : String) : Except BodyError DecodedEvent :=
  match codec.loads text with
  | .error e => .error e
  | .ok value => parseEvent codec value

/-- Everything a body passes, guarded or not. -/
def parseBody (codec : Codec) : Body → Except BodyError DecodedEvent
  | .absent => .error .typeError
  | .text value => parseText codec value
  | .bytes raw =>
    match codec.decodeUtf8 raw with
    | none => .error .valueError
    | some text => parseText codec text

/-- The event of a valid message, as a source yields it. -/
def eventOf (codec : Codec) (message : Message) : Option DecodedEvent :=
  match parseBody codec message.body with
  | .ok event => some (stampBrokerIngested codec message.arrival event)
  | .error _ => none

/-- A broker client, by the errors its guarded block catches. -/
structure Client where
  guards : BodyError → Bool

/-- `except (json.JSONDecodeError, ValueError)`. -/
def kafkaClient : Client := ⟨fun e => e = .valueError⟩

/-- `except (TypeError, json.JSONDecodeError, ValueError)`. -/
def redisClient : Client := ⟨fun e => e = .typeError || e = .valueError⟩

namespace Client

variable (client : Client) (codec : Codec)

/-- The guarded block: a caught error skips the message. -/
def guarded : Except BodyError DecodedEvent → Except BodyError (Option DecodedEvent)
  | .ok event => .ok (some event)
  | .error e => if client.guards e then .ok none else .error e

/-- Read one message; bytes are decoded before the guarded block. -/
def read (message : Message) : Except BodyError (Option DecodedEvent) :=
  let parsed : Except BodyError (Option DecodedEvent) :=
    match message.body with
    | .bytes raw =>
      match codec.decodeUtf8 raw with
      | none => .error .valueError
      | some text => client.guarded (parseText codec text)
    | .text value => client.guarded (parseText codec value)
    | .absent => client.guarded (.error .typeError)
  match parsed with
  | .error e => .error e
  | .ok event => .ok (event.map (stampBrokerIngested codec message.arrival))

end Client

/-- The text of a body that has one. -/
def Codec.textOf (codec : Codec) : Body → Option String
  | .absent => none
  | .bytes raw => codec.decodeUtf8 raw
  | .text value => some value

/-- The bodies that no guard stands before. -/
inductive Poison (client : Client) (codec : Codec) : Body → Prop
  | undecodable {raw : List UInt8} (invalid : codec.decodeUtf8 raw = none) :
      Poison client codec (.bytes raw)
  | absent (unguarded : client.guards .typeError = false) : Poison client codec .absent
  | unreadable {body : Body} {text : String} {e : BodyError} (decoded : codec.textOf body = text)
      (loaded : codec.loads text = .error e) (unguarded : client.guards e = false) :
      Poison client codec body
  | bare {body : Body} {text : String} {value : Json} (decoded : codec.textOf body = text)
      (loaded : codec.loads text = .ok value) (bare : ∀ fields, value ≠ .object fields)
      (unguarded : client.guards .attributeError = false) : Poison client codec body
  | payload {body : Body} {text : String} {fields : List (String × Json)} {e : BodyError}
      (decoded : codec.textOf body = text) (loaded : codec.loads text = .ok (.object fields))
      (payload : parsePayload codec fields = .error e) (unguarded : client.guards e = false) :
      Poison client codec body
  | eventType {body : Body} {text : String} {fields : List (String × Json)} {payload : Json}
      {e : BodyError} (decoded : codec.textOf body = text)
      (loaded : codec.loads text = .ok (.object fields))
      (payload : parsePayload codec fields = .ok payload)
      (eventType : parseEventType fields = .error e) (unguarded : client.guards e = false) :
      Poison client codec body

section Reading

variable {client : Client} {codec : Codec} {message : Message}

/-- A text raises exactly where its parse fails with an error that is not caught. -/
theorem poison_of_parseText {body : Body} {text : String} {e : BodyError}
    (decoded : codec.textOf body = some text) (parsed : parseText codec text = .error e)
    (unguarded : client.guards e = false) : Poison client codec body := by
  unfold parseText at parsed
  cases loaded : codec.loads text with
  | error cause =>
    rw [loaded] at parsed
    cases parsed
    exact .unreadable decoded loaded unguarded
  | ok value =>
    rw [loaded] at parsed
    cases value with
    | object fields =>
      simp only [parseEvent] at parsed
      cases payload : parsePayload codec fields with
      | error cause =>
        rw [payload] at parsed
        cases parsed
        exact .payload decoded loaded payload unguarded
      | ok payloadValue =>
        rw [payload] at parsed
        cases eventType : parseEventType fields with
        | error cause =>
          rw [eventType] at parsed
          cases parsed
          exact .eventType decoded loaded payload eventType unguarded
        | ok _ =>
          rw [eventType] at parsed
          cases parsed
    | null | boolean | number | text | array =>
      cases parsed
      exact .bare decoded loaded (fun _ => by simp) unguarded

/-- The parse of a poisonous text fails with an error that is not caught. -/
theorem Poison.parseText {body : Body} (poison : Poison client codec body) {text : String}
    (decoded : codec.textOf body = some text) :
    ∃ e, parseText codec text = .error e ∧ client.guards e = false := by
  cases poison with
  | undecodable invalid =>
    rw [Codec.textOf, invalid] at decoded
    cases decoded
  | absent => cases decoded
  | unreadable same loaded unguarded =>
    cases Option.some.inj (decoded.symm.trans same)
    exact ⟨_, by simp only [Stream.parseText, loaded], unguarded⟩
  | @bare _ _ value same loaded bare unguarded =>
    cases Option.some.inj (decoded.symm.trans same)
    refine ⟨_, ?_, unguarded⟩
    simp only [Stream.parseText, loaded]
    cases value with
    | object fields => exact absurd rfl (bare fields)
    | null | boolean | number | text | array => rfl
  | payload same loaded payload unguarded =>
    cases Option.some.inj (decoded.symm.trans same)
    exact ⟨_, by simp only [Stream.parseText, loaded, parseEvent, payload], unguarded⟩
  | eventType same loaded payload eventType unguarded =>
    cases Option.some.inj (decoded.symm.trans same)
    exact ⟨_, by simp only [Stream.parseText, loaded, parseEvent, payload, eventType], unguarded⟩

/-- Reading a message: its event or a skip, unless the body is poisonous. -/
theorem Client.read_of_not_poison (sound : ¬Poison client codec message.body) :
    client.read codec message = .ok (eventOf codec message) := by
  have parsed : ∀ text, codec.textOf message.body = some text →
      client.guarded (Stream.parseText codec text) = .ok (Stream.parseText codec text).toOption := by
    intro text decoded
    cases result : Stream.parseText codec text with
    | ok event => rfl
    | error e =>
      have caught : client.guards e = true := by
        by_contra escapes
        exact sound (poison_of_parseText decoded result (Bool.eq_false_iff.mpr escapes))
      simp [guarded, caught, Except.toOption]
  obtain ⟨body, arrival⟩ := message
  cases body with
  | absent =>
    have caught : client.guards .typeError = true := by
      by_contra escapes
      exact sound (.absent (Bool.eq_false_iff.mpr escapes))
    simp [read, guarded, caught, eventOf, parseBody]
  | text value =>
    simp only [read, parsed value rfl, eventOf, parseBody]
    cases Stream.parseText codec value <;> rfl
  | bytes raw =>
    cases decoded : codec.decodeUtf8 raw with
    | none => exact absurd (.undecodable decoded) sound
    | some text =>
      simp only [read, decoded, parsed text decoded, eventOf, parseBody]
      cases Stream.parseText codec text <;> rfl

theorem Client.read_of_poison (poison : Poison client codec message.body) :
    ∃ e, client.read codec message = .error e := by
  obtain ⟨body, arrival⟩ := message
  have escapes : ∀ text, codec.textOf body = some text →
      ∃ e, client.guarded (Stream.parseText codec text) = .error e := by
    intro text decoded
    obtain ⟨e, parsed, unguarded⟩ := poison.parseText decoded
    exact ⟨e, by simp [guarded, parsed, unguarded]⟩
  cases body with
  | absent =>
    have unguarded : client.guards .typeError = false := by
      cases poison with
      | absent unguarded => exact unguarded
      | unreadable decoded | bare decoded | payload decoded | eventType decoded => cases decoded
    exact ⟨.typeError, by simp [read, guarded, unguarded]⟩
  | text value =>
    obtain ⟨e, raised⟩ := escapes value rfl
    exact ⟨e, by simp only [read, raised]⟩
  | bytes raw =>
    cases decoded : codec.decodeUtf8 raw with
    | none => exact ⟨.valueError, by simp only [read, decoded]⟩
    | some text =>
      obtain ⟨e, raised⟩ := escapes text decoded
      exact ⟨e, by simp only [read, decoded, raised]⟩

end Reading

/-- What iterating a source did: the events it yielded, the messages it took from the broker,
and the error it ended with. -/
structure Iteration where
  yielded : List DecodedEvent := []
  read : List Message := []
  raised : Option BodyError := none

namespace Iteration

/-- Continue with a later part, unless the first one raised. -/
def andThen (first later : Iteration) : Iteration :=
  match first.raised with
  | some _ => first
  | none => ⟨first.yielded ++ later.yielded, first.read ++ later.read, later.raised⟩

/-- The messages of a source are handled as they should be unless one of them is poisonous. -/
structure Handles (client : Client) (codec : Codec) (polled : List Message)
    (iteration : Iteration) : Prop where
  sound : (∀ message ∈ polled, ¬Poison client codec message.body) →
    iteration = ⟨polled.filterMap (eventOf codec), polled, none⟩
  raises : (∃ message ∈ polled, Poison client codec message.body) → iteration.raised ≠ none

variable {client : Client} {codec : Codec}

theorem Handles.nil : Handles client codec [] { } where
  sound _ := rfl
  raises := by simp

theorem Handles.andThen {first later : Iteration} {polled rest : List Message}
    (head : Handles client codec polled first) (tail : Handles client codec rest later) :
    Handles client codec (polled ++ rest) (first.andThen later) where
  sound clean := by
    rw [head.sound fun message member => clean message (List.mem_append_left _ member),
      tail.sound fun message member => clean message (List.mem_append_right _ member)]
    simp [Iteration.andThen]
  raises := by
    rintro ⟨message, member, poison⟩
    unfold Iteration.andThen
    cases ended : first.raised with
    | some e => simp [ended]
    | none =>
      rcases List.mem_append.mp member with early | late
      · exact absurd ended (head.raises ⟨message, early, poison⟩)
      · exact tail.raises ⟨message, late, poison⟩

end Iteration

/-- One batch of messages, parsed as a whole before any of its events is yielded. -/
def Client.readBatch (client : Client) (codec : Codec) (batch : List Message) : Iteration :=
  match batch.mapM (client.read codec) with
  | .error e => { read := batch, raised := some e }
  | .ok events => { read := batch, yielded := events.filterMap id }

theorem Client.readBatch_handles (client : Client) (codec : Codec) (batch : List Message) :
    Iteration.Handles client codec batch (client.readBatch codec batch) where
  sound clean := by
    have parsed : batch.mapM (client.read codec) = .ok (batch.map (eventOf codec)) := by
      induction batch with
      | nil => rfl
      | cons message rest ih =>
        have head := Client.read_of_not_poison (clean message List.mem_cons_self)
        have tail := ih fun other member => clean other (List.mem_cons_of_mem _ member)
        rw [List.mapM_cons, head, tail]
        rfl
    simp only [readBatch, parsed, List.filterMap_map, Function.id_comp]
  raises := by
    intro poisoned
    have failed : ∃ e, batch.mapM (client.read codec) = .error e := by
      induction batch with
      | nil => simp at poisoned
      | cons message rest ih =>
        rw [List.mapM_cons]
        cases head : client.read codec message with
        | error e => exact ⟨e, rfl⟩
        | ok event =>
          obtain ⟨other, member, poison⟩ := poisoned
          rcases List.mem_cons.mp member with rfl | later
          · obtain ⟨e, raised⟩ := Client.read_of_poison poison
            rw [raised] at head
            cases head
          · obtain ⟨e, tail⟩ := ih ⟨other, later, poison⟩
            exact ⟨e, by rw [tail]; rfl⟩
    obtain ⟨e, failed⟩ := failed
    simp [readBatch, failed]

/-- The bound on consecutive empty polls is reached; no bound never is. -/
def drained (maxEmptyPolls : Option ℕ) (emptyPolls : ℕ) : Bool :=
  maxEmptyPolls.any (· ≤ emptyPolls)

/-- The answer to one poll. -/
inductive Poll where
  | empty
  | error
  | message (message : Message)

namespace BrokerEventSource

variable (codec : Codec) (maxEmptyPolls : Option ℕ)

/-- The poll loop; a broker error leaves the count of empty polls as it is. -/
def iterate (emptyPolls : ℕ) : List Poll → Iteration
  | [] => { }
  | poll :: rest =>
    if drained maxEmptyPolls emptyPolls then { }
    else
      match poll with
      | .empty => iterate (emptyPolls + 1) rest
      | .error => iterate emptyPolls rest
      | .message message => (kafkaClient.readBatch codec [message]).andThen (iterate 0 rest)

/-- The messages polled before the loop ends. -/
def polled (emptyPolls : ℕ) : List Poll → List Message
  | [] => []
  | poll :: rest =>
    if drained maxEmptyPolls emptyPolls then []
    else
      match poll with
      | .empty => polled (emptyPolls + 1) rest
      | .error => polled emptyPolls rest
      | .message message => message :: polled 0 rest

theorem iterate_handles (emptyPolls : ℕ) (polls : List Poll) :
    Iteration.Handles kafkaClient codec (polled maxEmptyPolls emptyPolls polls)
      (iterate codec maxEmptyPolls emptyPolls polls) := by
  induction polls generalizing emptyPolls with
  | nil => exact .nil
  | cons poll rest ih =>
    unfold iterate polled
    split
    · exact .nil
    · cases poll with
      | empty => exact ih _
      | error => exact ih _
      | message message => exact (Client.readBatch_handles _ codec [message]).andThen (ih 0)

end BrokerEventSource

namespace RedisStreamEventSource

variable (codec : Codec) (maxEmptyPolls : Option ℕ)

/-- The delivered but unacknowledged entries, page by page until an empty one. -/
def readPending : List (List Message) → Iteration
  | [] => { }
  | page :: rest =>
    if page.isEmpty then { } else (redisClient.readBatch codec page).andThen (readPending rest)

/-- New entries, bounded by consecutive empty reads. -/
def readNew (emptyPolls : ℕ) : List (List Message) → Iteration
  | [] => { }
  | batch :: rest =>
    if drained maxEmptyPolls emptyPolls then { }
    else if batch.isEmpty then readNew (emptyPolls + 1) rest
    else (redisClient.readBatch codec batch).andThen (readNew 0 rest)

/-- The backlog first, then new entries. -/
def iterate (pages batches : List (List Message)) : Iteration :=
  (readPending codec pages).andThen (readNew codec maxEmptyPolls 0 batches)

/-- The new entries read before the loop ends. -/
def polledNew (emptyPolls : ℕ) : List (List Message) → List Message
  | [] => []
  | batch :: rest =>
    if drained maxEmptyPolls emptyPolls then []
    else if batch.isEmpty then polledNew (emptyPolls + 1) rest
    else batch ++ polledNew 0 rest

/-- All entries read before the loops end. -/
def polled (pages batches : List (List Message)) : List Message :=
  (pages.takeWhile fun page => !page.isEmpty).flatten ++ polledNew maxEmptyPolls 0 batches

theorem readPending_handles (pages : List (List Message)) :
    Iteration.Handles redisClient codec (pages.takeWhile fun page => !page.isEmpty).flatten
      (readPending codec pages) := by
  induction pages with
  | nil => exact .nil
  | cons page rest ih =>
    cases page with
    | nil => exact .nil
    | cons message others => exact (Client.readBatch_handles _ codec _).andThen ih

theorem readNew_handles (emptyPolls : ℕ) (batches : List (List Message)) :
    Iteration.Handles redisClient codec (polledNew maxEmptyPolls emptyPolls batches)
      (readNew codec maxEmptyPolls emptyPolls batches) := by
  induction batches generalizing emptyPolls with
  | nil => exact .nil
  | cons batch rest ih =>
    unfold readNew polledNew
    split
    · exact .nil
    · split
      · exact ih _
      · exact (Client.readBatch_handles _ codec batch).andThen (ih 0)

theorem iterate_handles (pages batches : List (List Message)) :
    Iteration.Handles redisClient codec (polled maxEmptyPolls pages batches)
      (iterate codec maxEmptyPolls pages batches) :=
  (readPending_handles codec pages).andThen (readNew_handles codec maxEmptyPolls 0 batches)

end RedisStreamEventSource

end FlOp.Stream
