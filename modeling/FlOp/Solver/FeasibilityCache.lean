import FlOp.Library.KeyedMachine
import FlOp.Library.LabeledSystem
import FlOp.Solver.FeasibilityQuery

/-! # The feasibility response cache

A response is remembered under the digests of the files the query reads and under the order; the
digest of a file is itself remembered while the file's stat signature stays the same. Neither
remembers under which mapping documents and at what time the response was computed.
-/

namespace FlOp.Solver

open Library Mapping FlOp.Stream FlOp.Core

/-- `st_mtime_ns` and `st_size`. -/
structure Signature where
  mtimeNs : ℤ
  size : ℕ
deriving DecidableEq, Repr

/-- A file a query reads; sources and schedules do not share paths. -/
inductive InputFile where
  | source (path : String)
  | schedule (path : String)
deriving DecidableEq, Repr

/-- What the files parse to, where they do. A file that changes changes its signature, so the
content is a function of path and signature. -/
structure Disk where
  rows : String → Signature → Option (List Row)
  schedule : String → Signature → Option ScheduleDocument

/-- The content hash: of source rows, of a schedule document, and of a request, given the digests
of its files. -/
structure ContentHash (δ κ : Type) where
  rows : List Row → δ
  schedule : ScheduleDocument → δ
  /-- Stands for the digest of a file that is not there. -/
  missing : δ
  request : List δ → Row → κ

/-- Digests tell contents apart, and no content has the digest of a missing file. -/
structure ContentHash.Injective {δ κ : Type} (hash : ContentHash δ κ) : Prop where
  rows : ∀ a b, hash.rows a = hash.rows b → SameRows a b
  schedule : ∀ a b, hash.schedule a = hash.schedule b → a.Same b
  request : ∀ digests others order other,
    hash.request digests order = hash.request others other → digests = others ∧ SameRow order other
  rows_present : ∀ a, hash.rows a ≠ hash.missing
  schedule_present : ∀ a, hash.schedule a ≠ hash.missing

/-- A call of `evaluate_query`: the files its directories lead to, the order and the time. -/
structure Query where
  vehicles : String
  implements : String
  fields : String
  schedule : String
  order : Row
  now : Instant

/-- The files in the order they are digested. -/
def Query.files (q : Query) : List InputFile :=
  [.source q.vehicles, .source q.implements, .source q.fields, .schedule q.schedule]

/-- A response that was computed: under which documents, from what, and when. -/
structure Evaluated where
  mappings : Dict String BindingTable
  input : QueryInput
  now : Instant

/-- What the queries of a service share, and what changes around them. -/
structure QueryState (δ κ : Type) where
  files : Dict InputFile Signature := .empty
  mappings : Dict String BindingTable := .empty
  digestMemo : Dict InputFile (Signature × δ) := .empty
  responses : Dict κ QueryAnswer := .empty
  evaluated : List Evaluated := []

inductive QueryStep where
  | evaluateQuery (q : Query)
  | changeFile (file : InputFile) (signature : Signature)
  | removeFile (file : InputFile)
  | changeMappings (mappings : Dict String BindingTable)
  | restart

/-- The bounds of the digest memo and of the response cache. -/
structure CacheSettings where
  digestMemoMaxEntries : ℕ := 256
  cacheMaxEntries : ℕ := 128

/-- The service: its engine, the disk it reads and how it hashes. -/
structure FeasibilityService (δ κ : Type) where
  engine : QueryEngine
  disk : Disk
  hash : ContentHash δ κ
  settings : CacheSettings := {}

namespace FeasibilityService

variable {δ κ : Type} [DecidableEq κ] (service : FeasibilityService δ κ)

/-- The digest of a file's content, if it parses. -/
def digest (file : InputFile) (signature : Signature) : Option δ :=
  match file with
  | .source path => (service.disk.rows path signature).map service.hash.rows
  | .schedule path => (service.disk.schedule path signature).map service.hash.schedule

/-- `_stat_memoized_digest`, with the memo it leaves; no digest where parsing raises. -/
def statMemoizedDigest (files : Dict InputFile Signature)
    (memo : Dict InputFile (Signature × δ)) (file : InputFile) :
    Option δ × Dict InputFile (Signature × δ) :=
  match files.get? file with
  | none => (some service.hash.missing, memo)
  | some signature =>
    match memo.get? file with
    | some (known, digest) =>
      if known = signature then (some digest, memo)
      else parse memo signature
    | none => parse memo signature
where
  parse (memo : Dict InputFile (Signature × δ)) (signature : Signature) :
      Option δ × Dict InputFile (Signature × δ) :=
    match service.digest file signature with
    | none => (none, memo)
    | some digest =>
      (some digest,
        (memo.set file (signature, digest)).keepNewest service.settings.digestMemoMaxEntries)

/-- The digests of several files, one after the other. -/
def digestAll (files : Dict InputFile Signature) :
    Dict InputFile (Signature × δ) → List InputFile →
      Option (List δ) × Dict InputFile (Signature × δ)
  | memo, [] => (some [], memo)
  | memo, file :: rest =>
    match service.statMemoizedDigest files memo file with
    | (none, memo) => (none, memo)
    | (some digest, memo) =>
      ((digestAll files memo rest).1.map (digest :: ·), (digestAll files memo rest).2)

/-- The rows of a source; there are none where the file is missing. -/
def readSource (files : Dict InputFile Signature) (path : String) : Option (List Row) :=
  (files.get? (.source path)).bind (service.disk.rows path)

/-- The schedule document, which may be missing but not unreadable. -/
def readSchedule (files : Dict InputFile Signature) (path : String) :
    Option (Option ScheduleDocument) :=
  match files.get? (.schedule path) with
  | none => some none
  | some signature => (service.disk.schedule path signature).map some

/-- What a query reads at a moment. -/
def read (files : Dict InputFile Signature) (q : Query) : Option QueryInput := do
  let vehicles ← service.readSource files q.vehicles
  let implements ← service.readSource files q.implements
  let fields ← service.readSource files q.fields
  let schedule ← service.readSchedule files q.schedule
  return { vehicles, implements, fields, schedule, order := q.order }

/-- The answer without the response cache. -/
def uncached (s : QueryState δ κ) (q : Query) : Option QueryAnswer :=
  (service.read s.files q).bind fun input => evaluate service.engine s.mappings input q.now

/-- `evaluate_query`: the answer, if it does not raise, and the state it leaves. -/
def evaluateQuery (s : QueryState δ κ) (q : Query) : Option QueryAnswer × QueryState δ κ :=
  match service.digestAll s.files s.digestMemo q.files with
  | (none, memo) => (none, { s with digestMemo := memo })
  | (some digests, memo) =>
    let cacheKey := service.hash.request digests q.order
    match s.responses.get? cacheKey with
    | some response => (some response, { s with digestMemo := memo })
    | none =>
      match service.read s.files q with
      | none => (none, { s with digestMemo := memo })
      | some input =>
        match evaluate service.engine s.mappings input q.now with
        | none => (none, { s with digestMemo := memo })
        | some answer => (some answer, { s with
            digestMemo := memo
            responses :=
              (s.responses.set cacheKey answer).keepNewest service.settings.cacheMaxEntries
            evaluated := s.evaluated ++ [⟨s.mappings, input, q.now⟩] })

def next (s : QueryState δ κ) : QueryStep → QueryState δ κ
  | .evaluateQuery q => (service.evaluateQuery s q).2
  | .changeFile file signature => { s with files := s.files.set file signature }
  | .removeFile file => { s with files := s.files.erase file }
  | .changeMappings mappings => { s with mappings := mappings }
  -- the memo is the process's, the responses are on disk
  | .restart => { s with digestMemo := .empty }

/-- Services that start with nothing remembered. -/
def system : LabeledSystem (QueryState δ κ) QueryStep :=
  .ofStep (fun s => s.digestMemo = .empty ∧ s.responses = .empty ∧ s.evaluated = [])
    fun s step => some (service.next s step)

/-- A query answers what it would answer without the response cache. -/
def Transparent (s : QueryState δ κ) : QueryStep → Prop
  | .evaluateQuery q => (service.evaluateQuery s q).1 = service.uncached s q
  | _ => True

/-- Since a response to the same content was computed, the mapping documents project that content
to the same rows, and the expected window still overlaps the same scheduled windows. -/
def UpToDate (s : QueryState δ κ) : QueryStep → Prop
  | .evaluateQuery q => ∀ input, service.read s.files q = some input →
    ∀ past ∈ s.evaluated, past.input.Same input →
      translate past.mappings input = translate s.mappings input ∧
      ∀ rows, translate s.mappings input = some rows → ∀ package ∈ input.packages,
        windowsOverlap service.engine
            (estimateOperationWindow service.engine rows.order past.now) (timeWindow package) =
          windowsOverlap service.engine
            (estimateOperationWindow service.engine rows.order q.now) (timeWindow package)
  | _ => True

/-! ## Digests -/

section Digests

variable {service} {files : Dict InputFile Signature} {q : Query} {input : QueryInput}

/-- The digest a file has now. -/
def currentDigest (files : Dict InputFile Signature) (file : InputFile) : Option δ :=
  match files.get? file with
  | none => some service.hash.missing
  | some signature => service.digest file signature

/-- Every remembered digest is that of the file with the remembered signature. -/
def MemoRight (memo : Dict InputFile (Signature × δ)) : Prop :=
  memo.Each fun file known => service.digest file known.1 = some known.2

omit [DecidableEq κ] in
/-- The memo gives the digest the file has now, and stays right. -/
theorem statMemoizedDigest_spec (files : Dict InputFile Signature)
    {memo : Dict InputFile (Signature × δ)} (right : service.MemoRight memo) (file : InputFile) :
    (service.statMemoizedDigest files memo file).1 = service.currentDigest files file ∧
      service.MemoRight (service.statMemoizedDigest files memo file).2 := by
  have parsed : ∀ signature,
      (statMemoizedDigest.parse service file memo signature).1 = service.digest file signature ∧
        service.MemoRight (statMemoizedDigest.parse service file memo signature).2 := by
    intro signature
    unfold statMemoizedDigest.parse
    cases content : service.digest file signature with
    | none => exact ⟨rfl, right⟩
    | some digest => exact ⟨rfl, (Dict.Each.set right content).keepNewest _⟩
  unfold statMemoizedDigest currentDigest
  cases files.get? file with
  | none => exact ⟨rfl, right⟩
  | some signature =>
    cases known : memo.get? file with
    | none => exact parsed signature
    | some entry =>
      obtain ⟨old, digest⟩ := entry
      dsimp only
      split_ifs with same
      · subst same
        exact ⟨(right file _ known).symm, right⟩
      · exact parsed signature

omit [DecidableEq κ] in
theorem digestAll_spec (files : Dict InputFile Signature) {memo : Dict InputFile (Signature × δ)}
    (right : service.MemoRight memo) (list : List InputFile) :
    (service.digestAll files memo list).1 = list.mapM (service.currentDigest files) ∧
      service.MemoRight (service.digestAll files memo list).2 := by
  induction list generalizing memo with
  | nil => exact ⟨rfl, right⟩
  | cons file rest ih =>
    obtain ⟨digest_eq, stays⟩ := statMemoizedDigest_spec files right file
    unfold digestAll
    rw [List.mapM_cons, ← digest_eq]
    split
    · next memo' digested =>
      rw [digested] at stays ⊢
      exact ⟨rfl, stays⟩
    · next digest memo' digested =>
      rw [digested] at stays ⊢
      refine ⟨?_, (ih stays).2⟩
      rw [(ih stays).1]
      cases rest.mapM (service.currentDigest files) <;> rfl

/-- The digests a request with this input has. -/
def requestDigests (input : QueryInput) : List δ :=
  [service.hash.rows input.vehicles, service.hash.rows input.implements,
    service.hash.rows input.fields, input.schedule.elim service.hash.missing service.hash.schedule]

omit [DecidableEq κ] in
/-- Where the input can be read, the digests are those of the input. -/
theorem digests_of_read (found : service.read files q = some input) :
    q.files.mapM (service.currentDigest files) = some (service.requestDigests input) ∧
      input.order = q.order := by
  simp only [read, bind, Option.bind_eq_some_iff] at found
  obtain ⟨vehicles, vehiclesRead, implements, implementsRead, fields, fieldsRead, schedule,
    scheduleRead, made⟩ := found
  obtain rfl := Option.some.inj made
  have source : ∀ {path : String} {rows : List Row}, service.readSource files path = some rows →
      service.currentDigest files (.source path) = some (service.hash.rows rows) := by
    intro path rows found
    obtain ⟨signature, located, parsed⟩ := Option.bind_eq_some_iff.mp found
    simp only [currentDigest, located, digest, parsed, Option.map_some]
  have scheduled : service.currentDigest files (.schedule q.schedule) =
      some (schedule.elim service.hash.missing service.hash.schedule) := by
    unfold readSchedule at scheduleRead
    unfold currentDigest
    split at scheduleRead
    · obtain rfl := Option.some.inj scheduleRead
      rfl
    · obtain ⟨document, parsed, rfl⟩ := Option.map_eq_some_iff.mp scheduleRead
      simp only [digest, parsed, Option.map_some, Option.elim]
  refine ⟨?_, rfl⟩
  simp only [Query.files, List.mapM_cons, List.mapM_nil, scheduled, source vehiclesRead,
    source implementsRead, source fieldsRead]
  rfl

omit [DecidableEq κ] in
/-- Where the files have digests but the input cannot be read, a source is missing. -/
theorem missing_of_unread {digests : List δ}
    (digested : q.files.mapM (service.currentDigest files) = some digests)
    (unread : service.read files q = none) : service.hash.missing ∈ digests.take 3 := by
  simp only [Query.files, List.mapM_cons, List.mapM_nil, bind, Option.bind_eq_some_iff] at digested
  obtain ⟨v, vehicles, _, ⟨i, implements, _, ⟨f, fields, _, ⟨d, schedule, _, lastMade, dMade⟩,
    fMade⟩, iMade⟩, vMade⟩ := digested
  obtain rfl := Option.some.inj lastMade
  obtain rfl := Option.some.inj dMade
  obtain rfl := Option.some.inj fMade
  obtain rfl := Option.some.inj iMade
  obtain rfl := Option.some.inj vMade
  by_contra present
  simp only [List.take_succ_cons, List.take_zero, List.mem_cons, List.not_mem_nil, or_false,
    not_or] at present
  have source : ∀ {path : String} {digest : δ},
      service.currentDigest files (.source path) = some digest → service.hash.missing ≠ digest →
        ∃ rows, service.readSource files path = some rows := by
    intro path digest current there
    unfold currentDigest at current
    split at current
    · exact absurd (Option.some.inj current) there
    · next signature located =>
      obtain ⟨rows, parsed, -⟩ := Option.map_eq_some_iff.mp current
      exact ⟨rows, Option.bind_eq_some_iff.mpr ⟨signature, located, parsed⟩⟩
  obtain ⟨_, vehiclesRead⟩ := source vehicles present.1
  obtain ⟨_, implementsRead⟩ := source implements present.2.1
  obtain ⟨_, fieldsRead⟩ := source fields present.2.2
  have scheduleRead : ∃ document, service.readSchedule files q.schedule = some document := by
    unfold readSchedule
    unfold currentDigest at schedule
    split at schedule
    · exact ⟨none, rfl⟩
    · obtain ⟨document, parsed, -⟩ := Option.map_eq_some_iff.mp schedule
      exact ⟨some document, by simp only [parsed, Option.map_some]⟩
  obtain ⟨_, scheduleRead⟩ := scheduleRead
  simp only [read, vehiclesRead, implementsRead, fieldsRead, scheduleRead, bind,
    Option.bind_some] at unread
  cases unread

omit [DecidableEq κ] in
/-- Requests of one key have one content. -/
theorem same_of_requestDigests (injective : service.hash.Injective) {other : QueryInput}
    (digests : service.requestDigests input = service.requestDigests other)
    (order : SameRow input.order other.order) : input.Same other := by
  simp only [requestDigests, List.cons.injEq, and_true] at digests
  obtain ⟨vehicles, implements, fields, schedule⟩ := digests
  refine ⟨injective.rows _ _ vehicles, injective.rows _ _ implements, injective.rows _ _ fields,
    ?_, order⟩
  cases left : input.schedule with
  | none =>
    cases right : other.schedule with
    | none => exact .none
    | some document =>
      rw [left, right] at schedule
      exact absurd schedule.symm (injective.schedule_present document)
  | some document =>
    cases right : other.schedule with
    | none =>
      rw [left, right] at schedule
      exact absurd schedule (injective.schedule_present document)
    | some document' =>
      rw [left, right] at schedule
      exact .some (injective.schedule _ _ schedule)

end Digests

/-! ## Transparency -/

section Transparency

variable {service} {s : QueryState δ κ}

/-- Remembered digests are right, and remembered responses were computed from content of their
key. -/
structure Remembers (service : FeasibilityService δ κ) (s : QueryState δ κ) : Prop where
  digestMemo : service.MemoRight s.digestMemo
  responses : s.responses.Each fun cacheKey answer => ∃ past ∈ s.evaluated,
    cacheKey = service.hash.request (service.requestDigests past.input) past.input.order ∧
      evaluate service.engine past.mappings past.input past.now = some answer

/-- A response found under the key of an up-to-date query is what the query computes. -/
theorem Remembers.hit (remembers : service.Remembers s) (injective : service.hash.Injective)
    {q : Query} {digests : List δ} {response : QueryAnswer}
    (digested : q.files.mapM (service.currentDigest s.files) = some digests)
    (found : s.responses.get? (service.hash.request digests q.order) = some response)
    (upToDate : service.UpToDate s (.evaluateQuery q)) :
    service.uncached s q = some response := by
  obtain ⟨past, member, sameKey, computed⟩ := remembers.responses _ _ found
  obtain ⟨sameDigests, sameOrder⟩ := injective.request _ _ _ _ sameKey
  cases readable : service.read s.files q with
  | none =>
    -- a key with a missing source is no key of a response
    have missing := missing_of_unread digested readable
    rw [sameDigests] at missing
    simp only [requestDigests, List.take_succ_cons, List.take_zero, List.mem_cons,
      List.not_mem_nil, or_false] at missing
    rcases missing with gone | gone | gone
    all_goals exact absurd gone.symm (injective.rows_present _)
  | some input =>
    obtain ⟨current, order⟩ := digests_of_read readable
    obtain rfl := Option.some.inj (digested.symm.trans current)
    have same : past.input.Same input :=
      same_of_requestDigests injective sameDigests.symm
        fun column => by rw [order]; exact (sameOrder column).symm
    obtain ⟨projected, overlaps⟩ := upToDate input readable past member same
    rw [uncached, readable, Option.bind_some, ← computed]
    exact (evaluate_congr same projected overlaps).symm

/-- An up-to-date query answers what it would answer without the cache. -/
theorem Remembers.transparent (remembers : service.Remembers s)
    (injective : service.hash.Injective) {step : QueryStep} (upToDate : service.UpToDate s step) :
    service.Transparent s step := by
  cases step with
  | evaluateQuery q =>
    have digested := (digestAll_spec s.files remembers.digestMemo q.files).1
    change (service.evaluateQuery s q).1 = service.uncached s q
    unfold evaluateQuery
    split
    · next memo raised =>
      rw [raised] at digested
      unfold uncached
      cases readable : service.read s.files q with
      | none => rfl
      | some input =>
        rw [(digests_of_read readable).1] at digested
        cases digested
    · next digests memo done =>
      rw [done] at digested
      dsimp only
      split
      · next response found => exact (remembers.hit injective digested.symm found upToDate).symm
      · unfold uncached
        split
        · next unread => rw [unread, Option.bind_none]
        · next input readable =>
          rw [readable, Option.bind_some]
          split
          · next raised => exact raised.symm
          · next answer computed => exact computed.symm
  | _ => trivial

/-- Every step keeps what is remembered right. -/
theorem Remembers.next (remembers : service.Remembers s) (step : QueryStep) :
    service.Remembers (service.next s step) := by
  cases step with
  | evaluateQuery q =>
    obtain ⟨digested, right⟩ := digestAll_spec s.files remembers.digestMemo q.files
    change service.Remembers (service.evaluateQuery s q).2
    unfold evaluateQuery
    split
    · next memo raised =>
      rw [raised] at right
      exact ⟨right, remembers.responses⟩
    · next digests memo done =>
      rw [done] at right digested
      dsimp only
      split
      · exact ⟨right, remembers.responses⟩
      · split
        · exact ⟨right, remembers.responses⟩
        · next input readable =>
          obtain ⟨current, order⟩ := digests_of_read readable
          obtain rfl := Option.some.inj (digested.trans current)
          split
          · exact ⟨right, remembers.responses⟩
          · next answer computed =>
            refine ⟨right, (Dict.Each.set (remembers.responses.mono ?_) ?_).keepNewest _⟩
            · rintro cacheKey response ⟨past, member, facts⟩
              exact ⟨past, List.mem_append_left _ member, facts⟩
            · exact ⟨_, List.mem_append_right _ List.mem_cons_self, by rw [order], computed⟩
  | restart => exact ⟨.empty, remembers.responses⟩
  | _ => exact ⟨remembers.digestMemo, remembers.responses⟩

/-- A response is remembered with the documents and the time of its query. -/
theorem evaluated_of_evaluateQuery {q : Query} {past : Evaluated}
    (member : past ∈ (service.evaluateQuery s q).2.evaluated) :
    past ∈ s.evaluated ∨ past.mappings = s.mappings ∧ past.now = q.now := by
  unfold evaluateQuery at member
  split at member
  · exact .inl member
  · dsimp only at member
    split at member
    · exact .inl member
    · split at member
      · exact .inl member
      · split at member
        · exact .inl member
        · rcases List.mem_append.mp member with old | new
          · exact .inl old
          · obtain rfl := List.mem_singleton.mp new
            exact .inr ⟨rfl, rfl⟩

theorem Remembers.initial (start : service.system.Initial s) : service.Remembers s := by
  obtain ⟨memo, responses, evaluated⟩ := start
  exact ⟨memo ▸ .empty, responses ▸ .empty⟩

end Transparency

end FeasibilityService

/-- In every run whose queries are up to date with the responses computed before them, every query
answers what it would answer without the response cache. -/
theorem feasibility_cache_transparent {δ κ : Type} [DecidableEq κ]
    {service : FeasibilityService δ κ} (injective : service.hash.Injective)
    {past : List (LabeledSystem.Transition (QueryState δ κ) QueryStep)} {s : QueryState δ κ}
    (run : service.system.Run past s)
    (upToDate : ∀ taken ∈ past, service.UpToDate taken.source taken.label) :
    ∀ taken ∈ past, service.Transparent taken.source taken.label :=
  run.forall_of_invariant (P := fun taken => service.Transparent taken.source taken.label)
    service.Remembers (fun _ => .initial)
    (fun _ l _ remembers _ step => Option.some.inj step ▸ remembers.next l)
    (fun _ _ _ remembers allowed _ => remembers.transparent injective allowed) upToDate

/-! ## One service -/

/-- The content of a file in place of its digest. -/
abbrev FileContent := Option (List Row ⊕ ScheduleDocument)

/-- The content of a request in place of its key. -/
structure RequestContent where
  files : List FileContent
  order : Row
deriving DecidableEq

/-- A hash that keeps the contents themselves. -/
def contentItself : ContentHash FileContent RequestContent where
  rows content := some (.inl content)
  schedule document := some (.inr document)
  missing := none
  request digests order := ⟨digests, order⟩

theorem contentItself_injective : contentItself.Injective where
  rows a b same := by
    obtain rfl : a = b := Sum.inl.inj (Option.some.inj same)
    exact List.forall₂_same.mpr fun _ _ _ => rfl
  schedule a b same := by
    obtain rfl : a = b := Sum.inr.inj (Option.some.inj same)
    exact ⟨List.forall₂_same.mpr fun _ _ _ => rfl, fun _ => rfl⟩
  request _ _ _ _ same := by
    obtain ⟨rfl, rfl⟩ := RequestContent.mk.inj same
    exact ⟨rfl, fun _ => rfl⟩
  rows_present _ := Option.some_ne_none _
  schedule_present _ := Option.some_ne_none _

def fieldEngine : QueryEngine where
  parseFloat _ := none
  showFloat := toString
  parseTime text :=
    if text = "2026-05-01T08:00:00+00:00" then some ⟨1777622400, true⟩
    else if text = "2026-05-01T10:00:00+00:00" then some ⟨1777629600, true⟩
    else none
  parsePolygon _ := .ok []
  pathLatLon _ := []
  sweptPolygon _ _ := []
  ringsAreaKm2 _ := 0
  operationCode := Value.shown
  operationSet
    | .text operation => [operation]
    | _ => []
  compatMatrix _ _ := some fun _ _ => true
  haversineKm _ _ := 0

/-- One vehicle that is scheduled from eight to ten, one implement and one field. -/
def fieldDisk : Disk where
  rows path _ :=
    if path = "vehicles.csv" then some [⟨[("vehicle_id", .text "v1")], by decide⟩]
    else if path = "implements.csv" then
      some [⟨[("implement_id", .text "i1"), ("operations", .text "MOW")], by decide⟩]
    else some [⟨[("field_id", .text "f1")], by decide⟩]
  schedule _ _ := some { schedule := [⟨[("prime_asset_id", .text "v1"),
    ("scheduled_start", .text "2026-05-01T08:00:00+00:00"),
    ("scheduled_end", .text "2026-05-01T10:00:00+00:00")], by decide⟩] }

def fieldService : FeasibilityService FileContent RequestContent where
  engine := fieldEngine
  disk := fieldDisk
  hash := contentItself

def fieldMappings : Dict String BindingTable := ⟨[
  ("vehicles", ⟨"asset", [⟨"vehicle_id", "asset.assetId", []⟩], .empty⟩),
  ("implements", ⟨"asset", [⟨"implement_id", "asset.assetId", []⟩,
    ⟨"operations", "asset.capabilities.compatibleOperations", []⟩], .empty⟩),
  ("fields", ⟨"location", [⟨"field_id", "location.locationId", []⟩], .empty⟩),
  ("orders", ⟨"task", [⟨"order_id", "task.taskId", []⟩, ⟨"field_id", "task.locationRef", []⟩,
    ⟨"operation", "task.operationType", []⟩], .empty⟩)], by decide⟩

/-- An order for the field, asked at a time. -/
def fieldQuery (now : Instant) : Query where
  vehicles := "vehicles.csv"
  implements := "implements.csv"
  fields := "fields.csv"
  schedule := "schedule.json"
  order := ⟨[("order_id", .text "o1"), ("field_id", .text "f1"), ("operation", .text "MOW")],
    by decide⟩
  now := now

def fieldStart : QueryState FileContent RequestContent where
  files := ⟨(fieldQuery 0).files.map fun file => (file, ⟨0, 0⟩), by decide⟩
  mappings := fieldMappings

/-- Eight o'clock, while the vehicle's window lasts. -/
def eight : Instant := 1777622400

theorem feasibility_cache_transparent_repeated :
    fieldService.Transparent (fieldService.next fieldStart (.evaluateQuery (fieldQuery eight)))
      (.evaluateQuery (fieldQuery eight)) := by
  have start : fieldService.system.Run [] fieldStart := .initial ⟨rfl, rfl, rfl⟩
  have asked := start.step (l := .evaluateQuery (fieldQuery eight)) rfl
  have again := asked.step (l := .evaluateQuery (fieldQuery eight)) rfl
  refine feasibility_cache_transparent contentItself_injective again ?_
    ⟨_, .evaluateQuery (fieldQuery eight), _⟩ (List.mem_append_right _ List.mem_cons_self)
  intro taken member
  simp only [List.nil_append, List.cons_append, List.mem_cons, List.not_mem_nil, or_false] at member
  obtain rfl | rfl := member
  · exact fun _ _ past member => absurd member List.not_mem_nil
  · intro input _ past member _
    rcases FeasibilityService.evaluated_of_evaluateQuery member with old | ⟨mappings, now⟩
    · cases old
    · rw [mappings, now]
      exact ⟨rfl, fun _ _ _ _ => rfl⟩

/-- At twelve the vehicle is free again, but the answer of eight o'clock still says it is not. -/
theorem stale_conflict_risk :
    ¬ ∀ past s, fieldService.system.Run past s →
      ∀ taken ∈ past, fieldService.Transparent taken.source taken.label := by
  intro transparent
  have start : fieldService.system.Run [] fieldStart := .initial ⟨rfl, rfl, rfl⟩
  have asked := start.step (l := .evaluateQuery (fieldQuery eight)) rfl
  have later := asked.step (l := .evaluateQuery (fieldQuery (eight + 4 * 3600))) rfl
  have same : (fieldService.evaluateQuery
      (fieldService.next fieldStart (.evaluateQuery (fieldQuery eight)))
      (fieldQuery (eight + 4 * 3600))).1 = _ :=
    transparent _ _ later _ (List.mem_append_right _ List.mem_cons_self)
  revert same
  decide +kernel

end FlOp.Solver
