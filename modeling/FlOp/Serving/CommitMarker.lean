import FlOp.Library.LabeledSystem
import FlOp.Serving.ObjectStore

/-! # Commit markers under concurrent publishers and readers

A publisher performs its puts one at a time and may stop after any of them. A reader lists runs,
reads files of runs it has listed, or materializes a path: it lists the keys below the path once
and copies, one at a time, those that its local directory does not have yet. Only the listing
looks at markers.
-/

namespace FlOp.Serving

open Library

/-- A run: the subdirectory it is published under and its id. -/
abbrev RunName := String × String

def RunName.path (run : RunName) : Key := [run.1, run.2]

/-- What a committed run consists of: its files and its marker. -/
def contents (files : Dict Key Bytes) (rel : Key) : Option Bytes :=
  if rel = [commitMarker] then some [] else files.get? rel

/-- A call of `publish_run` with the puts it has still to make. -/
structure Publication where
  run : RunName
  files : Dict Key Bytes
  remaining : List (Key × Bytes)
deriving DecidableEq

/-- A call of `local_path` with the listed keys it has still to look at. -/
structure Materialization where
  path : Key
  remaining : List Key
deriving DecidableEq

/-- The store, the local directory of the readers, and the calls under way. -/
structure StoreState where
  objects : Bucket := .empty
  /-- The files of the last call that wrote the marker of a run. -/
  published : Dict RunName (Dict Key Bytes) := .empty
  publishing : List Publication := []
  cache : Bucket := .empty
  materializing : List Materialization := []
  listed : List RunName := []
deriving DecidableEq

inductive StoreStep where
  | publish (run : RunName) (files : Dict Key Bytes)
  | put (i : ℕ)
  | crash (i : ℕ)
  | listRunIds (subdir : String)
  | readJson (run : RunName) (rel : Key)
  | localPath (path : Key)
  | copy (i : ℕ)
  | serve (i : ℕ)

namespace StoreState

/-- The next put of a publisher; the last one writes the marker. -/
def put (s : StoreState) (i : ℕ) : Option StoreState :=
  match s.publishing[i]? with
  | some ⟨run, files, (key, data) :: rest⟩ =>
    if rest = [] then some { s with
      objects := s.objects.set key data
      published := s.published.set run files
      publishing := s.publishing.eraseIdx i }
    else some { s with
      objects := s.objects.set key data
      publishing := s.publishing.set i ⟨run, files, rest⟩ }
  | _ => none

/-- The next key of a materialization: a file that exists locally is left as it is. -/
def copy (s : StoreState) (i : ℕ) : Option StoreState :=
  match s.materializing[i]? with
  | some ⟨path, key :: rest⟩ =>
    let later := s.materializing.set i ⟨path, rest⟩
    if key ∈ s.cache.keys then some { s with materializing := later }
    else
      (s.objects.get? key).map fun data =>
        { s with cache := s.cache.set key data, materializing := later }
  | _ => none

def next (s : StoreState) : StoreStep → Option StoreState
  | .publish run files =>
    some { s with publishing := s.publishing ++ [⟨run, files, publishRun run.path files⟩] }
  | .put i => s.put i
  | .crash i => some { s with publishing := s.publishing.eraseIdx i }
  | .listRunIds subdir =>
    some { s with
      listed := s.listed ++ (Serving.listRunIds s.objects [subdir]).map fun run => (subdir, run) }
  -- the routes read files of runs they found in a listing
  | .readJson run _ => if run ∈ s.listed then some s else none
  -- the feasibility route passes an explicit id or path on as it is
  | .localPath path =>
    some { s with materializing := s.materializing ++ [⟨path, listKeys s.objects path⟩] }
  | .copy i => s.copy i
  | .serve i =>
    match s.materializing[i]? with
    | some ⟨_, []⟩ => some { s with materializing := s.materializing.eraseIdx i }
    | _ => none

/-- What the run committed last consists of. -/
def committed (s : StoreState) (run : RunName) : Option (Key → Option Bytes) :=
  (s.published.get? run).map contents

end StoreState

/-- Publishers and readers of a new store. -/
def artifactSystem : LabeledSystem StoreState StoreStep :=
  .ofStep (fun s => s.objects = .empty ∧ s.published = .empty ∧ s.publishing = [] ∧
    s.cache = .empty ∧ s.materializing = [] ∧ s.listed = []) StoreState.next

/-- What a reader is served comes from a committed run: a file is read below a marker, and a
directory holds what the run it belongs to consists of below its path. -/
def ServesCommitted (s : StoreState) : StoreStep → Prop
  | .readJson run _ => run.path ++ [commitMarker] ∈ s.objects.keys
  | .serve i => ∀ call, s.materializing[i]? = some call →
    ∃ run below content, call.path = run.path ++ below ∧ s.committed run = some content ∧
      ∀ rel, rel ≠ [] → s.cache.get? (call.path ++ rel) = content (below ++ rel)
  | _ => True

/-- Publishers do not change what another call published or is publishing, a call for a run that
is not committed writes over what earlier calls left behind, and paths are materialized below a
marker. -/
def Disciplined (s : StoreState) : StoreStep → Prop
  | .publish run files =>
    [commitMarker] ∉ files.keys ∧
    (∀ call ∈ s.publishing, call.run = run → ∀ rel, call.files.get? rel = files.get? rel) ∧
    match s.published.get? run with
    | some old => ∀ rel, old.get? rel = files.get? rel
    | none => ∀ rel, run.path ++ rel ∈ s.objects.keys → rel ∈ files.keys
  | .localPath path =>
    ∃ run : RunName, run.path <+: path ∧ run.path ++ [commitMarker] ∈ s.objects.keys
  | _ => True

/-! ## Lookups -/

@[simp] theorem path_append_inj {run other : RunName} {rel rel' : Key} :
    run.path ++ rel = other.path ++ rel' ↔ run = other ∧ rel = rel' := by
  obtain ⟨s, r⟩ := run
  obtain ⟨s', r'⟩ := other
  simp [RunName.path, and_assoc]

theorem contents_congr {files other : Dict Key Bytes}
    (same : ∀ rel, files.get? rel = other.get? rel) : contents files = contents other := by
  funext rel
  simp only [contents, same]

theorem isSome_contents {files : Dict Key Bytes} {rel : Key} (inFiles : rel ∈ files.keys) :
    (contents files rel).isSome := by
  unfold contents
  split
  · rfl
  · exact (Dict.mem_keys_iff _ _).mp inFiles

/-- Every put of a call whose files leave the marker alone writes what the run consists of. -/
theorem contents_of_mem_publishRun {run : RunName} {files : Dict Key Bytes}
    (unmarked : [commitMarker] ∉ files.keys) {put : Key × Bytes}
    (member : put ∈ publishRun run.path files) :
    ∃ rel, put.1 = run.path ++ rel ∧ contents files rel = some put.2 := by
  rcases List.mem_append.mp member with file | marker
  · obtain ⟨rel, data, held, rfl⟩ := mem_filePuts.mp file
    refine ⟨rel, rfl, ?_⟩
    have other : rel ≠ [commitMarker] := by
      rintro rfl
      exact unmarked ((Dict.mem_keys_iff _ _).mpr (by rw [held]; rfl))
    rw [contents, if_neg other, held]
  · rw [List.mem_singleton.mp marker]
    exact ⟨[commitMarker], rfl, if_pos rfl⟩

/-- A put is the last one exactly if it follows all files, and then it writes the marker. -/
theorem publishRun_split {run : RunName} {files : Dict Key Bytes} {done rest : List (Key × Bytes)}
    {put : Key × Bytes} (whole : done ++ put :: rest = publishRun run.path files) :
    if rest = [] then done = filePuts run.path files ∧ put = (run.path ++ [commitMarker], [])
    else put ∈ filePuts run.path files := by
  split_ifs with last
  · subst last
    obtain ⟨files_eq, marker⟩ := List.append_inj' (whole : done ++ [put] = _ ++ [_]) rfl
    exact ⟨files_eq, by simpa using marker⟩
  · obtain ⟨front, final, rfl⟩ := List.eq_nil_or_concat rest |>.resolve_left last
    have shape : (done ++ put :: front) ++ [final] =
        filePuts run.path files ++ [(run.path ++ [commitMarker], [])] := by
      simpa [publishRun] using whole
    obtain ⟨files_eq, -⟩ := List.append_inj' shape rfl
    rw [← files_eq]
    exact List.mem_append_right _ List.mem_cons_self

/-! ## The invariant -/

/-- A publisher has made the puts before its remaining ones, and nobody else writes its run. -/
structure Publication.Sound (s : StoreState) (call : Publication) : Prop where
  unmarked : [commitMarker] ∉ call.files.keys
  progress : ∃ done, done ++ call.remaining = publishRun call.run.path call.files ∧
    call.remaining ≠ [] ∧ ∀ put ∈ done, s.objects.get? put.1 = some put.2
  covers : ∀ rel, call.run.path ++ rel ∈ s.objects.keys → (contents call.files rel).isSome
  alone : ∀ other ∈ s.publishing, other.run = call.run →
    contents other.files = contents call.files
  republishes : ∀ content, s.committed call.run = some content → content = contents call.files

/-- A reader materializes a path of a committed run; what it does not find listed it has. -/
def Materialization.Sound (s : StoreState) (call : Materialization) : Prop :=
  ∃ run below content, call.path = run.path ++ below ∧ s.committed run = some content ∧
    (∀ rel, rel ≠ [] → (content (below ++ rel)).isSome →
      call.path ++ rel ∈ call.remaining ∨ call.path ++ rel ∈ s.cache.keys) ∧
    ∀ key ∈ call.remaining, ∃ rel, key = call.path ++ rel

/-- Markers stand for committed runs, committed runs are stored as they were published, and the
local directory holds nothing else. -/
structure Consistent (s : StoreState) : Prop where
  marked : ∀ run : RunName, run.path ++ [commitMarker] ∈ s.objects.keys →
    (s.committed run).isSome
  stored : ∀ run content, s.committed run = some content →
    ∀ rel, s.objects.get? (run.path ++ rel) = content rel
  publishing : ∀ call ∈ s.publishing, call.Sound s
  cached : ∀ key data, s.cache.get? key = some data → ∃ run rel content,
    key = run.path ++ rel ∧ s.committed run = some content ∧ content rel = some data
  materializing : ∀ call ∈ s.materializing, call.Sound s

/-- Every run a reader has listed has its marker. -/
def ListedMarked (s : StoreState) : Prop :=
  ∀ run ∈ s.listed, run.path ++ [commitMarker] ∈ s.objects.keys

section Steps

variable {s t : StoreState} {rel : Key} {data : Bytes}

/-- A call stays sound while the store stays as it is and no other call starts. -/
theorem Publication.Sound.frame {call : Publication} (sound : call.Sound s)
    (objects : t.objects = s.objects) (published : t.published = s.published)
    (publishing : ∀ other ∈ t.publishing, other ∈ s.publishing) : call.Sound t where
  unmarked := sound.unmarked
  progress := objects ▸ sound.progress
  covers := objects ▸ sound.covers
  alone other member := sound.alone other (publishing other member)
  republishes content committed :=
    sound.republishes content (by rwa [StoreState.committed, published] at committed)

theorem Materialization.Sound.frame {call : Materialization} (sound : call.Sound s)
    (committed : ∀ run content, s.committed run = some content → t.committed run = some content)
    (cache : ∀ key ∈ s.cache.keys, key ∈ t.cache.keys) : call.Sound t := by
  obtain ⟨run, below, content, under, isCommitted, listed, inside⟩ := sound
  exact ⟨run, below, content, under, committed _ _ isCommitted,
    fun rel proper filled => (listed rel proper filled).imp_right (cache _), inside⟩

/-- A put by one call leaves every call sound: where both write, they write the same. -/
theorem Publication.Sound.keep {writer call : Publication} (member : writer ∈ s.publishing)
    (writes : contents writer.files rel = some data) (sound : call.Sound s)
    (objects : t.objects = s.objects.set (writer.run.path ++ rel) data)
    (publishing : ∀ other ∈ t.publishing, ∃ old ∈ s.publishing,
      old.run = other.run ∧ old.files = other.files)
    (committed : ∀ run content, t.committed run = some content →
      s.committed run = some content ∨ run = writer.run ∧ content = contents writer.files) :
    call.Sound t := by
  obtain ⟨unmarked, ⟨done, whole, more, made⟩, covers, alone, republishes⟩ := sound
  refine ⟨unmarked, ⟨done, whole, more, fun put isDone => ?_⟩, fun rel' held => ?_, ?_, ?_⟩
  · have member' : put ∈ publishRun call.run.path call.files :=
      whole ▸ List.mem_append_left _ isDone
    obtain ⟨rel', located, value⟩ := contents_of_mem_publishRun unmarked member'
    rw [objects, Dict.get?_set]
    split_ifs with same
    · rw [located, path_append_inj] at same
      obtain ⟨sameRun, rfl⟩ := same
      rw [← alone writer member sameRun.symm, writes] at value
      exact value
    · exact made put isDone
  · rw [objects, Dict.mem_keys_set, path_append_inj] at held
    rcases held with ⟨sameRun, rfl⟩ | old
    · rw [← alone writer member sameRun.symm, writes]
      rfl
    · exact covers rel' old
  · intro other member' sameRun
    obtain ⟨old, listed, oldRun, oldFiles⟩ := publishing other member'
    rw [← oldFiles]
    exact alone old listed (oldRun.trans sameRun)
  · intro content now
    rcases committed _ _ now with before | ⟨sameRun, rfl⟩
    · exact republishes content before
    · exact alone writer member sameRun.symm

/-- Where a call has put all its files, nothing else is below its run but the marker. -/
theorem Publication.Sound.get?_of_filePuts {call : Publication} (sound : call.Sound s)
    (made : ∀ put ∈ filePuts call.run.path call.files, s.objects.get? put.1 = some put.2)
    (unmarked : rel ≠ [commitMarker]) :
    s.objects.get? (call.run.path ++ rel) = call.files.get? rel := by
  cases held : call.files.get? rel with
  | some data => exact made _ (mem_filePuts.mpr ⟨rel, data, held, rfl⟩)
  | none =>
    by_contra stored
    have covered := sound.covers rel
      ((Dict.mem_keys_iff _ _).mpr (Option.isSome_iff_ne_none.mpr stored))
    rw [contents, if_neg unmarked, held] at covered
    cases covered

/-- Committing a run leaves the other runs as they are. -/
theorem StoreState.committed_set (s : StoreState) (objects : Bucket) (run : RunName)
    (files : Dict Key Bytes) (publishing : List Publication) (other : RunName) :
    StoreState.committed { s with
      objects := objects, published := s.published.set run files, publishing := publishing } other =
        if other = run then some (contents files) else s.committed other := by
  simp only [StoreState.committed, Dict.get?_set]
  split_ifs <;> rfl

end Steps

namespace Consistent

variable {s t : StoreState}

/-- The put of a file. -/
theorem putFile (consistent : Consistent s) {i : ℕ} {run : RunName} {files : Dict Key Bytes}
    {key : Key} {data : Bytes} {rest : List (Key × Bytes)}
    (located : s.publishing[i]? = some ⟨run, files, (key, data) :: rest⟩) (more : rest ≠ []) :
    Consistent { s with
      objects := s.objects.set key data
      publishing := s.publishing.set i ⟨run, files, rest⟩ } := by
  have member := List.mem_of_getElem? located
  have sound := consistent.publishing _ member
  obtain ⟨done, whole, -, made⟩ := sound.progress
  have isFile := publishRun_split whole
  rw [if_neg more] at isFile
  obtain ⟨rel, written, held, same⟩ : ∃ rel written, files.get? rel = some written ∧
      (key, data) = (run.path ++ rel, written) := mem_filePuts.mp isFile
  obtain ⟨rfl, rfl⟩ := Prod.mk.inj same
  have unmarked : rel ≠ [commitMarker] := by
    rintro rfl
    exact sound.unmarked ((Dict.mem_keys_iff _ _).mpr (by rw [held]; rfl))
  have writes : contents files rel = some data := by rw [contents, if_neg unmarked, held]
  have kept : ∀ call : Publication, call.Sound s → call.Sound { s with
      objects := s.objects.set (run.path ++ rel) data
      publishing := s.publishing.set i ⟨run, files, rest⟩ } := by
    intro call soundCall
    refine soundCall.keep member writes rfl ?_ fun _ _ => .inl
    intro other isOther
    rcases List.mem_or_eq_of_mem_set isOther with old | rfl
    · exact ⟨other, old, rfl, rfl⟩
    · exact ⟨_, member, rfl, rfl⟩
  refine ⟨?_, ?_, ?_, consistent.cached, consistent.materializing⟩
  · intro other marker
    rw [Dict.mem_keys_set, path_append_inj] at marker
    rcases marker with ⟨-, rfl⟩ | old
    · exact absurd rfl unmarked
    · exact consistent.marked other old
  · intro other content committed rel'
    rw [Dict.get?_set]
    split_ifs with same
    · obtain ⟨rfl, rfl⟩ := path_append_inj.mp same
      rw [sound.republishes content committed, writes]
    · exact consistent.stored other content committed rel'
  · intro call isCall
    rcases List.mem_or_eq_of_mem_set isCall with old | rfl
    · exact kept call (consistent.publishing call old)
    · have self := kept _ sound
      refine ⟨self.unmarked, ⟨done ++ [(run.path ++ rel, data)], ?_, more, ?_⟩, self.covers,
        self.alone, self.republishes⟩
      · rw [List.append_assoc]
        exact whole
      · intro put isDone
        rcases List.mem_append.mp isDone with earlier | now
        · obtain ⟨done', whole', -, made'⟩ := self.progress
          obtain rfl := List.append_cancel_right (whole'.trans whole.symm)
          exact made' put earlier
        · rw [List.mem_singleton.mp now, Dict.get?_set, if_pos rfl]

/-- The put of a marker: all files of the call are there, and nothing else below the run. -/
theorem putMarker (consistent : Consistent s) {i : ℕ} {run : RunName} {files : Dict Key Bytes}
    {key : Key} {data : Bytes}
    (located : s.publishing[i]? = some ⟨run, files, [(key, data)]⟩) :
    Consistent { s with
      objects := s.objects.set key data
      published := s.published.set run files
      publishing := s.publishing.eraseIdx i } := by
  have member := List.mem_of_getElem? located
  have sound := consistent.publishing _ member
  obtain ⟨done, whole, -, made⟩ := sound.progress
  have isMarker := publishRun_split whole
  rw [if_pos rfl] at isMarker
  obtain ⟨rfl, same⟩ : done = filePuts run.path files ∧
      (key, data) = (run.path ++ [commitMarker], []) := isMarker
  obtain ⟨rfl, rfl⟩ := Prod.mk.inj same
  have committed_set := s.committed_set (s.objects.set (run.path ++ [commitMarker]) []) run files
    (s.publishing.eraseIdx i)
  -- what is committed stays committed, with the same content
  have stable : ∀ other content, s.committed other = some content →
      (if other = run then some (contents files) else s.committed other) = some content := by
    intro other content before
    split_ifs with same
    · subst same
      rw [sound.republishes content before]
    · exact before
  refine ⟨?_, ?_, ?_, ?_, ?_⟩
  · intro other marker
    rw [committed_set]
    split_ifs with same
    · rfl
    · rw [Dict.mem_keys_set, path_append_inj] at marker
      exact consistent.marked other (marker.resolve_left fun written => same written.1)
  · intro other content committed rel
    rw [committed_set] at committed
    rw [Dict.get?_set]
    split_ifs at committed ⊢ with written sameRun sameRun
    · obtain rfl := Option.some.inj committed
      rw [contents, if_pos (path_append_inj.mp written).2]
    · exact absurd (path_append_inj.mp written).1 sameRun
    · subst sameRun
      obtain rfl := Option.some.inj committed
      have other : rel ≠ [commitMarker] := fun marker => written (path_append_inj.mpr ⟨rfl, marker⟩)
      rw [contents, if_neg other]
      exact sound.get?_of_filePuts made other
    · exact consistent.stored other content committed rel
  · intro call isCall
    have marked : contents files [commitMarker] = some [] := if_pos rfl
    refine (consistent.publishing call (List.mem_of_mem_eraseIdx isCall)).keep member marked rfl
      ?_ ?_
    · exact fun other isOther => ⟨other, List.mem_of_mem_eraseIdx isOther, rfl, rfl⟩
    · intro other content committed
      rw [committed_set] at committed
      split_ifs at committed with same
      · exact .inr ⟨same, (Option.some.inj committed).symm⟩
      · exact .inl committed
  · intro key data held
    obtain ⟨other, rel, content, located', committed, value⟩ := consistent.cached key data held
    exact ⟨other, rel, content, located', (committed_set other).trans (stable _ _ committed), value⟩
  · exact fun call isCall => (consistent.materializing call isCall).frame
      (fun other content before => (committed_set other).trans (stable _ _ before)) fun _ => id

/-- A key is copied, or found in the local directory. -/
theorem copy (consistent : Consistent s) {i : ℕ} (step : s.copy i = some t) : Consistent t := by
  unfold StoreState.copy at step
  split at step
  · next path key rest located =>
    have member := List.mem_of_getElem? located
    obtain ⟨run, below, content, under, committed, listed, inside⟩ :=
      consistent.materializing _ member
    dsimp only at under listed inside step
    obtain ⟨rel, rfl⟩ := inside key List.mem_cons_self
    -- the others keep what they have, this call has its key
    have advance : ∀ cache : Bucket, (∀ k ∈ s.cache.keys, k ∈ cache.keys) →
        path ++ rel ∈ cache.keys → ∀ call ∈ s.materializing.set i ⟨path, rest⟩,
          call.Sound { s with cache := cache, materializing := s.materializing.set i ⟨path, rest⟩ } := by
      intro cache grows has call isCall
      rcases List.mem_or_eq_of_mem_set isCall with old | rfl
      · exact (consistent.materializing call old).frame (fun _ _ => id) grows
      · refine ⟨run, below, content, under, committed, fun rel' proper filled => ?_,
          fun key isKey => inside key (List.mem_cons_of_mem _ isKey)⟩
        rcases listed rel' proper filled with waiting | held
        · rcases List.mem_cons.mp waiting with now | later
          · exact .inr (now ▸ has)
          · exact .inl later
        · exact .inr (grows _ held)
    split_ifs at step with held
    · obtain rfl := Option.some.inj step
      exact { consistent with
        publishing := fun call isCall =>
          (consistent.publishing call isCall).frame rfl rfl fun _ => id
        materializing := advance _ (fun _ => id) held }
    · obtain ⟨data, found, rfl⟩ := Option.map_eq_some_iff.mp step
      refine { consistent with
        publishing := fun call isCall =>
          (consistent.publishing call isCall).frame rfl rfl fun _ => id
        cached := ?_
        materializing := advance _ ?_ ?_ }
      · intro key data' isCached
        rw [Dict.get?_set] at isCached
        split_ifs at isCached with same
        · subst same
          obtain rfl := Option.some.inj isCached
          refine ⟨run, below ++ rel, content, by rw [under, List.append_assoc], committed, ?_⟩
          rw [← consistent.stored run content committed, ← List.append_assoc, ← under]
          exact found
        · exact consistent.cached key data' isCached
      · exact fun k isKey => (Dict.mem_keys_set _ _ _ _).mpr (.inr isKey)
      · exact (Dict.mem_keys_set _ _ _ _).mpr (.inl rfl)
  · cases step

theorem put (consistent : Consistent s) {i : ℕ} (step : s.put i = some t) : Consistent t := by
  unfold StoreState.put at step
  split at step
  · next located =>
    split_ifs at step with last
    · subst last
      obtain rfl := Option.some.inj step
      exact consistent.putMarker located
    · obtain rfl := Option.some.inj step
      exact consistent.putFile located last
  · cases step

/-- A disciplined publisher starts. -/
theorem publish (consistent : Consistent s) {run : RunName} {files : Dict Key Bytes}
    (allowed : Disciplined s (.publish run files)) :
    Consistent { s with
      publishing := s.publishing ++ [⟨run, files, publishRun run.path files⟩] } := by
  obtain ⟨unmarked, others, leftovers⟩ := allowed
  have alone : ∀ call ∈ s.publishing, call.run = run → contents call.files = contents files :=
    fun call member same => contents_congr (others call member same)
  have started : Publication.Sound { s with
      publishing := s.publishing ++ [⟨run, files, publishRun run.path files⟩] }
      ⟨run, files, publishRun run.path files⟩ := by
    have republishes : ∀ content, s.committed run = some content → content = contents files := by
      intro content committed
      obtain ⟨old, published, rfl⟩ := Option.map_eq_some_iff.mp committed
      rw [published] at leftovers
      exact contents_congr leftovers
    refine ⟨unmarked, ⟨[], rfl, by simp [publishRun], fun _ => by simp⟩, fun rel held => ?_, ?_,
      republishes⟩
    · cases published : s.published.get? run with
      | none =>
        rw [published] at leftovers
        exact isSome_contents (leftovers rel held)
      | some old =>
        have committed : s.committed run = some (contents old) := by
          rw [StoreState.committed, published, Option.map_some]
        rw [← republishes _ committed, ← consistent.stored run _ committed]
        exact (Dict.mem_keys_iff _ _).mp held
    · intro other member same
      rcases List.mem_append.mp member with earlier | this
      · exact alone other earlier same
      · rw [List.mem_singleton.mp this]
  refine { consistent with publishing := ?_, materializing := ?_ }
  · intro call isCall
    rcases List.mem_append.mp isCall with earlier | this
    · have sound := consistent.publishing call earlier
      refine { sound with alone := fun other member same => ?_ }
      rcases List.mem_append.mp member with before | now
      · exact sound.alone other before same
      · obtain rfl := List.mem_singleton.mp now
        exact (alone call earlier same.symm).symm
    · rw [List.mem_singleton.mp this]
      exact started
  · exact fun call isCall => (consistent.materializing call isCall).frame (fun _ _ => id) fun _ => id

/-- A reader starts below a marker: every object of the run is listed. -/
theorem localPath (consistent : Consistent s) {path : Key}
    (allowed : Disciplined s (.localPath path)) :
    Consistent { s with
      materializing := s.materializing ++ [⟨path, listKeys s.objects path⟩] } := by
  refine { consistent with publishing := ?_, materializing := ?_ }
  · exact fun call isCall => (consistent.publishing call isCall).frame rfl rfl fun _ => id
  · intro call isCall
    rcases List.mem_append.mp isCall with earlier | this
    · exact (consistent.materializing call earlier).frame (fun _ _ => id) fun _ => id
    · obtain rfl := List.mem_singleton.mp this
      obtain ⟨run, ⟨below, rfl⟩, marker⟩ := allowed
      obtain ⟨content, committed⟩ := Option.isSome_iff_exists.mp (consistent.marked run marker)
      refine ⟨run, below, content, rfl, committed, fun rel proper filled => .inl ?_,
        fun key isKey => ?_⟩
      · refine mem_listKeys.mpr ⟨(Dict.mem_keys_iff _ _).mpr ?_, rel, proper, rfl⟩
        rwa [List.append_assoc, consistent.stored run content committed]
      · obtain ⟨-, rel, -, located⟩ := mem_listKeys.mp isKey
        exact ⟨rel, located⟩

/-- Every disciplined step keeps the store and the local directory consistent. -/
theorem next (consistent : Consistent s) {l : StoreStep} (allowed : Disciplined s l)
    (step : s.next l = some t) : Consistent t := by
  cases l with
  | publish run files =>
    obtain rfl := Option.some.inj step
    exact consistent.publish allowed
  | put i => exact consistent.put step
  | crash i =>
    obtain rfl := Option.some.inj step
    exact { consistent with
      publishing := fun call isCall =>
        (consistent.publishing call (List.mem_of_mem_eraseIdx isCall)).frame rfl rfl
          fun _ => List.mem_of_mem_eraseIdx
      materializing := fun call isCall =>
        (consistent.materializing call isCall).frame (fun _ _ => id) fun _ => id }
  | listRunIds subdir =>
    obtain rfl := Option.some.inj step
    exact { consistent with
      publishing := fun call isCall =>
        (consistent.publishing call isCall).frame rfl rfl fun _ => id
      materializing := fun call isCall =>
        (consistent.materializing call isCall).frame (fun _ _ => id) fun _ => id }
  | readJson run rel =>
    simp only [StoreState.next] at step
    split_ifs at step
    obtain rfl := Option.some.inj step
    exact consistent
  | localPath path =>
    obtain rfl := Option.some.inj step
    exact consistent.localPath allowed
  | copy i => exact consistent.copy step
  | serve i =>
    simp only [StoreState.next] at step
    split at step
    · obtain rfl := Option.some.inj step
      exact { consistent with
        publishing := fun call isCall =>
          (consistent.publishing call isCall).frame rfl rfl fun _ => id
        materializing := fun call isCall =>
          (consistent.materializing call (List.mem_of_mem_eraseIdx isCall)).frame
            (fun _ _ => id) fun _ => id }
    · cases step

/-- In a consistent store every read and every finished directory comes from a committed run. -/
theorem serves (consistent : Consistent s) (marked : ListedMarked s) {l : StoreStep}
    (step : s.next l = some t) : ServesCommitted s l := by
  cases l with
  | readJson run rel =>
    simp only [StoreState.next] at step
    split_ifs at step with found
    exact marked run found
  | serve i =>
    intro call located
    obtain ⟨run, below, content, under, committed, listed, -⟩ :=
      consistent.materializing call (List.mem_of_getElem? located)
    have finished : call.remaining = [] := by
      simp only [StoreState.next] at step
      split at step
      · next located' =>
        obtain rfl := Option.some.inj (located.symm.trans located')
        rfl
      · cases step
    rw [finished] at listed
    refine ⟨run, below, content, under, committed, fun rel proper => Option.ext fun data => ?_⟩
    have copied : ∀ data, s.cache.get? (call.path ++ rel) = some data →
        content (below ++ rel) = some data := by
      intro data held
      obtain ⟨run', rel', content', located', committed', value⟩ := consistent.cached _ _ held
      rw [under, List.append_assoc, path_append_inj] at located'
      obtain ⟨rfl, rfl⟩ := located'
      rw [committed] at committed'
      rwa [Option.some.inj committed']
    constructor
    · exact copied data
    · intro value
      have has := (listed rel proper (by rw [value]; rfl)).resolve_left List.not_mem_nil
      obtain ⟨data', held⟩ := Option.isSome_iff_exists.mp ((Dict.mem_keys_iff _ _).mp has)
      rw [held, ← copied data' held, value]
  | _ => trivial

theorem initial (start : artifactSystem.Initial s) : Consistent s := by
  obtain ⟨objects, published, publishing, cache, materializing, -⟩ := start
  constructor <;> simp [objects, published, publishing, cache, materializing,
    StoreState.committed]

end Consistent

/-! ## Listed runs -/

namespace StoreState

variable {s t : StoreState}

/-- No step removes an object. -/
theorem objects_of_next {l : StoreStep} (step : s.next l = some t) {key : Key}
    (stored : key ∈ s.objects.keys) : key ∈ t.objects.keys := by
  cases l with
  | put i =>
    simp only [next, put] at step
    split at step
    · split_ifs at step
      all_goals
        obtain rfl := Option.some.inj step
        exact (Dict.mem_keys_set _ _ _ _).mpr (.inr stored)
    · cases step
  | copy i =>
    simp only [next, copy] at step
    split at step
    · split_ifs at step
      · obtain rfl := Option.some.inj step
        exact stored
      · obtain ⟨data, -, rfl⟩ := Option.map_eq_some_iff.mp step
        exact stored
    · cases step
  | readJson run rel =>
    simp only [next] at step
    split_ifs at step
    obtain rfl := Option.some.inj step
    exact stored
  | serve i =>
    simp only [next] at step
    split at step
    · obtain rfl := Option.some.inj step
      exact stored
    · cases step
  | publish _ _ | crash _ | listRunIds _ | localPath _ =>
    obtain rfl := Option.some.inj step
    exact stored

/-- Only listing runs adds to what is listed. -/
theorem listed_of_next {l : StoreStep} (step : s.next l = some t) {run : RunName}
    (listed : run ∈ t.listed) :
    run ∈ s.listed ∨ run.path ++ [commitMarker] ∈ s.objects.keys := by
  cases l with
  | listRunIds subdir =>
    obtain rfl := Option.some.inj step
    rcases List.mem_append.mp listed with earlier | now
    · exact .inl earlier
    · obtain ⟨id, found, rfl⟩ := List.mem_map.mp now
      exact .inr (mem_listRunIds.mp found)
  | put i =>
    simp only [next, put] at step
    split at step
    · split_ifs at step
      all_goals
        obtain rfl := Option.some.inj step
        exact .inl listed
    · cases step
  | copy i =>
    simp only [next, copy] at step
    split at step
    · split_ifs at step
      · obtain rfl := Option.some.inj step
        exact .inl listed
      · obtain ⟨data, -, rfl⟩ := Option.map_eq_some_iff.mp step
        exact .inl listed
    · cases step
  | readJson run rel =>
    simp only [next] at step
    split_ifs at step
    obtain rfl := Option.some.inj step
    exact .inl listed
  | serve i =>
    simp only [next] at step
    split at step
    · obtain rfl := Option.some.inj step
      exact .inl listed
    · cases step
  | publish _ _ | crash _ | localPath _ =>
    obtain rfl := Option.some.inj step
    exact .inl listed

end StoreState

theorem ListedMarked.next {s t : StoreState} (marked : ListedMarked s) {l : StoreStep}
    (step : s.next l = some t) : ListedMarked t := by
  intro run listed
  refine StoreState.objects_of_next step ?_
  rcases StoreState.listed_of_next step listed with earlier | now
  · exact marked run earlier
  · exact now

theorem ListedMarked.initial {s : StoreState} (start : artifactSystem.Initial s) :
    ListedMarked s := by
  intro run listed
  rw [start.2.2.2.2.2] at listed
  cases listed

/-- Whatever publishers do, a route that lists first reads below a marker, and the newest run of a
listing may be materialized. -/
theorem listed_reads_are_safe {s : StoreState} (run : artifactSystem.Reachable s) {name : RunName}
    (listed : name ∈ s.listed) :
    (∀ rel, ServesCommitted s (.readJson name rel)) ∧ Disciplined s (.localPath name.path) := by
  have marked : ListedMarked s := run.invariant ListedMarked (fun _ => ListedMarked.initial)
    fun _ _ _ marked _ => marked.next
  exact ⟨fun _ => marked name listed, name, List.prefix_refl _, marked name listed⟩

/-- In every run whose publications and materializations are disciplined, readers are served files
of committed runs only, and each finished directory holds what its run committed. -/
theorem readers_served_committed {past : List (LabeledSystem.Transition StoreState StoreStep)}
    {s : StoreState} (run : artifactSystem.Run past s)
    (disciplined : ∀ taken ∈ past, Disciplined taken.source taken.label) :
    ∀ taken ∈ past, ServesCommitted taken.source taken.label :=
  run.forall_of_invariant (P := fun taken => ServesCommitted taken.source taken.label)
    (fun s => ListedMarked s ∧ Consistent s)
    (fun _ start => ⟨.initial start, .initial start⟩)
    (fun _ _ _ ⟨marked, consistent⟩ allowed step => ⟨marked.next step, consistent.next allowed step⟩)
    (fun _ _ _ ⟨marked, consistent⟩ _ step => consistent.serves marked step) disciplined

/-- A solve run with its schedule. -/
def scheduleFiles : Dict Key Bytes := ⟨[(["schedule.json"], [123, 125])], by decide⟩

/-- The run is published and its directory has been copied, marker included. -/
def materializedState : StoreState where
  objects := ⟨[(["solve", "run-a", "schedule.json"], [123, 125]),
    (["solve", "run-a", commitMarker], [])], by decide⟩
  published := ⟨[(("solve", "run-a"), scheduleFiles)], by decide⟩
  cache := ⟨[(["solve", "run-a", commitMarker], []),
    (["solve", "run-a", "schedule.json"], [123, 125])], by decide⟩
  materializing := [⟨["solve", "run-a"], []⟩]

theorem readers_served_committed_solve : ServesCommitted materializedState (.serve 0) := by
  have start : artifactSystem.Run [] {} := .initial ⟨rfl, rfl, rfl, rfl, rfl, rfl⟩
  have published := start.step (l := StoreStep.publish ("solve", "run-a") scheduleFiles) rfl
  have file := published.step (l := StoreStep.put 0) rfl
  have marker := file.step (l := StoreStep.put 0) rfl
  have listing := marker.step (l := StoreStep.localPath ["solve", "run-a"]) rfl
  have first := listing.step (l := StoreStep.copy 0) rfl
  have second := first.step (l := StoreStep.copy 0) (t := materializedState)
    (show StoreState.next _ _ = some _ by decide +kernel)
  have served := second.step (l := StoreStep.serve 0) rfl
  refine readers_served_committed served ?_ ⟨materializedState, .serve 0, _⟩
    (List.mem_append_right _ List.mem_cons_self)
  intro taken member
  simp only [List.nil_append, List.cons_append, List.mem_cons, List.not_mem_nil, or_false] at member
  obtain rfl | rfl | rfl | rfl | rfl | rfl | rfl := member
  · exact ⟨by decide, by simp, by simp⟩
  · trivial
  · trivial
  · exact ⟨("solve", "run-a"), List.prefix_refl _, by decide +kernel⟩
  · trivial
  · trivial
  · trivial

/-- A reader names a run of which only the schedule is there, and is served it. -/
theorem unmarked_run_is_served :
    ¬ ∀ past s, artifactSystem.Run past s →
      ∀ taken ∈ past, ServesCommitted taken.source taken.label := by
  intro safe
  have start : artifactSystem.Run [] {} := .initial ⟨rfl, rfl, rfl, rfl, rfl, rfl⟩
  have published := start.step (l := StoreStep.publish ("solve", "run-a") scheduleFiles) rfl
  have file := published.step (l := StoreStep.put 0) rfl
  have listing := file.step (l := StoreStep.localPath ["solve", "run-a"]) rfl
  have copied := listing.step (l := StoreStep.copy 0) rfl
  have served := copied.step (l := StoreStep.serve 0) rfl
  obtain ⟨run, below, content, -, committed, -⟩ :=
    safe _ _ served _ (List.mem_append_right _ List.mem_cons_self) _ rfl
  cases committed

end FlOp.Serving
