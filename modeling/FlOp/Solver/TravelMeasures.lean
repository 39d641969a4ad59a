import FlOp.Solver.TravelTime

/-! # Travel times and link measures

The times of all links that a mover can use are merged by the faster one, while the measures that
costs are taken from are kept for each mode and the mode's own are preferred. Both come from the
fastest link of a mode, but not always from the same mode.
-/

namespace FlOp.Solver

open FlOp.Core Library

/-- A link for a specific mode is usable in it, a link for any mode in all; a mover of any mode
uses every link. -/
def TravelLink.UsableIn (link : TravelLink) (mode : TravelMode) : Prop :=
  mode = .any ∨ link.mode = mode ∨ link.mode = .any

instance (link : TravelLink) (mode : TravelMode) : Decidable (link.UsableIn mode) :=
  inferInstanceAs (Decidable (_ ∨ _))

section Index

variable (links : List TravelLink)

/-- The links of one mode that are indexed. -/
def timedLinks (mode : TravelMode) : List TravelLink :=
  links.filter fun link => link.Timed ∧ link.mode = mode

/-- The first of the fastest links that a mode declares for a pair. -/
def fastestLink (mode : TravelMode) (pair : LinkPair) : Option TravelLink :=
  firstMaxBy (fun link => -link.seconds) <|
    (timedLinks links mode).filter fun link => link.pair = pair

/-- The specific modes that have a link, in the order of their first ones. -/
def declaredModes : List TravelMode :=
  links.foldl (fun modes link =>
    if link.Timed ∧ link.mode ≠ .any ∧ link.mode ∉ modes then modes ++ [link.mode] else modes) []

/-- The link whose measure is looked up: the fastest that the mode itself declares and else the
fastest for any mode. A mover of any mode prefers the links for any mode, then those of the
specific mode that was declared last. -/
def measuredLink (mode : TravelMode) (pair : LinkPair) : Option TravelLink :=
  if mode = .any then
    (declaredModes links).foldl (fun found other => (fastestLink links other pair).or found) none
      |> (fastestLink links .any pair).or
  else (fastestLink links mode pair).or (fastestLink links .any pair)

variable (settings : TravelSettings) (pathDistanceKm : TravelPath → ℚ)

/-- Index of the links of one mode. -/
def linkIndex (mode : TravelMode) : LinkIndex :=
  (timedLinks links mode).foldl (LinkIndex.add settings pathDistanceKm) {}

variable {links settings pathDistanceKm}

theorem mem_timedLinks {mode : TravelMode} {link : TravelLink} :
    link ∈ timedLinks links mode ↔ link ∈ links ∧ link.Timed ∧ link.mode = mode := by
  rw [timedLinks, List.mem_filter, decide_eq_true_eq]

/-- A mode that declares a link for a pair has a fastest one. -/
theorem exists_fastestLink {mode : TravelMode} {link : TravelLink}
    (listed : link ∈ timedLinks links mode) :
    ∃ fastest ∈ fastestLink links mode link.pair, fastest.seconds ≤ link.seconds := by
  have member : link ∈ (timedLinks links mode).filter fun other => other.pair = link.pair :=
    List.mem_filter.mpr ⟨listed, decide_eq_true rfl⟩
  obtain ⟨fastest, found⟩ := Option.isSome_iff_exists.mp
    (isSome_firstMaxBy (fun link : TravelLink => -link.seconds) (List.ne_nil_of_mem member))
  have slower := le_of_firstMaxBy found link member
  exact ⟨fastest, found, by omega⟩

/-- Timing and measuring an index take the first of the fastest links. -/
theorem linkIndex_get? (mode : TravelMode) (pair : LinkPair) :
    (linkIndex links settings pathDistanceKm mode).times.get? pair =
        (fastestLink links mode pair).map TravelLink.seconds ∧
      (linkIndex links settings pathDistanceKm mode).measures.get? pair =
        (fastestLink links mode pair).map TravelLink.measure := by
  rw [linkIndex, fastestLink]
  induction timedLinks links mode using List.reverseRecOn with
  | nil => exact ⟨rfl, rfl⟩
  | append_singleton rest last ih =>
    rw [List.foldl_concat, List.filter_append]
    generalize rest.foldl (LinkIndex.add settings pathDistanceKm) {} = index at ih ⊢
    by_cases same : last.pair = pair
    · rw [List.filter_singleton, decide_eq_true same, cond_true, firstMaxBy_concat]
      subst same
      generalize firstMaxBy (fun link : TravelLink => -link.seconds) _ = fastest at ih ⊢
      rw [LinkIndex.add, ih.1]
      cases fastest with
      | none => simp [Dict.get?_set]
      | some best =>
        by_cases faster : last.seconds < best.seconds
        · simp [Dict.get?_set, faster]
        · simp [ih.1, ih.2, faster]
    · rw [List.filter_singleton, decide_eq_false same, cond_false, List.append_nil]
      rw [LinkIndex.add]
      split_ifs
      · simp [Dict.get?_set, Ne.symm same, ih.1, ih.2]
      · exact ih

theorem timedLinks_concat (last : TravelLink) (mode : TravelMode) :
    timedLinks (links ++ [last]) mode =
      if last.Timed ∧ last.mode = mode then timedLinks links mode ++ [last]
      else timedLinks links mode := by
  rw [timedLinks, List.filter_append, List.filter_singleton, ← timedLinks]
  by_cases indexed : last.Timed ∧ last.mode = mode
  · rw [decide_eq_true indexed, cond_true, if_pos indexed]
  · rw [decide_eq_false indexed, cond_false, if_neg indexed, List.append_nil]

theorem any_not_mem_declaredModes : TravelMode.any ∉ declaredModes links := by
  induction links using List.reverseRecOn with
  | nil => exact List.not_mem_nil
  | append_singleton rest last ih =>
    rw [declaredModes, List.foldl_concat, ← declaredModes]
    split_ifs with added
    · rw [List.mem_append, List.mem_singleton, not_or]
      exact ⟨ih, Ne.symm added.2.1⟩
    · exact ih

/-- A mode is declared exactly if it is specific and has a link. -/
theorem mem_declaredModes {mode : TravelMode} :
    mode ∈ declaredModes links ↔ mode ≠ .any ∧ timedLinks links mode ≠ [] := by
  induction links using List.reverseRecOn with
  | nil => simp [declaredModes, timedLinks]
  | append_singleton rest last ih =>
    rw [declaredModes, List.foldl_concat, ← declaredModes, timedLinks_concat]
    by_cases own : last.Timed ∧ last.mode = mode
    · obtain ⟨timed, rfl⟩ := own
      simp only [timed, true_and, if_true, ne_eq, List.append_eq_nil_iff, List.cons_ne_nil,
        and_false, not_false_eq_true, and_true]
      by_cases general : last.mode = .any
      · rw [general]
        simp [any_not_mem_declaredModes]
      · by_cases known : last.mode ∈ declaredModes rest
        · simp [general, known]
        · simp [general, known]
    · rw [if_neg own, ← ih]
      split_ifs with added
      · have other : mode ≠ last.mode := fun same => own ⟨added.1, same.symm⟩
        simp [other]
      · exact Iff.rfl

variable (links settings pathDistanceKm) in
/-- What indexing has stored: the index of the links for any mode, and one for each declared
mode. -/
theorem indexLinks_spec :
    (indexLinks settings pathDistanceKm links).any = linkIndex links settings pathDistanceKm .any ∧
    (indexLinks settings pathDistanceKm links).byMode.keys = declaredModes links ∧
    ∀ mode, mode ≠ .any → (indexLinks settings pathDistanceKm links).byMode.get? mode =
      if timedLinks links mode = [] then none
      else some (linkIndex links settings pathDistanceKm mode) := by
  induction links using List.reverseRecOn with
  | nil => exact ⟨rfl, rfl, fun _ _ => rfl⟩
  | append_singleton rest last ih =>
    obtain ⟨any, keys, stored⟩ := ih
    rw [indexLinks, List.foldl_concat, ← indexLinks, declaredModes, List.foldl_concat,
      ← declaredModes, LinkIndexes.add]
    simp only [linkIndex, timedLinks_concat]
    by_cases timed : last.Timed
    swap
    · simp only [timed, not_false_eq_true, if_true, false_and, if_false]
      exact ⟨any, keys, stored⟩
    by_cases general : last.mode = .any
    · refine ⟨?_, ?_, fun mode specific => ?_⟩
      · simp [timed, general, any, linkIndex]
      · simp [timed, general, keys]
      · simpa [timed, general, Ne.symm specific, linkIndex] using stored mode specific
    · have index : (indexLinks settings pathDistanceKm rest).byMode.getD last.mode {} =
          linkIndex rest settings pathDistanceKm last.mode := by
        rw [Dict.getD, stored last.mode general]
        split_ifs with none
        · rw [linkIndex, none]
          rfl
        · rfl
      simp only [timed, general, not_true_eq_false, if_false, true_and, index, ne_eq,
        not_false_eq_true]
      refine ⟨any, ?_, fun mode specific => ?_⟩
      · by_cases known : last.mode ∈ declaredModes rest
        · rw [if_neg (not_not.mpr known), Dict.keys_set (keys ▸ known), keys]
        · rw [if_pos known, Dict.keys_set_new (keys ▸ known), keys]
      · rw [Dict.get?_set]
        by_cases same : last.mode = mode
        · subst same
          simp [linkIndex]
        · rw [if_neg (Ne.symm same), if_neg same]
          exact stored mode specific

/-- The indexes of the specific modes, in the order of their first links. -/
theorem byMode_entries : (indexLinks settings pathDistanceKm links).byMode.entries =
    (declaredModes links).map fun mode => (mode, linkIndex links settings pathDistanceKm mode) := by
  obtain ⟨-, keys, stored⟩ := indexLinks_spec links settings pathDistanceKm
  rw [← keys]
  refine Dict.entries_eq_map fun mode key => ?_
  rw [keys, mem_declaredModes] at key
  rw [stored mode key.1, if_neg key.2]

theorem nodup_declaredModes : (TravelMode.any :: declaredModes links).Nodup := by
  obtain ⟨-, keys, -⟩ := indexLinks_spec links {} fun _ => 0
  refine List.nodup_cons.mpr ⟨any_not_mem_declaredModes, ?_⟩
  rw [← keys]
  exact Dict.nodupKeys _

variable (links settings pathDistanceKm) in
/-- The direct links that the network of a mode is composed of. -/
def directNetwork (mode : TravelMode) : TravelPairLookup × TravelPathLookup :=
  let any := linkIndex links settings pathDistanceKm .any
  if mode = .any then (any.times, any.paths)
  else
    let own := linkIndex links settings pathDistanceKm mode
    mergeFaster (any.times, any.paths) own.times own.paths

/-- Merged tables have the faster time of each pair. -/
theorem mergeFaster_get? (given : TravelPairLookup × TravelPathLookup) (times : TravelPairLookup)
    (paths : TravelPathLookup) (pair : LinkPair) :
    (mergeFaster given times paths).1.get? pair =
      Option.merge min (given.1.get? pair) (times.get? pair) := by
  refine (Dict.read_foldl_entries
    (fun (merged : TravelPairLookup × TravelPathLookup) pair => merged.1.get? pair)
    (fun _ given seconds => Option.merge min given (some seconds)) ?_ times given pair).trans ?_
  · intro merged entry pair
    by_cases same : entry.1 = pair
    · subst same
      cases stored : merged.1.get? entry.1 with
      | none => simp [Dict.get?_set]
      | some existing =>
        by_cases faster : entry.2 < existing
        · simp [faster, Dict.get?_set, min_eq_right faster.le]
        · simp [faster, stored, min_eq_left (not_lt.mp faster)]
    · rw [if_neg same]
      split_ifs
      · exact (Dict.get?_set _ _ _ _).trans (if_neg (Ne.symm same))
      · rfl
  · cases times.get? pair with
    | none => cases given.1.get? pair <;> rfl
    | some seconds => rfl

/-- A time that is known is not more than the given one. -/
theorem le_merge_left {first second : Option ℤ} {given : ℤ}
    (known : ∃ time ∈ first, time ≤ given) :
    ∃ time ∈ Option.merge min first second, time ≤ given := by
  obtain ⟨time, rfl, below⟩ := known
  cases second with
  | none => exact ⟨time, rfl, below⟩
  | some other => exact ⟨min time other, rfl, (min_le_left _ _).trans below⟩

theorem le_merge_right {first second : Option ℤ} {given : ℤ}
    (known : ∃ time ∈ second, time ≤ given) :
    ∃ time ∈ Option.merge min first second, time ≤ given := by
  obtain ⟨time, rfl, below⟩ := known
  cases first with
  | none => exact ⟨time, rfl, below⟩
  | some other => exact ⟨min other time, rfl, (min_le_right _ _).trans below⟩

/-- The direct network of a mode is no slower than any link that the mode can use. -/
theorem directNetwork_le {mode : TravelMode} {link : TravelLink} (listed : link ∈ links)
    (timed : link.Timed) (usable : link.mode = mode ∨ link.mode = .any) :
    ∃ seconds ∈ (directNetwork links settings pathDistanceKm mode).1.get? link.pair,
      seconds ≤ link.seconds := by
  have stored : ∃ seconds ∈ (linkIndex links settings pathDistanceKm link.mode).times.get? link.pair,
      seconds ≤ link.seconds := by
    obtain ⟨fastest, found, faster⟩ := exists_fastestLink (mem_timedLinks.mpr ⟨listed, timed, rfl⟩)
    rw [(linkIndex_get? link.mode link.pair).1, Option.mem_def.mp found]
    exact ⟨fastest.seconds, rfl, faster⟩
  rw [directNetwork]
  split_ifs with general
  · rwa [usable.elim (fun own => own.trans general) id] at stored
  · dsimp only
    rw [mergeFaster_get?]
    rcases usable with rfl | any
    · exact le_merge_right stored
    · exact le_merge_left (any ▸ stored)

theorem directNetwork_positive (mode : TravelMode) (pair : LinkPair) :
    ∀ seconds ∈ (directNetwork links settings pathDistanceKm mode).1.get? pair, 0 < seconds := by
  have indexed : ∀ mode, ∀ seconds ∈ (linkIndex links settings pathDistanceKm mode).times.get? pair,
      0 < seconds := by
    intro mode seconds stored
    rw [(linkIndex_get? mode pair).1] at stored
    obtain ⟨link, -, rfl⟩ := Option.map_eq_some_iff.mp stored
    exact Int.lt_of_lt_of_le Int.one_pos (le_max_left _ _)
  intro seconds stored
  rw [directNetwork] at stored
  split_ifs at stored with general
  · exact indexed .any seconds stored
  · dsimp only at stored
    rw [mergeFaster_get?] at stored
    rcases Option.merge_eq_or_eq min_choice ((linkIndex links settings pathDistanceKm .any).times.get?
      pair) ((linkIndex links settings pathDistanceKm mode).times.get? pair) with same | same
    · exact indexed .any seconds (same ▸ stored)
    · exact indexed mode seconds (same ▸ stored)

variable (links settings pathDistanceKm) in
/-- The network of a mode as the lookup has it. -/
def closedNetwork (mode : TravelMode) (fuel : ℕ) : Option (TravelPairLookup × TravelPathLookup) :=
  let direct := directNetwork links settings pathDistanceKm mode
  composeNetwork direct.1 direct.2 settings fuel

/-- The lookup holds the closed networks of all modes, the one for any mode first. -/
theorem buildTravelLookup_eq (fuel : ℕ) : buildTravelLookup settings pathDistanceKm links fuel =
    ((TravelMode.any :: declaredModes links).mapM fun mode =>
        (closedNetwork links settings pathDistanceKm mode fuel).map (mode, ·)).map
      (assembleLookup (indexLinks settings pathDistanceKm links)) := by
  have general : (indexLinks settings pathDistanceKm links).any =
    linkIndex links settings pathDistanceKm .any := (indexLinks_spec links settings pathDistanceKm).1
  have first : composeNetwork (linkIndex links settings pathDistanceKm .any).times
      (linkIndex links settings pathDistanceKm .any).paths settings fuel =
      closedNetwork links settings pathDistanceKm .any fuel := by
    rw [closedNetwork, directNetwork, if_pos rfl]
  have specific : ∀ mode ∈ declaredModes links,
      (composeMode settings (linkIndex links settings pathDistanceKm .any) fuel ∘ fun mode =>
        (mode, linkIndex links settings pathDistanceKm mode)) mode =
      (closedNetwork links settings pathDistanceKm mode fuel).map (mode, ·) := by
    intro mode declared
    rw [Function.comp_apply, composeMode, closedNetwork, directNetwork,
      if_neg (mem_declaredModes.mp declared).1]
  rw [buildTravelLookup, general, first, byMode_entries, List.mapM_map,
    Fallible.mapM_congr specific, List.mapM_cons]
  cases closedNetwork links settings pathDistanceKm .any fuel with
  | none => rfl
  | some network =>
    cases (declaredModes links).mapM fun mode =>
      (closedNetwork links settings pathDistanceKm mode fuel).map (mode, ·) <;> rfl

/-- Indexing and closing ends with a lookup. -/
theorem exists_buildTravelLookup : ∃ lookup,
    Fallible.EndsWith (buildTravelLookup settings pathDistanceKm links) lookup := by
  have closes : ∀ mode ∈ TravelMode.any :: declaredModes links, ∃ entry, Fallible.EndsWith
      (fun fuel => (closedNetwork links settings pathDistanceKm mode fuel).map (mode, ·)) entry ∧
        True := by
    intro mode _
    obtain ⟨network, ends, -⟩ := exists_composeNetwork _
      (directNetwork links settings pathDistanceKm mode).2 settings (directNetwork_positive mode)
    exact ⟨(mode, network), ends.map _, trivial⟩
  obtain ⟨networks, ends, -⟩ := Fallible.exists_mapM_endsWith closes
  exact ⟨_, (ends.map _).congr fun fuel => buildTravelLookup_eq fuel⟩

/-- More fuel keeps a lookup. -/
theorem buildTravelLookup_kept (fuel : ℕ) (lookup : ModeAwareTravelLookup)
    (found : buildTravelLookup settings pathDistanceKm links fuel = some lookup) :
    buildTravelLookup settings pathDistanceKm links (fuel + 1) = some lookup := by
  rw [buildTravelLookup_eq] at found ⊢
  obtain ⟨networks, closed, same⟩ := Option.map_eq_some_iff.mp found
  refine Option.map_eq_some_iff.mpr ⟨networks, ?_, same⟩
  apply Fallible.mapM_kept (f := fun fuel mode =>
    (closedNetwork links settings pathDistanceKm mode fuel).map (mode, ·)) _ closed
  intro mode entry made
  obtain ⟨network, closes, same⟩ := Option.map_eq_some_iff.mp made
  exact Option.map_eq_some_iff.mpr ⟨network, composeNetwork_kept closes, same⟩

variable {fuel : ℕ} {lookup : ModeAwareTravelLookup}

theorem networks_of_buildTravelLookup
    (built : buildTravelLookup settings pathDistanceKm links fuel = some lookup) :
    ∃ networks : Networks, assembleLookup (indexLinks settings pathDistanceKm links) networks = lookup ∧
      List.Forall₂ (fun mode entry => ∃ network,
        closedNetwork links settings pathDistanceKm mode fuel = some network ∧
          (mode, network) = entry) (.any :: declaredModes links) networks := by
  rw [buildTravelLookup_eq] at built
  obtain ⟨networks, closed, same⟩ := Option.map_eq_some_iff.mp built
  exact ⟨networks, same, (Fallible.mapM_eq_some.mp closed).imp fun _ _ =>
    Option.map_eq_some_iff.mp⟩

/-- The tables of the lookup are the closed networks. -/
theorem byMode_of_buildTravelLookup
    (built : buildTravelLookup settings pathDistanceKm links fuel = some lookup)
    (mode : TravelMode) : lookup.byMode.get? mode =
      if mode ∈ TravelMode.any :: declaredModes links then
        (closedNetwork links settings pathDistanceKm mode fuel).map Prod.fst
      else none := by
  obtain ⟨networks, rfl, pairs⟩ := networks_of_buildTravelLookup built
  have modes : List.Forall₂ Eq (.any :: declaredModes links) (networks.map Prod.fst) :=
    List.forall₂_map_right_iff.mpr (pairs.imp fun _ _ ⟨_, _, same⟩ => same ▸ rfl)
  rw [List.forall₂_eq_eq_eq] at modes
  change (Dict.collect (·.1) (·.2.1) networks).get? mode = _
  split_ifs with declared
  · obtain ⟨_, member, network, closed, rfl⟩ := Fallible.exists_right_of_forall₂ pairs declared
    rw [closed]
    exact Dict.get?_collect_of_mem (modes ▸ nodup_declaredModes) member
  · rw [Option.eq_none_iff_forall_ne_some]
    intro network stored
    obtain ⟨entry, member, rfl, -⟩ := Dict.exists_of_get?_collect stored
    exact declared (modes ▸ List.mem_map_of_mem member)

/-- The aggregate is no slower than any table that goes into it. -/
theorem le_foldl_mergeFaster {networks : Networks} {pair : LinkPair} {seconds : ℤ}
    {given : TravelPairLookup × TravelPathLookup}
    (known : (∃ time ∈ given.1.get? pair, time ≤ seconds) ∨
      ∃ entry ∈ networks, ∃ time ∈ entry.2.1.get? pair, time ≤ seconds) :
    ∃ time ∈ (networks.foldl (fun merged network => mergeFaster merged network.2.1 network.2.2)
      given).1.get? pair, time ≤ seconds := by
  induction networks generalizing given with
  | nil =>
    rcases known with known | ⟨_, none, _⟩
    · exact known
    · cases none
  | cons first rest ih =>
    rw [List.foldl_cons]
    apply ih
    rw [mergeFaster_get?]
    rcases known with known | ⟨entry, member, known⟩
    · exact .inl (le_merge_left known)
    · rcases List.mem_cons.mp member with rfl | later
      · exact .inl (le_merge_right known)
      · exact .inr ⟨entry, later, known⟩

theorem aggregate_le (built : buildTravelLookup settings pathDistanceKm links fuel = some lookup)
    {mode : TravelMode} {network : TravelPairLookup}
    (stored : lookup.byMode.get? mode = some network) {pair : LinkPair} {seconds : ℤ}
    (known : ∃ time ∈ network.get? pair, time ≤ seconds) :
    ∃ time ∈ lookup.aggregate.get? pair, time ≤ seconds := by
  obtain ⟨networks, rfl, -⟩ := networks_of_buildTravelLookup built
  obtain ⟨entry, member, -, rfl⟩ := Dict.exists_of_get?_collect stored
  exact le_foldl_mergeFaster (.inr ⟨entry, member, known⟩)

/-- The table of a mode is no slower than any link between different places that it can use. -/
theorem byMode_le (built : buildTravelLookup settings pathDistanceKm links fuel = some lookup)
    {mode : TravelMode} (declared : mode ∈ TravelMode.any :: declaredModes links)
    {link : TravelLink} (listed : link ∈ links) (timed : link.Timed)
    (usable : link.mode = mode ∨ link.mode = .any) (apart : link.pair.1 ≠ link.pair.2) :
    ∃ network, lookup.byMode.get? mode = some network ∧
      ∃ seconds ∈ network.get? link.pair, seconds ≤ link.seconds := by
  obtain ⟨networks, -, pairs⟩ := networks_of_buildTravelLookup built
  obtain ⟨_, -, network, closed, -⟩ := Fallible.exists_right_of_forall₂ pairs declared
  have direct : ∃ seconds ∈ (directNetwork links settings pathDistanceKm mode).1.get? link.pair,
    seconds ≤ link.seconds := directNetwork_le listed timed usable
  obtain ⟨seconds, stored, slower⟩ := direct
  obtain ⟨least, found, below⟩ :=
    composeNetwork_le (directNetwork_positive mode) closed apart stored
  refine ⟨network.1, ?_, least, found, below.trans slower⟩
  rw [byMode_of_buildTravelLookup built, if_pos declared, closed]
  rfl

theorem TravelLink.mode_declared {link : TravelLink} (listed : link ∈ links) (timed : link.Timed) :
    link.mode ∈ TravelMode.any :: declaredModes links := by
  by_cases general : link.mode = .any
  · exact List.mem_cons.mpr (.inl general)
  · refine List.mem_cons_of_mem _ (mem_declaredModes.mpr ⟨general, ?_⟩)
    exact List.ne_nil_of_mem (mem_timedLinks.mpr ⟨listed, timed, rfl⟩)

/-- The travel time between different places is no slower than any direct link that the mover can
use. -/
theorem getSeconds_le (built : buildTravelLookup settings pathDistanceKm links fuel = some lookup)
    {fromRef toRef : String} {travelMode : Option String} {link : TravelLink}
    (listed : link ∈ links) (timed : link.Timed) (pair : link.pair = (fromRef, toRef))
    (usable : link.UsableIn (normaliseMode travelMode)) (apart : fromRef ≠ toRef) :
    ∃ seconds ∈ lookup.getSeconds fromRef toRef travelMode, seconds ≤ link.seconds := by
  have ends : link.pair.1 ≠ link.pair.2 := by rwa [pair]
  rw [ModeAwareTravelLookup.getSeconds, ModeAwareTravelLookup.resolve, ← pair]
  split_ifs with general
  · obtain ⟨network, stored, known⟩ :=
      byMode_le built (link.mode_declared listed timed) listed timed (.inl rfl) ends
    exact aggregate_le built stored known
  · have usable := usable.resolve_left general
    by_cases declared : normaliseMode travelMode ∈ TravelMode.any :: declaredModes links
    · obtain ⟨network, stored, seconds, known, below⟩ :=
        byMode_le built declared listed timed usable ends
      rw [Dict.getD, stored, Option.getD_some, Option.mem_def.mp known]
      exact ⟨seconds, rfl, below⟩
    · have shared : link.mode = .any := usable.resolve_left fun own =>
        declared (own ▸ link.mode_declared listed timed)
      have table := byMode_of_buildTravelLookup built (normaliseMode travelMode)
      rw [if_neg declared] at table
      obtain ⟨network, stored, seconds, known, below⟩ :=
        byMode_le built List.mem_cons_self listed timed (.inr shared) ends
      rw [Dict.getD, table, Dict.getD, stored]
      exact ⟨seconds, known, below⟩

/-- Without a link of its mode a pair has no fastest one. -/
theorem fastestLink_of_not_declared {mode : TravelMode} {pair : LinkPair}
    (absent : mode ∉ TravelMode.any :: declaredModes links) :
    fastestLink links mode pair = none := by
  rw [List.mem_cons, mem_declaredModes, not_or, not_and, not_not] at absent
  rw [fastestLink, absent.2 absent.1]
  rfl

/-- The table of measures of a mode has those of its fastest links. -/
theorem measuresByMode_get?
    (built : buildTravelLookup settings pathDistanceKm links fuel = some lookup)
    (mode : TravelMode) (pair : LinkPair) :
    (lookup.measuresByMode.getD mode .empty).get? pair =
      (fastestLink links mode pair).map TravelLink.measure := by
  obtain ⟨networks, rfl, -⟩ := networks_of_buildTravelLookup built
  have tables : (assembleLookup (indexLinks settings pathDistanceKm links) networks).measuresByMode =
      Dict.collect id (fun mode => (linkIndex links settings pathDistanceKm mode).measures)
        (.any :: declaredModes links) := by
    rw [assembleLookup, byMode_entries, (indexLinks_spec links settings pathDistanceKm).1,
      List.map_map]
    exact Dict.collect_map Prod.fst Prod.snd
      (fun mode => (mode, (linkIndex links settings pathDistanceKm mode).measures))
      (.any :: declaredModes links)
  rw [tables, Dict.getD]
  by_cases declared : mode ∈ TravelMode.any :: declaredModes links
  · have nodup : ((TravelMode.any :: declaredModes links).map id).Nodup := by
      rw [List.map_id]
      exact nodup_declaredModes
    have stored : (Dict.collect id (fun mode => (linkIndex links settings pathDistanceKm mode).measures)
        (.any :: declaredModes links)).get? mode =
        some (linkIndex links settings pathDistanceKm mode).measures :=
      Dict.get?_collect_of_mem nodup declared
    rw [stored]
    exact (linkIndex_get? mode pair).2
  · cases stored : (Dict.collect id (fun mode =>
        (linkIndex links settings pathDistanceKm mode).measures)
        (.any :: declaredModes links)).get? mode with
    | none =>
      rw [fastestLink_of_not_declared declared]
      rfl
    | some table =>
      obtain ⟨other, member, rfl, -⟩ := Dict.exists_of_get?_collect stored
      exact absurd member declared

/-- What is looked up as the measure of a pair is that of the link to be measured. -/
theorem getMeasure_eq (built : buildTravelLookup settings pathDistanceKm links fuel = some lookup)
    (fromRef toRef : String) (travelMode : Option String) :
    lookup.getMeasure fromRef toRef travelMode =
      (measuredLink links (normaliseMode travelMode) (fromRef, toRef)).map TravelLink.measure := by
  rw [ModeAwareTravelLookup.getMeasure, ModeAwareTravelLookup.resolve, measuredLink]
  split_ifs with general
  · obtain ⟨networks, rfl, -⟩ := networks_of_buildTravelLookup built
    have folded : ∀ (modes : List TravelMode) (measures : TravelMeasureLookup)
        (found : Option TravelLink),
        measures.get? (fromRef, toRef) = found.map TravelLink.measure →
        ((modes.map (linkIndex links settings pathDistanceKm)).foldl
          (fun measures index => measures.update index.measures) measures).get? (fromRef, toRef) =
          (modes.foldl (fun found mode => (fastestLink links mode (fromRef, toRef)).or found)
            found).map TravelLink.measure := by
      intro modes
      induction modes with
      | nil => exact fun _ _ same => same
      | cons mode rest ih =>
        intro measures found same
        rw [List.map_cons, List.foldl_cons, List.foldl_cons]
        apply ih
        rw [Dict.get?_update, same, (linkIndex_get? mode _).2, Option.map_or]
    rw [assembleLookup, Dict.get?_update, (indexLinks_spec links settings pathDistanceKm).1,
      (linkIndex_get? .any _).2, Option.map_or, Dict.values, byMode_entries, List.map_map]
    exact congrArg _ (folded (declaredModes links) .empty none rfl)
  · rw [measuresByMode_get? built, measuresByMode_get? built, Option.map_or]

/-- Costs take the distance and the toll of the link to be measured, the distance only if the link
declares one. -/
theorem network_costs_eq
    (built : buildTravelLookup settings pathDistanceKm links fuel = some lookup)
    {fromRef toRef : String} (places : fromRef ≠ "" ∧ toRef ≠ "" ∧ fromRef ≠ toRef)
    (travelMode : Option String) :
    let measured := measuredLink links (normaliseMode travelMode) (fromRef, toRef)
    networkTollEur (some (.modeAware lookup)) fromRef toRef travelMode =
        measured.map (fun link => max 0 link.tollEur) ∧
      networkDistanceKm (some (.modeAware lookup)) fromRef toRef travelMode =
        (measured.map fun link => max 0 link.distanceKm).filter (0 < ·) := by
  intro measured
  have measure : networkMeasure (some (.modeAware lookup)) fromRef toRef travelMode =
      measured.map TravelLink.measure := by
    rw [networkMeasure, if_neg (by tauto), getMeasure_eq built]
  rw [networkTollEur, networkDistanceKm, measure, Option.map_map, Option.map_map]
  exact ⟨rfl, rfl⟩

/-- The time in a specific mode depends only on the links that are usable in it. -/
theorem getSeconds_filter (built : buildTravelLookup settings pathDistanceKm links fuel = some lookup)
    {travelMode : Option String} (specific : normaliseMode travelMode ≠ .any)
    {own : ModeAwareTravelLookup}
    (builtOwn : buildTravelLookup settings pathDistanceKm
      (links.filter (TravelLink.UsableIn · (normaliseMode travelMode))) fuel = some own)
    (fromRef toRef : String) :
    own.getSeconds fromRef toRef travelMode = lookup.getSeconds fromRef toRef travelMode := by
  obtain ⟨mode, same⟩ : ∃ mode, normaliseMode travelMode = mode := ⟨_, rfl⟩
  rw [same] at specific builtOwn
  have timed : ∀ other, other = mode ∨ other = .any →
      timedLinks (links.filter (TravelLink.UsableIn · mode)) other = timedLinks links other := by
    intro other usable
    rw [timedLinks, List.filter_filter, timedLinks]
    refine List.filter_congr fun link _ => ?_
    by_cases own : link.Timed ∧ link.mode = other
    · have inside : link.UsableIn mode := .inr (usable.imp own.2.trans own.2.trans)
      rw [decide_eq_true own, decide_eq_true inside]
      rfl
    · rw [decide_eq_false own]
      rfl
  have index : ∀ other, other = mode ∨ other = .any →
      linkIndex (links.filter (TravelLink.UsableIn · mode)) settings pathDistanceKm other =
        linkIndex links settings pathDistanceKm other := by
    intro other usable
    rw [linkIndex, timed other usable, linkIndex]
  have table : ∀ other, other = mode ∨ other = .any →
      own.byMode.get? other = lookup.byMode.get? other := by
    intro other usable
    have declared : other ∈ TravelMode.any ::
        declaredModes (links.filter (TravelLink.UsableIn · mode)) ↔
        other ∈ TravelMode.any :: declaredModes links := by
      rw [List.mem_cons, List.mem_cons, mem_declaredModes, mem_declaredModes, timed other usable]
    have closed : closedNetwork (links.filter (TravelLink.UsableIn · mode)) settings pathDistanceKm
        other fuel = closedNetwork links settings pathDistanceKm other fuel := by
      rw [closedNetwork, directNetwork, index other usable, index .any (.inr rfl)]
      rfl
    rw [byMode_of_buildTravelLookup built, byMode_of_buildTravelLookup builtOwn, closed]
    exact if_congr declared rfl rfl
  rw [ModeAwareTravelLookup.getSeconds, ModeAwareTravelLookup.getSeconds,
    ModeAwareTravelLookup.resolve, ModeAwareTravelLookup.resolve, Dict.getD, Dict.getD, Dict.getD,
    Dict.getD, same, if_neg specific, if_neg specific, table mode (.inl rfl), table .any (.inr rfl)]

variable (links) in
/-- A direct link of a pair that a mover of the mode can use. -/
def TravelLink.Serves (link : TravelLink) (pair : LinkPair) (mode : TravelMode) : Prop :=
  link ∈ links ∧ link.Timed ∧ link.pair = pair ∧ link.UsableIn mode

end Index

/-- A slow road link that is tolled, and a fast link for any mode that is not. -/
def rivalLinks : List TravelLink :=
  [{ fromLocationRef := "A", toLocationRef := "B", travelTimeS := 100, distanceKm := 10 },
    { fromLocationRef := "A", toLocationRef := "B", travelTimeS := 200, networkMode := some "road",
      distanceKm := 20, tollEur := 5 }]

end FlOp.Solver
