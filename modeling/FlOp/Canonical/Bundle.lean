import FlOp.Library.Numerals
import FlOp.Library.Ordering
import Mathlib.Data.String.Basic

/-! # Bundle identity

A bundle is named by the digest of its sorted members and the configuration version. The id tells
two bundles apart if their texts differ; these are joined without escaping, and identifiers may hold
the comma that joins them or the marker of the next part.
-/

namespace FlOp.Canonical

open Library

/-- The text a bundle id digests. -/
def bundlePayload (assetIds operatorIds : List String) (configurationVersion : String) : String :=
  "|".intercalate
    ["A:" ++ ",".intercalate (sortBy id assetIds), "O:" ++ ",".intercalate (sortBy id operatorIds),
      "C:" ++ configurationVersion]

/-- Deterministic bundle identity; `digest` is the truncated hash of a text. -/
def computeBundleId (digest : String → String) (assetIds operatorIds : List String)
    (configurationVersion : String) : String :=
  "bundle-" ++ digest (bundlePayload assetIds operatorIds configurationVersion)

/-- The identifiers of one kind as the payload lists them. -/
def joined (ids : List String) : String := ",".intercalate (sortBy id ids)

/-- The parts of a payload around the markers of the second and third. -/
def reading (assets operators version : String) : String :=
  assets ++ "|O:" ++ operators ++ "|C:" ++ version

/-- A text holds another one. -/
def Holds (text part : String) : Prop := ∃ before after, text = before ++ part ++ after

/-- An identifier that cannot be read as several identifiers in order. -/
def Indivisible (identifier : String) : Prop :=
  identifier ≠ "" ∧ ∀ first rest, identifier = first ++ "," ++ rest → rest < first

/-- An identifier without the characters the payload is put together with. -/
def Plain (identifier : String) : Prop :=
  identifier ≠ "" ∧ ',' ∉ identifier.toList ∧ '|' ∉ identifier.toList

/-- Two bundles have the same members and the same version. -/
def SameMembers (assetIds operatorIds : List String) (version : String)
    (otherAssetIds otherOperatorIds : List String) (otherVersion : String) : Prop :=
  (∀ s, s ∈ otherAssetIds ↔ s ∈ assetIds) ∧ (∀ s, s ∈ otherOperatorIds ↔ s ∈ operatorIds) ∧
    otherVersion = version

/-- One asset and one operator, neither of them divisible, and no text that ends its part early. -/
structure Unmistakable (assetIds operatorIds : List String) (version : String) : Prop where
  asset : ∃ s, assetIds = [s] ∧ Indivisible s ∧ ¬Holds s "|O:"
  operator : ∃ s, operatorIds = [s] ∧ Indivisible s ∧ ¬Holds s "|O:" ∧ ¬Holds s "|C:"
  version : ¬Holds version "|C:"

variable {assetIds operatorIds otherAssetIds otherOperatorIds ids : List String}
  {version otherVersion a o c s t : String}

theorem bundlePayload_eq (assetIds operatorIds : List String) (version : String) :
    bundlePayload assetIds operatorIds version =
      "A:" ++ reading (joined assetIds) (joined operatorIds) version := by
  have second : "|O:" = "|" ++ "O:" := by decide
  have third : "|C:" = "|" ++ "C:" := by decide
  simp only [bundlePayload, joined, reading, String.intercalate_cons_cons,
    String.intercalate_singleton, second, third, String.append_assoc]

theorem bundlePayload_eq_iff :
    bundlePayload otherAssetIds otherOperatorIds otherVersion =
        bundlePayload assetIds operatorIds version ↔
      reading (joined otherAssetIds) (joined otherOperatorIds) otherVersion =
        reading (joined assetIds) (joined operatorIds) version := by
  rw [bundlePayload_eq, bundlePayload_eq]
  constructor
  · intro same
    have lists := congrArg String.toList same
    rw [String.toList_append, String.toList_append] at lists
    exact String.toList_inj.mp (List.append_cancel_left lists)
  · exact congrArg _

theorem toList_reading (a o c : String) : (reading a o c).toList =
    a.toList ++ '|' :: (['O', ':'] ++ (o.toList ++ '|' :: (['C', ':'] ++ c.toList))) := by
  simp [reading]

theorem holds_of_toList {text part : String} (before after : List Char)
    (shape : text.toList = before ++ part.toList ++ after) : Holds text part :=
  ⟨String.ofList before, String.ofList after, String.toList_inj.mp (by simp [shape])⟩

/-- A text is longer than what it holds beside other characters. -/
theorem append_ne_self {before part after : String} (filled : part ≠ "") :
    before ++ part ++ after ≠ before ∧ before ++ part ++ after ≠ after := by
  have long : 0 < part.length :=
    Nat.pos_of_ne_zero fun empty => filled (String.length_eq_zero_iff.mp empty)
  constructor
  · intro same
    have lengths := congrArg String.length same
    rw [String.length_append, String.length_append] at lengths
    omega
  · intro same
    have lengths := congrArg String.length same
    rw [String.length_append, String.length_append] at lengths
    omega

@[simp] theorem joined_singleton (s : String) : joined [s] = s :=
  String.intercalate_singleton

@[simp] theorem joined_nil : joined [] = "" := String.intercalate_nil

theorem joined_pair (ordered : s ≤ t) : joined [s, t] = s ++ "," ++ t := by
  have sorted : sortBy id [s, t] = [s, t] := by simp [sortBy, ordered]
  rw [joined, sorted, String.intercalate_cons_cons, String.intercalate_singleton]

theorem le_append (s t : String) : s ≤ s ++ t := by
  rw [String.le_iff_toList_le, String.toList_append]
  refine not_lt.mp fun less => lt_irrefl (s.toList ++ t.toList) ?_
  exact List.Lex.append_right _ t.toList less

/-- The first piece of a joined text comes before the text in order. -/
theorem le_intercalate (s : String) (rest : List String) : s ≤ ",".intercalate (s :: rest) := by
  cases rest with
  | nil => rw [String.intercalate_singleton]
  | cons t rest =>
    rw [String.intercalate_cons_cons, String.append_assoc]
    exact le_append s _

/-- A text that cannot be divided lists a single identifier. -/
theorem eq_singleton_of_indivisible (whole : Indivisible s) (same : joined ids = s) :
    ids = [s] := by
  have listed := perm_sortBy id ids
  have ordered := pairwise_sortBy id ids
  rw [joined] at same
  match shape : sortBy id ids with
  | [] =>
    rw [shape, String.intercalate_nil] at same
    exact absurd same.symm whole.1
  | [t] =>
    rw [shape, String.intercalate_singleton] at same
    rw [shape] at listed
    exact same ▸ (List.singleton_perm.mp listed).symm
  | t :: u :: rest =>
    rw [shape] at same ordered
    rw [String.intercalate_cons_cons] at same
    have first : t ≤ u := (List.pairwise_cons.mp ordered).1 u List.mem_cons_self
    exact absurd (first.trans (le_intercalate u rest)) (not_le.mpr (whole.2 t _ same.symm))

/-- If all identifiers are the joined text, there is only one. -/
theorem eq_singleton_of_mem_joined (all : ∀ t, t ∈ ids ↔ t ∈ [joined ids]) :
    ids = [joined ids] := by
  have listed := perm_sortBy id ids
  match shape : sortBy id ids with
  | [] =>
    rw [shape] at listed
    have missing : ids = [] := List.nil_perm.mp listed
    subst missing
    exact absurd ((all _).mpr (List.mem_singleton.mpr rfl)) List.not_mem_nil
  | [t] =>
    rw [shape] at listed
    have single : ids = [t] := (List.singleton_perm.mp listed).symm
    rw [single, joined_singleton]
  | t :: u :: rest =>
    have member : t ∈ ids := listed.subset (by rw [shape]; exact List.mem_cons_self)
    have text : joined ids = t ++ "," ++ ",".intercalate (u :: rest) := by
      rw [joined, shape, String.intercalate_cons_cons]
    have same : t = joined ids := List.mem_singleton.mp ((all t).mp member)
    exact absurd (same.trans text).symm (append_ne_self (by decide)).1

/-- No other parts read like those of an unmistakable bundle. -/
theorem parts_of_reading (assets : ¬Holds s "|O:") (operators : ¬Holds t "|O:")
    (short : ¬Holds t "|C:") (versions : ¬Holds version "|C:")
    (same : reading a o c = reading s t version) : a = s ∧ o = t ∧ c = version := by
  have lists := congrArg String.toList same
  rw [toList_reading, toList_reading] at lists
  rcases marker_cases (by decide) (by decide) lists with
    ⟨first, later⟩ | ⟨w, ends, -⟩ | ⟨w, shape, later⟩
  · rcases marker_cases (by decide) (by decide) (List.append_cancel_left later) with
      ⟨second, rest⟩ | ⟨w, ends, -⟩ | ⟨w, -, held⟩
    · exact ⟨String.toList_inj.mp first, String.toList_inj.mp second,
        String.toList_inj.mp (List.append_cancel_left rest)⟩
    · exact absurd (holds_of_toList o.toList w (by simp [ends])) short
    · exact absurd (holds_of_toList w c.toList (by simp [held])) versions
  · exact absurd (holds_of_toList a.toList w (by simp [ends])) assets
  · -- the first part would be longer, so its marker stands within the second part or the third
    rcases marker_cases (by decide) (by decide) later with
      ⟨-, clash⟩ | ⟨z, -, held⟩ | ⟨z, ends, -⟩
    · simp at clash
    · exact absurd (holds_of_toList (z ++ '|' :: (['O', ':'] ++ o.toList)) c.toList
        (by simp [held])) versions
    · exact absurd (holds_of_toList w z (by simp [ends])) operators

/-- Lists of plain identifiers are told apart up to their order. -/
theorem mem_iff_of_joined {others : List String} (plain : ∀ s ∈ ids, Plain s)
    (plain' : ∀ s ∈ others, Plain s) (same : joined others = joined ids) :
    ∀ s, s ∈ others ↔ s ∈ ids := by
  have pieces : ∀ {list : List String}, (∀ s ∈ list, Plain s) →
      ∀ p ∈ (sortBy id list).map String.toList, p ≠ [] ∧ ',' ∉ p := by
    intro list plain p member
    obtain ⟨s, listed, rfl⟩ := List.mem_map.mp member
    obtain ⟨filled, clear, -⟩ := plain s ((mem_sortBy id list).mp listed)
    exact ⟨fun empty => filled (String.toList_inj.mp empty), clear⟩
  have lists := congrArg String.toList same
  rw [joined, joined, String.toList_intercalate, String.toList_intercalate] at lists
  have sorted := List.map_injective_iff.mpr (fun _ _ => String.toList_inj.mp)
    (intercalate_injective (pieces plain') (pieces plain) lists)
  intro s
  rw [← mem_sortBy id others, sorted, mem_sortBy]

theorem bar_not_mem_joined (plain : ∀ s ∈ ids, Plain s) : '|' ∉ (joined ids).toList := by
  have clear : ∀ pieces : List (List Char), (∀ p ∈ pieces, '|' ∉ p) →
      '|' ∉ [','].intercalate pieces := by
    intro pieces clear
    induction pieces with
    | nil => exact List.not_mem_nil
    | cons first rest ih =>
      obtain ⟨head, clear⟩ := List.forall_mem_cons.mp clear
      cases rest with
      | nil => rwa [List.intercalate_singleton]
      | cons second rest =>
        rw [List.intercalate_cons_cons, List.mem_append, List.mem_append]
        rintro ((held | held) | held)
        · exact head held
        · simp at held
        · exact ih clear held
  rw [joined, String.toList_intercalate]
  refine clear _ fun p member => ?_
  obtain ⟨s, listed, rfl⟩ := List.mem_map.mp member
  exact (plain s ((mem_sortBy id ids).mp listed)).2.2

/-- Parts without a bar are read off a payload. -/
theorem parts_of_bar (first : '|' ∉ a.toList) (second : '|' ∉ o.toList)
    (first' : '|' ∉ s.toList) (second' : '|' ∉ t.toList)
    (same : reading a o c = reading s t version) : a = s ∧ o = t ∧ c = version := by
  have lists := congrArg String.toList same
  rw [toList_reading, toList_reading] at lists
  rcases marker_cases (by decide) (by decide) lists with
    ⟨assets, later⟩ | ⟨w, ends, -⟩ | ⟨w, ends, -⟩
  · rcases marker_cases (by decide) (by decide) (List.append_cancel_left later) with
      ⟨operators, rest⟩ | ⟨w, ends, -⟩ | ⟨w, ends, -⟩
    · exact ⟨String.toList_inj.mp assets, String.toList_inj.mp operators,
        String.toList_inj.mp (List.append_cancel_left rest)⟩
    · exact absurd (by simp [ends]) second'
    · exact absurd (by simp [ends]) second
  · exact absurd (by simp [ends]) first'
  · exact absurd (by simp [ends]) first

/-- An identifier that only its own list joins to cannot be divided. -/
theorem indivisible_of_unique
    (unique : ∀ others, joined others = s → ∀ u, u ∈ others ↔ u ∈ [s]) : Indivisible s := by
  constructor
  · intro empty
    have member := (unique [] (joined_nil.trans empty.symm) s).mpr (List.mem_singleton.mpr rfl)
    exact absurd member List.not_mem_nil
  · intro first rest shape
    by_contra ordered
    have split := unique [first, rest] ((joined_pair (not_lt.mp ordered)).trans shape.symm) first
    have same : first = s := List.mem_singleton.mp (split.mp List.mem_cons_self)
    exact (append_ne_self (by decide)).1 (same.trans shape).symm

/-- Parts that are read off in one way only hold no marker that would end them early. -/
theorem not_holds_of_unique
    (unique : ∀ a o c, reading a o c = reading s t version → a = s ∧ o = t ∧ c = version) :
    (¬Holds s "|O:" ∧ ¬Holds t "|O:") ∧ ¬Holds t "|C:" ∧ ¬Holds version "|C:" := by
  refine ⟨⟨?_, ?_⟩, ?_, ?_⟩
  · rintro ⟨before, after, shape⟩
    obtain ⟨same, -⟩ := unique before (after ++ "|O:" ++ t) version
      (by simp only [reading, shape, String.append_assoc])
    exact (append_ne_self (by decide)).1 (same.trans shape).symm
  · rintro ⟨before, after, shape⟩
    obtain ⟨-, same, -⟩ := unique (s ++ "|O:" ++ before) after version
      (by simp only [reading, shape, String.append_assoc])
    exact (append_ne_self (by decide)).2 (same.trans shape).symm
  · rintro ⟨before, after, shape⟩
    obtain ⟨-, same, -⟩ := unique s before (after ++ "|C:" ++ version)
      (by simp only [reading, shape, String.append_assoc])
    exact (append_ne_self (by decide)).1 (same.trans shape).symm
  · rintro ⟨before, after, shape⟩
    obtain ⟨-, -, same⟩ := unique s (t ++ "|C:" ++ before) after
      (by simp only [reading, shape, String.append_assoc])
    exact (append_ne_self (by decide)).2 (same.trans shape).symm

/-- A bundle that no other one reads like is unmistakable. -/
theorem unmistakable_of_unique (unique : ∀ otherAssetIds otherOperatorIds otherVersion,
      bundlePayload otherAssetIds otherOperatorIds otherVersion =
        bundlePayload assetIds operatorIds version →
      SameMembers assetIds operatorIds version otherAssetIds otherOperatorIds otherVersion) :
    Unmistakable assetIds operatorIds version := by
  have asset : assetIds = [joined assetIds] := by
    refine eq_singleton_of_mem_joined fun t => ?_
    exact ((unique [joined assetIds] operatorIds version
      (bundlePayload_eq_iff.mpr (by rw [joined_singleton]))).1 t).symm
  have operator : operatorIds = [joined operatorIds] := by
    refine eq_singleton_of_mem_joined fun t => ?_
    exact ((unique assetIds [joined operatorIds] version
      (bundlePayload_eq_iff.mpr (by rw [joined_singleton]))).2.1 t).symm
  generalize joined assetIds = s at asset
  generalize joined operatorIds = t at operator
  subst asset operator
  -- the lists have one member each, so any other reading of the payload changes one of the parts
  have parts : ∀ a o c, reading a o c = reading s t version → a = s ∧ o = t ∧ c = version := by
    intro a o c same
    obtain ⟨assets, operators, versions⟩ := unique [a] [o] c
      (bundlePayload_eq_iff.mpr (by simpa only [joined_singleton] using same))
    exact ⟨List.mem_singleton.mp ((assets a).mp (List.mem_singleton.mpr rfl)),
      List.mem_singleton.mp ((operators o).mp (List.mem_singleton.mpr rfl)), versions⟩
  have assets : Indivisible s := indivisible_of_unique fun others same =>
    (unique others [t] version
      (bundlePayload_eq_iff.mpr (by simp only [joined_singleton, same]))).1
  have operators : Indivisible t := indivisible_of_unique fun others same =>
    (unique [s] others version
      (bundlePayload_eq_iff.mpr (by simp only [joined_singleton, same]))).2.1
  obtain ⟨⟨first, second⟩, short, versions⟩ := not_holds_of_unique parts
  exact ⟨⟨s, rfl, assets, first⟩, ⟨t, rfl, operators, second, short⟩, versions⟩

/-- No other bundle reads like an unmistakable one. -/
theorem Unmistakable.unique (unmistakable : Unmistakable assetIds operatorIds version)
    (same : bundlePayload otherAssetIds otherOperatorIds otherVersion =
      bundlePayload assetIds operatorIds version) :
    SameMembers assetIds operatorIds version otherAssetIds otherOperatorIds otherVersion := by
  obtain ⟨⟨s, rfl, wholeS, assets⟩, ⟨t, rfl, wholeT, operators, short⟩, versions⟩ := unmistakable
  rw [bundlePayload_eq_iff, joined_singleton, joined_singleton] at same
  obtain ⟨asset, operator, rfl⟩ := parts_of_reading assets operators short versions same
  obtain rfl := eq_singleton_of_indivisible wholeS asset
  obtain rfl := eq_singleton_of_indivisible wholeT operator
  exact ⟨fun _ => Iff.rfl, fun _ => Iff.rfl, rfl⟩

theorem sameMembers_of_plain (plainA : ∀ s ∈ assetIds, Plain s)
    (plainO : ∀ s ∈ operatorIds, Plain s) (plainA' : ∀ s ∈ otherAssetIds, Plain s)
    (plainO' : ∀ s ∈ otherOperatorIds, Plain s)
    (same : bundlePayload otherAssetIds otherOperatorIds otherVersion =
      bundlePayload assetIds operatorIds version) :
    SameMembers assetIds operatorIds version otherAssetIds otherOperatorIds otherVersion := by
  obtain ⟨asset, operator, versions⟩ := parts_of_bar (bar_not_mem_joined plainA')
    (bar_not_mem_joined plainO') (bar_not_mem_joined plainA) (bar_not_mem_joined plainO)
    (bundlePayload_eq_iff.mp same)
  exact ⟨mem_iff_of_joined plainA plainA' asset, mem_iff_of_joined plainO plainO' operator,
    versions⟩

theorem joined_perm {others : List String} (same : others.Perm ids) : joined others = joined ids :=
  congrArg (String.intercalate ",") (sortBy_id_eq_of_perm same)

/-- With an injective digest, no other bundle has the id of a given one exactly if it has one asset
and one operator that cannot be read as several or as the beginning of the next part. Bundles of
plain identifiers have different ids unless they have the same members and version. The order of
the identifiers never matters. -/
theorem computeBundleId_identifies_iff (digest : String → String)
    (injective : Function.Injective digest) (assetIds operatorIds : List String)
    (version : String) :
    ((∀ otherAssetIds otherOperatorIds otherVersion,
        computeBundleId digest otherAssetIds otherOperatorIds otherVersion =
          computeBundleId digest assetIds operatorIds version →
        SameMembers assetIds operatorIds version otherAssetIds otherOperatorIds otherVersion) ↔
      Unmistakable assetIds operatorIds version) ∧
    (∀ otherAssetIds otherOperatorIds otherVersion,
      (∀ s ∈ assetIds ++ operatorIds ++ otherAssetIds ++ otherOperatorIds, Plain s) →
      computeBundleId digest otherAssetIds otherOperatorIds otherVersion =
        computeBundleId digest assetIds operatorIds version →
      SameMembers assetIds operatorIds version otherAssetIds otherOperatorIds otherVersion) ∧
    ∀ otherAssetIds otherOperatorIds, otherAssetIds.Perm assetIds →
      otherOperatorIds.Perm operatorIds →
      computeBundleId digest otherAssetIds otherOperatorIds version =
        computeBundleId digest assetIds operatorIds version := by
  have ids : ∀ {otherAssetIds otherOperatorIds otherVersion},
      computeBundleId digest otherAssetIds otherOperatorIds otherVersion =
          computeBundleId digest assetIds operatorIds version ↔
        bundlePayload otherAssetIds otherOperatorIds otherVersion =
          bundlePayload assetIds operatorIds version := by
    intro otherAssetIds otherOperatorIds otherVersion
    rw [computeBundleId, computeBundleId, String.append_right_inj, injective.eq_iff]
  simp only [ids]
  refine ⟨⟨unmistakable_of_unique, fun unmistakable _ _ _ => unmistakable.unique⟩, ?_, ?_⟩
  · intro otherAssetIds otherOperatorIds otherVersion plain
    simp only [List.mem_append, or_imp, forall_and] at plain
    obtain ⟨⟨⟨plainA, plainO⟩, plainA'⟩, plainO'⟩ := plain
    exact sameMembers_of_plain plainA plainO plainA' plainO'
  · intro otherAssetIds otherOperatorIds assets operators
    rw [bundlePayload_eq_iff, joined_perm assets, joined_perm operators]

/-- A bundle of a tractor and a driver. -/
theorem computeBundleId_identifies_tractor :
    ((∀ otherAssetIds otherOperatorIds otherVersion,
        computeBundleId id otherAssetIds otherOperatorIds otherVersion =
          computeBundleId id ["tractor"] ["driver"] "1.0.0" →
        SameMembers ["tractor"] ["driver"] "1.0.0" otherAssetIds otherOperatorIds otherVersion) ↔
      Unmistakable ["tractor"] ["driver"] "1.0.0") ∧
    (∀ otherAssetIds otherOperatorIds otherVersion,
      (∀ s ∈ ["tractor"] ++ ["driver"] ++ otherAssetIds ++ otherOperatorIds, Plain s) →
      computeBundleId id otherAssetIds otherOperatorIds otherVersion =
        computeBundleId id ["tractor"] ["driver"] "1.0.0" →
      SameMembers ["tractor"] ["driver"] "1.0.0" otherAssetIds otherOperatorIds otherVersion) ∧
    ∀ otherAssetIds otherOperatorIds, otherAssetIds.Perm ["tractor"] →
      otherOperatorIds.Perm ["driver"] →
      computeBundleId id otherAssetIds otherOperatorIds "1.0.0" =
        computeBundleId id ["tractor"] ["driver"] "1.0.0" :=
  computeBundleId_identifies_iff id Function.injective_id ["tractor"] ["driver"] "1.0.0"

/-- A bundle of two assets has the id of a bundle of one, whose name is theirs with a comma. -/
theorem bundle_ids_collide :
    (∀ digest, computeBundleId digest ["a,b"] [] "1.0.0" =
        computeBundleId digest ["a", "b"] [] "1.0.0") ∧
      ¬SameMembers ["a", "b"] [] "1.0.0" ["a,b"] [] "1.0.0" := by
  constructor
  · intro digest
    have same : bundlePayload ["a,b"] [] "1.0.0" = bundlePayload ["a", "b"] [] "1.0.0" :=
      bundlePayload_eq_iff.mpr (by rw [joined_singleton, joined_pair (by decide)]; rfl)
    rw [computeBundleId, computeBundleId, same]
  · rintro ⟨assets, -⟩
    exact absurd ((assets "a").mpr List.mem_cons_self) (by decide)

end FlOp.Canonical
