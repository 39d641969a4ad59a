import FlOp.Contracts.Profile

/-! # Bracketing of composite profiles

Every section of a profile merges associatively, order of the result included, except the weather
limits: `min` keeps its first argument when the second is `nan`, so a `nan` limit in the middle
profile hides the last profile's lower limit in one bracketing only.
-/

namespace FlOp.Contracts

open Library
open FlOp.Core

/-- Of two constraints with one id the stored one stays, unless only the new one is enforced. -/
def ConstraintSpec.keepEnforced (existing spec : ConstraintSpec) : ConstraintSpec :=
  if spec.enforced && !existing.enforced then spec else existing

theorem ConstraintSpec.enforced_keepEnforced (a b : ConstraintSpec) :
    (a.keepEnforced b).enforced = (a.enforced || b.enforced) := by
  unfold ConstraintSpec.keepEnforced
  cases enforcedA : a.enforced <;> cases enforcedB : b.enforced <;> simp [enforcedA, enforcedB]

instance : Std.Associative ConstraintSpec.keepEnforced := by
  refine ⟨fun a b c => ?_⟩
  cases enforcedA : a.enforced <;> cases enforcedB : b.enforced <;>
    cases enforcedC : c.enforced <;>
    simp [ConstraintSpec.keepEnforced, enforcedA, enforcedB, enforcedC]

/-- Of two constraints with one id, one is kept whole. -/
theorem ConstraintSpec.keepEnforced_id {a b : ConstraintSpec} (same : a.id = b.id) :
    (a.keepEnforced b).id = a.id := by
  unfold ConstraintSpec.keepEnforced
  split
  · exact same.symm
  · rfl

/-- The constraints of a list by id. -/
abbrev constraintsById (specs : List ConstraintSpec) : Dict String ConstraintSpec :=
  Dict.collectWith ConstraintSpec.keepEnforced (·.id) specs

/-- The order list is always the key order of the dictionary. -/
theorem foldl_mergeConstraint (specs : List ConstraintSpec) (byId : Dict String ConstraintSpec) :
    let merged := specs.foldl (fun d spec => d.upsert ConstraintSpec.keepEnforced spec.id spec) byId
    specs.foldl mergeConstraint (byId, byId.keys) = (merged, merged.keys) := by
  induction specs generalizing byId with
  | nil => rfl
  | cons spec rest ih =>
    have step : mergeConstraint (byId, byId.keys) spec =
        (byId.upsert ConstraintSpec.keepEnforced spec.id spec,
          (byId.upsert ConstraintSpec.keepEnforced spec.id spec).keys) := by
      rw [Dict.keys_upsert]
      unfold mergeConstraint Dict.upsert
      cases found : byId.get? spec.id with
      | none =>
        have absent : spec.id ∉ byId.keys := by simp [Dict.mem_keys_iff, found]
        simp only [found, if_neg absent]
      | some existing =>
        have present : spec.id ∈ byId.keys := by simp [Dict.mem_keys_iff, found]
        simp only [found, if_pos present, ConstraintSpec.keepEnforced]
        split
        · rfl
        · rw [Dict.set_of_get? found]
    rw [List.foldl_cons, List.foldl_cons, step]
    exact ih _

theorem mergeConstraints_eq (primary secondary : List ConstraintSpec) :
    mergeConstraints primary secondary = (constraintsById (primary ++ secondary)).values := by
  have run := foldl_mergeConstraint (primary ++ secondary) .empty
  rw [Dict.keys_empty] at run
  unfold mergeConstraints
  rw [run]
  exact Dict.filterMap_get?_keys _

/-- Merging what is merged already adds nothing, whichever two lists are merged first. -/
theorem mergeConstraints_assoc (a b c : List ConstraintSpec) :
    mergeConstraints (mergeConstraints a b) c = mergeConstraints a (mergeConstraints b c) := by
  have again : ∀ specs, constraintsById (constraintsById specs).values = constraintsById specs :=
    Dict.collectWith_values fun x y same => ConstraintSpec.keepEnforced_id same
  have append : ∀ first second, constraintsById (first ++ second) =
      Dict.mergeWith ConstraintSpec.keepEnforced (constraintsById first) (constraintsById second) :=
    Dict.collectWith_append _
  simp only [mergeConstraints_eq]
  congr 1
  calc
    constraintsById ((constraintsById (a ++ b)).values ++ c)
      = constraintsById ((a ++ b) ++ c) := by rw [append, again, ← append]
    _ = constraintsById (a ++ (b ++ c)) := by rw [List.append_assoc]
    _ = constraintsById (a ++ (constraintsById (b ++ c)).values) := by
      rw [append a, append a, again]

namespace WeatherPolicySpec

/-- A `nan` limit of the middle policy hides that the last one is below the first. -/
def HidesLower (first middle last : PyFloat) : Prop :=
  middle = .nan ∧ last.lt first

/-- The limits of three policies merge alike in both bracketings. -/
def LimitsAgree (a b c : WeatherPolicySpec) : Prop :=
  ¬ HidesLower a.maxWindMs b.maxWindMs c.maxWindMs ∧
  ¬ HidesLower a.maxRainMmPerH b.maxRainMmPerH c.maxRainMmPerH ∧
  ¬ HidesLower a.maxSoilMoisturePct b.maxSoilMoisturePct c.maxSoilMoisturePct

theorem composedWith_assoc (a b c : WeatherPolicySpec) :
    (a.composedWith b).composedWith c = a.composedWith (b.composedWith c) ↔ LimitsAgree a b c := by
  simp only [composedWith, mk.injEq, PyFloat.minimum_assoc_iff, Dict.update_assoc, Bool.or_assoc,
    and_true, LimitsAgree, HidesLower]

/-- No limit is `nan`. -/
def LimitsNumeric (weather : WeatherPolicySpec) : Prop :=
  weather.maxWindMs ≠ .nan ∧ weather.maxRainMmPerH ≠ .nan ∧ weather.maxSoilMoisturePct ≠ .nan

theorem LimitsNumeric.composedWith {a : WeatherPolicySpec} (numeric : a.LimitsNumeric)
    (b : WeatherPolicySpec) : (a.composedWith b).LimitsNumeric :=
  ⟨PyFloat.minimum_ne_nan numeric.1 _, PyFloat.minimum_ne_nan numeric.2.1 _,
    PyFloat.minimum_ne_nan numeric.2.2 _⟩

theorem LimitsNumeric.limitsAgree {b : WeatherPolicySpec} (numeric : b.LimitsNumeric)
    (a c : WeatherPolicySpec) : LimitsAgree a b c :=
  ⟨fun hides => numeric.1 hides.1, fun hides => numeric.2.1 hides.1,
    fun hides => numeric.2.2 hides.1⟩

end WeatherPolicySpec

theorem MonitoringPolicySpec.composedWith_assoc (a b c : MonitoringPolicySpec) :
    (a.composedWith b).composedWith c = a.composedWith (b.composedWith c) := by
  simp only [composedWith, Dict.update_assoc]

namespace OptimizationProfile

/-- The two bracketings give one profile, every section and its order included, exactly if no
`nan` weather limit of the middle profile hides a lower limit of the last one. -/
theorem composedWith_assoc_iff (a b c : OptimizationProfile) :
    (a.composedWith b).composedWith c = a.composedWith (b.composedWith c) ↔
      WeatherPolicySpec.LimitsAgree a.weatherPolicy b.weatherPolicy c.weatherPolicy := by
  simp only [composedWith, mk.injEq, unionPreservingOrder, unionBy_assoc, mergeConstraints_assoc,
    MonitoringPolicySpec.composedWith_assoc, WeatherPolicySpec.composedWith_assoc,
    Dict.update_assoc, true_and, and_true]

/-- A profile with one wind limit and nothing else. -/
def windy (maxWindMs : PyFloat) : OptimizationProfile where
  apiVersion := "x-optimization/v0.1.0"
  kind := "OptimizationProfile"
  metadata := { id := "p", version := "0.1.0", semanticModelRef := "urn:m" }
  weatherPolicy := { maxWindMs := maxWindMs }

/-- With wind limits 8, `nan` and 6 the composite allows 6 or 8, by bracketing. -/
theorem composedWith_not_assoc :
    ¬ ∀ a b c : OptimizationProfile,
      (a.composedWith b).composedWith c = a.composedWith (b.composedWith c) := by
  intro associative
  have agree := (composedWith_assoc_iff _ _ _).mp
    (associative (windy (.number 8)) (windy .nan) (windy (.number 6)))
  exact agree.1 ⟨rfl, by decide +kernel⟩

end OptimizationProfile

/-- A bracketing of a list of profiles. -/
inductive Bracketing where
  | leaf (profile : OptimizationProfile)
  | node (left right : Bracketing)

namespace Bracketing

/-- The profiles of a bracketing in order, the first apart. -/
def profiles : Bracketing → OptimizationProfile × List OptimizationProfile
  | leaf profile => (profile, [])
  | node left right => (left.profiles.1, left.profiles.2 ++ right.profiles.1 :: right.profiles.2)

def compose : Bracketing → OptimizationProfile
  | leaf profile => profile
  | node left right => left.compose.composedWith right.compose

end Bracketing

theorem composite_limitsNumeric {primary : OptimizationProfile}
    (numeric : primary.weatherPolicy.LimitsNumeric) (rest : List OptimizationProfile) :
    (composite primary rest).weatherPolicy.LimitsNumeric := by
  induction rest generalizing primary with
  | nil => exact numeric
  | cons next rest ih => exact ih (numeric.composedWith next.weatherPolicy)

/-- A composite layered onto a profile is the profile with its members layered on in turn. -/
theorem composedWith_composite {primary next : OptimizationProfile}
    {rest : List OptimizationProfile}
    (numeric : ∀ profile ∈ next :: rest, profile.weatherPolicy.LimitsNumeric) :
    primary.composedWith (composite next rest) = composite primary (next :: rest) := by
  induction rest using List.reverseRecOn with
  | nil => rfl
  | append_singleton rest last ih =>
    have before : ∀ profile ∈ next :: rest, profile.weatherPolicy.LimitsNumeric :=
      fun profile member => numeric profile (List.mem_append_left [last] member)
    have middle := composite_limitsNumeric (before next List.mem_cons_self) rest
    calc
      primary.composedWith (composite next (rest ++ [last]))
        = primary.composedWith ((composite next rest).composedWith last) := by
          rw [composite, List.foldl_append]
          rfl
      _ = (primary.composedWith (composite next rest)).composedWith last :=
          ((OptimizationProfile.composedWith_assoc_iff _ _ _).mpr
            (middle.limitsAgree _ _)).symm
      _ = (composite primary (next :: rest)).composedWith last := by rw [ih before]
      _ = composite primary (next :: (rest ++ [last])) := by
          rw [composite, composite, ← List.cons_append, List.foldl_append]
          rfl

/-- Where every limit is a number, a composite does not depend on how its fold is bracketed. -/
theorem Bracketing.compose_eq (tree : Bracketing)
    (numeric : ∀ profile ∈ tree.profiles.1 :: tree.profiles.2,
      profile.weatherPolicy.LimitsNumeric) :
    tree.compose = composite tree.profiles.1 tree.profiles.2 := by
  induction tree with
  | leaf profile => rfl
  | node left right ihLeft ihRight =>
    rw [profiles, ← List.cons_append] at numeric
    have leftNumeric := fun profile member => numeric profile (List.mem_append_left _ member)
    have rightNumeric := fun profile member => numeric profile (List.mem_append_right _ member)
    rw [compose, profiles, ihLeft leftNumeric, ihRight rightNumeric,
      composedWith_composite rightNumeric, composite, composite, composite, List.foldl_append]

/-- Two profiles may be layered in either order of bracketing exactly if no `nan` weather limit
of the middle one hides a lower limit of the last. Where all limits are numbers, every bracketing
of a list of profiles gives the composite of the list. -/
theorem profile_bracketing (a b c : OptimizationProfile) (tree : Bracketing) :
    ((a.composedWith b).composedWith c = a.composedWith (b.composedWith c) ↔
      WeatherPolicySpec.LimitsAgree a.weatherPolicy b.weatherPolicy c.weatherPolicy) ∧
    ((∀ profile ∈ tree.profiles.1 :: tree.profiles.2, profile.weatherPolicy.LimitsNumeric) →
      tree.compose = composite tree.profiles.1 tree.profiles.2) :=
  ⟨OptimizationProfile.composedWith_assoc_iff a b c, Bracketing.compose_eq tree⟩

/-- Wind limits 8, 9 and 6 give one composite in both bracketings. -/
theorem profile_bracketing_windy :
    let first := Bracketing.leaf (OptimizationProfile.windy (.number 8))
    let second := Bracketing.leaf (OptimizationProfile.windy (.number 9))
    let third := Bracketing.leaf (OptimizationProfile.windy (.number 6))
    ((first.node second).node third).compose = (first.node (second.node third)).compose := by
  intro first second third
  have numeric : ∀ profile ∈ [OptimizationProfile.windy (.number 8),
      OptimizationProfile.windy (.number 9), OptimizationProfile.windy (.number 6)],
      profile.weatherPolicy.LimitsNumeric := by
    simp only [List.forall_mem_cons, List.not_mem_nil, false_implies, implies_true, and_true]
    exact ⟨⟨by decide, by decide, by decide⟩, ⟨by decide, by decide, by decide⟩,
      by decide, by decide, by decide⟩
  have composes (tree : Bracketing) :=
    (profile_bracketing (.windy (.number 8)) (.windy (.number 9)) (.windy (.number 6)) tree).2
  exact (composes ((first.node second).node third) numeric).trans
    (composes (first.node (second.node third)) numeric).symm

end FlOp.Contracts
