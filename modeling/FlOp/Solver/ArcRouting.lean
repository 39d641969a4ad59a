import FlOp.Solver.TravelTime

/-! # Routes of arcs

An arc takes the network time of its pair, or an estimate, and is led around restricted polygons.
Where there are none its time is the plain travel time, except that an estimate is rounded once
here and twice there.
-/

namespace FlOp.Solver.ArcRouting

open FlOp.Core Library

/-- Duration and path of one arc, and whether it leaves the declared path. -/
structure ArcRoute where
  seconds : ℤ
  path : TravelPath
  detoured : Bool := false
deriving DecidableEq, Repr

variable {Polygon : Type} (geometry : PlanarGeometry Polygon) (settings : TravelSettings)
  (fromRef toRef : String) (start finish : LatLon) (travelLookup : Option TravelLookup)
  (travelMode : Option String) (fallbackSpeedKmh : ℚ)

/-- Both ends of a declared polyline are near the endpoints of the arc. -/
def endpointsMatch (path : TravelPath) : Bool :=
  geometry.haversineKm start (path.headD start) ≤ settings.routeGeometryEndpointToleranceKm ∧
    geometry.haversineKm finish (path.getLastD finish) ≤ settings.routeGeometryEndpointToleranceKm

/-- Network time and geometry of a pair, or of the way back. -/
def networkRoute : Option (ℤ × TravelPath) :=
  match networkSeconds travelLookup fromRef toRef travelMode with
  | some seconds => some (seconds, (networkPath travelLookup fromRef toRef travelMode).getD [])
  | none =>
    (networkSeconds travelLookup toRef fromRef travelMode).map fun seconds =>
      (seconds, ((networkPath travelLookup toRef fromRef travelMode).getD []).reverse)

/-- Resolve network or fallback travel and reroute declared geometry if it is blocked; without fuel
left there is no route. -/
def arcRoute (fuel : ℕ) (restrictedPolygons : List (List LatLon)) : Option ArcRoute :=
  match networkRoute fromRef toRef travelLookup travelMode with
  | some (networkTime, declared) =>
    if declared = [] then some { seconds := networkTime, path := [start, finish] }
    else
      let declaredPath :=
        if endpointsMatch geometry settings start finish declared then declared
        else [start, finish]
      (geometry.reroutePathAroundPolygons fuel declaredPath restrictedPolygons).map fun rerouted =>
        if rerouted = [] then { seconds := networkTime, path := declaredPath }
        else
          let baseDistance := geometry.pathDistanceKm declaredPath
          let ratio :=
            if 0 < baseDistance then geometry.pathDistanceKm rerouted / baseDistance else 1
          { seconds := max 1 (max networkTime (roundHalfEven (networkTime * ratio)))
            path := rerouted
            detoured := rerouted ≠ declaredPath }
  | none =>
    let baseSeconds := travelSeconds travelLookup fromRef toRef travelMode geometry settings start
      finish fallbackSpeedKmh
    (geometry.reroutePathAroundPolygons fuel [start, finish] restrictedPolygons).map fun rerouted =>
      if rerouted = [] then { seconds := baseSeconds, path := [start, finish] }
      else
        { seconds := max 1 <| roundHalfEven <| geometry.pathDistanceKm rerouted /
            safeSpeed settings fallbackSpeedKmh * 3600 * modeCircuity travelMode settings
          path := rerouted
          detoured := rerouted ≠ [start, finish] }

/-- Seconds of the straight way before anything is rounded. -/
def exactSeconds : ℚ :=
  geometry.haversineKm start finish / safeSpeed settings fallbackSpeedKmh * 3600

/-- Seconds of the straight way with the fraction cut off, at least one. -/
def wholeSeconds : ℤ := max 1 ⌊exactSeconds geometry settings start finish fallbackSpeedKmh⌋

/-- The arc and the plain travel time round alike. A network time stands unless it is zero, which
the plain travel time takes for unknown: it then asks for the way back and estimates. Without a
network time, scaling the exact and the whole seconds crosses the same boundaries. -/
def SameTime : Prop :=
  let circuity := modeCircuity travelMode settings
  match networkRoute fromRef toRef travelLookup travelMode with
  | some (seconds, []) => seconds ≠ 0
  | some (seconds, _ :: _) => 0 < seconds ∨ (seconds = 0 ∧
      let back := (networkSeconds travelLookup toRef fromRef travelMode).getD 0
      back = 1 ∨ (back = 0 ∧
        wholeSeconds geometry settings start finish fallbackSpeedKmh * circuity < 3 / 2))
  | none => ∀ k : ℤ, 1 ≤ k →
      (RoundsAtMost k (exactSeconds geometry settings start finish fallbackSpeedKmh * circuity) ↔
        RoundsAtMost k (wholeSeconds geometry settings start finish fallbackSpeedKmh * circuity))

variable {geometry settings fromRef toRef start finish travelLookup travelMode fallbackSpeedKmh}

theorem answers_comm {lookup : TravelLookup} :
    lookup.Answers fromRef toRef ↔ lookup.Answers toRef fromRef := by
  rw [TravelLookup.Answers, TravelLookup.Answers, ne_comm (a := fromRef)]
  tauto

/-- The plain travel time in terms of the two directed network times. -/
theorem travelSeconds_eq :
    travelSeconds travelLookup fromRef toRef travelMode geometry settings start finish
        fallbackSpeedKmh =
      (((networkSeconds travelLookup fromRef toRef travelMode).filter (· ≠ 0)).or
        ((networkSeconds travelLookup toRef fromRef travelMode).filter (· ≠ 0))).getD
        (max 1 (roundHalfEven (wholeSeconds geometry settings start finish fallbackSpeedKmh *
          modeCircuity travelMode settings))) := by
  have seconds : travelTimeSeconds geometry settings start finish fallbackSpeedKmh =
      wholeSeconds geometry settings start finish fallbackSpeedKmh := by
    rw [travelTimeSeconds, wholeSeconds, exactSeconds, div_mul_eq_mul_div, mul_div_assoc]
  rw [travelSeconds, haversineS, seconds]
  cases travelLookup with
  | none => rfl
  | some lookup =>
    rw [networkSeconds, networkSeconds, Option.bind_some, Option.bind_some, Option.bind_some]
    by_cases answers : lookup.Answers fromRef toRef
    · rw [if_pos answers, if_pos answers, if_pos (answers_comm.mp answers)]
    · rw [if_neg answers, if_neg answers, if_neg (answers_comm.not.mp answers)]
      rfl

theorem rerouted_nil (fuel : ℕ) (path : TravelPath) :
    geometry.reroutePathAroundPolygons fuel path [] = some path := by
  rw [PlanarGeometry.reroutePathAroundPolygons, if_pos (.inr rfl)]

/-- Scaling by the ratio of a path to itself changes no time. -/
theorem scaled_self (networkTime : ℤ) (distance : ℚ) :
    max 1 (max networkTime
      (roundHalfEven (networkTime * if 0 < distance then distance / distance else 1))) =
      max 1 networkTime := by
  have ratio : (if 0 < distance then distance / distance else 1) = 1 := by
    split_ifs with positive
    · exact div_self positive.ne'
    · rfl
  rw [ratio, mul_one, roundHalfEven_intCast, max_self]

/-- Without polygons an arc keeps its path; a network time with a geometry becomes one second at
least. -/
theorem arcRoute_nil (fuel : ℕ) : ∃ route,
    arcRoute geometry settings fromRef toRef start finish travelLookup travelMode fallbackSpeedKmh
      fuel [] = some route ∧ route.detoured = false ∧
    route.seconds =
      match networkRoute fromRef toRef travelLookup travelMode with
      | some (seconds, []) => seconds
      | some (seconds, _ :: _) => max 1 seconds
      | none => max 1 (roundHalfEven (exactSeconds geometry settings start finish fallbackSpeedKmh *
          modeCircuity travelMode settings)) := by
  rw [arcRoute]
  match networkRoute fromRef toRef travelLookup travelMode with
  | some (networkTime, []) => exact ⟨_, if_pos rfl, rfl, rfl⟩
  | some (networkTime, vertex :: rest) =>
    dsimp only
    rw [if_neg (List.cons_ne_nil vertex rest), rerouted_nil, Option.map_some]
    have nonempty : (if endpointsMatch geometry settings start finish (vertex :: rest) then
        vertex :: rest else [start, finish]) ≠ [] := by
      split_ifs <;> exact List.cons_ne_nil _ _
    rw [if_neg nonempty]
    exact ⟨_, rfl, decide_eq_false (not_not.mpr rfl), scaled_self _ _⟩
  | none =>
    dsimp only
    rw [rerouted_nil, Option.map_some, if_neg (List.cons_ne_nil start [finish])]
    have direct : geometry.pathDistanceKm [start, finish] = geometry.haversineKm start finish := by
      rw [PlanarGeometry.pathDistanceKm, chainLength_cons_cons]
      exact add_zero _
    exact ⟨_, rfl, decide_eq_false (not_not.mpr rfl), by rw [direct, exactSeconds]⟩

theorem max_one_roundHalfEven_eq_one_iff {x : ℚ} : max 1 (roundHalfEven x) = 1 ↔ x < 3 / 2 := by
  have bound := roundHalfEven_le_iff (x := x) (k := 1)
  rw [max_eq_left_iff, bound, RoundsAtMost]
  norm_num

theorem filter_known {time : ℤ} (known : time ≠ 0) :
    (some time).filter (· ≠ 0) = some time := by
  rw [Option.filter_some, if_pos (decide_eq_true known)]

/-- A network time that is taken as it is differs from the plain travel time only if it is zero. -/
theorem plain_iff (time : ℤ) (back : Option ℤ) (whole : ℚ) :
    time = (((some time).filter (· ≠ 0)).or (back.filter (· ≠ 0))).getD
      (max 1 (roundHalfEven whole)) ↔ time ≠ 0 := by
  by_cases zero : time = 0
  · subst zero
    refine iff_of_false (fun same => ?_) (not_not.mpr rfl)
    change 0 = (back.filter (· ≠ 0)).getD (max 1 (roundHalfEven whole)) at same
    cases found : back.filter (· ≠ 0) with
    | none =>
      rw [found, Option.getD_none] at same
      omega
    | some other =>
      rw [found, Option.getD_some] at same
      exact of_decide_eq_true (Option.filter_eq_some_iff.mp found).2 same.symm
  · rw [filter_known zero]
    exact iff_of_true rfl zero

/-- A network time that is counted as one second at least may also meet the way back or the
estimate. -/
theorem traced_iff (time : ℤ) (back : Option ℤ) (whole : ℚ) :
    max 1 time = (((some time).filter (· ≠ 0)).or (back.filter (· ≠ 0))).getD
        (max 1 (roundHalfEven whole)) ↔
      0 < time ∨ (time = 0 ∧ (back.getD 0 = 1 ∨ (back.getD 0 = 0 ∧ whole < 3 / 2))) := by
  by_cases zero : time = 0
  · subst zero
    change 1 = (back.filter (· ≠ 0)).getD (max 1 (roundHalfEven whole)) ↔ _
    rw [← max_one_roundHalfEven_eq_one_iff]
    cases back with
    | none => simp [eq_comm]
    | some other =>
      by_cases none : other = 0
      · subst none
        change 1 = max 1 (roundHalfEven whole) ↔ _
        simp [eq_comm]
      · rw [filter_known none]
        simp [none, eq_comm]
  · rw [filter_known zero]
    change max 1 time = time ↔ _
    omega

/-- Without restricted polygons no arc leaves its path, and it takes the plain travel time exactly
if both round alike. -/
theorem arcRoute_unobstructed_iff {Polygon : Type} (geometry : PlanarGeometry Polygon)
    (settings : TravelSettings) (fromRef toRef : String) (start finish : LatLon)
    (travelLookup : Option TravelLookup) (travelMode : Option String) (fallbackSpeedKmh : ℚ)
    (fuel : ℕ) : ∃ route,
      arcRoute geometry settings fromRef toRef start finish travelLookup travelMode
        fallbackSpeedKmh fuel [] = some route ∧ route.detoured = false ∧
      (route.seconds = travelSeconds travelLookup fromRef toRef travelMode geometry settings start
          finish fallbackSpeedKmh ↔
        SameTime geometry settings fromRef toRef start finish travelLookup travelMode
          fallbackSpeedKmh) := by
  obtain ⟨route, runs, straight, seconds⟩ : ∃ route, arcRoute geometry settings fromRef toRef start
    finish travelLookup travelMode fallbackSpeedKmh fuel [] = some route ∧ route.detoured = false ∧ _ :=
    arcRoute_nil fuel
  refine ⟨route, runs, straight, ?_⟩
  rw [seconds, travelSeconds_eq, SameTime, networkRoute]
  generalize wholeSeconds geometry settings start finish fallbackSpeedKmh *
    modeCircuity travelMode settings = whole
  cases networkSeconds travelLookup fromRef toRef travelMode with
  | some time =>
    dsimp only
    cases (networkPath travelLookup fromRef toRef travelMode).getD [] with
    | nil => exact plain_iff time _ whole
    | cons vertex rest => exact traced_iff time _ whole
  | none =>
    cases networkSeconds travelLookup toRef fromRef travelMode with
    | none => exact max_one_roundHalfEven_eq_iff
    | some time =>
      rw [Option.filter_none, Option.none_or, ← Option.or_self (o := (some time).filter (· ≠ 0))]
      dsimp only [Option.map_some]
      cases ((networkPath travelLookup toRef fromRef travelMode).getD []).reverse with
      | nil => exact plain_iff time (some time) whole
      | cons vertex rest => exact traced_iff time (some time) whole

open PlanarGeometry in
/-- A flight of 10.6 seconds takes 11 seconds as an arc and 10 seconds as plain travel. -/
theorem flight_rounds_up : ¬ ∀ (fromRef toRef : String) (start finish : LatLon)
    (travelLookup : Option TravelLookup) (travelMode : Option String) (fallbackSpeedKmh : ℚ)
    (fuel : ℕ) (route : ArcRoute), arcRoute gridGeometry {} fromRef toRef start finish travelLookup
      travelMode fallbackSpeedKmh fuel [] = some route →
    route.seconds = travelSeconds travelLookup fromRef toRef travelMode gridGeometry {} start finish
      fallbackSpeedKmh ∧ route.detoured = false := by
  intro same
  have arc : (arcRoute gridGeometry {} "a" "b" (0, 0) (53 / 360, 0) none (some "air") 50 0 []).map
      ArcRoute.seconds = some 11 := by decide +kernel
  have plain : travelSeconds none "a" "b" (some "air") gridGeometry {} (0, 0) (53 / 360, 0) 50 =
    10 := by decide +kernel
  obtain ⟨route, runs, seconds⟩ := Option.map_eq_some_iff.mp arc
  have equal := (same _ _ _ _ _ _ _ _ route runs).1
  rw [seconds, plain] at equal
  exact absurd equal (by decide)

end FlOp.Solver.ArcRouting
