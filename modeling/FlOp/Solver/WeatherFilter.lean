import FlOp.Contracts.CompositePolicy
import FlOp.Core.Constants
import FlOp.Core.Text
import FlOp.Library.Dict
import FlOp.Library.Ordering
import FlOp.Solver.Restrictions
import FlOp.Solver.Rows
import Mathlib.Order.OrderDual

/-! # Weather windows

A weather-sensitive task needs a compliant forecast window at the forecast location nearest to its
site. Under a policy that requires coverage, time without a compliant forecast is blocked too.
-/

namespace FlOp.Solver

open Canonical Contracts FlOp.Core Library

/-- A forecast window at a location. A bound is absent when it is missing or cannot be read. -/
structure ForecastRow extends WeatherForecast where
  lat : ℚ := 0
  lon : ℚ := 0
  validFrom : Option Instant := none
  validTo : Option Instant := none

/-- A work site and where it is. -/
structure SiteRow where
  locationId : String
  lat : ℚ
  lon : ℚ
deriving DecidableEq, Repr

/-- The tasks left, the records of those set aside, and the blocked intervals of the former. -/
structure WeatherOutcome where
  kept : List OrderRow := []
  infeasible : List InfeasibleRecord := []
  blocked : Dict String (List Interval) := .empty

/-- The seconds a forecast window covers, none without a start. A window without an end holds out
to the routing horizon. -/
def forecastEpochInterval (forecast : ForecastRow) : Option Interval :=
  match forecast.validFrom with
  | none => none
  | some validFrom =>
    let start := validFrom.truncated
    let stop := forecast.validTo.elim (start + routingHorizonS) Instant.truncated
    if stop < start then none else some (start, stop)

/-- From now to the deadline, which a task must be covered across. -/
def coverageHorizon (order : OrderRow) (nowEpoch : ℤ) : Interval :=
  let stop := order.deadline.elim (nowEpoch + routingHorizonS) Instant.truncated
  (nowEpoch, max nowEpoch stop)

def noWeatherWindow (order : OrderRow) (detail : String) : InfeasibleRecord where
  taskId := order.taskId
  reasonCode := .noValidWeatherWindow
  detail := detail

/-- The record of an order without any coverage of its horizon. -/
def uncoveredRecord (order : OrderRow) (nowEpoch : ℤ) : InfeasibleRecord :=
  let horizon := coverageHorizon order nowEpoch
  noWeatherWindow order <| "no compliant forecast covers [" ++ toString horizon.1 ++ ", " ++
    toString horizon.2 ++ "] for " ++ order.operationType

def squaredDistance (coords place : ℚ × ℚ) : ℚ :=
  (place.1 - coords.1) ^ 2 + (place.2 - coords.2) ^ 2

/-- The forecasts at the location nearest to a site; none for an unknown site. -/
def nearestWindows (sites : List SiteRow) (forecasts : List ForecastRow) (locationRef : String) :
    List ForecastRow :=
  let byLocation := Dict.groupBy (fun forecast => (forecast.lat, forecast.lon)) id forecasts
  let siteCoords := Dict.collect (·.locationId) (fun site => (site.lat, site.lon)) sites
  match siteCoords.get? locationRef with
  | none => []
  | some coords =>
    (firstMaxBy (fun place => OrderDual.toDual (squaredDistance coords place))
      byLocation.keys).elim []
      (byLocation.getD · [])

section Filter

variable (weather : WeatherPolicySpec) (nowEpoch : ℤ)

/-- The parts of the horizon covered by compliant forecast windows. -/
def compliantIntervals (order : OrderRow) (windows : List ForecastRow) : List Interval :=
  let horizon := coverageHorizon order nowEpoch
  mergeIntervals ((((windows.filter fun window => windowOk window.toWeatherForecast
      (weather.dims order.operationType) weather).filterMap forecastEpochInterval).map
    fun interval => (max interval.1 horizon.1, min interval.2 horizon.2)).filter
      fun interval => interval.1 ≤ interval.2)

/-- What is left of the horizon. -/
def coverageGaps (order : OrderRow) (windows : List ForecastRow) : List Interval :=
  subtractIntervals [coverageHorizon order nowEpoch]
    (compliantIntervals weather nowEpoch order windows)

/-- Conservative coverage: block every interval of the horizon that is not proven safe. -/
def filterConservative (order : OrderRow) (windows : List ForecastRow) (outcome : WeatherOutcome) :
    WeatherOutcome :=
  if compliantIntervals weather nowEpoch order windows = [] then
    { outcome with infeasible := outcome.infeasible ++ [uncoveredRecord order nowEpoch] }
  else
    let gaps := coverageGaps weather nowEpoch order windows
    { outcome with
      kept := outcome.kept ++ [order]
      blocked := if gaps = [] then outcome.blocked else outcome.blocked.set order.taskId gaps }

/-- Without required coverage one compliant window suffices, and the others are blocked. -/
def filterPermissive (order : OrderRow) (windows : List ForecastRow) (outcome : WeatherOutcome) :
    WeatherOutcome :=
  let dims := weather.dims order.operationType
  let ok (window : ForecastRow) := windowOk window.toWeatherForecast dims weather
  if windows = [] ∨ ∃ window ∈ windows, ok window = true then
    let intervals := (windows.filter fun window => !ok window).filterMap forecastEpochInterval
    { outcome with
      kept := outcome.kept ++ [order]
      blocked := if intervals = [] then outcome.blocked
        else outcome.blocked.set order.taskId intervals }
  else
    { outcome with infeasible := outcome.infeasible ++ [noWeatherWindow order <|
        "no forecast window satisfies " ++ reprTexts dims ++ " for " ++ order.operationType] }

end Filter

/-- What the filter does with one order. -/
def filterOrder (weather : WeatherPolicySpec) (nowEpoch : ℤ) (sites : List SiteRow)
    (forecasts : List ForecastRow) (outcome : WeatherOutcome) (order : OrderRow) :
    WeatherOutcome :=
  if weather.dims order.operationType = [] then
    { outcome with kept := outcome.kept ++ [order] }
  else
    let windows := nearestWindows sites forecasts order.locationRef
    if weather.requireForecastCoverage then
      filterConservative weather nowEpoch order windows outcome
    else filterPermissive weather order windows outcome

/-- Split off weather-sensitive tasks without any compliant forecast window. -/
def applyWeatherFilter (orders : List OrderRow) (sites : List SiteRow)
    (forecasts : List ForecastRow) (weather : Option WeatherPolicySpec) (nowEpoch : ℤ) :
    WeatherOutcome :=
  match weather with
  | none => { kept := orders }
  | some weather =>
    if weather.sensitivity.entries = [] ∨ forecasts = [] then { kept := orders }
    else orders.foldl (filterOrder weather nowEpoch sites forecasts) {}

section Conservative

variable (weather : WeatherPolicySpec) (nowEpoch : ℤ) (sites : List SiteRow)
  (forecasts : List ForecastRow)

/-- The second is in a compliant forecast window of the nearest location. -/
def CompliantAt (order : OrderRow) (t : ℤ) : Prop :=
  ∃ window ∈ nearestWindows sites forecasts order.locationRef,
    windowOk window.toWeatherForecast (weather.dims order.operationType) weather = true ∧
      ∃ interval ∈ forecastEpochInterval window, interval.1 ≤ t ∧ t ≤ interval.2

/-- The second is in the horizon of the order. -/
def InHorizon (order : OrderRow) (t : ℤ) : Prop :=
  (coverageHorizon order nowEpoch).1 ≤ t ∧ t ≤ (coverageHorizon order nowEpoch).2

/-- The compliant intervals that the filter finds for an order. -/
def compliantFor (order : OrderRow) : List Interval :=
  compliantIntervals weather nowEpoch order (nearestWindows sites forecasts order.locationRef)

/-- The gaps that the filter finds for an order. -/
def gapsFor (order : OrderRow) : List Interval :=
  coverageGaps weather nowEpoch order (nearestWindows sites forecasts order.locationRef)

/-- A sensitive order that is kept with blocked intervals. -/
def LeavesGaps (order : OrderRow) : Prop :=
  weather.dims order.operationType ≠ [] ∧ compliantFor weather nowEpoch sites forecasts order ≠ [] ∧
    gapsFor weather nowEpoch sites forecasts order ≠ []

instance (order : OrderRow) : Decidable (LeavesGaps weather nowEpoch sites forecasts order) :=
  inferInstanceAs (Decidable (_ ∧ _ ∧ _))

/-- In the horizon of each kept sensitive order the blocked seconds are those that are not
compliant, and each order without a compliant second is reported. -/
def CoversConservatively (orders : List OrderRow) : Prop :=
  let outcome := applyWeatherFilter orders sites forecasts (some weather) nowEpoch
  ∀ order ∈ orders, weather.dims order.operationType ≠ [] →
    (order ∈ outcome.kept → ∀ t, InHorizon nowEpoch order t →
      (InIntervals (outcome.blocked.getD order.taskId []) t ↔
        ¬ CompliantAt weather sites forecasts order t)) ∧
    ((∀ t, InHorizon nowEpoch order t → ¬ CompliantAt weather sites forecasts order t) →
      ∃ record ∈ outcome.infeasible, record.taskId = order.taskId ∧
        record.reasonCode = .noValidWeatherWindow)

/-- Of rows that share a task id, the last one with gaps agrees with the others on their
horizons. -/
def SharedRowsAgree (orders : List OrderRow) : Prop :=
  ∀ order ∈ orders, weather.dims order.operationType ≠ [] →
    compliantFor weather nowEpoch sites forecasts order ≠ [] →
      ∀ t, InHorizon nowEpoch order t →
        (InIntervals (((orders.reverse.find? fun other => other.taskId = order.taskId ∧
            LeavesGaps weather nowEpoch sites forecasts other).map
              (gapsFor weather nowEpoch sites forecasts)).getD []) t ↔
          InIntervals (gapsFor weather nowEpoch sites forecasts order) t)

variable {weather nowEpoch sites forecasts}

theorem inIntervals_compliantFor {order : OrderRow} {t : ℤ} :
    InIntervals (compliantFor weather nowEpoch sites forecasts order) t ↔
      InHorizon nowEpoch order t ∧ CompliantAt weather sites forecasts order t := by
  rw [compliantFor, compliantIntervals, inIntervals_mergeIntervals]
  simp only [InIntervals, List.mem_filter, List.mem_map, List.mem_filterMap, decide_eq_true_eq]
  constructor
  · rintro ⟨_, ⟨⟨interval, ⟨window, ⟨near, ok⟩, covers⟩, rfl⟩, -⟩, after, before⟩
    dsimp only at after before
    exact ⟨⟨by omega, by omega⟩, window, near, ok, interval, covers, by omega, by omega⟩
  · rintro ⟨⟨begins, ends⟩, window, near, ok, interval, covers, after, before⟩
    refine ⟨_, ⟨⟨interval, ⟨window, ⟨near, ok⟩, covers⟩, rfl⟩, ?_⟩, ?_, ?_⟩
    all_goals dsimp only
    all_goals omega

theorem inIntervals_gapsFor {order : OrderRow} {t : ℤ} :
    InIntervals (gapsFor weather nowEpoch sites forecasts order) t ↔
      InHorizon nowEpoch order t ∧ ¬ CompliantAt weather sites forecasts order t := by
  have compliant : InIntervals (compliantIntervals weather nowEpoch order
        (nearestWindows sites forecasts order.locationRef)) t ↔
      InHorizon nowEpoch order t ∧ CompliantAt weather sites forecasts order t :=
    inIntervals_compliantFor
  rw [gapsFor, coverageGaps, inIntervals_subtractIntervals, compliant, inIntervals_cons]
  simp only [inIntervals_nil, or_false, InHorizon]
  tauto

theorem compliantFor_eq_nil_iff {order : OrderRow} :
    compliantFor weather nowEpoch sites forecasts order = [] ↔
      ∀ t, InHorizon nowEpoch order t → ¬ CompliantAt weather sites forecasts order t := by
  have normal : NormalForm (compliantFor weather nowEpoch sites forecasts order) :=
    normalForm_mergeIntervals _
  rw [normal.eq_nil_iff]
  simp only [inIntervals_compliantFor, not_and]

/-- What the fold has kept, recorded and blocked. -/
theorem foldl_filterOrder (conservative : weather.requireForecastCoverage = true)
    (orders : List OrderRow) (outcome : WeatherOutcome) :
    orders.foldl (filterOrder weather nowEpoch sites forecasts) outcome =
      { kept := outcome.kept ++ orders.filter fun order =>
          weather.dims order.operationType = [] ∨
            compliantFor weather nowEpoch sites forecasts order ≠ []
        infeasible := outcome.infeasible ++ (orders.filter fun order =>
          weather.dims order.operationType ≠ [] ∧
            compliantFor weather nowEpoch sites forecasts order = []).map
              (uncoveredRecord · nowEpoch)
        blocked := (orders.filter fun order =>
          LeavesGaps weather nowEpoch sites forecasts order).foldl (fun blocked order =>
            blocked.set order.taskId (gapsFor weather nowEpoch sites forecasts order))
              outcome.blocked } := by
  induction orders generalizing outcome with
  | nil => simp
  | cons order rest ih =>
    rw [List.foldl_cons, ih]
    by_cases insensitive : weather.dims order.operationType = []
    · simp [filterOrder, insensitive, LeavesGaps]
    · by_cases uncovered : compliantFor weather nowEpoch sites forecasts order = []
      · have same := uncovered
        rw [compliantFor] at same
        simp [filterOrder, insensitive, conservative, filterConservative, same, uncovered,
          LeavesGaps]
      · have same := uncovered
        rw [compliantFor] at same
        by_cases whole : gapsFor weather nowEpoch sites forecasts order = []
        · have covered := whole
          rw [gapsFor] at covered
          simp [filterOrder, insensitive, conservative, filterConservative, same, uncovered,
            covered, whole, LeavesGaps]
        · have gapped := whole
          rw [gapsFor] at gapped
          simp [filterOrder, insensitive, conservative, filterConservative, same, uncovered,
            gapped, LeavesGaps, gapsFor]

/-- The blocked intervals are the gaps of the last row of the task that has any. -/
theorem getD_foldl_gaps (orders : List OrderRow) (taskId : String) :
    ((orders.filter fun order => LeavesGaps weather nowEpoch sites forecasts order).foldl
      (fun blocked order =>
        blocked.set order.taskId (gapsFor weather nowEpoch sites forecasts order))
      Dict.empty).getD taskId [] =
      ((orders.reverse.find? fun other => other.taskId = taskId ∧
        LeavesGaps weather nowEpoch sites forecasts other).map
          (gapsFor weather nowEpoch sites forecasts)).getD [] := by
  have collected := Dict.get?_collect (·.taskId) (gapsFor weather nowEpoch sites forecasts)
    (orders.filter fun order => LeavesGaps weather nowEpoch sites forecasts order) taskId
  rw [Dict.collect] at collected
  rw [Dict.getD, collected, ← List.filter_reverse, List.find?_filter]
  simp only [Bool.decide_and, Bool.decide_eq_true, Bool.and_comm]

theorem nearestWindows_nil (locationRef : String) :
    nearestWindows sites [] locationRef = [] := by
  unfold nearestWindows
  dsimp only
  split <;> rfl

/-- Without forecasts the filter returns at once. -/
theorem applyWeatherFilter_nil (orders : List OrderRow) (weather : Option WeatherPolicySpec) :
    applyWeatherFilter orders sites [] weather nowEpoch = { kept := orders } := by
  cases weather with
  | none => rfl
  | some weather =>
    rw [applyWeatherFilter]
    exact if_pos (.inr rfl)

theorem dims_eq_nil (insensitive : weather.sensitivity.entries = []) (operationType : String) :
    weather.dims operationType = [] := by
  rw [WeatherPolicySpec.dims, Dict.getD, Dict.get?, insensitive]
  rfl

theorem applyWeatherFilter_of_sensitive (conservative : weather.requireForecastCoverage = true)
    (orders : List OrderRow) (data : ¬ (weather.sensitivity.entries = [] ∨ forecasts = [])) :
    CoversConservatively weather nowEpoch sites forecasts orders ↔
      SharedRowsAgree weather nowEpoch sites forecasts orders := by
  unfold CoversConservatively
  simp only [applyWeatherFilter, if_neg data, foldl_filterOrder conservative, getD_foldl_gaps,
    List.nil_append]
  constructor
  · intro covers order member sensitive compliant t inside
    have claimed := (covers order member sensitive).1
      (List.mem_filter.mpr ⟨member, decide_eq_true (.inr compliant)⟩) t inside
    rw [claimed, inIntervals_gapsFor, and_iff_right inside]
  · intro agree order member sensitive
    constructor
    · intro kept t inside
      have compliant := (of_decide_eq_true (List.mem_filter.mp kept).2).resolve_left sensitive
      rw [agree order member sensitive compliant t inside, inIntervals_gapsFor,
        and_iff_right inside]
    · intro uncovered
      have none := compliantFor_eq_nil_iff.mpr uncovered
      refine ⟨uncoveredRecord order nowEpoch, ?_, rfl, rfl⟩
      apply List.mem_map_of_mem
      exact List.mem_filter.mpr ⟨member, decide_eq_true ⟨sensitive, none⟩⟩

end Conservative

/-- A policy that requires coverage gets it if and only if there are forecasts or no order is
sensitive, and rows that share a task id agree on what is blocked. -/
theorem covers_conservatively_iff (weather : WeatherPolicySpec)
    (conservative : weather.requireForecastCoverage = true) (nowEpoch : ℤ)
    (sites : List SiteRow) (forecasts : List ForecastRow) (orders : List OrderRow) :
    CoversConservatively weather nowEpoch sites forecasts orders ↔
      (forecasts ≠ [] ∨ ∀ order ∈ orders, weather.dims order.operationType = []) ∧
        SharedRowsAgree weather nowEpoch sites forecasts orders := by
  by_cases insensitive : ∀ order ∈ orders, weather.dims order.operationType = []
  · constructor
    · intro _
      exact ⟨.inr insensitive, fun order member sensitive =>
        absurd (insensitive order member) sensitive⟩
    · intro _ order member sensitive
      exact absurd (insensitive order member) sensitive
  · obtain ⟨order, member, sensitive⟩ : ∃ order ∈ orders, weather.dims order.operationType ≠ [] := by
      simpa using insensitive
    have declared : weather.sensitivity.entries ≠ [] := fun none =>
      sensitive (dims_eq_nil none _)
    by_cases missing : forecasts = []
    · -- the early return keeps the order, with nothing compliant and nothing blocked
      subst missing
      refine iff_of_false (fun covers => ?_) (fun agree => ?_)
      · have claimed := (covers order member sensitive).1
        rw [applyWeatherFilter_nil] at claimed
        have now : InHorizon nowEpoch order nowEpoch := ⟨le_rfl, le_max_left _ _⟩
        apply inIntervals_nil nowEpoch
        apply (claimed member nowEpoch now).mpr
        rintro ⟨window, near, -⟩
        rw [nearestWindows_nil] at near
        exact List.not_mem_nil near
      · exact agree.1.elim (fun some => some rfl) insensitive
    · rw [applyWeatherFilter_of_sensitive conservative orders (by tauto)]
      exact (and_iff_right (.inl missing)).symm

section Spraying

/-- Spraying needs calm weather, and a forecast that says so. -/
def calmPolicy : WeatherPolicySpec where
  sensitivity := Dict.empty.set "SPRAYING" ["wind"]
  requireForecastCoverage := true

def sprayingOrder : OrderRow where
  taskId := "spray"
  locationRef := "north"
  operationType := "SPRAYING"
  deadline := some 3600

theorem covers_conservatively_iff_spray :
    CoversConservatively calmPolicy 0 [⟨"north", 0, 0⟩] [] [sprayingOrder] ↔
      (([] : List ForecastRow) ≠ [] ∨
        ∀ order ∈ [sprayingOrder], calmPolicy.dims order.operationType = []) ∧
      SharedRowsAgree calmPolicy 0 [⟨"north", 0, 0⟩] [] [sprayingOrder] :=
  covers_conservatively_iff calmPolicy rfl 0 [⟨"north", 0, 0⟩] [] [sprayingOrder]

/-- Without any forecast the task is kept, and nothing is blocked. -/
theorem missing_forecasts_block_nothing :
    ¬ ∀ (weather : WeatherPolicySpec), weather.requireForecastCoverage = true →
      ∀ (nowEpoch : ℤ) (sites : List SiteRow) (forecasts : List ForecastRow)
        (orders : List OrderRow), CoversConservatively weather nowEpoch sites forecasts orders := by
  intro covers
  have sensitive : calmPolicy.dims sprayingOrder.operationType ≠ [] := by decide +kernel
  have claimed := (covers calmPolicy rfl 0 [⟨"north", 0, 0⟩] [] [sprayingOrder] sprayingOrder
    List.mem_cons_self sensitive).1
  rw [applyWeatherFilter_nil] at claimed
  apply inIntervals_nil 0
  apply (claimed List.mem_cons_self 0 ⟨le_rfl, le_max_left _ _⟩).mpr
  rintro ⟨window, near, -⟩
  rw [nearestWindows_nil] at near
  exact List.not_mem_nil near

end Spraying

end FlOp.Solver
