import FlOp.Library.Groups
import FlOp.Snapshot.Monitoring
import Mathlib.Data.Int.ConditionallyCompleteOrder
import Mathlib.Data.Int.Interval
import Mathlib.Order.Interval.Finset.Basic

/-! # Retention and downsampling of observation series

Readings outside of the retention window are dropped, and a series with more readings than allowed
is aggregated into equal time windows. The last reading of a window represents it, with the extremes
of the window; the oldest reading is kept as well.
-/

namespace FlOp.Snapshot

open Canonical FlOp.Core Library

/-- The aggregates of a downsampling window. -/
structure WindowAggregates where
  low : ℚ
  mean : ℚ
  high : ℚ
  count : ℕ
deriving DecidableEq, Repr

/-- A reading as its source reports it, with the aggregates of the window it represents. -/
structure SensorReading extends Reading where
  observationId : String
  ingestedAt : Option Instant := none
  qualityFlag : String := ""
  sourceRef : String := ""
  window : Option WindowAggregates := none

/-- How long readings are kept, and how many of a series. -/
structure RetentionPolicy where
  retentionDays : ℚ := 14
  maxReadings : ℕ := 32
  positive : 0 < maxReadings := by decide

namespace RetentionPolicy

variable (policy : RetentionPolicy)

/-- Whether a reading is within the retention window; one without a time is. -/
def retains (asOf : Option Instant) (reading : SensorReading) : Bool :=
  match asOf with
  | none => true
  | some now => reading.observedAt = none ∨
      now - policy.retentionDays * secondsPerDay ≤ reading.observedTs

/-- The window that a reading falls into. -/
def bucket (start span : Instant) (reading : SensorReading) : ℤ :=
  min (Instant.truncated ((reading.observedTs - start) / (span / policy.maxReadings)))
    (policy.maxReadings - 1)

/-- The windows of a series, in time order. -/
def windows (start span : Instant) (series : List SensorReading) : List (List SensorReading) :=
  groups (policy.bucket start span) series

/-- The aggregates of a window with a value. -/
def aggregates (window : List SensorReading) : Option WindowAggregates :=
  let values := window.filterMap (·.value)
  match values.min?, values.max? with
  | some low, some high => some ⟨low, values.sum / values.length, high, window.length⟩
  | _, _ => none

/-- `_window_representative`: the last reading of a window, with the window's aggregates. -/
def windowRepresentative (window : List SensorReading) : Option SensorReading :=
  window.getLast?.map fun representative =>
    { representative with window := (aggregates window).or representative.window }

/-- The representatives of the windows, after the oldest reading if they do not start with it. -/
def aggregated (first : SensorReading) (span : Instant) (series : List SensorReading) :
    List SensorReading :=
  let kept := (policy.windows first.observedTs span series).filterMap windowRepresentative
  match kept.head? with
  | some head => if head.observationId ≠ first.observationId then first :: kept else kept
  | none => kept

/-- The last readings of a series. -/
def latest (series : List SensorReading) : List SensorReading :=
  series.drop (series.length - policy.maxReadings)

/-- `_retained`. -/
def retained (series : List SensorReading) (asOf : Option Instant) : List SensorReading :=
  let series := series.filter (policy.retains asOf)
  if series.length ≤ policy.maxReadings then series
  else
    match series.head?, series.getLast? with
    | some first, some last =>
      if last.observedTs - first.observedTs ≤ 0 then policy.latest series
      else policy.aggregated first (last.observedTs - first.observedTs) series
    | _, _ => series

end RetentionPolicy

/-- A reading as it was before aggregation. -/
def SensorReading.raw (reading : SensorReading) : SensorReading := { reading with window := none }

def measured (series : List SensorReading) : List ℚ := series.filterMap (·.value)

/-- The values of retained readings, and one aggregate of the windows they represent. -/
def seen (side : WindowAggregates → ℚ) (kept : List SensorReading) : List ℚ :=
  measured kept ++ kept.filterMap fun reading => reading.window.map side

/-- What the window counts of retained readings add up to. -/
def windowTotal (kept : List SensorReading) : ℕ :=
  (kept.map fun reading => (reading.window.map (·.count)).getD 0).sum

namespace RetentionPolicy

variable (policy : RetentionPolicy)

/-- The readings in windows that have a value. A series without a span has no windows. -/
def inValuedWindows (first last : SensorReading) (series : List SensorReading) : ℕ :=
  if last.observedTs - first.observedTs ≤ 0 then 0
  else series.countP fun reading =>
    (groupOf (policy.bucket first.observedTs (last.observedTs - first.observedTs)) series
      (policy.bucket first.observedTs (last.observedTs - first.observedTs) reading)).any
        (·.value.isSome)

/-- The retained readings keep the ends, the order and the extremes of a series. -/
structure KeepsExtremes (first last : SensorReading) (series kept : List SensorReading) : Prop where
  few : kept.length ≤ policy.maxReadings + 1
  ordered : kept.Pairwise fun a b => a.observedTs ≤ b.observedTs
  oldest : first ∈ kept.map SensorReading.raw
  newest : last ∈ kept.map SensorReading.raw
  lowest : (seen (·.low) kept).min? = (measured series).min?
  highest : (seen (·.high) kept).max? = (measured series).max?
  counted : windowTotal kept = policy.inValuedWindows first last series

/-- The series has a span, and the last reading of its first window does not pass for the oldest;
or its last readings hold the oldest one and the extremes anyway. -/
def Spreads (first last : SensorReading) (series : List SensorReading) : Prop :=
  if last.observedTs - first.observedTs ≤ 0 then
    first ∈ policy.latest series ∧
      (measured (policy.latest series)).min? = (measured series).min? ∧
      (measured (policy.latest series)).max? = (measured series).max?
  else
    ∀ other ∈ (groupOf (policy.bucket first.observedTs (last.observedTs - first.observedTs)) series
      (policy.bucket first.observedTs (last.observedTs - first.observedTs) first)).getLast?,
        other.observationId = first.observationId → other = first

section Downsampling

variable {policy} {first last : SensorReading} {series : List SensorReading} {span : Instant}

theorem bucket_mono (positive : 0 < span) {start : Instant} {a b : SensorReading}
    (after : start ≤ a.observedTs) (le : a.observedTs ≤ b.observedTs) :
    policy.bucket start span a ≤ policy.bucket start span b := by
  have width : 0 < span / policy.maxReadings :=
    div_pos positive (Nat.cast_pos.mpr policy.positive)
  have low : 0 ≤ (a.observedTs - start) / (span / policy.maxReadings) :=
    div_nonneg (sub_nonneg.mpr after) width.le
  have step : (a.observedTs - start) / (span / policy.maxReadings) ≤
      (b.observedTs - start) / (span / policy.maxReadings) :=
    div_le_div_of_nonneg_right (sub_le_sub_right le start) width.le
  refine min_le_min_right _ ?_
  rw [Instant.truncated, Instant.truncated, if_pos low, if_pos (low.trans step)]
  exact Rat.le_floor_iff.mpr ((Rat.floor_le _).trans step)

theorem bucket_mem (positive : 0 < span) {start : Instant} {reading : SensorReading}
    (after : start ≤ reading.observedTs) :
    policy.bucket start span reading ∈ Finset.Ico (0 : ℤ) policy.maxReadings := by
  have width : 0 < span / policy.maxReadings :=
    div_pos positive (Nat.cast_pos.mpr policy.positive)
  have low : 0 ≤ (reading.observedTs - start) / (span / policy.maxReadings) :=
    div_nonneg (sub_nonneg.mpr after) width.le
  have some := policy.positive
  have floor : 0 ≤ ((reading.observedTs - start) / (span / policy.maxReadings)).floor :=
    Rat.le_floor_iff.mpr (by simpa using low)
  rw [Finset.mem_Ico, bucket, Instant.truncated, if_pos low]
  omega

/-- The aggregates of a window with a value are those of its values. -/
theorem exists_aggregates {window : List SensorReading} (valued : window.any (·.value.isSome)) :
    ∃ own, aggregates window = some own ∧ (measured window).min? = some own.low ∧
      (measured window).max? = some own.high ∧ own.count = window.length := by
  have nonempty : measured window ≠ [] := by
    obtain ⟨held, member, some⟩ := List.any_eq_true.mp valued
    obtain ⟨value, same⟩ := Option.isSome_iff_exists.mp some
    exact List.ne_nil_of_mem (List.mem_filterMap.mpr ⟨held, member, same⟩)
  obtain ⟨low, isLow⟩ := Option.ne_none_iff_exists'.mp (mt List.min?_eq_none_iff.mp nonempty)
  obtain ⟨high, isHigh⟩ := Option.ne_none_iff_exists'.mp (mt List.max?_eq_none_iff.mp nonempty)
  refine ⟨⟨low, (measured window).sum / (measured window).length, high, window.length⟩, ?_,
    isLow, isHigh, rfl⟩
  rw [measured] at isLow isHigh
  simp only [aggregates, isLow, isHigh, measured]

theorem aggregates_eq_none {window : List SensorReading}
    (none : window.any (·.value.isSome) = false) : aggregates window = .none := by
  have empty : window.filterMap (·.value) = [] := by
    rw [List.filterMap_eq_nil_iff]
    intro held member
    exact Option.not_isSome_iff_eq_none.mp (List.any_eq_false.mp none held member)
  simp [aggregates, empty]

/-- The aggregated extremes are values of the window. -/
theorem aggregates_attained {window : List SensorReading} {aggregate : WindowAggregates}
    (found : aggregates window = some aggregate) :
    aggregate.low ∈ measured window ∧ aggregate.high ∈ measured window := by
  cases valued : window.any (·.value.isSome) with
  | false =>
    rw [aggregates_eq_none valued] at found
    cases found
  | true =>
    obtain ⟨own, same, low, high, -⟩ := exists_aggregates valued
    obtain rfl := Option.some.inj (same.symm.trans found)
    exact ⟨(List.min?_eq_some_iff.mp low).1, (List.max?_eq_some_iff.mp high).1⟩

theorem windowRepresentative_eq {window : List SensorReading} {reading : SensorReading}
    (isLast : window.getLast? = some reading) : windowRepresentative window =
      some { reading with window := (aggregates window).or reading.window } := by
  rw [windowRepresentative, isLast, Option.map_some]

/-- A series sorted by time, with its ends. -/
structure Runs (first last : SensorReading) (series : List SensorReading) : Prop where
  sorted : series.Pairwise fun a b => a.observedTs ≤ b.observedTs
  isFirst : series.head? = some first
  isLast : series.getLast? = some last

namespace Runs

variable (own : Runs first last series)
include own

theorem first_mem : first ∈ series := List.mem_of_head? own.isFirst

theorem last_mem : last ∈ series := List.mem_of_getLast? own.isLast

theorem first_le {reading : SensorReading} (member : reading ∈ series) :
    first.observedTs ≤ reading.observedTs := by
  obtain ⟨rest, shape⟩ := List.head?_eq_some_iff.mp own.isFirst
  have sorted := own.sorted
  rw [shape] at sorted member
  rcases List.mem_cons.mp member with rfl | later
  · exact le_rfl
  · exact List.rel_of_pairwise_cons sorted later

/-- The newest reading ends its window. -/
theorem getLast?_group_last (key : SensorReading → ℤ) :
    (groupOf key series (key last)).getLast? = some last := by
  obtain ⟨init, shape⟩ := List.getLast?_eq_some_iff.mp own.isLast
  rw [groupOf, shape, List.filter_append, List.filter_singleton]
  simp

end Runs

/-- A representative is the last reading of its window and shows the aggregates. -/
theorem exists_representative {key : SensorReading → ℤ} {kept : SensorReading}
    (member : kept ∈ (groups key series).filterMap windowRepresentative) :
    ∃ reading ∈ series, (groupOf key series (key reading)).getLast? = some reading ∧
      kept = { reading with
        window := (aggregates (groupOf key series (key reading))).or reading.window } := by
  obtain ⟨group, listed, found⟩ := List.mem_filterMap.mp member
  obtain ⟨item, inside, rfl⟩ := exists_of_mem_groups listed
  obtain ⟨reading, isLast, rfl⟩ := Option.map_eq_some_iff.mp found
  obtain ⟨held, same⟩ := mem_groupOf.mp (List.mem_of_getLast? isLast)
  exact ⟨reading, held, by rwa [same], by rw [same]⟩

/-- A series whose readings have not been aggregated. -/
structure IsSeries (first last : SensorReading) (series : List SensorReading) : Prop
    extends Runs first last series where
  fresh : ∀ reading ∈ series, reading.window = none

namespace IsSeries

variable (own : IsSeries first last series)
include own

theorem raw_eq {reading : SensorReading} (member : reading ∈ series) : reading.raw = reading := by
  have none := own.fresh reading member
  rw [SensorReading.raw, ← none]

/-- Every retained reading represents a window of the series. -/
theorem exists_window {key : SensorReading → ℤ} {kept : SensorReading}
    (member : kept ∈ (groups key series).filterMap windowRepresentative) :
    ∃ reading ∈ series, (groupOf key series (key reading)).getLast? = some reading ∧
      kept = { reading with window := aggregates (groupOf key series (key reading)) } := by
  obtain ⟨reading, held, isLast, rfl⟩ := exists_representative member
  refine ⟨reading, held, isLast, ?_⟩
  rw [own.fresh reading held, Option.or_none]

/-- Every window of the series is represented. -/
theorem representative_mem {key : SensorReading → ℤ} {reading item : SensorReading}
    (member : item ∈ series) (isLast : (groupOf key series (key item)).getLast? = some reading) :
    { reading with window := aggregates (groupOf key series (key item)) } ∈
      (groups key series).filterMap windowRepresentative := by
  refine List.mem_filterMap.mpr ⟨_, groupOf_mem_groups member, ?_⟩
  have held := (mem_groupOf.mp (List.mem_of_getLast? isLast)).1
  rw [windowRepresentative_eq isLast, own.fresh reading held, Option.or_none]

end IsSeries

section Aggregated

variable {key : SensorReading → ℤ}

/-- The representatives are readings of the series, but for their aggregates, in the order of the
keys. -/
theorem pairwise_sources (key : SensorReading → ℤ) (series : List SensorReading) :
    ((groups key series).filterMap windowRepresentative).Pairwise fun a b =>
      ∃ x ∈ series, ∃ y ∈ series, a.raw = x.raw ∧ b.raw = y.raw ∧ key x < key y := by
  rw [List.pairwise_filterMap]
  have apart : (groups key series).Pairwise fun earlier later =>
      ∀ a ∈ earlier, ∀ b ∈ later, key a < key b := pairwise_groups
  refine apart.imp_of_mem fun {earlier later} earlierListed laterListed less a foundA b foundB => ?_
  obtain ⟨x, xLast, rfl⟩ := Option.map_eq_some_iff.mp foundA
  obtain ⟨y, yLast, rfl⟩ := Option.map_eq_some_iff.mp foundB
  obtain ⟨item, -, rfl⟩ := exists_of_mem_groups earlierListed
  obtain ⟨other, -, rfl⟩ := exists_of_mem_groups laterListed
  have xMember := List.mem_of_getLast? xLast
  have yMember := List.mem_of_getLast? yLast
  exact ⟨x, (mem_groupOf.mp xMember).1, y, (mem_groupOf.mp yMember).1, rfl, rfl,
    less x xMember y yMember⟩

/-- The representatives are in time order. -/
theorem pairwise_representatives
    (mono : ∀ a ∈ series, ∀ b ∈ series, a.observedTs ≤ b.observedTs → key a ≤ key b) :
    ((groups key series).filterMap windowRepresentative).Pairwise
      fun a b => a.observedTs ≤ b.observedTs := by
  refine (pairwise_sources key series).imp fun {a b} sources => ?_
  obtain ⟨x, xMember, y, yMember, rawA, rawB, less⟩ := sources
  have observedA : a.observedTs = x.observedTs := congrArg (·.observedTs) rawA
  have observedB : b.observedTs = y.observedTs := congrArg (·.observedTs) rawB
  rw [observedA, observedB]
  by_contra later
  exact less.not_ge (mono y yMember x xMember (not_le.mp later).le)

/-- What is retained of the windows shows measurements of the series only. -/
theorem seen_subset (own : IsSeries first last series) {side : WindowAggregates → ℚ}
    (attained : ∀ window own, aggregates window = some own → side own ∈ measured window)
    {kept : List SensorReading} (source : ∀ reading ∈ kept, reading ∈ series ∨
      reading ∈ (groups key series).filterMap windowRepresentative)
    {value : ℚ} (member : value ∈ seen side kept) : value ∈ measured series := by
  rcases List.mem_append.mp member with plain | windowed
  · obtain ⟨reading, held, same⟩ := List.mem_filterMap.mp plain
    rcases source reading held with inSeries | inWindows
    · exact List.mem_filterMap.mpr ⟨reading, inSeries, same⟩
    · obtain ⟨reading, inSeries, -, rfl⟩ := own.exists_window inWindows
      exact List.mem_filterMap.mpr ⟨reading, inSeries, same⟩
  · obtain ⟨reading, held, shown⟩ := List.mem_filterMap.mp windowed
    obtain ⟨aggregate, hasWindow, rfl⟩ := Option.map_eq_some_iff.mp shown
    rcases source reading held with inSeries | inWindows
    · rw [own.fresh reading inSeries] at hasWindow
      cases hasWindow
    · obtain ⟨reading, inSeries, -, rfl⟩ := own.exists_window inWindows
      obtain ⟨inside, member, same⟩ := List.mem_filterMap.mp (attained _ _ hasWindow)
      exact List.mem_filterMap.mpr ⟨inside, (mem_groupOf.mp member).1, same⟩

/-- Every measurement of the series is in a window that is retained with its aggregates. -/
theorem exists_seen (own : IsSeries first last series) {kept : List SensorReading}
    (source : ∀ reading ∈ (groups key series).filterMap windowRepresentative, reading ∈ kept)
    {value : ℚ} (member : value ∈ measured series) :
    ∃ window aggregate, value ∈ measured window ∧ (measured window).min? = some aggregate.low ∧
      (measured window).max? = some aggregate.high ∧
      ∀ side : WindowAggregates → ℚ, side aggregate ∈ seen side kept := by
  obtain ⟨reading, inSeries, same⟩ := List.mem_filterMap.mp member
  have inside : reading ∈ groupOf key series (key reading) := mem_groupOf.mpr ⟨inSeries, rfl⟩
  obtain ⟨aggregate, aggregated, low, high, -⟩ := exists_aggregates
    (List.any_eq_true.mpr ⟨reading, inside, by rw [same]; rfl⟩)
  obtain ⟨final, isLast⟩ : ∃ final, (groupOf key series (key reading)).getLast? = some final :=
    exists_getLast?_groupOf inSeries
  refine ⟨_, aggregate, List.mem_filterMap.mpr ⟨reading, inside, same⟩, low, high, fun side => ?_⟩
  refine List.mem_append_right _ (List.mem_filterMap.mpr
    ⟨_, source _ (own.representative_mem inSeries isLast), ?_⟩)
  rw [aggregated, Option.map_some]

theorem windowTotal_filterMap {listed : List (List SensorReading)} {counted : List SensorReading → ℕ}
    (each : ∀ window ∈ listed, ∃ reading, windowRepresentative window = some reading ∧
      (reading.window.map (·.count)).getD 0 = counted window) :
    windowTotal (listed.filterMap windowRepresentative) = (listed.map counted).sum := by
  induction listed with
  | nil => rfl
  | cons window rest ih =>
    obtain ⟨⟨reading, found, count⟩, later⟩ := List.forall_mem_cons.mp each
    rw [List.filterMap_cons_some found, windowTotal, List.map_cons, List.sum_cons, List.map_cons,
      List.sum_cons, count, ← ih later]
    rfl

/-- The window counts of the representatives are the readings in windows with a value. -/
theorem windowTotal_representatives (own : IsSeries first last series) :
    windowTotal ((groups key series).filterMap windowRepresentative) =
      series.countP fun reading => (groupOf key series (key reading)).any (·.value.isSome) := by
  have parted : (groups key series).flatten.Perm series := perm_flatten_groups
  rw [← parted.countP_eq, List.countP_flatten]
  apply windowTotal_filterMap
  intro group listed
  obtain ⟨item, inSeries, rfl⟩ := exists_of_mem_groups listed
  obtain ⟨final, isLast⟩ : ∃ final, (groupOf key series (key item)).getLast? = some final :=
    exists_getLast?_groupOf inSeries
  have held := (mem_groupOf.mp (List.mem_of_getLast? isLast)).1
  have alike : ∀ reading ∈ groupOf key series (key item),
      ((groupOf key series (key reading)).any (·.value.isSome) = true ↔
        (groupOf key series (key item)).any (·.value.isSome) = true) := by
    intro reading inside
    rw [(mem_groupOf.mp inside).2]
  refine ⟨_, windowRepresentative_eq isLast, ?_⟩
  rw [List.countP_congr alike, own.fresh final held, Option.or_none]
  cases valued : (groupOf key series (key item)).any (·.value.isSome) with
  | false =>
    rw [aggregates_eq_none valued]
    simp
  | true =>
    obtain ⟨aggregate, aggregated, -, -, count⟩ := exists_aggregates valued
    rw [aggregated, Option.map_some, Option.getD_some, count]
    simp

end Aggregated

section Branches

/-- A series with a span, aggregated. -/
theorem aggregated_eq (policy : RetentionPolicy) (own : Runs first last series)
    (spans : 0 < span) :
    ∃ other, (groupOf (policy.bucket first.observedTs span) series
        (policy.bucket first.observedTs span first)).getLast? = some other ∧
      policy.aggregated first span series =
        if other.observationId ≠ first.observationId then
          first :: (policy.windows first.observedTs span series).filterMap windowRepresentative
        else (policy.windows first.observedTs span series).filterMap windowRepresentative := by
  obtain ⟨other, isLast⟩ : ∃ other, (groupOf (policy.bucket first.observedTs span) series
      (policy.bucket first.observedTs span first)).getLast? = some other :=
    exists_getLast?_groupOf own.first_mem
  refine ⟨other, isLast, ?_⟩
  have head : (policy.windows first.observedTs span series).head? =
      some (groupOf (policy.bucket first.observedTs span) series
        (policy.bucket first.observedTs span first)) :=
    head?_groups own.first_mem fun reading member =>
      bucket_mono spans le_rfl (own.first_le member)
  obtain ⟨rest, shape⟩ := List.head?_eq_some_iff.mp head
  rw [aggregated, shape, List.filterMap_cons_some (windowRepresentative_eq isLast)]
  rfl

variable (policy) (own : IsSeries first last series)
include own

/-- Retaining every window, and nothing that is not of the series, keeps its extremes. -/
theorem keepsExtremes_of_windows {key : SensorReading → ℤ} {kept : List SensorReading}
    (source : ∀ reading ∈ kept, reading ∈ series ∨
      reading ∈ (groups key series).filterMap windowRepresentative)
    (within : ∀ reading ∈ (groups key series).filterMap windowRepresentative, reading ∈ kept)
    (few : kept.length ≤ policy.maxReadings + 1)
    (ordered : kept.Pairwise fun a b => a.observedTs ≤ b.observedTs)
    (oldest : first ∈ kept.map SensorReading.raw)
    (counted : windowTotal kept = policy.inValuedWindows first last series) :
    policy.KeepsExtremes first last series kept where
  few := few
  ordered := ordered
  oldest := oldest
  newest := List.mem_map.mpr ⟨_, within _ (own.representative_mem own.last_mem
    (own.getLast?_group_last key)), own.raw_eq own.last_mem⟩
  lowest := by
    refine min?_eq_min? (fun value member => ⟨value, seen_subset own ?_ source member, le_rfl⟩)
      fun value member => ?_
    · intro window aggregate found
      exact (aggregates_attained found).1
    · obtain ⟨window, aggregate, inside, low, -, shown⟩ := exists_seen own within member
      exact ⟨aggregate.low, shown (·.low), (List.min?_eq_some_iff.mp low).2 value inside⟩
  highest := by
    refine max?_eq_max? (fun value member => ⟨value, seen_subset own ?_ source member, le_rfl⟩)
      fun value member => ?_
    · intro window aggregate found
      exact (aggregates_attained found).2
    · obtain ⟨window, aggregate, inside, -, high, shown⟩ := exists_seen own within member
      exact ⟨aggregate.high, shown (·.high), (List.max?_eq_some_iff.mp high).2 value inside⟩
  counted := counted

/-- Downsampling a series with a span keeps all of it but, perhaps, the oldest reading. -/
theorem aggregated_keepsExtremes_iff
    (spans : 0 < last.observedTs - first.observedTs) :
    policy.KeepsExtremes first last series
        (policy.aggregated first (last.observedTs - first.observedTs) series) ↔
      policy.Spreads first last series := by
  obtain ⟨other, isLast, shape⟩ := aggregated_eq policy own.toRuns spans
  rw [Spreads, if_neg (not_le.mpr spans), shape, isLast]
  simp only [Option.mem_some, forall_eq']
  have mono : ∀ a ∈ series, ∀ b ∈ series, a.observedTs ≤ b.observedTs →
      policy.bucket first.observedTs (last.observedTs - first.observedTs) a ≤
        policy.bucket first.observedTs (last.observedTs - first.observedTs) b :=
    fun a member _ _ le => bucket_mono spans (own.first_le member) le
  have few : (policy.windows first.observedTs (last.observedTs - first.observedTs) series).length ≤
      (Finset.Ico (0 : ℤ) policy.maxReadings).card :=
    length_groups_le fun reading member => bucket_mem spans (own.first_le member)
  have counted : windowTotal ((policy.windows first.observedTs (last.observedTs - first.observedTs)
      series).filterMap windowRepresentative) = policy.inValuedWindows first last series := by
    rw [inValuedWindows, if_neg (not_le.mpr spans)]
    exact windowTotal_representatives own
  have ordered := pairwise_representatives mono
  rw [windows] at few counted ⊢
  generalize policy.bucket first.observedTs (last.observedTs - first.observedTs) = key at *
  constructor
  · intro keeps same
    rw [if_neg (not_not.mpr same)] at keeps
    obtain ⟨kept, member, raw⟩ := List.mem_map.mp keeps.oldest
    obtain ⟨reading, held, ends, rfl⟩ := own.exists_window member
    obtain rfl : reading = first := (own.raw_eq held).symm.trans raw
    exact Option.some.inj (isLast.symm.trans ends)
  · intro spreads
    rw [Int.card_Ico, sub_zero, Int.toNat_natCast] at few
    have fewer := (List.length_filterMap_le windowRepresentative (groups key series)).trans few
    by_cases same : other.observationId = first.observationId
    · rw [if_neg (not_not.mpr same)]
      obtain rfl := spreads same
      refine keepsExtremes_of_windows policy own (fun _ member => .inr member)
        (fun _ member => member) (by omega) ordered ?_ counted
      exact List.mem_map.mpr ⟨_, own.representative_mem own.first_mem isLast,
        own.raw_eq own.first_mem⟩
    · rw [if_pos same]
      refine keepsExtremes_of_windows policy own ?_ (fun _ member => .tail _ member) ?_ ?_ ?_ ?_
      · intro reading member
        rcases List.mem_cons.mp member with rfl | represents
        · exact .inl own.first_mem
        · exact .inr represents
      · rw [List.length_cons]
        omega
      · refine List.pairwise_cons.mpr ⟨fun kept member => ?_, ordered⟩
        obtain ⟨reading, held, -, rfl⟩ := own.exists_window member
        have before := own.first_le held
        exact before
      · exact List.mem_map.mpr ⟨first, List.mem_cons_self, own.raw_eq own.first_mem⟩
      · rw [← counted, windowTotal, List.map_cons, List.sum_cons, own.fresh first own.first_mem]
        exact Nat.zero_add _

/-- A series without a span keeps its last readings. -/
theorem latest_keepsExtremes_iff (longer : policy.maxReadings < series.length)
    (flat : last.observedTs - first.observedTs ≤ 0) :
    policy.KeepsExtremes first last series (policy.latest series) ↔
      policy.Spreads first last series := by
  have within : ∀ reading ∈ policy.latest series, reading ∈ series :=
    fun reading member => List.mem_of_mem_drop member
  have plain : ∀ side, seen side (policy.latest series) = measured (policy.latest series) := by
    intro side
    have none : ((policy.latest series).filterMap fun reading => reading.window.map side) = [] := by
      rw [List.filterMap_eq_nil_iff]
      intro reading member
      rw [own.fresh reading (within reading member)]
      rfl
    rw [seen, none, List.append_nil]
  have unaggregated : (policy.latest series).map SensorReading.raw = policy.latest series :=
    (List.map_congr_left fun reading member => own.raw_eq (within reading member)).trans
      (List.map_id' _)
  rw [Spreads, if_pos flat]
  constructor
  · intro keeps
    refine ⟨unaggregated ▸ keeps.oldest, ?_, ?_⟩
    · rw [← plain (·.low)]
      exact keeps.lowest
    · rw [← plain (·.high)]
      exact keeps.highest
  · rintro ⟨oldest, lowest, highest⟩
    have positive := policy.positive
    refine ⟨?_, own.sorted.sublist (List.drop_sublist _ _), unaggregated.symm ▸ oldest, ?_,
      (plain _).symm ▸ lowest, (plain _).symm ▸ highest, ?_⟩
    · rw [latest, List.length_drop]
      omega
    · rw [unaggregated]
      refine List.mem_of_getLast? ?_
      rw [latest, List.getLast?_drop, if_neg (by omega)]
      exact own.isLast
    · rw [inValuedWindows, if_pos flat, windowTotal, List.sum_eq_zero]
      intro count member
      obtain ⟨reading, held, rfl⟩ := List.mem_map.mp member
      rw [own.fresh reading (within reading held)]
      rfl

end Branches

end Downsampling

/-- A series that is too long but within the retention window keeps its ends, its order, its
extremes and its counts exactly if it spreads in time. -/
theorem retained_keepsExtremes_iff (policy : RetentionPolicy) {asOf : Option Instant}
    {first last : SensorReading} {series : List SensorReading} (own : IsSeries first last series)
    (inside : ∀ reading ∈ series, policy.retains asOf reading)
    (longer : policy.maxReadings < series.length) :
    policy.KeepsExtremes first last series (policy.retained series asOf) ↔
      policy.Spreads first last series := by
  have all : series.filter (policy.retains asOf) = series := List.filter_eq_self.mpr inside
  rw [retained, all, if_neg (not_le.mpr longer), own.isFirst, own.isLast]
  dsimp only
  split_ifs with flat
  · exact latest_keepsExtremes_iff policy own longer flat
  · exact aggregated_keepsExtremes_iff policy own (not_le.mp flat)

section Identity

variable {policy : RetentionPolicy} {series : List SensorReading}

/-- Representatives of windows are readings of the series, but for their aggregates. -/
theorem exists_source {key : SensorReading → ℤ} {kept : SensorReading}
    (member : kept ∈ (groups key series).filterMap windowRepresentative) :
    ∃ reading ∈ series, kept.raw = reading.raw ∧
      (groupOf key series (key reading)).getLast? = some reading := by
  obtain ⟨reading, held, isLast, rfl⟩ := exists_representative member
  exact ⟨reading, held, rfl, isLast⟩

/-- Different windows have representatives of their own. -/
theorem nodup_representatives {key : SensorReading → ℤ}
    (distinct : (series.map (·.observationId)).Nodup) :
    (((groups key series).filterMap windowRepresentative).map (·.observationId)).Nodup := by
  rw [List.Nodup, List.pairwise_map]
  refine (pairwise_sources key series).imp fun {a b} sources same => ?_
  obtain ⟨x, xMember, y, yMember, rawA, rawB, less⟩ := sources
  have idA : a.observationId = x.observationId := congrArg (·.observationId) rawA
  have idB : b.observationId = y.observationId := congrArg (·.observationId) rawB
  have equal := List.inj_on_of_nodup_map distinct xMember yMember (idA ▸ idB ▸ same)
  exact less.ne (by rw [equal])

/-- Retained readings are readings of the series, but for the aggregates of windows. -/
theorem raw_mem_of_retained {asOf : Option Instant} {kept : SensorReading}
    (member : kept ∈ policy.retained series asOf) : ∃ reading ∈ series, kept.raw = reading.raw := by
  have source : ∃ reading ∈ series.filter (policy.retains asOf), kept.raw = reading.raw := by
    unfold retained at member
    dsimp only at member
    split_ifs at member with short
    · exact ⟨kept, member, rfl⟩
    · split at member
      · next first last isFirst isLast =>
        split_ifs at member with flat
        · exact ⟨kept, List.mem_of_mem_drop member, rfl⟩
        · have inWindows : kept = first ∨ kept ∈ (policy.windows first.observedTs
              (last.observedTs - first.observedTs) (series.filter (policy.retains asOf))).filterMap
                windowRepresentative := by
            unfold aggregated at member
            dsimp only at member
            split at member
            · split_ifs at member
              · exact List.mem_cons.mp member
              · exact .inr member
            · exact .inr member
          rcases inWindows with rfl | represents
          · exact ⟨kept, List.mem_of_head? isFirst, rfl⟩
          · obtain ⟨reading, held, same, -⟩ := exists_source represents
            exact ⟨reading, held, same⟩
      · exact ⟨kept, member, rfl⟩
  obtain ⟨reading, held, same⟩ := source
  exact ⟨reading, List.mem_of_mem_filter held, same⟩

/-- Retaining keeps ids distinct. -/
theorem nodup_retained {asOf : Option Instant}
    (sorted : series.Pairwise fun a b => a.observedTs ≤ b.observedTs)
    (distinct : (series.map (·.observationId)).Nodup) :
    ((policy.retained series asOf).map (·.observationId)).Nodup := by
  have within := distinct.sublist ((List.filter_sublist (p := policy.retains asOf)).map _)
  have ordered := sorted.sublist (List.filter_sublist (p := policy.retains asOf))
  unfold retained
  dsimp only
  generalize series.filter (policy.retains asOf) = kept at *
  split_ifs with short
  · exact within
  · split
    · next first last isFirst isLast =>
      split_ifs with flat
      · exact within.sublist ((List.drop_sublist _ _).map _)
      · obtain ⟨other, ends, shape⟩ := aggregated_eq policy ⟨ordered, isFirst, isLast⟩
          (not_le.mp flat)
        have representatives : (((policy.windows first.observedTs (last.observedTs -
            first.observedTs) kept).filterMap windowRepresentative).map (·.observationId)).Nodup :=
          nodup_representatives within
        rw [shape]
        split_ifs with differs
        · rw [List.map_cons, List.nodup_cons]
          refine ⟨fun listed => ?_, representatives⟩
          obtain ⟨representative, member, same⟩ := List.mem_map.mp listed
          obtain ⟨reading, held, raw, isEnd⟩ := exists_source member
          have ids : representative.raw.observationId = reading.raw.observationId :=
            congrArg SensorReading.observationId raw
          obtain rfl : reading = first := List.inj_on_of_nodup_map within held
            (List.mem_of_head? isFirst) (ids.symm.trans same)
          exact differs (congrArg SensorReading.observationId
            (Option.some.inj (ends.symm.trans isEnd)))
        · exact representatives
    · exact within

end Identity

/-- Readings with ids of their own spread if they span any time. -/
theorem spreads_of_nodup {policy : RetentionPolicy} {first last : SensorReading}
    {series : List SensorReading} (own : IsSeries first last series)
    (distinct : (series.map (·.observationId)).Nodup)
    (spans : 0 < last.observedTs - first.observedTs) : policy.Spreads first last series := by
  rw [Spreads, if_neg (not_le.mpr spans)]
  intro other ends same
  have member := (mem_groupOf.mp (List.mem_of_getLast? ends)).1
  exact List.inj_on_of_nodup_map distinct member own.first_mem same

/-- A reading of one sensor. -/
def temperature (number : ℕ) (seconds value : ℚ) : SensorReading where
  entityRef := "sensor-1"
  metric := "temperature"
  observationId := toString number
  value := some value
  observedAt := some seconds

/-- A spike between two readings, more than may be kept. -/
def spike : List SensorReading := [temperature 0 0 20, temperature 1 10 90, temperature 2 20 20]

theorem spike_isSeries : IsSeries (temperature 0 0 20) (temperature 2 20 20) spike where
  sorted := by
    simp only [spike, temperature, Reading.observedTs, List.pairwise_cons, Option.getD_some]
    norm_num
  isFirst := rfl
  isLast := rfl
  fresh := by simp [spike, temperature]

theorem spike_keepsExtremes :
    KeepsExtremes { maxReadings := 2 } (temperature 0 0 20) (temperature 2 20 20) spike
      (retained { maxReadings := 2 } spike none) := by
  refine (retained_keepsExtremes_iff _ spike_isSeries (fun _ _ => rfl) (by decide)).mpr ?_
  refine spreads_of_nodup spike_isSeries ?_ ?_
  · decide +kernel
  · norm_num [temperature, Reading.observedTs]

/-- A burst of readings with one timestamp, the first of them a spike. -/
def burst : List SensorReading :=
  temperature 0 0 90 :: (List.range 32).map fun number => temperature (number + 1) 0 20

theorem burst_isSeries : IsSeries (temperature 0 0 90) (temperature 32 0 20) burst where
  sorted := by
    have flat : ∀ reading ∈ burst, reading.observedTs = 0 := by
      simp [burst, temperature, Reading.observedTs]
    refine List.pairwise_of_forall_mem_list fun a first b second => ?_
    rw [flat a first, flat b second]
  isFirst := rfl
  isLast := rfl
  fresh := by simp [burst, temperature]

/-- The spike of a burst is lost. -/
theorem burst_loses_spike : IsSeries (temperature 0 0 90) (temperature 32 0 20) burst ∧
    burst.length = 33 ∧ ¬ KeepsExtremes {} (temperature 0 0 90) (temperature 32 0 20) burst
      (retained {} burst none) := by
  refine ⟨burst_isSeries, by simp [burst], fun keeps => ?_⟩
  have kept : (seen (·.high) (retained {} burst none)).max? = some 20 := by decide +kernel
  have given : (measured burst).max? = some 90 := by decide +kernel
  have same := keeps.highest
  rw [kept, given] at same
  exact absurd (Option.some.inj same) (by decide)

end RetentionPolicy

end FlOp.Snapshot
