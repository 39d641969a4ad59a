import FlOp.Snapshot.Assessment

/-! # Accounting of assessed observations

Every reading is cleaned, dropped or excluded with one finding, and every contract is charged with
what its own series are. A series of several contracts charges the contract of its first numeric
reading.
-/

namespace FlOp.Snapshot

open Canonical FlOp.Core Library
open FlOp.Mapping (QualitySeverity)

namespace AssessmentContext

variable (ctx : AssessmentContext)

/-- The readings of an id. -/
def occurrences (id : String) (readings : List SensorReading) : ℕ :=
  readings.countP fun reading => reading.observationId = id

/-- What retention and downsampling drop of a series. -/
def dropped (arrivals : Arrivals) : List SensorReading :=
  (ctx.trusted arrivals).filter fun reading =>
    reading.observationId ∉ (ctx.retained arrivals).map (·.observationId)

/-- What is excluded of a series. -/
def excluded (arrivals : Arrivals) : List SensorReading :=
  ctx.future arrivals ++ ctx.flaggedBad arrivals ++ ctx.outliers arrivals

/-- The finding is about the exclusion of a reading of this id. -/
def excludesReading (id : String) (finding : SeriesFinding) : Bool :=
  (finding.ruleId, finding.actionApplied) ∈
    [(ruleFutureTimestamp, "future-timestamp-excluded-" ++ id),
      (ruleSourceFlagged, "source-flagged-" ++ id), (ruleOutlier, "outlier-excluded-" ++ id)]

/-- The series of all observations. -/
def allSeries (observations : List SensorReading) : List (String × Arrivals) :=
  (sortedKeys seriesKey observations).map fun key =>
    ((ofLex key).2, groupOf seriesKey observations key)

/-- The numeric readings of a series that are assessed. -/
def assessedNumeric (arrivals : Arrivals) : List SensorReading :=
  ctx.excludedNumeric arrivals ++ ctx.numeric arrivals

/-- The numeric readings that are excluded or belong to a suspected fault. -/
def badNumeric (metric : String) (arrivals : Arrivals) : List SensorReading :=
  ctx.excludedNumeric arrivals ++ ctx.outliers arrivals ++
    if ctx.fault arrivals metric = "" then [] else ctx.kept arrivals

/-- The readings of a contract. -/
def ofContract (contract : String) (readings : List SensorReading) : ℕ :=
  readings.countP fun reading => contractOf reading = contract

/-- The assessed numeric readings of a contract. -/
def ownTotal (observations : List SensorReading) (contract : String) : ℕ :=
  ((allSeries observations).map fun series =>
    ofContract contract (ctx.assessedNumeric series.2)).sum

/-- The bad ones among them. -/
def ownBad (observations : List SensorReading) (contract : String) : ℕ :=
  ((allSeries observations).map fun series =>
    ofContract contract (ctx.badNumeric series.1 series.2)).sum

/-- Every reading has one place, and every contract the error rate of its own readings. -/
structure Accounted (observations : List SensorReading) : Prop where
  placed : ∀ reading ∈ observations,
    occurrences reading.observationId (assessObservations ctx observations).observations +
      (assessObservations ctx observations).findings.countP
        (excludesReading reading.observationId) +
      ((allSeries observations).map fun series =>
        occurrences reading.observationId (ctx.dropped series.2)).sum = 1
  rated : ∀ contract, (assessObservations ctx observations).errorRates.get? contract =
    if ctx.ownTotal observations contract = 0 then none
    else some ((ctx.ownBad observations contract : ℚ) / ctx.ownTotal observations contract)
  bounded : ∀ contract rate,
    (assessObservations ctx observations).errorRates.get? contract = some rate →
      0 ≤ rate ∧ rate ≤ 1

/-- The numeric readings of a series. -/
def numericOf (series : String × Arrivals) : List SensorReading := ctx.numeric series.2

/-- The bad ones among the numeric readings of a series. -/
def badOf (series : String × Arrivals) : List SensorReading :=
  ctx.outliers series.2 ++ if ctx.fault series.2 series.1 = "" then [] else ctx.kept series.2

/-- Readings of other contracts, in series that are credited to a contract. -/
def strangers (part : String × Arrivals → List SensorReading) (observations : List SensorReading)
    (contract : String) : ℕ :=
  ((allSeries observations).map fun series =>
    if ctx.credited series.2 = some contract then
      (part series).countP fun reading => contractOf reading ≠ contract
    else 0).sum

/-- Readings of a contract, in series that are credited to others. -/
def absent (part : String × Arrivals → List SensorReading) (observations : List SensorReading)
    (contract : String) : ℕ :=
  ((allSeries observations).map fun series =>
    if ctx.credited series.2 = some contract then 0 else ofContract contract (part series)).sum

/-- The readings that mixed series credit to a contract and away from it leave it with some, and
the bad ones among them make up the error rate of its own readings. -/
def Balanced (observations : List SensorReading) (contract : String) : Prop :=
  ctx.ownTotal observations contract = 0 ∨
    ctx.absent ctx.numericOf observations contract <
      ctx.ownTotal observations contract + ctx.strangers ctx.numericOf observations contract ∧
    ((ctx.strangers ctx.badOf observations contract : ℚ) -
        ctx.absent ctx.badOf observations contract) * ctx.ownTotal observations contract =
      ctx.ownBad observations contract * (ctx.strangers ctx.numericOf observations contract -
        ctx.absent ctx.numericOf observations contract)

section Counting

variable {ctx}

theorem getD_countOwn (counts : Dict String ℕ) (readings : List SensorReading)
    (contract : String) :
    (countOwn counts readings).getD contract 0 =
      counts.getD contract 0 + ofContract contract readings := by
  rw [countOwn, Dict.getD_foldl_bump, Nat.one_mul, List.count, List.countP_map, ofContract]
  rfl

theorem getD_countSeries (counts : Dict String ℕ) (credited : Option String) (n : ℕ)
    (contract : String) :
    (countSeries counts credited n).getD contract 0 =
      counts.getD contract 0 + if credited = some contract then n else 0 := by
  cases credited with
  | none => simp [countSeries]
  | some own =>
    rw [countSeries, Dict.getD_bump]
    simp only [Option.some.injEq, eq_comm]

/-- What the loop has gathered after some series. -/
structure Gathered (start final : State) (series : List (String × Arrivals)) : Prop where
  observations : final.observations =
    start.observations ++ series.flatMap fun own => ctx.cleaned own.2 own.1
  findings : final.findings = start.findings ++ series.flatMap fun own => ctx.findings own.2 own.1
  totals : ∀ contract, final.totals.getD contract 0 = start.totals.getD contract 0 +
    (series.map fun own => ofContract contract (ctx.excludedNumeric own.2) +
      if ctx.credited own.2 = some contract then (ctx.numeric own.2).length else 0).sum
  bad : ∀ contract, final.bad.getD contract 0 = start.bad.getD contract 0 +
    (series.map fun own => ofContract contract (ctx.excludedNumeric own.2) +
      if ctx.credited own.2 = some contract then ctx.badCount own.2 own.1 else 0).sum

theorem gathered_step (entityRef metric : String) (arrivals : Arrivals) (state : State) :
    ctx.Gathered state (ctx.assessSeries arrivals entityRef metric state) [(metric, arrivals)] where
  observations := by rw [List.flatMap_singleton]; rfl
  findings := by rw [List.flatMap_singleton]; rfl
  totals contract := by
    rw [assessSeries, getD_countSeries, getD_countOwn, List.map_singleton, List.sum_singleton,
      Nat.add_assoc]
  bad contract := by
    rw [assessSeries, getD_countSeries, getD_countOwn, List.map_singleton, List.sum_singleton,
      Nat.add_assoc]

theorem Gathered.trans {start middle final : State} {first second : List (String × Arrivals)}
    (one : ctx.Gathered start middle first) (two : ctx.Gathered middle final second) :
    ctx.Gathered start final (first ++ second) where
  observations := by
    rw [two.observations, one.observations, List.flatMap_append, List.append_assoc]
  findings := by rw [two.findings, one.findings, List.flatMap_append, List.append_assoc]
  totals contract := by
    rw [two.totals, one.totals, List.map_append, List.sum_append, Nat.add_assoc]
  bad contract := by rw [two.bad, one.bad, List.map_append, List.sum_append, Nat.add_assoc]

variable (ctx)

/-- The loop gathers every series. -/
theorem gathered_assess (observations : List SensorReading) :
    ctx.Gathered {} (ctx.assess observations) (allSeries observations) := by
  rw [assess, allSeries]
  generalize ({} : State) = start
  induction sortedKeys seriesKey observations generalizing start with
  | nil => exact ⟨by simp, by simp, by simp, by simp⟩
  | cons key rest ih => exact (gathered_step _ _ _ _).trans (ih _)

/-- A contract has a rate exactly if readings are credited to it. -/
theorem get?_errorRates (state : State) (contract : String) :
    (errorRates state).get? contract = if state.totals.getD contract 0 = 0 then none
      else some ((state.bad.getD contract 0 : ℚ) / state.totals.getD contract 0) := by
  have nodup : ((state.totals.sortKeys.entries.filter fun count => 0 < count.2).map
      Prod.fst).Nodup :=
    state.totals.sortKeys.nodupKeys.sublist (List.filter_sublist.map _)
  have counted : ∀ count : String × ℕ,
      count ∈ (state.totals.sortKeys.entries.filter fun count => 0 < count.2) ↔
        state.totals.get? count.1 = some count.2 ∧ 0 < count.2 := by
    intro count
    rw [List.mem_filter, ← Dict.get?_sortKeys state.totals count.1, Dict.get?_eq_some_iff,
      decide_eq_true_iff]
  rw [errorRates]
  split_ifs with zero
  · rw [← Option.not_isSome_iff_eq_none, Dict.isSome_get?_collect]
    rintro ⟨count, member, rfl⟩
    obtain ⟨found, positive⟩ := (counted count).mp member
    rw [Dict.getD, found, Option.getD_some] at zero
    omega
  · have found : state.totals.get? contract = some (state.totals.getD contract 0) := by
      rw [Dict.getD] at zero ⊢
      cases held : state.totals.get? contract with
      | none => simp [held] at zero
      | some n => rfl
    have member := (counted (contract, state.totals.getD contract 0)).mpr
      ⟨found, Nat.pos_of_ne_zero zero⟩
    rw [Dict.get?_collect_of_mem nodup member]

/-- The numeric readings are kept or outliers. -/
theorem countP_numeric (arrivals : Arrivals) (p : SensorReading → Bool) :
    (ctx.numeric arrivals).countP p =
      (ctx.kept arrivals).countP p + (ctx.outliers arrivals).countP p := by
  have valued : (measured (ctx.numeric arrivals)).length = (ctx.numeric arrivals).length := by
    rw [measured, List.length_filterMap_eq_countP, List.countP_eq_length]
    intro reading member
    have some := (List.mem_filter.mp member).2
    rw [Option.isSome_iff_ne_none]
    exact of_decide_eq_true some
  have firsts : (ctx.judged arrivals).map Prod.fst = ctx.numeric arrivals := by
    rw [judged]
    exact List.map_fst_zip (by rw [AssessmentSettings.length_outlierFlags, valued])
  rw [← firsts, List.countP_map, kept, outliers, List.countP_map, List.countP_map,
    List.countP_eq_countP_filter_add (ctx.judged arrivals) (p ∘ Prod.fst) fun pair => pair.2,
    Nat.add_comm]

theorem length_numeric (arrivals : Arrivals) : (ctx.numeric arrivals).length =
    (ctx.kept arrivals).length + (ctx.outliers arrivals).length := by
  have all := countP_numeric ctx arrivals fun _ => true
  simpa only [List.countP_true] using all

theorem length_badOf (series : String × Arrivals) :
    (ctx.badOf series).length = ctx.badCount series.2 series.1 := by
  rw [badOf, badCount, List.length_append]
  split_ifs <;> rfl

theorem badNumeric_eq (series : String × Arrivals) :
    ctx.badNumeric series.1 series.2 = ctx.excludedNumeric series.2 ++ ctx.badOf series := by
  rw [badNumeric, badOf, List.append_assoc]

/-- What is counted for a contract is its own, with the strangers and without the absent. -/
theorem sum_credited (part : String × Arrivals → List SensorReading)
    (observations : List SensorReading) (contract : String) :
    ((allSeries observations).map fun series =>
      ofContract contract (ctx.excludedNumeric series.2) +
        if ctx.credited series.2 = some contract then (part series).length else 0).sum +
      ctx.absent part observations contract =
    ((allSeries observations).map fun series =>
      ofContract contract (ctx.excludedNumeric series.2 ++ part series)).sum +
      ctx.strangers part observations contract := by
  rw [absent, strangers, ← List.sum_map_add, ← List.sum_map_add]
  refine congrArg List.sum (List.map_congr_left fun series _ => ?_)
  have split := List.length_eq_countP_add_countP (l := part series)
    fun reading => decide (contractOf reading = contract)
  rw [ofContract, ofContract, ofContract, List.countP_append]
  simp only [Bool.not_eq_true, decide_eq_false_iff_not] at split
  split_ifs
  · simp only [ne_eq]
    omega
  · omega

variable {ctx} in
/-- A series is credited to a contract that has one of its numeric readings. -/
theorem ofContract_pos_of_credited {arrivals : Arrivals} {contract : String}
    (credited : ctx.credited arrivals = some contract) :
    0 < ofContract contract (ctx.numeric arrivals) := by
  obtain ⟨reading, isFirst, same⟩ := Option.map_eq_some_iff.mp credited
  exact List.countP_pos_iff.mpr ⟨reading, List.mem_of_head? isFirst, decide_eq_true same⟩

/-- The bad readings counted for a contract are no more than all of them. -/
theorem bad_le_totals (observations : List SensorReading) (contract : String) :
    (ctx.assess observations).bad.getD contract 0 ≤
      (ctx.assess observations).totals.getD contract 0 := by
  have gathered := gathered_assess ctx observations
  rw [gathered.bad, gathered.totals]
  refine Nat.add_le_add_left (List.sum_le_sum fun series _ => Nat.add_le_add_left ?_ _) _
  have numbers := length_numeric ctx series.2
  rw [badCount]
  split_ifs <;> omega

/-- The totals of a contract, by its own readings. -/
theorem totals_add_absent (observations : List SensorReading) (contract : String) :
    (ctx.assess observations).totals.getD contract 0 +
        ctx.absent ctx.numericOf observations contract =
      ctx.ownTotal observations contract + ctx.strangers ctx.numericOf observations contract := by
  have gathered := gathered_assess ctx observations
  have sums := sum_credited ctx ctx.numericOf observations contract
  have nothing : ({} : State).totals.getD contract 0 = 0 := rfl
  rw [gathered.totals, nothing, Nat.zero_add]
  exact sums

theorem bad_add_absent (observations : List SensorReading) (contract : String) :
    (ctx.assess observations).bad.getD contract 0 + ctx.absent ctx.badOf observations contract =
      ctx.ownBad observations contract + ctx.strangers ctx.badOf observations contract := by
  have gathered := gathered_assess ctx observations
  have sums := sum_credited ctx ctx.badOf observations contract
  have nothing : ({} : State).bad.getD contract 0 = 0 := rfl
  simp only [length_badOf] at sums
  rw [gathered.bad, nothing, Nat.zero_add, ownBad]
  simp only [badNumeric_eq]
  exact sums

variable {ctx} in
/-- A contract without readings of its own is credited with none. -/
theorem totals_eq_zero {observations : List SensorReading} {contract : String}
    (none : ctx.ownTotal observations contract = 0) :
    (ctx.assess observations).totals.getD contract 0 = 0 := by
  have strangers : ctx.strangers ctx.numericOf observations contract = 0 := by
    refine List.sum_eq_zero fun count member => ?_
    obtain ⟨series, listed, rfl⟩ := List.mem_map.mp member
    refine if_neg fun credited => ?_
    have some := ofContract_pos_of_credited credited
    have own : ofContract contract (ctx.assessedNumeric series.2) = 0 :=
      List.sum_eq_zero_iff.mp none _ (List.mem_map_of_mem listed)
    rw [assessedNumeric, ofContract, List.countP_append, ← ofContract, ← ofContract] at own
    omega
  have same := totals_add_absent ctx observations contract
  omega

/-- The reported rate of a contract is that of its own readings exactly if what mixed series
credit is balanced. -/
theorem rated_iff (observations : List SensorReading) (contract : String) :
    (assessObservations ctx observations).errorRates.get? contract =
      (if ctx.ownTotal observations contract = 0 then none
        else some ((ctx.ownBad observations contract : ℚ) / ctx.ownTotal observations contract)) ↔
      ctx.Balanced observations contract := by
  rw [assessObservations, get?_errorRates, Balanced]
  have totals := totals_add_absent ctx observations contract
  have bad := bad_add_absent ctx observations contract
  by_cases none : ctx.ownTotal observations contract = 0
  · rw [if_pos none, if_pos (totals_eq_zero none)]
    exact iff_of_true rfl (.inl none)
  · rw [if_neg none, or_iff_right none]
    generalize (ctx.assess observations).totals.getD contract 0 = total at *
    generalize (ctx.assess observations).bad.getD contract 0 = wrong at *
    split_ifs with zero
    · exact iff_of_false (by simp) fun balanced => by omega
    · have positive : (0 : ℚ) < ctx.ownTotal observations contract := by
        exact_mod_cast Nat.pos_of_ne_zero none
      have credited : (0 : ℚ) < total := by exact_mod_cast Nat.pos_of_ne_zero zero
      have totalIs : (total : ℚ) = ctx.ownTotal observations contract +
          ctx.strangers ctx.numericOf observations contract -
            ctx.absent ctx.numericOf observations contract := by
        rw [eq_sub_iff_add_eq]
        exact_mod_cast totals
      have wrongIs : (wrong : ℚ) = ctx.ownBad observations contract +
          ctx.strangers ctx.badOf observations contract -
            ctx.absent ctx.badOf observations contract := by
        rw [eq_sub_iff_add_eq]
        exact_mod_cast bad
      have some : ctx.absent ctx.numericOf observations contract <
          ctx.ownTotal observations contract +
            ctx.strangers ctx.numericOf observations contract := by
        omega
      rw [Option.some.injEq, div_eq_div_iff credited.ne' positive.ne', and_iff_right some, totalIs,
        wrongIs]
      constructor
      · intro same
        linarith
      · intro same
        linarith

end Counting

section Placing

variable {ctx} {arrivals : Arrivals} (id : String)

theorem occurrences_append (readings others : List SensorReading) :
    occurrences id (readings ++ others) = occurrences id readings + occurrences id others :=
  List.countP_append

/-- A test splits the readings of an id. -/
theorem occurrences_filter_add (readings : List SensorReading) (p : SensorReading → Bool) :
    occurrences id (readings.filter p) + occurrences id (readings.filter fun r => !p r) =
      occurrences id readings :=
  (List.countP_eq_countP_filter_add readings _ p).symm

theorem occurrences_withConfidence (confidence : SensorReading → ℚ) (readings : List SensorReading) :
    occurrences id (readings.map fun reading => withConfidence (confidence reading) reading) =
      occurrences id readings := by
  rw [occurrences, List.countP_map]
  rfl

theorem occurrences_eq_one {readings : List SensorReading}
    (distinct : (readings.map (·.observationId)).Nodup)
    (listed : id ∈ readings.map (·.observationId)) : occurrences id readings = 1 := by
  have once := List.count_eq_one_of_mem distinct listed
  rw [List.count, List.countP_map] at once
  rw [occurrences, ← once]
  refine List.countP_congr fun reading _ => ?_
  simp

theorem occurrences_eq_zero {readings : List SensorReading}
    (absent : id ∉ readings.map (·.observationId)) : occurrences id readings = 0 := by
  refine List.countP_eq_zero.mpr fun reading member same => absent ?_
  exact List.mem_map.mpr ⟨reading, member, of_decide_eq_true same⟩

/-- The history is the series in another order. -/
theorem perm_history : (history arrivals).Perm arrivals := perm_sortBy _ _

/-- What is trusted is sorted, with ids of its own. -/
theorem trusted_sorted : (ctx.trusted arrivals).Pairwise fun a b => a.observedTs ≤ b.observedTs :=
  (pairwise_sortBy _ _).sublist List.filter_sublist

theorem trusted_distinct (distinct : (arrivals.map (·.observationId)).Nodup) :
    ((ctx.trusted arrivals).map (·.observationId)).Nodup :=
  ((perm_history.map _).nodup_iff.mpr distinct).sublist (List.filter_sublist.map _)

/-- Trusted readings are retained or dropped. -/
theorem occurrences_retained_add (distinct : (arrivals.map (·.observationId)).Nodup) :
    occurrences id (ctx.retained arrivals) + occurrences id (ctx.dropped arrivals) =
      occurrences id (ctx.trusted arrivals) := by
  have trusted : ((ctx.trusted arrivals).map (·.observationId)).Nodup := trusted_distinct distinct
  have retained : ((ctx.retained arrivals).map (·.observationId)).Nodup :=
    RetentionPolicy.nodup_retained trusted_sorted trusted
  by_cases listed : id ∈ (ctx.retained arrivals).map (·.observationId)
  · have none : occurrences id (ctx.dropped arrivals) = 0 := by
      refine List.countP_eq_zero.mpr fun reading member same => ?_
      have absent := of_decide_eq_true (List.mem_filter.mp member).2
      rw [of_decide_eq_true same] at absent
      exact absent listed
    have inTrusted : id ∈ (ctx.trusted arrivals).map (·.observationId) := by
      obtain ⟨reading, member, rfl⟩ := List.mem_map.mp listed
      obtain ⟨source, held, same⟩ := RetentionPolicy.raw_mem_of_retained member
      have ids : source.raw.observationId = reading.raw.observationId := by rw [same]
      exact List.mem_map.mpr ⟨source, held, ids⟩
    rw [none, occurrences_eq_one id retained listed, occurrences_eq_one id trusted inTrusted]
  · have all : occurrences id (ctx.dropped arrivals) = occurrences id (ctx.trusted arrivals) := by
      rw [occurrences, dropped, List.countP_filter]
      refine List.countP_congr fun reading _ => ?_
      simp only [Bool.and_eq_true, decide_eq_true_iff]
      exact ⟨fun both => both.1, fun same => ⟨same, same ▸ listed⟩⟩
    rw [occurrences_eq_zero id listed, all, Nat.zero_add]

/-- Every reading of a series is cleaned, excluded or dropped. -/
theorem occurrences_series (metric : String) (distinct : (arrivals.map (·.observationId)).Nodup) :
    occurrences id (ctx.cleaned arrivals metric) + occurrences id (ctx.excluded arrivals) +
      occurrences id (ctx.dropped arrivals) = occurrences id arrivals := by
  have unflagged : ctx.unflagged arrivals =
      (ctx.retained arrivals).filter fun reading => !decide (flagFactor reading ≤ 0) :=
    List.filter_congr fun reading _ => by simp [← not_lt]
  have numbers : ctx.numeric arrivals =
      (ctx.unflagged arrivals).filter fun reading => !decide (reading.value = none) :=
    List.filter_congr fun reading _ => by simp
  have byTime : occurrences id (history arrivals) = occurrences id arrivals :=
    perm_history.countP_eq _
  have ahead : occurrences id (ctx.future arrivals) + occurrences id (ctx.trusted arrivals) =
      occurrences id (history arrivals) :=
    occurrences_filter_add id (history arrivals) _
  have bounded : occurrences id (ctx.retained arrivals) + occurrences id (ctx.dropped arrivals) =
      occurrences id (ctx.trusted arrivals) :=
    occurrences_retained_add id distinct
  have flagged : occurrences id (ctx.flaggedBad arrivals) + occurrences id (ctx.unflagged arrivals) =
      occurrences id (ctx.retained arrivals) := by
    rw [unflagged]
    exact occurrences_filter_add id (ctx.retained arrivals) _
  have typed : occurrences id (ctx.categorical arrivals) + occurrences id (ctx.numeric arrivals) =
      occurrences id (ctx.unflagged arrivals) := by
    rw [numbers]
    exact occurrences_filter_add id (ctx.unflagged arrivals) _
  have judged : occurrences id (ctx.numeric arrivals) =
      occurrences id (ctx.kept arrivals) + occurrences id (ctx.outliers arrivals) :=
    countP_numeric ctx arrivals _
  rw [cleaned, occurrences_append, occurrences_withConfidence id flagFactor,
    occurrences_withConfidence id fun reading => min (ctx.confidence arrivals metric)
      (flagFactor reading), excluded, occurrences_append, occurrences_append]
  omega

/-- Findings about a whole series exclude no reading. -/
theorem countP_seriesFindings {ruleId : String}
    (other : ruleId ∉ [ruleFutureTimestamp, ruleSourceFlagged, ruleOutlier])
    (severity : QualitySeverity) (series : List SensorReading) (action detail : String) :
    (ctx.seriesFindings ruleId severity series action detail).countP (excludesReading id) = 0 := by
  refine List.countP_eq_zero.mpr fun finding member excludes => other ?_
  have rule : finding.ruleId = ruleId := by
    unfold seriesFindings at member
    split_ifs at member
    · cases member
    · obtain ⟨reading, -, rfl⟩ := Option.map_eq_some_iff.mp (Option.mem_toList.mp member)
      rfl
  have listed := of_decide_eq_true excludes
  simp only [List.mem_cons, List.not_mem_nil, or_false, Prod.mk.injEq] at listed ⊢
  rw [← rule]
  exact listed.imp And.left (Or.imp And.left And.left)

/-- The findings that exclude readings name them. -/
theorem countP_exclusions {ruleId : String} {severity : QualitySeverity} {head : String}
    {detail : SensorReading → String} {detectedAt : Instant}
    (names : ∀ reading : SensorReading, excludesReading id (seriesFinding ruleId severity reading
      (head ++ reading.observationId) (detail reading) detectedAt) ↔ reading.observationId = id)
    (readings : List SensorReading) :
    (readings.map fun reading => seriesFinding ruleId severity reading
      (head ++ reading.observationId) (detail reading) detectedAt).countP (excludesReading id) =
      occurrences id readings := by
  rw [List.countP_map, occurrences]
  refine List.countP_congr fun reading _ => ?_
  rw [Function.comp_apply, names, decide_eq_true_iff]

/-- The exclusion findings of a series are those of its excluded readings. -/
theorem countP_findings (metric : String) :
    (ctx.findings arrivals metric).countP (excludesReading id) =
      occurrences id (ctx.excluded arrivals) := by
  have series : ∀ ruleId ∈ [ruleTimestampRegression, ruleSensorFault, ruleDrift],
      ruleId ∉ [ruleFutureTimestamp, ruleSourceFlagged, ruleOutlier] := by
    decide
  have regression : ∀ severity own action detail,
      (ctx.seriesFindings ruleTimestampRegression severity own action detail).countP
        (excludesReading id) = 0 :=
    countP_seriesFindings id (series _ (by simp))
  have fault : ∀ severity own action detail,
      (ctx.seriesFindings ruleSensorFault severity own action detail).countP
        (excludesReading id) = 0 :=
    countP_seriesFindings id (series _ (by simp))
  have drift : ∀ severity own action detail,
      (ctx.seriesFindings ruleDrift severity own action detail).countP (excludesReading id) = 0 :=
    countP_seriesFindings id (series _ (by simp))
  rw [findings, exclusionFindings, excluded]
  simp only [List.countP_append, occurrences_append, regression, fault, drift]
  rw [countP_exclusions id, countP_exclusions id, countP_exclusions id]
  · omega
  · intro reading
    simp [excludesReading, seriesFinding, ruleOutlier, ruleFutureTimestamp, ruleSourceFlagged,
      String.append_right_inj]
  · intro reading
    simp [excludesReading, seriesFinding, ruleOutlier, ruleFutureTimestamp, ruleSourceFlagged,
      String.append_right_inj]
  · intro reading
    simp [excludesReading, seriesFinding, ruleOutlier, ruleFutureTimestamp, ruleSourceFlagged,
      String.append_right_inj]

/-- The series hold every observation once. -/
theorem perm_allSeries (observations : List SensorReading) :
    ((allSeries observations).flatMap Prod.snd).Perm observations := by
  have series : (allSeries observations).flatMap Prod.snd =
      (groups seriesKey observations).flatten := by
    rw [groups_eq, allSeries, List.flatMap_map, List.flatMap_def]
  rw [series]
  exact perm_flatten_groups

theorem distinct_series {observations : List SensorReading} {series : String × Arrivals}
    (distinct : (observations.map (·.observationId)).Nodup)
    (listed : series ∈ allSeries observations) : (series.2.map (·.observationId)).Nodup := by
  obtain ⟨key, -, rfl⟩ := List.mem_map.mp listed
  exact distinct.sublist (List.filter_sublist.map _)

/-- Every id is cleaned, excluded or dropped as often as it is observed. -/
theorem occurrences_assess (observations : List SensorReading)
    (distinct : (observations.map (·.observationId)).Nodup) :
    occurrences id (assessObservations ctx observations).observations +
      (assessObservations ctx observations).findings.countP (excludesReading id) +
      ((allSeries observations).map fun series => occurrences id (ctx.dropped series.2)).sum =
      occurrences id observations := by
  have gathered := gathered_assess ctx observations
  have cleaned : occurrences id (assessObservations ctx observations).observations =
      ((allSeries observations).map fun series =>
        occurrences id (ctx.cleaned series.2 series.1)).sum := by
    rw [assessObservations, gathered.observations, List.nil_append, occurrences,
      List.countP_flatMap]
    rfl
  have excluded : (assessObservations ctx observations).findings.countP (excludesReading id) =
      ((allSeries observations).map fun series => occurrences id (ctx.excluded series.2)).sum := by
    rw [assessObservations, gathered.findings, List.nil_append, List.countP_flatMap]
    exact congrArg List.sum (List.map_congr_left fun series _ => countP_findings id series.1)
  have all : occurrences id observations =
      ((allSeries observations).map fun series => occurrences id series.2).sum := by
    rw [occurrences, ← (perm_allSeries observations).countP_eq, List.countP_flatMap]
    rfl
  rw [cleaned, excluded, all, ← List.sum_map_add, ← List.sum_map_add]
  refine congrArg List.sum (List.map_congr_left fun series listed => ?_)
  exact occurrences_series id series.1 (distinct_series distinct listed)

end Placing

section Accounting

variable (observations : List SensorReading)

/-- A reported rate is a share. -/
theorem rate_bounds (contract : String) (rate : ℚ)
    (reported : (assessObservations ctx observations).errorRates.get? contract = some rate) :
    0 ≤ rate ∧ rate ≤ 1 := by
  rw [assessObservations, get?_errorRates] at reported
  split_ifs at reported with zero
  obtain rfl := Option.some.inj reported
  have below : ((ctx.assess observations).bad.getD contract 0 : ℚ) ≤
      (ctx.assess observations).totals.getD contract 0 := by
    exact_mod_cast bad_le_totals ctx observations contract
  exact ⟨div_nonneg (Nat.cast_nonneg _) (Nat.cast_nonneg _),
    div_le_one_of_le₀ below (Nat.cast_nonneg _)⟩

/-- The readings are accounted for exactly if what mixed series credit is balanced. -/
theorem accounted_iff (distinct : (observations.map (·.observationId)).Nodup) :
    ctx.Accounted observations ↔ ∀ contract, ctx.Balanced observations contract := by
  constructor
  · intro accounted contract
    exact (rated_iff ctx observations contract).mp (accounted.rated contract)
  · intro balanced
    refine ⟨fun reading member => ?_, fun contract => ?_, rate_bounds ctx observations⟩
    · rw [occurrences_assess reading.observationId observations distinct]
      exact occurrences_eq_one _ distinct (List.mem_map_of_mem member)
    · exact (rated_iff ctx observations contract).mpr (balanced contract)

variable {ctx observations}

/-- Series of one contract each are balanced. -/
theorem balanced_of_unmixed {contract : String}
    (unmixed : ∀ series ∈ allSeries observations, ∀ reading ∈ ctx.numeric series.2,
      ctx.credited series.2 = some (contractOf reading)) :
    ctx.Balanced observations contract := by
  have none : ∀ part : String × Arrivals → List SensorReading,
      (∀ series p, (part series).countP p ≤ (ctx.numeric series.2).countP p) →
        ctx.strangers part observations contract = 0 ∧
          ctx.absent part observations contract = 0 := by
    intro part fewer
    constructor
    · refine List.sum_eq_zero fun count member => ?_
      obtain ⟨series, listed, rfl⟩ := List.mem_map.mp member
      refine ite_eq_right_iff.mpr fun credited => Nat.eq_zero_of_le_zero ?_
      refine (fewer series _).trans (List.countP_eq_zero.mpr fun reading held => ?_).le
      have own := unmixed series listed reading held
      rw [credited, Option.some.injEq] at own
      simp [own]
    · refine List.sum_eq_zero fun count member => ?_
      obtain ⟨series, listed, rfl⟩ := List.mem_map.mp member
      refine ite_eq_left_iff.mpr fun other => Nat.eq_zero_of_le_zero ?_
      refine (fewer series _).trans (List.countP_eq_zero.mpr fun reading held same => ?_).le
      have own := unmixed series listed reading held
      exact other (of_decide_eq_true same ▸ own)
  have badNumbers : ∀ series p, (ctx.badOf series).countP p ≤
      (ctx.numeric series.2).countP p := by
    intro series p
    rw [badOf, List.countP_append, countP_numeric]
    split_ifs
    · rw [List.countP_nil]
      omega
    · omega
  obtain ⟨strangers, absent⟩ := none ctx.numericOf fun _ _ => le_rfl
  obtain ⟨badStrangers, badAbsent⟩ := none ctx.badOf badNumbers
  rw [Balanced, strangers, absent, badStrangers, badAbsent]
  rcases Nat.eq_zero_or_pos (ctx.ownTotal observations contract) with zero | positive
  · exact .inl zero
  · refine .inr ⟨positive, ?_⟩
    simp

end Accounting

/-- Assessing without texts. -/
def plain : AssessmentContext where
  texts := { time := fun _ => "", value := fun _ => "" }
  detectedAt := 0

/-- Readings of one sensor, each from a contract. -/
def measuredBy (readings : List (String × ℚ)) : List SensorReading :=
  readings.zipIdx.map fun reading =>
    { RetentionPolicy.temperature reading.2 reading.2 reading.1.2 with
      sourceRef := reading.1.1 ++ ":sensor-1" }

/-- Five readings of one contract. -/
def steady : List SensorReading :=
  measuredBy [("stations", 20), ("stations", 21), ("stations", 22), ("stations", 21),
    ("stations", 90)]

theorem steady_accounted : plain.Accounted steady := by
  refine (accounted_iff plain steady (by decide +kernel)).mpr fun contract => ?_
  refine balanced_of_unmixed fun series listed => ?_
  have own : ∀ series ∈ allSeries steady, plain.credited series.2 = some "stations" ∧
      (plain.numeric series.2).map contractOf = List.replicate 5 "stations" := by
    decide +kernel
  obtain ⟨credited, contracts⟩ := own series listed
  intro reading member
  have same : contractOf reading ∈ List.replicate 5 "stations" :=
    contracts ▸ List.mem_map_of_mem member
  rw [credited, List.eq_of_mem_replicate same]

/-- Five readings of one contract and an outlier of another. -/
def mixed : List SensorReading :=
  measuredBy [("stations", 20), ("stations", 21), ("stations", 22), ("stations", 21),
    ("stations", 20), ("drones", 90)]

/-- The contract of the first reading of a series is charged with the outlier of another. -/
theorem mixed_charges_first : (mixed.map (·.observationId)).Nodup ∧
    plain.ownBad mixed "stations" = 0 ∧ plain.ownTotal mixed "stations" = 5 ∧
    (assessObservations plain mixed).errorRates.get? "stations" = some (1 / 6) ∧
    ¬ plain.Accounted mixed := by
  have distinct : (mixed.map (·.observationId)).Nodup := by decide +kernel
  have bad : plain.ownBad mixed "stations" = 0 := by decide +kernel
  have total : plain.ownTotal mixed "stations" = 5 := by decide +kernel
  have rate : (assessObservations plain mixed).errorRates.get? "stations" = some (1 / 6) := by
    decide +kernel
  refine ⟨distinct, bad, total, rate, fun accounted => ?_⟩
  have own := accounted.rated "stations"
  rw [rate, bad, total, if_neg (by decide)] at own
  norm_num at own

end AssessmentContext

end FlOp.Snapshot
