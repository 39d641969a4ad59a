import FlOp.Library.Ordering
import Mathlib

/-! # Prices by their validity

A resource has a price list whose rows may begin and end to apply. The rate that began last is
taken, found in one pass that keeps the best row so far. A row without a beginning is ranked at the
first moment a datetime can have, in the zone of the moment asked for.
-/

namespace FlOp.Solver

open Library

/-- Microseconds since the first moment of year one, and how far the zone's local time is ahead of
universal time; a time without a zone is naive. -/
structure Datetime where
  clock : ℕ
  tzinfo : Option (ℕ → ℤ)

namespace Datetime

def aware (time : Datetime) : Bool := time.tzinfo.isSome

/-- A point in time: of universal time, or of local time when there is no zone. -/
def instant (time : Datetime) : ℤ := time.clock - time.tzinfo.elim 0 (· time.clock)

/-- `datetime.min.replace(tzinfo=...)`. -/
def minIn (tzinfo : Option (ℕ → ℤ)) : Datetime := ⟨0, tzinfo⟩

end Datetime

inductive DatetimeError where
  /-- `can't compare offset-naive and offset-aware datetimes`. -/
  | cantCompare
deriving DecidableEq, Repr

/-- `<` on datetimes. -/
def Datetime.less (a b : Datetime) : Except DatetimeError Bool :=
  if a.aware = b.aware then .ok (a.instant < b.instant) else .error .cantCompare

/-- What pricing reads of a cost rate. -/
structure CostRateRow where
  rateType : String
  unitPrice : ℚ
  validFrom : Option String := none
  validTo : Option String := none
deriving DecidableEq, Repr

section Resolve

variable (fromIsoformat : String → Option Datetime)

/-- `_parse_ts`: an absent, empty or malformed text is no time. -/
def parseTs : Option String → Option Datetime
  | none => none
  | some raw => if raw = "" then none else fromIsoformat raw

variable (rateType : String) (moment : Datetime)

/-- `at < valid_from`, for a rate that has a beginning. -/
def startsLater : Option Datetime → Except DatetimeError Bool
  | none => .ok false
  | some validFrom => moment.less validFrom

/-- `at >= valid_to`, for a rate that has an end. -/
def hasEnded : Option Datetime → Except DatetimeError Bool
  | none => .ok false
  | some validTo => do return !(← moment.less validTo)

/-- One pass of the loop: the best price so far and when its rate began. -/
def considerRate (best : Option (ℚ × Option Datetime)) (rate : CostRateRow) :
    Except DatetimeError (Option (ℚ × Option Datetime)) :=
  if rate.rateType ≠ rateType then .ok best
  else do
    let validFrom := parseTs fromIsoformat rate.validFrom
    let validTo := parseTs fromIsoformat rate.validTo
    if ← startsLater moment validFrom then return best
    else if ← hasEnded moment validTo then return best
    else match best with
      | none => return some (rate.unitPrice, validFrom)
      | some (_, bestFrom) =>
        if ← (validFrom.getD (.minIn moment.tzinfo)).less (bestFrom.getD (.minIn moment.tzinfo))
        then return best
        else return some (rate.unitPrice, validFrom)

/-- Effective unit price of one resource at a point in time. -/
def resolveUnitPrice (costRates : List CostRateRow) (default : ℚ) : Except DatetimeError ℚ := do
  let best ← costRates.foldlM (considerRate fromIsoformat rateType moment) none
  return best.elim default Prod.fst

end Resolve

namespace CostRateRow

variable (fromIsoformat : String → Option Datetime) (rateType : String) (moment : Datetime)

/-- The beginning and the end of a rate, where they are times, compare with the moment. -/
def Comparable (rate : CostRateRow) : Prop :=
  (∀ bound ∈ parseTs fromIsoformat rate.validFrom, bound.aware = moment.aware) ∧
    ∀ bound ∈ parseTs fromIsoformat rate.validTo, bound.aware = moment.aware

instance (rate : CostRateRow) : Decidable (Comparable fromIsoformat moment rate) :=
  inferInstanceAs (Decidable (_ ∧ _))

/-- A rate of the type asked for, valid at the moment; its end does not count. -/
def Applicable (rate : CostRateRow) : Prop :=
  rate.rateType = rateType ∧
    (∀ bound ∈ parseTs fromIsoformat rate.validFrom, bound.instant ≤ moment.instant) ∧
    ∀ bound ∈ parseTs fromIsoformat rate.validTo, moment.instant < bound.instant

instance (rate : CostRateRow) : Decidable (Applicable fromIsoformat rateType moment rate) :=
  inferInstanceAs (Decidable (_ ∧ _ ∧ _))

/-- When a rate begins; one without a beginning does so before all others. -/
def beginning (rate : CostRateRow) : WithBot ℤ :=
  (parseTs fromIsoformat rate.validFrom).elim ⊥ fun bound => (bound.instant : WithBot ℤ)

/-- When the loop takes a rate to begin. -/
def rank (rate : CostRateRow) : ℤ :=
  ((parseTs fromIsoformat rate.validFrom).getD (.minIn moment.tzinfo)).instant

/-- An applicable rate that no other applicable one begins after. -/
def Latest (rates : List CostRateRow) (rate : CostRateRow) : Prop :=
  (rate ∈ rates ∧ Applicable fromIsoformat rateType moment rate) ∧
    ∀ other ∈ rates, Applicable fromIsoformat rateType moment other →
      beginning fromIsoformat other ≤ beginning fromIsoformat rate

instance (rates : List CostRateRow) (rate : CostRateRow) :
    Decidable (Latest fromIsoformat rateType moment rates rate) :=
  inferInstanceAs (Decidable (_ ∧ _))

/-- The rows the loop does not pass by. -/
def applicableRates (rates : List CostRateRow) : List CostRateRow :=
  rates.filter fun rate => Applicable fromIsoformat rateType moment rate

/-- What the loop remembers of a rate. -/
def remembered (rate : CostRateRow) : ℚ × Option Datetime :=
  (rate.unitPrice, parseTs fromIsoformat rate.validFrom)

variable {fromIsoformat rateType moment} {rates : List CostRateRow} {rate : CostRateRow}

theorem less_of_aware {a b : Datetime} (same : a.aware = b.aware) :
    a.less b = .ok (decide (a.instant < b.instant)) :=
  if_pos same

/-- The rank of a rate is that of a time that compares with the moment. -/
theorem aware_getD (comparable : Comparable fromIsoformat moment rate) :
    ((parseTs fromIsoformat rate.validFrom).getD (.minIn moment.tzinfo)).aware = moment.aware := by
  cases parsed : parseTs fromIsoformat rate.validFrom with
  | none => rfl
  | some bound => exact comparable.1 bound parsed

theorem startsLater_eq (comparable : Comparable fromIsoformat moment rate) :
    startsLater moment (parseTs fromIsoformat rate.validFrom) =
      .ok (decide ¬∀ bound ∈ parseTs fromIsoformat rate.validFrom,
        bound.instant ≤ moment.instant) := by
  cases parsed : parseTs fromIsoformat rate.validFrom with
  | none => simp [startsLater]
  | some bound =>
    rw [startsLater, less_of_aware (comparable.1 bound parsed).symm]
    simp

theorem hasEnded_eq (comparable : Comparable fromIsoformat moment rate) :
    hasEnded moment (parseTs fromIsoformat rate.validTo) =
      .ok (decide ¬∀ bound ∈ parseTs fromIsoformat rate.validTo,
        moment.instant < bound.instant) := by
  cases parsed : parseTs fromIsoformat rate.validTo with
  | none => simp [hasEnded]
  | some bound =>
    rw [hasEnded, less_of_aware (comparable.2 bound parsed).symm]
    simp only [Option.mem_some_iff, forall_eq', decide_not]
    rfl

/-- The loop passes a rate by, or it becomes the best one unless a later one is held. -/
theorem considerRate_eq {held : Option CostRateRow}
    (comparable : Comparable fromIsoformat moment rate)
    (kept : ∀ best ∈ held, Comparable fromIsoformat moment best) :
    considerRate fromIsoformat rateType moment (held.map (remembered fromIsoformat)) rate =
      .ok ((if Applicable fromIsoformat rateType moment rate then
        some (betterBy (rank fromIsoformat moment) held rate) else held).map
          (remembered fromIsoformat)) := by
  simp only [considerRate, startsLater_eq comparable, hasEnded_eq comparable]
  by_cases same : rate.rateType = rateType
  · by_cases begun : ∀ bound ∈ parseTs fromIsoformat rate.validFrom,
        bound.instant ≤ moment.instant
    · by_cases going : ∀ bound ∈ parseTs fromIsoformat rate.validTo,
          moment.instant < bound.instant
      · rw [if_neg (not_not.mpr same), if_pos (show Applicable _ _ _ _ from ⟨same, begun, going⟩),
          decide_eq_false (not_not.mpr begun), decide_eq_false (not_not.mpr going)]
        cases held with
        | none => rfl
        | some best =>
          have compared : ((parseTs fromIsoformat rate.validFrom).getD (.minIn moment.tzinfo)).less
              ((parseTs fromIsoformat best.validFrom).getD (.minIn moment.tzinfo)) =
                .ok (decide (rank fromIsoformat moment rate < rank fromIsoformat moment best)) :=
            less_of_aware ((aware_getD comparable).trans (aware_getD (kept best rfl)).symm)
          simp only [Option.map_some, remembered, bind, Except.bind, compared, betterBy]
          rcases lt_or_ge (rank fromIsoformat moment rate) (rank fromIsoformat moment best) with
            less | more
          · rw [if_neg (not_le.mpr less), decide_eq_true less]
            rfl
          · rw [if_pos more, decide_eq_false (not_lt.mpr more)]
            rfl
      · rw [if_neg (not_not.mpr same), if_neg (fun applicable => going applicable.2.2),
          decide_eq_false (not_not.mpr begun), decide_eq_true going]
        rfl
    · rw [if_neg (not_not.mpr same), if_neg (fun applicable => begun applicable.2.1),
        decide_eq_true begun]
      rfl
  · rw [if_pos same, if_neg (fun applicable => same applicable.1)]

theorem foldlM_considerRate (comparable : ∀ rate ∈ rates, Comparable fromIsoformat moment rate)
    {held : Option CostRateRow} (kept : ∀ best ∈ held, Comparable fromIsoformat moment best) :
    rates.foldlM (considerRate fromIsoformat rateType moment)
        (held.map (remembered fromIsoformat)) =
      .ok (((applicableRates fromIsoformat rateType moment rates).foldl
        (fun best rate => some (betterBy (rank fromIsoformat moment) best rate)) held).map
          (remembered fromIsoformat)) := by
  induction rates generalizing held with
  | nil => rfl
  | cons rate rest ih =>
    obtain ⟨first, comparable⟩ := List.forall_mem_cons.mp comparable
    rw [List.foldlM_cons, considerRate_eq first kept, applicableRates, List.filter_cons]
    simp only [bind, Except.bind, decide_eq_true_eq]
    split
    · refine ih comparable fun best found => ?_
      cases held with
      | none => exact Option.some.inj found ▸ first
      | some other =>
        simp only [betterBy, Option.mem_some_iff] at found
        split at found
        · exact found ▸ first
        · exact found ▸ kept other rfl
    · exact ih comparable kept

/-- The price is that of the last applicable rate of the greatest rank. -/
theorem resolveUnitPrice_eq (comparable : ∀ rate ∈ rates, Comparable fromIsoformat moment rate)
    (default : ℚ) : resolveUnitPrice fromIsoformat rateType moment rates default =
      .ok ((lastMaxBy (rank fromIsoformat moment)
        (applicableRates fromIsoformat rateType moment rates)).elim default unitPrice) := by
  have run : rates.foldlM (considerRate fromIsoformat rateType moment) none = _ :=
    @foldlM_considerRate fromIsoformat rateType moment rates comparable none nofun
  rw [resolveUnitPrice, run]
  change Except.ok _ = Except.ok _
  rw [Option.elim_map]
  rfl

theorem mem_applicableRates : rate ∈ applicableRates fromIsoformat rateType moment rates ↔
    rate ∈ rates ∧ Applicable fromIsoformat rateType moment rate := by
  rw [applicableRates, List.mem_filter, decide_eq_true_eq]

/-- Where there is an applicable rate, one of them begins last. -/
theorem exists_latest (member : rate ∈ rates)
    (applicable : Applicable fromIsoformat rateType moment rate) :
    ∃ latest, Latest fromIsoformat rateType moment rates latest := by
  cases found : lastMaxBy (beginning fromIsoformat)
      (applicableRates fromIsoformat rateType moment rates) with
  | none =>
    have listed := mem_applicableRates.mpr ⟨member, applicable⟩
    rw [lastMaxBy_eq_none.mp found] at listed
    exact absurd listed List.not_mem_nil
  | some latest =>
    obtain ⟨listed, greatest⟩ := mem_of_lastMaxBy found
    exact ⟨latest, mem_applicableRates.mp listed,
      fun other member applicable => greatest other (mem_applicableRates.mpr ⟨member, applicable⟩)⟩

theorem rank_of_beginning {bound : Datetime}
    (parsed : parseTs fromIsoformat rate.validFrom = some bound) :
    rank fromIsoformat moment rate = bound.instant := by
  rw [rank, parsed, Option.getD_some]

theorem beginning_of_some {bound : Datetime}
    (parsed : parseTs fromIsoformat rate.validFrom = some bound) :
    beginning fromIsoformat rate = bound.instant := by
  rw [beginning, parsed, Option.elim_some]

theorem beginning_of_open (parsed : parseTs fromIsoformat rate.validFrom = none) :
    beginning fromIsoformat rate = ⊥ := by
  rw [beginning, parsed, Option.elim_none]

theorem rank_of_open (parsed : parseTs fromIsoformat rate.validFrom = none) :
    rank fromIsoformat moment rate = (Datetime.minIn moment.tzinfo).instant := by
  rw [rank, parsed, Option.getD_none]

/-- Rates with a beginning are ranked by it, and those without are below all others. -/
theorem beginning_le_of_rank {other : CostRateRow} {bound : Datetime}
    (parsed : parseTs fromIsoformat rate.validFrom = some bound)
    (ranked : rank fromIsoformat moment other ≤ rank fromIsoformat moment rate) :
    beginning fromIsoformat other ≤ beginning fromIsoformat rate := by
  cases parsedToo : parseTs fromIsoformat other.validFrom with
  | none =>
    rw [beginning_of_open parsedToo]
    exact bot_le
  | some earlier =>
    rw [rank_of_beginning parsed, rank_of_beginning parsedToo] at ranked
    rw [beginning_of_some parsed, beginning_of_some parsedToo]
    exact WithBot.coe_le_coe.mpr ranked

variable (fromIsoformat rateType moment)

/-- In every order of the rates the price is the default, where none applies, or that of a rate
that begins last; and another order makes a difference only if two rates begin last. -/
def ResolvesByValidity (rates : List CostRateRow) (default : ℚ) : Prop :=
  ∀ others : List CostRateRow, others.Perm rates →
    (((∀ rate ∈ rates, ¬Applicable fromIsoformat rateType moment rate) ∧
        resolveUnitPrice fromIsoformat rateType moment others default = .ok default) ∨
      ∃ rate, Latest fromIsoformat rateType moment rates rate ∧
        resolveUnitPrice fromIsoformat rateType moment others default = .ok rate.unitPrice) ∧
    (resolveUnitPrice fromIsoformat rateType moment others default ≠
        resolveUnitPrice fromIsoformat rateType moment rates default →
      ¬rates.Pairwise fun one other => ¬(Latest fromIsoformat rateType moment rates one ∧
        Latest fromIsoformat rateType moment rates other))

/-- Where the latest beginning does not come after the first moment of the zone, applicable rates
without a beginning have the price of one that begins last. -/
def OpenPricesAgree (rates : List CostRateRow) : Prop :=
  ∀ latest, Latest fromIsoformat rateType moment rates latest →
    ∀ bound ∈ parseTs fromIsoformat latest.validFrom,
      bound.instant ≤ (Datetime.minIn moment.tzinfo).instant →
      ∀ rate ∈ rates, Applicable fromIsoformat rateType moment rate →
        parseTs fromIsoformat rate.validFrom = none →
        ∃ other, Latest fromIsoformat rateType moment rates other ∧
          other.unitPrice = rate.unitPrice

variable {fromIsoformat rateType moment}

/-- A rate of the greatest rank begins last, or its price is that of one that does. -/
theorem exists_latest_of_rank (agree : OpenPricesAgree fromIsoformat rateType moment rates)
    (member : rate ∈ rates) (applicable : Applicable fromIsoformat rateType moment rate)
    (greatest : ∀ other ∈ rates, Applicable fromIsoformat rateType moment other →
      rank fromIsoformat moment other ≤ rank fromIsoformat moment rate) :
    ∃ latest, Latest fromIsoformat rateType moment rates latest ∧
      latest.unitPrice = rate.unitPrice := by
  cases parsed : parseTs fromIsoformat rate.validFrom with
  | some bound =>
    exact ⟨rate, ⟨⟨member, applicable⟩, fun other listed applies =>
      beginning_le_of_rank parsed (greatest other listed applies)⟩, rfl⟩
  | none =>
    obtain ⟨latest, isLatest⟩ := exists_latest member applicable
    cases begun : parseTs fromIsoformat latest.validFrom with
    | none =>
      -- no applicable rate has a beginning
      refine ⟨rate, ⟨⟨member, applicable⟩, fun other listed applies => ?_⟩, rfl⟩
      have bottom := isLatest.2 other listed applies
      rw [beginning_of_open begun] at bottom
      exact bottom.trans bot_le
    | some bound =>
      have ranked := greatest latest isLatest.1.1 isLatest.1.2
      rw [rank_of_beginning begun, rank_of_open parsed] at ranked
      exact agree latest isLatest bound begun ranked rate member applicable parsed

theorem resolvesByValidity_of_agree
    (comparable : ∀ rate ∈ rates, Comparable fromIsoformat moment rate) (default : ℚ)
    (agree : OpenPricesAgree fromIsoformat rateType moment rates) :
    ResolvesByValidity fromIsoformat rateType moment rates default := by
  have resolved : ∀ others : List CostRateRow, others.Perm rates →
      ((∀ rate ∈ rates, ¬Applicable fromIsoformat rateType moment rate) ∧
        resolveUnitPrice fromIsoformat rateType moment others default = .ok default) ∨
      ∃ rate, Latest fromIsoformat rateType moment rates rate ∧
        resolveUnitPrice fromIsoformat rateType moment others default = .ok rate.unitPrice := by
    intro others same
    rw [resolveUnitPrice_eq fun rate listed => comparable rate (same.subset listed)]
    cases found : lastMaxBy (rank fromIsoformat moment)
        (applicableRates fromIsoformat rateType moment others) with
    | none =>
      refine Or.inl ⟨fun rate listed applicable => ?_, rfl⟩
      have kept := mem_applicableRates.mpr ⟨same.symm.subset listed, applicable⟩
      rw [lastMaxBy_eq_none.mp found] at kept
      exact absurd kept List.not_mem_nil
    | some best =>
      obtain ⟨listed, greatest⟩ := mem_of_lastMaxBy found
      obtain ⟨member, applicable⟩ := mem_applicableRates.mp listed
      obtain ⟨latest, isLatest, price⟩ := exists_latest_of_rank agree (same.subset member)
        applicable fun other listed applies =>
          greatest other (mem_applicableRates.mpr ⟨same.symm.subset listed, applies⟩)
      exact Or.inr ⟨latest, isLatest, by rw [price]; rfl⟩
  intro others same
  refine ⟨resolved others same, fun differ single => differ ?_⟩
  rcases resolved others same with ⟨none, price⟩ | ⟨one, isLatest, price⟩
  · rcases resolved rates (List.Perm.refl _) with ⟨-, price'⟩ | ⟨other, isLatest', -⟩
    · rw [price, price']
    · exact absurd isLatest'.1.2 (none other isLatest'.1.1)
  · rcases resolved rates (List.Perm.refl _) with ⟨none, -⟩ | ⟨other, isLatest', price'⟩
    · exact absurd isLatest.1.2 (none one isLatest.1.1)
    · have equal : one = other := by
        by_contra distinct
        have symmetric : Std.Symm fun one other : CostRateRow =>
            ¬(Latest fromIsoformat rateType moment rates one ∧
              Latest fromIsoformat rateType moment rates other) :=
          ⟨fun _ _ apart both => apart both.symm⟩
        exact single.forall isLatest.1.1 isLatest'.1.1 distinct ⟨isLatest, isLatest'⟩
      rw [price, price', equal]

theorem agree_of_resolvesByValidity
    (comparable : ∀ rate ∈ rates, Comparable fromIsoformat moment rate) (default : ℚ)
    (resolves : ResolvesByValidity fromIsoformat rateType moment rates default) :
    OpenPricesAgree fromIsoformat rateType moment rates := by
  intro latest isLatest bound begun early rate member applicable parsed
  -- put the rate without a beginning last
  have same : (rates.erase rate ++ [rate]).Perm rates :=
    (List.perm_append_singleton _ _).trans (List.perm_cons_erase member).symm
  have greatest : ∀ other ∈ applicableRates fromIsoformat rateType moment (rates.erase rate),
      rank fromIsoformat moment other ≤ rank fromIsoformat moment rate := by
    intro other listed
    obtain ⟨kept, applies⟩ := mem_applicableRates.mp listed
    rw [rank_of_open parsed]
    cases begunToo : parseTs fromIsoformat other.validFrom with
    | none => rw [rank_of_open begunToo]
    | some earlier =>
      have before := isLatest.2 other (List.mem_of_mem_erase kept) applies
      rw [beginning_of_some begun, beginning_of_some begunToo] at before
      rw [rank_of_beginning begunToo]
      exact (WithBot.coe_le_coe.mp before).trans early
  have last : applicableRates fromIsoformat rateType moment (rates.erase rate ++ [rate]) =
      applicableRates fromIsoformat rateType moment (rates.erase rate) ++ [rate] := by
    rw [applicableRates, List.filter_append, List.filter_singleton, decide_eq_true applicable]
    rfl
  have price : resolveUnitPrice fromIsoformat rateType moment (rates.erase rate ++ [rate])
      default = .ok rate.unitPrice := by
    rw [resolveUnitPrice_eq fun other listed => comparable other (same.subset listed), last,
      lastMaxBy_concat_of_le greatest]
    rfl
  rcases (resolves _ same).1 with ⟨none, -⟩ | ⟨other, isLatest', price'⟩
  · exact absurd applicable (none rate member)
  · rw [price] at price'
    exact ⟨other, isLatest', (Except.ok.inj price').symm⟩

/-- Rates resolve by their validity exactly if, wherever the latest beginning does not come after
the first moment a datetime can have, rates without a beginning have the price of one that begins
last. -/
theorem resolvesByValidity_iff (fromIsoformat : String → Option Datetime) (rateType : String)
    (moment : Datetime) (rates : List CostRateRow) (default : ℚ)
    (comparable : ∀ rate ∈ rates, Comparable fromIsoformat moment rate) :
    ResolvesByValidity fromIsoformat rateType moment rates default ↔
      OpenPricesAgree fromIsoformat rateType moment rates :=
  ⟨agree_of_resolvesByValidity comparable default, resolvesByValidity_of_agree comparable default⟩

/-- Two fuel rates, one of them open and one from 2024 on; the moment is in 2025. -/
theorem resolvesByValidity_fuel :
    let fromIsoformat : String → Option Datetime := fun raw =>
      if raw = "2024-01-01T00:00:00+00:00" then
        some ⟨738885 * 86400000000, some fun _ => 0⟩
      else none
    let moment : Datetime := ⟨739251 * 86400000000, some fun _ => 0⟩
    let rates : List CostRateRow :=
      [⟨"fuel", 1, none, none⟩, ⟨"fuel", 2, some "2024-01-01T00:00:00+00:00", none⟩]
    ResolvesByValidity fromIsoformat "fuel" moment rates 0 ↔
      OpenPricesAgree fromIsoformat "fuel" moment rates :=
  resolvesByValidity_iff _ _ _ _ _ (by decide +kernel)

/-- A rate from the first day of year one in a zone east of the moment's begins before the moment
at which a rate without a beginning is ranked: the open rate is taken although it begins first. -/
theorem open_rate_taken :
    let fromIsoformat : String → Option Datetime := fun raw =>
      if raw = "0001-01-01T00:00:00+05:00" then some ⟨0, some fun _ => 18000000000⟩ else none
    let moment : Datetime := ⟨738885 * 86400000000, some fun _ => 0⟩
    let rates : List CostRateRow :=
      [⟨"fuel", 1, none, none⟩, ⟨"fuel", 2, some "0001-01-01T00:00:00+05:00", none⟩]
    (∀ rate ∈ rates, Comparable fromIsoformat moment rate) ∧
      resolveUnitPrice fromIsoformat "fuel" moment rates 0 = .ok 1 ∧
      ¬ResolvesByValidity fromIsoformat "fuel" moment rates 0 := by
  intro fromIsoformat moment rates
  have price : resolveUnitPrice fromIsoformat "fuel" moment rates 0 = .ok 1 := by rfl
  have first : ¬Latest fromIsoformat "fuel" moment rates ⟨"fuel", 1, none, none⟩ := by
    decide +kernel
  have applies : Applicable fromIsoformat "fuel" moment ⟨"fuel", 1, none, none⟩ := by
    decide +kernel
  refine ⟨by decide +kernel, price, fun resolves => ?_⟩
  rcases (resolves rates (List.Perm.refl _)).1 with ⟨none, -⟩ | ⟨rate, isLatest, found⟩
  · exact none _ List.mem_cons_self applies
  · rw [price] at found
    rcases List.mem_cons.mp isLatest.1.1 with rfl | second
    · exact first isLatest
    · rw [List.mem_singleton.mp second] at found
      exact absurd (Except.ok.inj found) (by decide +kernel)

end CostRateRow

end FlOp.Solver
