import FlOp.Core.Numbers
import Mathlib.Algebra.BigOperators.Group.List.Basic

/-! # Lead times of completed tasks -/

namespace FlOp.Stream

open FlOp.Core

/-- One line of the log of completions, with what the statistics read of it. -/
structure CompletionRecord where
  leadTimeS : Option ℚ
  isService : Bool := false
deriving DecidableEq, Repr

/-- The distribution of lead times; spreads are left out where nothing was measured. -/
structure LeadTimeStats where
  nCompletions : ℕ := 0
  nWithLead : ℕ := 0
  meanLeadS : Option ℚ := none
  minLeadS : Option ℚ := none
  maxLeadS : Option ℚ := none
  lateShare : Option ℚ := none
  nServiceCompletions : ℤ := 0
  meanServiceLeadS : Option ℚ := none
  serviceLateShare : Option ℚ := none
deriving DecidableEq, Repr

/-- A rounded figure of some lead times, if there are any. -/
def measured (digits : ℕ) (figure : List ℚ → ℚ) (leads : List ℚ) : Option ℚ :=
  if leads.isEmpty then none else some (roundTo digits (figure leads))

def meanLead (leads : List ℚ) : ℚ := leads.sum / leads.length

/-- Share of completions after the deadline. -/
def lateShareOf (leads : List ℚ) : ℚ := leads.countP (· < 0) / leads.length

/-- Aggregate the recorded lead times; nothing without a record. -/
def leadTimeStats (log : List CompletionRecord) : Option LeadTimeStats :=
  let leads := log.filterMap (·.leadTimeS)
  let serviceLeads := (log.filter (·.isService)).filterMap (·.leadTimeS)
  if log.isEmpty then none
  else some
    { nCompletions := log.length
      nWithLead := leads.length
      meanLeadS := measured 1 meanLead leads
      minLeadS := leads.min?.map (roundTo 1)
      maxLeadS := leads.max?.map (roundTo 1)
      lateShare := measured 4 lateShareOf leads
      nServiceCompletions := serviceLeads.length
      meanServiceLeadS := measured 1 meanLead serviceLeads
      serviceLateShare := measured 4 lateShareOf serviceLeads }

end FlOp.Stream
