import AiForge.Staged
import AiForge.ToolSpend
import AiForge.UsageLedger

/-! # Spend summaries

Tool charges are summed beside the inference amounts: an open or unreconciled reservation
counts at its maximum, a finalized one at its final amount and a released one not at all. -/
namespace SpendSummary

open Money Events UsageLedger ToolSpend Staged

structure ToolSpendSummary where
  ceiling : SessionSpendCeiling
  (accounted remaining reservedMaximum reconciliationMaximum providerReportedAmount : MonetaryAmount)
  (catalogEstimateAmount policyUpperBoundAmount : MonetaryAmount)
  (reservations finalized released reconciliationRequired reserved providerReported : ℕ)
  (catalogEstimate policyUpperBound : ℕ)
  reached : Bool

/-- The running totals of the loop over the records. -/
structure ToolTotals where
  (total reservedMaximum reconciliationMaximum providerReportedAmount : DecimalAmount := zero)
  (catalogEstimateAmount policyUpperBoundAmount : DecimalAmount := zero)
  (reservations finalized released reconciliationRequired reserved providerReported : ℕ := 0)
  (catalogEstimate policyUpperBound : ℕ := 0)

def accumulate (subtotal value : DecimalAmount) (message : String) :
    Except ToolSpendLedgerError DecimalAmount :=
  match add subtotal value with
  | .error _ => .error ⟨.amountOverflow, message⟩
  | .ok combined => .ok combined

def countFinalization (t : ToolTotals) (finalization : ToolSpendFinalization) :
    Except ToolSpendLedgerError ToolTotals :=
  match finalization.basis with
  | .providerReported => do
    let amount ← accumulate t.providerReportedAmount finalization.amount.amount
      "provider-reported tool amount overflowed"
    return { t with providerReportedAmount := amount, providerReported := t.providerReported + 1 }
  | .catalogEstimate => do
    let amount ← accumulate t.catalogEstimateAmount finalization.amount.amount
      "catalog-estimated tool amount overflowed"
    return { t with catalogEstimateAmount := amount, catalogEstimate := t.catalogEstimate + 1 }
  | .policyUpperBound => do
    let amount ← accumulate t.policyUpperBoundAmount finalization.amount.amount
      "policy-upper-bound tool amount overflowed"
    return { t with policyUpperBoundAmount := amount, policyUpperBound := t.policyUpperBound + 1 }

/-- Classifies a record and names the amount it is charged at, if any. -/
def classify (t : ToolTotals) (record : ToolSpendRecord) :
    Except ToolSpendLedgerError (ToolTotals × Option DecimalAmount) :=
  match record.status with
  | .reserved => do
    let maximum ← accumulate t.reservedMaximum record.reservation.maximum.amount
      "reserved tool maximum overflowed"
    return ({ t with reservedMaximum := maximum, reserved := t.reserved + 1 },
      some record.reservation.maximum.amount)
  | .released => .ok ({ t with released := t.released + 1 }, none)
  | .finalized =>
    match record.finalization with
    | none => .error ⟨.invalidTransition, "finalized tool spend lacks finalization details"⟩
    | some finalization => do
      let counted ← countFinalization { t with finalized := t.finalized + 1 } finalization
      return (counted, some finalization.amount.amount)
  | .reconciliationRequired => do
    let maximum ← accumulate t.reconciliationMaximum record.reservation.maximum.amount
      "reconciliation tool maximum overflowed"
    return ({ t with
        reconciliationMaximum := maximum
        reconciliationRequired := t.reconciliationRequired + 1 },
      some record.reservation.maximum.amount)

def accountRecord (t : ToolTotals) (record : ToolSpendRecord) :
    Except ToolSpendLedgerError ToolTotals := do
  let (t, charged) ← classify { t with reservations := t.reservations + 1 } record
  match charged with
  | none => return t
  | some amount => return { t with total := ← accumulate t.total amount "tool spend total overflowed" }

def summarizeToolSpend (ledger : ToolSpendLedger) (ceiling : SessionSpendCeiling) :
    Except ToolSpendLedgerError ToolSpendSummary := do
  let t ← ledger.records.foldlM accountRecord {}
  let reached := ceilingReached ceiling t.total
  match remainingAmount ceiling t.total reached with
  | .error _ => throw ⟨.amountOverflow, "tool spend remaining amount is invalid"⟩
  | .ok remaining =>
    return {
      ceiling := ceiling, accounted := usd t.total, remaining := usd remaining
      reservedMaximum := usd t.reservedMaximum
      reconciliationMaximum := usd t.reconciliationMaximum
      providerReportedAmount := usd t.providerReportedAmount
      catalogEstimateAmount := usd t.catalogEstimateAmount
      policyUpperBoundAmount := usd t.policyUpperBoundAmount
      reservations := t.reservations, finalized := t.finalized, released := t.released
      reconciliationRequired := t.reconciliationRequired, reserved := t.reserved
      providerReported := t.providerReported, catalogEstimate := t.catalogEstimate
      policyUpperBound := t.policyUpperBound, reached := reached }

def summarizeCombinedSessionSpend (inferenceRecords : List InferenceUsageRecord)
    (toolLedger : ToolSpendLedger) (ceiling : SessionSpendCeiling) :
    Except ToolSpendLedgerError SessionSpendSummary := do
  let inference := summarizeSessionSpend inferenceRecords ceiling
  let tools ← summarizeToolSpend toolLedger ceiling
  let combined := { inference with
    inferenceAccounted := inference.accounted
    toolAccounted := some tools.accounted
    toolReservedMaximum := some tools.reservedMaximum
    toolReconciliationMaximum := some tools.reconciliationMaximum
    toolProviderReportedAmount := some tools.providerReportedAmount
    toolCatalogEstimateAmount := some tools.catalogEstimateAmount
    toolPolicyUpperBoundAmount := some tools.policyUpperBoundAmount
    toolReservations := tools.reservations
    toolReserved := tools.reserved
    toolReleased := tools.released
    toolReconciliationRequired := tools.reconciliationRequired
    toolProviderReported := tools.providerReported
    toolCatalogEstimate := tools.catalogEstimate
    toolPolicyUpperBound := tools.policyUpperBound }
  match inference.accounted with
  | none => return combined
  | some accounted =>
    let total ← accumulate accounted.amount tools.accounted.amount
      "combined session spend overflowed"
    let reached := ceilingReached ceiling total
    match remainingAmount ceiling total reached with
    | .error _ =>
      throw ⟨.amountOverflow, "combined session spend remaining amount is invalid"⟩
    | .ok remaining =>
      return { combined with
        accounted := some (usd total), reached := reached, remaining := some (usd remaining) }

def toolCharge (record : ToolSpendRecord) : ℚ :=
  match record.status with
  | .reserved => record.reservation.maximum.amount.value
  | .reconciliationRequired => record.reservation.maximum.amount.value
  | .finalized => record.finalization.elim 0 fun finalization => finalization.amount.amount.value
  | .released => 0

theorem accumulate_value {subtotal value combined : DecimalAmount} {message : String}
    (h : accumulate subtotal value message = .ok combined) :
    combined.value = subtotal.value + value.value := by
  unfold accumulate at h
  split at h
  · cases h
  · rename_i sum hs
    cases h
    exact add_value hs

variable {t next : ToolTotals}

theorem countFinalization_total {finalization : ToolSpendFinalization}
    (h : countFinalization t finalization = .ok next) : next.total = t.total := by
  unfold countFinalization at h
  split at h <;> obtain ⟨_, -, h⟩ := bind_ok.1 h <;> obtain rfl := Except.ok.inj h <;> rfl

theorem classify_spec {record : ToolSpendRecord}
    {charged : Option DecimalAmount} (h : classify t record = .ok (next, charged)) :
    next.total = t.total ∧ toolCharge record = charged.elim 0 DecimalAmount.value := by
  unfold classify at h
  split at h
  · rename_i hs
    obtain ⟨_, -, h⟩ := bind_ok.1 h
    obtain ⟨rfl, rfl⟩ := Prod.mk.inj (Except.ok.inj h)
    exact ⟨rfl, by simp [toolCharge, hs]⟩
  · rename_i hs
    obtain ⟨rfl, rfl⟩ := Prod.mk.inj (Except.ok.inj h)
    exact ⟨rfl, by simp [toolCharge, hs]⟩
  · rename_i hs
    split at h
    · cases h
    · rename_i finalization hf
      obtain ⟨_, hc, h⟩ := bind_ok.1 h
      obtain ⟨rfl, rfl⟩ := Prod.mk.inj (Except.ok.inj h)
      have ht := countFinalization_total hc
      exact ⟨ht, by simp [toolCharge, hs, hf]⟩
  · rename_i hs
    obtain ⟨_, -, h⟩ := bind_ok.1 h
    obtain ⟨rfl, rfl⟩ := Prod.mk.inj (Except.ok.inj h)
    exact ⟨rfl, by simp [toolCharge, hs]⟩

theorem accountRecord_total {record : ToolSpendRecord} (h : accountRecord t record = .ok next) :
    next.total.value = t.total.value + toolCharge record := by
  obtain ⟨⟨_, charged⟩, hc, h⟩ := bind_ok.1 h
  obtain ⟨ht, hcharge⟩ := classify_spec hc
  rw [hcharge]
  cases charged with
  | none =>
    cases h
    simp [ht]
  | some =>
    obtain ⟨total, hv, h⟩ := bind_ok.1 h
    cases h
    simpa [ht] using accumulate_value hv

theorem foldlM_total {records : List ToolSpendRecord}
    (h : records.foldlM accountRecord t = .ok next) :
    next.total.value = t.total.value + (records.map toolCharge).sum := by
  induction records generalizing t with
  | nil =>
    cases h
    simp
  | cons _ _ ih =>
    obtain ⟨_, hu, h⟩ := bind_ok.1 (by simpa using h)
    rw [ih h, accountRecord_total hu, List.map_cons, List.sum_cons]
    ring

variable {ceiling : SessionSpendCeiling}

theorem summarizeToolSpend_accounted {ledger : ToolSpendLedger}
    {summary : ToolSpendSummary} (h : summarizeToolSpend ledger ceiling = .ok summary) :
    summary.accounted.amount.value = (ledger.records.map toolCharge).sum := by
  obtain ⟨_, ht, h⟩ := bind_ok.1 h
  dsimp only at h
  split at h
  · cases h
  · cases h
    simpa [usd] using foldlM_total ht

theorem ceilingReached_iff {total : DecimalAmount} :
    ceilingReached ceiling total = false ↔ total.value < ceiling.amount.value := by
  simp [ceilingReached, compare_lt_iff]

/-- An accounted combined summary is the exact sum of both ledgers, compared exactly. -/
theorem summarizeCombined_accounted {inferenceRecords : List InferenceUsageRecord}
    {toolLedger : ToolSpendLedger} {summary : SessionSpendSummary}
    (h : summarizeCombinedSessionSpend inferenceRecords toolLedger ceiling = .ok summary)
    (ha : summary.accounted.isSome) : (∀ r ∈ inferenceRecords, (accountedAmount r).isOk) ∧
    (summary.reached = false ↔
      (inferenceRecords.map accountedValue).sum + (toolLedger.records.map toolCharge).sum <
        ceiling.amount.value) := by
  obtain ⟨_, ht, h⟩ := bind_ok.1 h
  dsimp only at h
  split at h
  · rename_i hn
    cases h
    simp [hn] at ha
  · rename_i accounted hacc
    obtain ⟨hall, hsum⟩ := summarizeSessionSpend_accounted hacc
    obtain ⟨_, hv, h⟩ := bind_ok.1 h
    split at h
    · cases h
    · cases h
      refine ⟨hall, ?_⟩
      rw [ceilingReached_iff, accumulate_value hv, hsum, summarizeToolSpend_accounted ht]

end SpendSummary
