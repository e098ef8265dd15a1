import AiForge.EventLog
import AiForge.KeyedList

/-! # Usage ledger and spend ceiling

One record per inference collects its usage, its reported cost and the pricing observed for
it. What a provider did not report is estimated from the rate card; an inference with neither
amount makes the session's spend unknown, never zero. -/
namespace UsageLedger

open Content Money Pricing Events EventLog EventProjection KeyedList

inductive InferenceUsageStatus where
  | active | completed | failed | cancelled
  deriving DecidableEq

structure InferenceUsageRecord where
  runId : RunId
  inferenceId : InferenceId
  modelId : ModelId
  startedAt : EventTimestamp
  endedAt : Option EventTimestamp := none
  status : InferenceUsageStatus := .active
  usage : Usage := {}
  usageObserved : Bool := false
  reportedCost : Option ReportedCost := none
  pricingObservation : Option PricingObservation := none

inductive CostEstimateUnit where
  | usd | veniceDiem

inductive PricingTierSelection where
  | base | extended
  deriving DecidableEq

inductive CostEstimateUnavailableReason where
  | usageUnobserved | pricingUnobserved | invalidPricing | inconsistentUsage | ambiguousExtendedTier
  | cacheWriteUsageUnavailable | missingRate | arithmeticOverflow
  deriving DecidableEq

structure InferenceCostEstimate where
  amount : MonetaryAmount
  tier : PricingTierSelection
  rateCardDigest : ContentDigest

structure CostEstimateFailureCount where
  reason : CostEstimateUnavailableReason
  count : ℕ

structure SessionSpendSummary where
  ceiling : SessionSpendCeiling
  (accounted remaining : Option MonetaryAmount := none)
  (reportedInferences estimatedInferences totalInferences : ℕ := 0)
  unavailable : List CostEstimateFailureCount := []
  aggregationFailure : Option CostEstimateUnavailableReason := none
  reached : Bool := false
  (inferenceAccounted toolAccounted toolReservedMaximum : Option MonetaryAmount := none)
  (toolReconciliationMaximum toolProviderReportedAmount : Option MonetaryAmount := none)
  (toolCatalogEstimateAmount toolPolicyUpperBoundAmount : Option MonetaryAmount := none)
  (toolReservations toolReserved toolReleased toolReconciliationRequired : ℕ := 0)
  (toolProviderReported toolCatalogEstimate toolPolicyUpperBound : ℕ := 0)

def multiplicationBase : ℕ := 1000000000

def numberParts (value : ℕ) : List ℕ :=
  [value % multiplicationBase, value / multiplicationBase % multiplicationBase,
    value / multiplicationBase / multiplicationBase % multiplicationBase]

def productParts (left right : List ℕ) : List ℕ :=
  (List.range 7).map fun k =>
    ((List.range (k + 1)).map fun i => left.getD i 0 * right.getD (k - i) 0).sum

/-- Carries from the lowest part upwards; the highest part takes what is left. -/
def carryParts : ℕ → List ℕ → List ℕ
  | _, [] => []
  | carry, [part] => [part + carry]
  | carry, part :: rest =>
    (part + carry) % multiplicationBase :: carryParts ((part + carry) / multiplicationBase) rest

/-- The product of two 64-bit numbers as a numeral, computed in three-by-three limbs. -/
def multipliedText (left right : ℕ) : List Char :=
  let parts := carryParts 0 (productParts (numberParts left) (numberParts right))
  match parts.reverse.dropWhile (· == 0) with
  | [] => Nat.toDigits 10 0
  | highest :: rest =>
    Nat.toDigits 10 highest ++ rest.flatMap fun part => leftPad (Nat.toDigits 10 part) 9

def stripScale : List Char → ℕ → List Char × ℕ
  | reversed, 0 => (reversed, 0)
  | '0' :: c :: reversed, scale + 1 => stripScale (c :: reversed) scale
  | reversed, scale => (reversed, scale)

def scaledAmount (rate : DecimalAmount) (tokens : ℕ) :
    Except CostEstimateUnavailableReason DecimalAmount :=
  let stripped := stripScale (multipliedText rate.coefficient tokens).reverse (rate.scale + 6)
  match DecimalAmount.ofText (insertPoint stripped.1.reverse stripped.2) with
  | .error _ => .error .arithmeticOverflow
  | .ok amount => .ok amount

def priceForUnit (price : PriceRate) : CostEstimateUnit → Option DecimalAmount
  | .usd => price.usd
  | .veniceDiem => price.diem

def unitPresent (tier : TextPriceTier) (unit : CostEstimateUnit) : Bool :=
  let present := fun price : Option PriceRate => price.any fun p => (priceForUnit p unit).isSome
  present tier.input || present tier.output || present tier.cacheInput || present tier.cacheWrite

def selectTier (usage : Usage) (pricing : TextPricing) :
    Except CostEstimateUnavailableReason (TextPriceTier × PricingTierSelection) :=
  match pricing.extended, pricing.extendedThresholdTokens with
  | some extended, some threshold =>
    if usage.outputTokens > uint64Max - usage.inputTokens then .error .arithmeticOverflow
    else if usage.inputTokens + usage.outputTokens ≤ threshold then .ok (pricing.base, .base)
    else if usage.inputTokens > threshold then .ok (extended, .extended)
    else .error .ambiguousExtendedTier
  | _, _ => .ok (pricing.base, .base)

def bucketAmount (price : Option PriceRate) (unit : CostEstimateUnit) (tokens : ℕ) :
    Except CostEstimateUnavailableReason DecimalAmount :=
  if tokens = 0 then .ok zero
  else
    match price.bind fun p => priceForUnit p unit with
    | none => .error .missingRate
    | some rate => scaledAmount rate tokens

def costEstimateUnitName : CostEstimateUnit → String
  | .usd => "USD"
  | .veniceDiem => "venice.diem"

def addEstimate (left right : DecimalAmount) :
    Except CostEstimateUnavailableReason DecimalAmount :=
  match add left right with
  | .error _ => .error .arithmeticOverflow
  | .ok sum => .ok sum

def estimateInferenceCost (record : InferenceUsageRecord) (unit : CostEstimateUnit) :
    Except CostEstimateUnavailableReason InferenceCostEstimate := do
  if !record.usageObserved then throw .usageUnobserved
  let some observation := record.pricingObservation | throw .pricingUnobserved
  if !(validatePricingObservation observation).isOk then throw .invalidPricing
  if record.usage.cachedInputTokens > record.usage.inputTokens ∨
      record.usage.reasoningTokens > record.usage.outputTokens then
    throw .inconsistentUsage
  let (tier, selection) ← selectTier record.usage observation.pricing
  if tier.cacheWrite.isSome then throw .cacheWriteUsageUnavailable
  if !unitPresent tier unit then throw .missingRate
  let uncached := record.usage.inputTokens - record.usage.cachedInputTokens
  let input ← bucketAmount tier.input unit uncached
  let cached ← bucketAmount tier.cacheInput unit record.usage.cachedInputTokens
  let output ← bucketAmount tier.output unit record.usage.outputTokens
  let inputAndCache ← addEstimate input cached
  let total ← addEstimate inputAndCache output
  match MonetaryAmount.create (costEstimateUnitName unit) total with
  | .error _ => throw .arithmeticOverflow
  | .ok amount => return ⟨amount, selection, observation.rateCardDigest⟩

def addFailure (counts : List CostEstimateFailureCount)
    (reason : CostEstimateUnavailableReason) : List CostEstimateFailureCount :=
  match lookup CostEstimateFailureCount.reason reason counts with
  | none => counts ++ [⟨reason, 1⟩]
  | some _ =>
    updateFirst CostEstimateFailureCount.reason reason
      (fun entry => { entry with count := entry.count + 1 }) counts

def reportedUsd (cost : ReportedCost) : Option MonetaryAmount :=
  lookup MonetaryAmount.unit "USD" cost.amounts

inductive AmountSource where
  | reported | estimated

/-- The amount an inference is accounted at: what was reported in USD, else the estimate. -/
def accountedAmount (record : InferenceUsageRecord) :
    Except CostEstimateUnavailableReason (AmountSource × DecimalAmount) :=
  match record.reportedCost.bind reportedUsd with
  | some reported => .ok (.reported, reported.amount)
  | none => do
    let estimate ← estimateInferenceCost record .usd
    return (.estimated, estimate.amount.amount)

def countSource (result : SessionSpendSummary) : AmountSource → SessionSpendSummary
  | .reported => { result with reportedInferences := result.reportedInferences + 1 }
  | .estimated => { result with estimatedInferences := result.estimatedInferences + 1 }

/-- The loop over the records; an overflow of the total ends it. -/
def spendLoop : List InferenceUsageRecord → DecimalAmount → SessionSpendSummary →
    Option DecimalAmount × SessionSpendSummary
  | [], total, result => (some total, result)
  | record :: records, total, result =>
    match accountedAmount record with
    | .error reason =>
      spendLoop records total { result with unavailable := addFailure result.unavailable reason }
    | .ok (source, amount) =>
      match add total amount with
      | .error _ =>
        (none, { countSource result source with aggregationFailure := some .arithmeticOverflow })
      | .ok combined => spendLoop records combined (countSource result source)

/-- The rest of the ceiling, zero once it is reached. -/
def remainingAmount (ceiling : SessionSpendCeiling) (total : DecimalAmount) (reached : Bool) :
    Except MoneyError DecimalAmount :=
  if reached then DecimalAmount.ofText ['0'] else subtract ceiling.amount total

def ceilingReached (ceiling : SessionSpendCeiling) (total : DecimalAmount) : Bool :=
  compare total ceiling.amount != .lt

def summarizeSessionSpend (records : List InferenceUsageRecord) (ceiling : SessionSpendCeiling) :
    SessionSpendSummary :=
  match spendLoop records zero { ceiling := ceiling, totalInferences := records.length } with
  | (none, result) => result
  | (some total, result) =>
    if result.aggregationFailure.isSome ||
        result.reportedInferences + result.estimatedInferences != result.totalInferences then
      result
    else
      let reached := ceilingReached ceiling total
      match remainingAmount ceiling total reached with
      | .error _ =>
        { result with reached := reached, aggregationFailure := some .arithmeticOverflow }
      | .ok remaining =>
        { result with
          accounted := some (usd total), reached := reached, remaining := some (usd remaining) }

/-- The exact value an inference contributes, zero when it has no amount. -/
def accountedValue (record : InferenceUsageRecord) : ℚ :=
  match accountedAmount record with
  | .ok (_, amount) => amount.value
  | .error _ => 0

@[simp] theorem countSource_sum (result : SessionSpendSummary) (source : AmountSource) :
    (countSource result source).reportedInferences +
      (countSource result source).estimatedInferences =
    result.reportedInferences + result.estimatedInferences + 1 := by
  cases source <;> simp [countSource] <;> omega

variable {records : List InferenceUsageRecord}

theorem spendLoop_spec {start total : DecimalAmount} {before result : SessionSpendSummary}
    (h : spendLoop records start before = (some total, result)) :
    total.value = start.value + (records.map accountedValue).sum ∧
    result.reportedInferences + result.estimatedInferences =
      before.reportedInferences + before.estimatedInferences +
        records.countP (fun r => (accountedAmount r).isOk) ∧
    result.totalInferences = before.totalInferences := by
  induction records generalizing start before with
  | nil =>
    obtain ⟨ht, rfl⟩ := Prod.mk.inj h
    cases ht
    simp
  | cons record _ ih =>
    unfold spendLoop at h
    rcases hr : accountedAmount record with _ | ⟨source, _⟩
    · simp only [hr] at h
      obtain ⟨h₁, h₂, h₃⟩ := ih h
      refine ⟨?_, ?_, h₃⟩
      · simp [h₁, accountedValue, hr]
      · simpa [hr, Except.isOk, Except.toBool] using h₂
    · simp only [hr] at h
      split at h
      · cases (Prod.mk.inj h).1
      · rename_i combined hc
        obtain ⟨h₁, h₂, h₃⟩ := ih h
        refine ⟨?_, ?_, ?_⟩
        · rw [h₁, add_value hc]
          simp [accountedValue, hr]
          ring
        · rw [h₂, countSource_sum, List.countP_cons]
          simp [hr, Except.isOk, Except.toBool]
          omega
        · rw [h₃]
          cases source <;> rfl

theorem spendLoop_accounted {start : DecimalAmount}
    {total : Option DecimalAmount} {before result : SessionSpendSummary}
    (h : spendLoop records start before = (total, result)) :
    result.accounted = before.accounted := by
  induction records generalizing start before with
  | nil =>
    obtain ⟨-, rfl⟩ := Prod.mk.inj h
    rfl
  | cons _ _ ih =>
    unfold spendLoop at h
    split at h
    · have hr := ih h
      exact hr
    · rename_i source amount _
      have hs : (countSource before source).accounted = before.accounted := by cases source <;> rfl
      split at h
      · obtain ⟨-, rfl⟩ := Prod.mk.inj h
        exact hs
      · exact (ih h).trans hs

/-- A spend is only accounted when every inference has an amount, and it is their exact sum. -/
theorem summarizeSessionSpend_accounted {ceiling : SessionSpendCeiling} {accounted : MonetaryAmount}
    (h : (summarizeSessionSpend records ceiling).accounted = some accounted) :
    (∀ r ∈ records, (accountedAmount r).isOk) ∧
    accounted.amount.value = (records.map accountedValue).sum := by
  unfold summarizeSessionSpend at h
  split at h
  · rename_i result hl
    exact absurd h (by rw [spendLoop_accounted hl]; simp)
  · rename_i total result hl
    obtain ⟨hv, hcnt, hlen⟩ := spendLoop_spec hl
    split at h
    · exact absurd h (by rw [spendLoop_accounted hl]; simp)
    · rename_i hc
      simp only [Bool.or_eq_true, not_or, bne_iff_ne, ne_eq, not_not] at hc
      rw [hlen, hcnt] at hc
      dsimp only at h
      split at h
      · exact absurd h (by simp [spendLoop_accounted hl])
      · cases h
        refine ⟨List.countP_eq_length.1 (by simpa using hc.2), ?_⟩
        simpa [usd, zero_value] using hv

inductive UsageLedgerErrorCode where
  | invalidEnvelope | duplicateEventId | nonMonotonicSequence | duplicateInference
  | unknownInference | wrongRun | invalidTransition | usageOverflow | costOverflow | invalidPricing
  | invalidCeiling | ceilingWidening

structure UsageLedgerError where
  code : UsageLedgerErrorCode
  message : String

structure Ledger where
  records : List InferenceUsageRecord := []
  totalUsage : Usage := {}
  totalReportedCost : Option ReportedCost := none
  envelope : Envelope := {}

def addChecked (total amount : ℕ) : Option ℕ :=
  if amount > uint64Max - total then none else some (total + amount)

def addUsage (total addition : Usage) : Option Usage := do
  return ⟨← addChecked total.inputTokens addition.inputTokens,
    ← addChecked total.outputTokens addition.outputTokens,
    ← addChecked total.cachedInputTokens addition.cachedInputTokens,
    ← addChecked total.reasoningTokens addition.reasoningTokens⟩

def Ledger.findRecord (s : Ledger) (inferenceId : InferenceId) : Option InferenceUsageRecord :=
  lookup InferenceUsageRecord.inferenceId inferenceId s.records

def Ledger.change (s : Ledger) (inferenceId : InferenceId)
    (f : InferenceUsageRecord → InferenceUsageRecord) : Ledger :=
  { s with records := updateFirst InferenceUsageRecord.inferenceId inferenceId f s.records }

/-- The record an event of an inference is about, in the event's own run. -/
def Ledger.require (s : Ledger) (event : RunEvent) (inferenceId : InferenceId)
    (unknown wrongRun : String) : Except UsageLedgerError InferenceUsageRecord :=
  match s.findRecord inferenceId with
  | none => .error ⟨.unknownInference, unknown⟩
  | some record =>
    if record.runId != event.metadata.runId then .error ⟨.wrongRun, wrongRun⟩ else .ok record

def finish (s : Ledger) (event : RunEvent) (inferenceId : InferenceId)
    (status : InferenceUsageStatus) : Except UsageLedgerError Ledger := do
  let record ← s.require event inferenceId "inference terminal event has no matching start"
    "inference terminal event belongs to another run"
  if record.status != .active then
    throw ⟨.invalidTransition, "inference usage record is already terminal"⟩
  return s.change inferenceId fun r =>
    { r with status := status, endedAt := some event.metadata.timestamp }

def applyStarted (s : Ledger) (event : RunEvent) (inferenceId : InferenceId) (modelId : ModelId) :
    Except UsageLedgerError Ledger :=
  if (s.findRecord inferenceId).isSome then
    .error ⟨.duplicateInference, "inference ID is already present in the usage ledger"⟩
  else
    .ok { s with
      records := s.records ++
        [{ runId := event.metadata.runId, inferenceId := inferenceId, modelId := modelId,
           startedAt := event.metadata.timestamp }] }

def applyPricing (s : Ledger) (event : RunEvent) (inferenceId : InferenceId)
    (observation : PricingObservation) : Except UsageLedgerError Ledger := do
  let record ← s.require event inferenceId "pricing has no matching inference start"
    "pricing belongs to another run"
  if record.status != .active || record.pricingObservation.isSome ||
      record.modelId != observation.modelId then
    throw ⟨.invalidTransition, "pricing cannot follow a terminal or prior observation"⟩
  if !(validatePricingObservation observation).isOk then
    throw ⟨.invalidPricing, "pricing observation is malformed"⟩
  return s.change inferenceId fun r => { r with pricingObservation := some observation }

def applyUsage (s : Ledger) (event : RunEvent) (inferenceId : InferenceId) (usage : Usage) :
    Except UsageLedgerError Ledger := do
  let record ← s.require event inferenceId "usage event has no matching inference start"
    "usage event belongs to another run"
  if record.status != .active then
    throw ⟨.invalidTransition, "usage cannot follow an inference terminal event"⟩
  match addUsage record.usage usage, addUsage s.totalUsage usage with
  | some recordUsage, some totalUsage =>
    return { s.change inferenceId fun r => { r with usage := recordUsage, usageObserved := true }
      with totalUsage := totalUsage }
  | _, _ => throw ⟨.usageOverflow, "usage ledger total overflow"⟩

def addCost (total : Option ReportedCost) (cost : ReportedCost) :
    Except MoneyError ReportedCost :=
  match total with
  | none => .ok cost
  | some total => total.add cost

def applyCost (s : Ledger) (event : RunEvent) (inferenceId : InferenceId) (cost : ReportedCost) :
    Except UsageLedgerError Ledger := do
  let record ← s.require event inferenceId "cost event has no matching inference start"
    "cost event belongs to another run"
  if record.status != .active || record.reportedCost.isSome then
    throw ⟨.invalidTransition, "cost cannot follow a terminal or prior cost event"⟩
  match addCost s.totalReportedCost cost with
  | .error _ => throw ⟨.costOverflow, "reported cost ledger total overflow"⟩
  | .ok total =>
    return { s.change inferenceId fun r => { r with reportedCost := some cost }
      with totalReportedCost := some total }

def visit (s : Ledger) (event : RunEvent) : Except UsageLedgerError Ledger :=
  match event.payload with
  | .inferenceStarted inferenceId modelId => applyStarted s event inferenceId modelId
  | .inferencePricingObserved inferenceId observation =>
    applyPricing s event inferenceId observation
  | .usageRecorded inferenceId usage => applyUsage s event inferenceId usage
  | .inferenceCostRecorded inferenceId cost => applyCost s event inferenceId cost
  | .inferenceFinished inferenceId _ => finish s event inferenceId .completed
  | .inferenceFailed inferenceId _ => finish s event inferenceId .failed
  | .inferenceCancelled inferenceId _ => finish s event inferenceId .cancelled
  | _ => .ok s

/-- The envelope check of both projections; they differ in one message only. -/
def checkEnvelope (envelope : Envelope) (event : RunEvent) (duplicate : String) :
    Except UsageLedgerError Unit :=
  if event.metadata.sequence = 0 ∨ event.metadata.schemaVersion = 0 then
    .error ⟨.invalidEnvelope, "event sequence and schema version must be positive"⟩
  else if event.metadata.eventId ∈ envelope.eventIds then
    .error ⟨.duplicateEventId, duplicate⟩
  else if event.metadata.sequence ≤ envelope.lastSequence then
    .error ⟨.nonMonotonicSequence, "event sequence must increase"⟩
  else .ok ()

def apply (s : Ledger) (event : RunEvent) : Except UsageLedgerError Unit × Ledger :=
  match checkEnvelope s.envelope event "event ID is already present in the usage ledger" with
  | .error error => (.error error, s)
  | .ok () =>
    match visit s event with
    | .error error => (.error error, s)
    | .ok next => (.ok (), { next with envelope := s.envelope.next event })

def UsageLedgerProjection : Projection Ledger RunEvent UsageLedgerError where
  initial := {}
  apply := apply

structure CeilingState where
  ceiling : Option SessionSpendCeiling := none
  envelope : Envelope := {}

def setCeiling (current : Option SessionSpendCeiling) (payload : RunEventPayload) :
    Except UsageLedgerError (Option SessionSpendCeiling) :=
  match payload with
  | .sessionSpendCeilingSet ceiling source =>
    if source != .commandLine || !(SessionSpendCeiling.create ceiling.amount).isOk then
      .error ⟨.invalidCeiling, "session spend ceiling event is invalid"⟩
    else if current.any fun c => compare ceiling.amount c.amount == .gt then
      .error ⟨.ceilingWidening, "session spend ceiling cannot be widened"⟩
    else .ok (some ceiling)
  | _ => .ok current

def applyCeiling (s : CeilingState) (event : RunEvent) :
    Except UsageLedgerError Unit × CeilingState :=
  match checkEnvelope s.envelope event
    "event ID is already present in the spend ceiling projection" with
  | .error error => (.error error, s)
  | .ok () =>
    match setCeiling s.ceiling event.payload with
    | .error error => (.error error, s)
    | .ok ceiling => (.ok (), ⟨ceiling, s.envelope.next event⟩)

def SessionSpendCeilingProjection : Projection CeilingState RunEvent UsageLedgerError where
  initial := {}
  apply := applyCeiling

def ceilingOf : RunEventPayload → Option SessionSpendCeiling
  | .sessionSpendCeilingSet ceiling _ => some ceiling
  | _ => none

/-- The ceiling recorded last in a stream. -/
def latestCeiling (events : List RunEvent) : Option SessionSpendCeiling :=
  events.foldl (fun current event => (ceilingOf event.payload).or current) none

variable {event : RunEvent}

theorem checkEnvelope_ok_iff {envelope : Envelope} {duplicate : String} :
    checkEnvelope envelope event duplicate = .ok () ↔ envelope.Fresh event := by
  unfold checkEnvelope Envelope.Fresh
  constructor
  · intro h
    split_ifs at h with h₁ h₂ h₃
    exact ⟨by tauto, by tauto, h₂, by omega⟩
  · rintro ⟨h₁, h₂, h₃, _⟩
    rw [if_neg (by tauto), if_neg h₃, if_neg (by omega)]

theorem setCeiling_ok {current next : Option SessionSpendCeiling} {payload : RunEventPayload}
    (h : setCeiling current payload = .ok next) : next = (ceilingOf payload).or current := by
  unfold setCeiling at h
  split at h
  · split_ifs at h
    exact (Except.ok.inj h).symm
  · rename_i hn
    cases h
    have hc : ceilingOf payload = none := by
      unfold ceilingOf
      split
      · exact absurd rfl (hn _ _)
      · rfl
    simp [hc]

variable {s : CeilingState}

theorem applyCeiling_accepts (h : SessionSpendCeilingProjection.Accepts s event) :
    s.envelope.Fresh event ∧ (SessionSpendCeilingProjection.apply s event).2 =
      ⟨(ceilingOf event.payload).or s.ceiling, s.envelope.next event⟩ := by
  unfold Projection.Accepts at h
  simp only [SessionSpendCeilingProjection, applyCeiling] at h ⊢
  split at h
  · cases h
  · rename_i he
    rw [checkEnvelope_ok_iff] at he
    split at h
    · cases h
    · rename_i ceiling hc
      rw [setCeiling_ok hc]
      exact ⟨he, rfl⟩

theorem ceiling_atomic : SessionSpendCeilingProjection.Atomic := by
  intro s event h
  unfold Projection.Accepts at h
  simp only [SessionSpendCeilingProjection, applyCeiling] at h ⊢
  split
  · rfl
  · rename_i he
    split
    · rfl
    · rename_i ceiling hc
      rw [he, hc] at h
      exact absurd rfl h

/-- A ceiling that is accepted is compared with the one in force, digit by digit. -/
theorem accepts_not_above {c d : SessionSpendCeiling}
    (h : SessionSpendCeilingProjection.Accepts s event) (hc : s.ceiling = some c)
    (hd : ceilingOf event.payload = some d) : compare d.amount c.amount ≠ .gt := by
  unfold Projection.Accepts at h
  simp only [SessionSpendCeilingProjection, applyCeiling] at h
  split at h
  · cases h
  · split at h
    · cases h
    · rename_i next hnext
      unfold setCeiling at hnext
      split at hnext
      · rename_i ceiling source hp
        rw [hp] at hd
        obtain rfl : ceiling = d := Option.some.inj hd
        intro hgt
        rw [hc] at hnext
        split_ifs at hnext with hinvalid hwider
        simp [hgt] at hwider
      · rename_i hnot
        cases hp : event.payload <;> rw [hp] at hd <;> cases hd
        exact absurd hp (hnot _ _)

variable {events : List RunEvent}

theorem accepted_latestCeiling
    (h : SessionSpendCeilingProjection.Accepted SessionSpendCeilingProjection.initial events s) :
    s.ceiling = latestCeiling events := by
  refine accepted_history (J := fun past t => t.ceiling = latestCeiling past) ?_ [] h rfl
  intro past t event hx ht
  rw [(applyCeiling_accepts hx).2, latestCeiling, List.foldl_append]
  rw [ht]
  rfl

/-- A stream with fresh envelopes and no ceiling in it is accepted as it is. -/
theorem accepted_of_no_ceiling
    (hf : s.envelope.FreshStream events) (hn : ∀ event ∈ events, ceilingOf event.payload = none) :
    SessionSpendCeilingProjection.Accepted s events ⟨s.ceiling, s.envelope.after events⟩ := by
  induction events generalizing s with
  | nil => exact .nil s
  | cons event _ ih =>
    obtain ⟨hnew, hrest⟩ := hf
    have hnone : setCeiling s.ceiling event.payload = .ok s.ceiling := by
      have := hn event (by simp)
      unfold setCeiling
      split
      · rename_i hp
        simp [hp, ceilingOf] at this
      · rfl
    have happ : SessionSpendCeilingProjection.apply s event =
        (.ok (), ⟨s.ceiling, s.envelope.next event⟩) := by
      simp only [SessionSpendCeilingProjection, applyCeiling]
      rw [checkEnvelope_ok_iff.2 hnew, hnone]
    refine .cons (by simp [Projection.Accepts, happ]) ?_
    rw [happ]
    exact ih hrest fun e he => hn e (by simp [he])

theorem latestCeiling_none :
    latestCeiling events = none ↔ ∀ event ∈ events, ceilingOf event.payload = none := by
  induction events using List.reverseRecOn with
  | nil => simp [latestCeiling]
  | append_singleton _ event ih =>
    unfold latestCeiling at ih ⊢
    rw [List.foldl_append]
    simp only [List.foldl_cons, List.foldl_nil, Option.or_eq_none_iff, ih, List.mem_append,
      List.mem_singleton]
    constructor
    · rintro ⟨h₁, h₂⟩ e (he | rfl)
      · exact h₂ e he
      · exact h₁
    · exact fun h => ⟨h event (.inr rfl), fun e he => h e (.inl he)⟩

end UsageLedger
