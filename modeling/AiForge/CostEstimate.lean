import AiForge.WideProduct

/-! # Estimated costs

An estimate is the exact sum of three products of tokens and rates, all from one tier of the
rate card. What has no amount, what has no rate and what lies between the tiers is reported as
unavailable. -/
namespace UsageLedger

open Content DecimalDigits Money Pricing

theorem stripScale_split (reversed : List Char) (scale : ℕ) :
    ∃ zeros, reversed = List.replicate zeros '0' ++ (stripScale reversed scale).1 ∧
      scale = (stripScale reversed scale).2 + zeros ∧
      (reversed ≠ [] → (stripScale reversed scale).1 ≠ []) := by
  induction scale generalizing reversed with
  | zero =>
    have hstop : stripScale reversed 0 = (reversed, 0) := by simp [stripScale]
    rw [hstop]
    exact ⟨0, rfl, rfl, id⟩
  | succ scale ih =>
    have hstop (h : ∀ c rest, reversed ≠ '0' :: c :: rest) :
        stripScale reversed (scale + 1) = (reversed, scale + 1) := by
      rw [stripScale]
      · exact nofun
      · exact fun _ _ _ hzero _ => h _ _ hzero
    by_cases hzero : ∃ c rest, reversed = '0' :: c :: rest
    · obtain ⟨c, rest, rfl⟩ := hzero
      obtain ⟨zeros, hsplit, hsc, hne⟩ := ih (c :: rest)
      rw [stripScale]
      refine ⟨zeros + 1, ?_, by omega, fun _ => hne (List.cons_ne_nil _ _)⟩
      rw [List.replicate_succ, List.cons_append, ← hsplit]
    · rw [hstop fun c rest heq => hzero ⟨c, rest, heq⟩]
      exact ⟨0, rfl, rfl, id⟩

/-- A rate for so many tokens is exact, and refused only where no amount has that value. -/
theorem scaledAmount_ok {rate amount : DecimalAmount} {tokens : ℕ} (h : tokens ≤ uint64Max) :
    scaledAmount rate tokens = .ok amount ↔ amount.value = rate.value * tokens / 10 ^ 6 := by
  have hrate := rate.coefficient_le
  have hsc := rate.scale_le
  have hmax : uint64Max = 2 ^ 64 - 1 := rfl
  have heighteen : maximumScale = 18 := rfl
  have htext := @multipliedText_eq rate.coefficient tokens (by omega) (by omega)
  have hsh : (Nat.toDigits 10 (rate.coefficient * tokens)).length ≤ 39 := by
    refine Nat.toDigits_length 10 _ 39 (by decide) ?_
    calc rate.coefficient * tokens ≤ uint64Max * uint64Max := Nat.mul_le_mul hrate h
      _ < 10 ^ 39 := by decide
  obtain ⟨zeros, hsplit, hleft, hne⟩ := stripScale_split
    (Nat.toDigits 10 (rate.coefficient * tokens)).reverse (rate.scale + 6)
  have hkept := hne (by simp)
  unfold scaledAmount
  dsimp only
  rw [htext]
  generalize stripScale (Nat.toDigits 10 (rate.coefficient * tokens)).reverse (rate.scale + 6) =
    stripped at *
  have hdigs : Nat.toDigits 10 (rate.coefficient * tokens) =
      stripped.1.reverse ++ List.replicate zeros '0' := by
    rw [← List.reverse_inj, hsplit]
    simp
  have hval : rate.coefficient * tokens = textValue stripped.1.reverse * 10 ^ zeros := by
    rw [← textValue_append_zeros, ← hdigs, textValue_toDigits]
  have hall : ∀ c ∈ stripped.1.reverse, IsDigit c := fun c hc =>
    isDigit_toDigits (by rw [hdigs]; exact List.mem_append_left _ hc)
  have hlen : stripped.1.reverse.length ≤ 39 := by
    rw [hdigs, List.length_append] at hsh
    omega
  have hexact : (textValue stripped.1.reverse : ℚ) / 10 ^ stripped.2 =
      rate.value * tokens / 10 ^ 6 := by
    have hprod : (rate.coefficient : ℚ) * tokens = textValue stripped.1.reverse * 10 ^ zeros := by
      exact_mod_cast hval
    have hpower : (10 : ℚ) ^ rate.scale * 10 ^ 6 = 10 ^ stripped.2 * 10 ^ zeros := by
      rw [← pow_add, ← pow_add, hleft]
    unfold DecimalAmount.value
    rw [div_mul_eq_mul_div, hprod, div_div, hpower]
    field_simp
  have hread : DecimalAmount.ofText (insertPoint stripped.1.reverse stripped.2) = .ok amount ↔
      amount.value = rate.value * tokens / 10 ^ 6 := by
    rw [ofText_insertPoint hall (by simpa using hkept) (by omega) (by omega), hexact]
  rw [← hread]
  split
  · rename_i herr
    rw [herr]
    exact iff_of_false nofun nofun
  · rename_i hok
    rw [hok]
    simp only [Except.ok.injEq]

def rateFor (price : Option PriceRate) (unit : CostEstimateUnit) : Option DecimalAmount :=
  price.bind fun p => priceForUnit p unit

/-- What a bucket of tokens costs: nothing for no tokens, whether or not there is a rate. -/
def bucketCost (price : Option PriceRate) (unit : CostEstimateUnit) (tokens : ℕ) : ℚ :=
  ((rateFor price unit).map DecimalAmount.value).getD 0 * tokens

theorem bucketAmount_ok {price : Option PriceRate} {unit : CostEstimateUnit} {tokens : ℕ}
    {amount : DecimalAmount} (htok : tokens ≤ uint64Max)
    (h : bucketAmount price unit tokens = .ok amount) :
    amount.value = bucketCost price unit tokens / 10 ^ 6 ∧
      (tokens ≠ 0 → rateFor price unit ≠ none) := by
  unfold bucketAmount at h
  unfold bucketCost rateFor
  split at h
  · rename_i hzero
    cases h
    rw [hzero, zero_value]
    exact ⟨by simp, fun hne => absurd rfl hne⟩
  · split at h
    · cases h
    · rename_i rate hrate
      rw [hrate]
      exact ⟨(scaledAmount_ok htok).1 h, fun _ => nofun⟩

theorem addEstimate_ok {left right sum : DecimalAmount} (h : addEstimate left right = .ok sum) :
    sum.value = left.value + right.value := by
  unfold addEstimate at h
  split at h
  · cases h
  · rename_i hadd
    cases h
    exact add_value hadd

/-- The counts are 64-bit numbers. -/
structure Counted (usage : Usage) : Prop where
  input : usage.inputTokens ≤ uint64Max
  output : usage.outputTokens ≤ uint64Max

/-- The tier that an inference is estimated in, and why it may be. -/
def InTier (usage : Usage) (pricing : TextPricing) (tier : TextPriceTier) :
    PricingTierSelection → Prop
  | .base => tier = pricing.base ∧
      (pricing.extended = none ∨ ∃ threshold, pricing.extendedThresholdTokens = some threshold ∧
        usage.inputTokens + usage.outputTokens ≤ threshold)
  | .extended => pricing.extended = some tier ∧
      ∃ threshold, pricing.extendedThresholdTokens = some threshold ∧
        threshold < usage.inputTokens

def uncachedTokens (usage : Usage) : ℕ := usage.inputTokens - usage.cachedInputTokens

/-- What an estimate says of its record: its amount is exact, in one tier, and every amount on
the way to it is the amount of its value. -/
structure Estimated (record : InferenceUsageRecord) (unit : CostEstimateUnit)
    (estimate : InferenceCostEstimate) (pricing : TextPricing) (tier : TextPriceTier) : Prop where
  chosen : InTier record.usage pricing tier estimate.tier
  named : estimate.amount.unit = costEstimateUnitName unit
  cached : record.usage.cachedInputTokens ≤ record.usage.inputTokens
  exact : estimate.amount.amount.value = (bucketCost tier.input unit (uncachedTokens record.usage) +
    bucketCost tier.cacheInput unit record.usage.cachedInputTokens +
    bucketCost tier.output unit record.usage.outputTokens) / 10 ^ 6
  inputRate : uncachedTokens record.usage ≠ 0 → rateFor tier.input unit ≠ none
  cacheRate : record.usage.cachedInputTokens ≠ 0 → rateFor tier.cacheInput unit ≠ none
  outputRate : record.usage.outputTokens ≠ 0 → rateFor tier.output unit ≠ none
  input : Representable (bucketCost tier.input unit (uncachedTokens record.usage) / 10 ^ 6)
  cache : Representable
    (bucketCost tier.cacheInput unit record.usage.cachedInputTokens / 10 ^ 6)
  output : Representable (bucketCost tier.output unit record.usage.outputTokens / 10 ^ 6)
  inputAndCache : Representable ((bucketCost tier.input unit (uncachedTokens record.usage) +
    bucketCost tier.cacheInput unit record.usage.cachedInputTokens) / 10 ^ 6)

theorem selectTier_ok {usage : Usage} {pricing : TextPricing} {tier : TextPriceTier}
    {selection : PricingTierSelection}
    (hpair : pricing.extended.isSome = pricing.extendedThresholdTokens.isSome)
    (h : selectTier usage pricing = .ok (tier, selection)) : InTier usage pricing tier selection := by
  unfold selectTier at h
  split at h
  · rename_i extended threshold hext hthr
    split at h
    · cases h
    split at h
    · rename_i hle
      cases h
      exact ⟨rfl, .inr ⟨threshold, hthr, hle⟩⟩
    split at h
    · rename_i hgt
      cases h
      exact ⟨hext, threshold, hthr, hgt⟩
    · cases h
  · rename_i hnot
    cases h
    refine ⟨rfl, .inl ?_⟩
    cases hext : pricing.extended with
    | none => rfl
    | some extended =>
      rw [hext, Option.isSome_some] at hpair
      obtain ⟨threshold, hthr⟩ := Option.isSome_iff_exists.1 hpair.symm
      exact absurd hthr (hnot extended threshold hext)

theorem paired_of_valid {observation : PricingObservation}
    (h : (validatePricingObservation observation).isOk) :
    observation.pricing.extended.isSome =
      observation.pricing.extendedThresholdTokens.isSome := by
  unfold validatePricingObservation at h
  split at h
  · cases h
  split at h
  · cases h
  split at h
  · cases h
  · rename_i hprice
    unfold validatePricing at hprice
    split at hprice
    · cases hprice
    · rename_i hval
      simp only [Bool.or_eq_true, not_or, bne_iff_ne, ne_eq, not_not] at hval
      exact hval.1.1.2

theorem create_ok {unit : String} {amount : DecimalAmount} {money : MonetaryAmount}
    (h : MonetaryAmount.create unit amount = .ok money) :
    money.unit = unit ∧ money.amount = amount := by
  unfold MonetaryAmount.create at h
  split at h
  · cases h
    exact ⟨rfl, rfl⟩
  · cases h

/-- An estimate is exact and keeps to one tier; what it would have to round, to take a missing
rate for or to split between tiers is no estimate. -/
theorem estimate_exact {record : InferenceUsageRecord} {unit : CostEstimateUnit}
    {estimate : InferenceCostEstimate} (hcounted : Counted record.usage)
    (h : estimateInferenceCost record unit = .ok estimate) :
    ∃ observation tier, record.pricingObservation = some observation ∧
      Estimated record unit estimate observation.pricing tier := by
  unfold estimateInferenceCost at h
  simp only [bind, Except.bind, throw, throwThe, MonadExceptOf.throw, pure, Except.pure] at h
  repeat' (split at h <;> try cases h)
  rename_i observation hobservation hvalid hconsistent _ chosen hselect _ _ _ input hinput _ cached
    hcached _ output houtput _ inputAndCache hpartial _ total htotal _ money hmoney
  have hcache : record.usage.cachedInputTokens ≤ record.usage.inputTokens := by
    by_contra hlt
    exact hconsistent (.inl (Nat.lt_of_not_le hlt))
  have hbound := hcounted.input
  obtain ⟨hin, hinRate⟩ := bucketAmount_ok ((Nat.sub_le _ _).trans hbound) hinput
  obtain ⟨hread, hreadRate⟩ := bucketAmount_ok (hcache.trans hbound) hcached
  obtain ⟨hout, houtRate⟩ := bucketAmount_ok hcounted.output houtput
  have hsum := addEstimate_ok hpartial
  have hall := addEstimate_ok htotal
  obtain ⟨hunit, hamount⟩ := create_ok hmoney
  have hpaired := @paired_of_valid observation (by simpa using hvalid)
  rw [hin, hread] at hsum
  exact ⟨observation, chosen.1, hobservation,
    { chosen := selectTier_ok hpaired hselect
      named := hunit
      cached := hcache
      exact := by
        rw [hamount, hall, hsum, hout, uncachedTokens]
        ring
      inputRate := hinRate
      cacheRate := hreadRate
      outputRate := houtRate
      input := by
        rw [uncachedTokens, ← hin]
        exact input.representable
      cache := by
        rw [← hread]
        exact cached.representable
      output := by
        rw [← hout]
        exact output.representable
      inputAndCache := by
        rw [uncachedTokens, add_div, ← hsum]
        exact inputAndCache.representable }⟩

def sampleRate : PriceRate := ⟨some twoAndAHalf, none⟩

def sampleTier : TextPriceTier := ⟨some sampleRate, some sampleRate, some sampleRate, none⟩

def tieredPricing : TextPricing := ⟨sampleTier, some 10, some sampleTier⟩

def plainPricing : TextPricing := ⟨sampleTier, none, none⟩

def sampleRecord (pricing : TextPricing) : InferenceUsageRecord where
  runId := "run"
  inferenceId := "inference"
  modelId := "model"
  startedAt := 0
  usage := { inputTokens := 3, outputTokens := 2, cachedInputTokens := 1 }
  usageObserved := true
  pricingObservation := some ⟨"model", "source", none, 0, .live, .perMillionTokens, pricing,
    pricingDigest "model" pricing⟩

theorem sample_estimated : ∃ estimate observation tier,
    estimateInferenceCost (sampleRecord tieredPricing) .usd = .ok estimate ∧
      Estimated (sampleRecord tieredPricing) .usd estimate observation tier := by
  have hok : (estimateInferenceCost (sampleRecord tieredPricing) .usd).isOk := by decide +kernel
  obtain ⟨estimate, hestimate⟩ := Staged.isOk_iff.1 hok
  obtain ⟨observation, tier, -, hestimated⟩ :=
    estimate_exact ⟨by decide, by decide⟩ hestimate
  exact ⟨estimate, observation.pricing, tier, hestimate, hestimated⟩

/-- A card with one tier has no threshold, and its tier is taken for any counts. -/
theorem plain_card_unbounded : ¬ ∀ (record : InferenceUsageRecord) (unit : CostEstimateUnit)
    (estimate : InferenceCostEstimate), estimateInferenceCost record unit = .ok estimate →
      estimate.tier = .base → ∃ observation threshold,
        record.pricingObservation = some observation ∧
        observation.pricing.extendedThresholdTokens = some threshold ∧
        record.usage.inputTokens + record.usage.outputTokens ≤ threshold := by
  intro h
  have hok : (estimateInferenceCost (sampleRecord plainPricing) .usd).isOk := by decide +kernel
  obtain ⟨estimate, hestimate⟩ := Staged.isOk_iff.1 hok
  have htier : estimate.tier = .base := by
    have hbase : (estimateInferenceCost (sampleRecord plainPricing) .usd).toOption.map
        InferenceCostEstimate.tier = some .base := by decide +kernel
    rw [hestimate] at hbase
    exact Option.some.inj hbase
  obtain ⟨observation, threshold, hobservation, hthreshold, -⟩ := h _ _ _ hestimate htier
  cases hobservation
  cases hthreshold

end UsageLedger
