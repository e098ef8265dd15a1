import AiForge.CostMerge
import AiForge.UsageMachine

/-! # Usage totals

The totals of the usage ledger are the exact sums over its records: bucket by bucket for the
usage, unit by unit for the reported cost. -/
namespace UsageTotals

open Content Events EventProjection KeyedList Money Staged UsageLedger UsageMachine Option

inductive UsageBucket where
  | input | output | cachedInput | reasoning

def bucket : UsageBucket → Usage → ℕ
  | .input, usage => usage.inputTokens
  | .output, usage => usage.outputTokens
  | .cachedInput, usage => usage.cachedInputTokens
  | .reasoning, usage => usage.reasoningTokens

@[simp] theorem bucket_default (b : UsageBucket) : bucket b {} = 0 := by
  cases b <;> rfl

theorem addChecked_some {total amount sum : ℕ} (h : addChecked total amount = some sum) :
    sum = total + amount ∧ amount ≤ uint64Max - total := by
  unfold addChecked at h
  split at h
  · cases h
  · cases h
    exact ⟨rfl, by omega⟩

/-- Usage is added without wrapping, or not at all. -/
theorem addUsage_some {total addition sum : Usage} (h : addUsage total addition = some sum)
    (b : UsageBucket) : bucket b sum = bucket b total + bucket b addition ∧
      bucket b addition ≤ uint64Max - bucket b total := by
  simp only [addUsage, bind_eq_bind, bind_eq_some_iff, pure_def,
    some.injEq] at h
  obtain ⟨input, hi, output, ho, _, hc, reasoning, hr, rfl⟩ := h
  cases b with
  | input => exact addChecked_some hi
  | output => exact addChecked_some ho
  | cachedInput => exact addChecked_some hc
  | reasoning => exact addChecked_some hr

/-- What a list of amounts comes to in one unit. -/
def amountIn (unit : String) (amounts : List MonetaryAmount) : ℚ :=
  (amounts.map fun a => if a.unit = unit then a.amount.value else 0).sum

def units (amounts : List MonetaryAmount) : List String := amounts.map MonetaryAmount.unit

def costIn (unit : String) (cost : Option ReportedCost) : ℚ :=
  match cost with
  | none => 0
  | some cost => amountIn unit cost.amounts

def costUnits (cost : Option ReportedCost) : List String :=
  match cost with
  | none => []
  | some cost => units cost.amounts

/-- Where every unit stands once, a list comes to what it has for the unit. -/
theorem amountIn_sorted {amounts : List MonetaryAmount} (h : SortedByUnit amounts)
    (unit : String) :
    amountIn unit amounts = ((amountAt amounts unit).map DecimalAmount.value).getD 0 := by
  induction amounts with
  | nil => rfl
  | cons a rest ih =>
    obtain ⟨hbelow, hrest⟩ := List.pairwise_cons.1 h
    have hcons : amountIn unit (a :: rest) =
        (if a.unit = unit then a.amount.value else 0) + amountIn unit rest := by
      simp [amountIn]
    rw [hcons, ih hrest, amountAt_cons]
    by_cases hunit : a.unit = unit
    · subst hunit
      rw [if_pos rfl, if_pos rfl, amountAt_below hbelow]
      simp
    · rw [if_neg hunit, if_neg hunit, zero_add]

/-- Reported costs are added exactly in every unit either of them names, or not at all. -/
theorem addCost_exact {total : Option ReportedCost} {cost sum : ReportedCost}
    (h : addCost total cost = .ok sum) (unit : String) :
    costIn unit (some sum) = costIn unit total + costIn unit (some cost) ∧
      (unit ∈ costUnits (some sum) ↔ unit ∈ costUnits total ∨ unit ∈ costUnits (some cost)) := by
  cases total with
  | none =>
    cases h
    simp [costIn, costUnits]
  | some total =>
    have hspec := cost_add_spec total cost
    rw [show total.add cost = .ok sum from h] at hspec
    obtain ⟨-, hmerge⟩ := hspec
    constructor
    · have hvalue := combineAt_value (hmerge.amounts unit)
      rwa [← amountIn_sorted sum.sorted, ← amountIn_sorted total.sorted,
        ← amountIn_sorted cost.sorted] at hvalue
    · have hunits : unit ∈ (units sum.amounts).toFinset ↔
          unit ∈ (units total.amounts).toFinset ∪ (units cost.amounts).toFinset := by
        rw [units, hmerge.units]
        rfl
      simpa [costUnits] using hunits

def usageSum (b : UsageBucket) (records : List InferenceUsageRecord) : ℕ :=
  (records.map fun r => bucket b r.usage).sum

def costSum (unit : String) (records : List InferenceUsageRecord) : ℚ :=
  (records.map fun r => costIn unit r.reportedCost).sum

structure Exact (s : Ledger) : Prop where
  usage_total : ∀ b, bucket b s.totalUsage = usageSum b s.records
  usage_fits : ∀ b, bucket b s.totalUsage ≤ uint64Max
  cost_total : ∀ unit, costIn unit s.totalReportedCost = costSum unit s.records
  cost_units : ∀ unit, unit ∈ costUnits s.totalReportedCost ↔
    ∃ r ∈ s.records, unit ∈ costUnits r.reportedCost
  inference_unique : (s.records.map InferenceUsageRecord.inferenceId).Nodup

variable {s : Ledger} {i : InferenceId} {r : InferenceUsageRecord}
  {f : InferenceUsageRecord → InferenceUsageRecord}

theorem usageSum_change {b : UsageBucket} (extra : ℕ)
    (hr : s.findRecord i = some r) (hf : bucket b (f r).usage = bucket b r.usage + extra) :
    usageSum b (s.change i f).records = usageSum b s.records + extra := sum_update hr hf

theorem costSum_change {unit : String} (extra : ℚ) (hr : s.findRecord i = some r)
    (hf : costIn unit (f r).reportedCost = costIn unit r.reportedCost + extra) :
    costSum unit (s.change i f).records = costSum unit s.records + extra := sum_update hr hf

theorem exists_unit_change {unit : String} (extra : List String)
    (hd : Distinct InferenceUsageRecord.inferenceId s.records) (hr : s.findRecord i = some r)
    (hid : ∀ x : InferenceUsageRecord, (f x).inferenceId = x.inferenceId)
    (hf : unit ∈ costUnits (f r).reportedCost ↔ unit ∈ costUnits r.reportedCost ∨ unit ∈ extra) :
    (∃ x ∈ (s.change i f).records, unit ∈ costUnits x.reportedCost) ↔
      (∃ x ∈ s.records, unit ∈ costUnits x.reportedCost) ∨ unit ∈ extra := by
  have hkey : ∀ x : InferenceUsageRecord, x.inferenceId = i → (f x).inferenceId = i :=
    fun x hx => (hid x).trans hx
  constructor
  · rintro ⟨x, hx, hu⟩
    rcases mem_update hkey hd hx with ⟨-, hold⟩ | ⟨y, hy, rfl⟩
    · exact .inl ⟨x, hold, hu⟩
    · obtain rfl : r = y := some.inj (hr.symm.trans hy)
      rcases hf.1 hu with hold | hnew
      · exact .inl ⟨r, lookup_mem hr, hold⟩
      · exact .inr hnew
  · have hchg := mem_update_self hkey hr
    rintro (⟨x, hx, hu⟩ | hnew)
    · by_cases hxi : x.inferenceId = i
      · have hxr : s.findRecord i = some x := by
          rw [← hxi]
          exact lookup_of_mem hd hx
        obtain rfl : r = x := some.inj (hr.symm.trans hxr)
        exact ⟨f r, hchg, hf.2 (.inl hu)⟩
      · exact ⟨x, mem_update_ne hkey hd hx hxi, hu⟩
    · exact ⟨f r, hchg, hf.2 (.inr hnew)⟩

variable {event : RunEvent}

theorem booked_distinct {t : Ledger} (h : Booked s event t)
    (hd : Distinct InferenceUsageRecord.inferenceId s.records) :
    Distinct InferenceUsageRecord.inferenceId t.records := by
  cases h with
  | kept => exact hd
  | opened _ hnew => exact distinct_snoc hd hnew
  | noted _ _ _ _ hid => exact distinct_update (fun x hx => (hid x).trans hx) hd
  | used | charged => exact distinct_update (fun _ hx => hx) hd

theorem booked_exact {t : Ledger} (h : Booked s event t) (hs : Exact s) : Exact t := by
  have huniq := booked_distinct h hs.inference_unique
  cases h with
  | kept => exact hs
  | opened =>
    refine ⟨fun b => ?_, hs.usage_fits, fun unit => ?_, fun unit => ?_, huniq⟩
    · simpa [usageSum] using hs.usage_total b
    · simpa [costSum, costIn] using hs.cost_total unit
    · simpa [costUnits, or_and_right, exists_or] using hs.cost_units unit
  | noted _ hr _ _ hid _ huse hcost =>
    refine ⟨fun b => ?_, hs.usage_fits, fun unit => ?_, fun unit => ?_, huniq⟩
    · rw [usageSum_change 0 hr (by rw [huse, add_zero])]
      exact hs.usage_total b
    · rw [costSum_change 0 hr (by rw [hcost, add_zero]), add_zero]
      exact hs.cost_total unit
    · refine (hs.cost_units unit).trans ?_
      rw [exists_unit_change [] hs.inference_unique hr hid (by simp [hcost])]
      simp
  | @used i r usage recordUsage totalUsage hp hr hrun hact hrec htot =>
    have hsum := addUsage_some htot
    refine ⟨fun b => ?_, fun b => ?_, fun unit => ?_, fun unit => ?_, huniq⟩
    · rw [(hsum b).1, hs.usage_total b]
      exact (usageSum_change _ hr (addUsage_some hrec b).1).symm
    · have hfits := hs.usage_fits b
      obtain ⟨_, _⟩ := hsum b
      change bucket b totalUsage ≤ uint64Max
      omega
    · refine (hs.cost_total unit).trans ?_
      exact (add_zero (costSum unit s.records)).symm.trans
        (costSum_change 0 hr (add_zero _).symm).symm
    · refine (hs.cost_units unit).trans ?_
      refine Iff.trans ?_ (exists_unit_change [] hs.inference_unique hr ?_ ?_).symm
      · simp
      · exact fun _ => rfl
      · simp
  | @charged i r cost total hp hr hrun hact hnone htot =>
    have hexact := addCost_exact htot
    refine ⟨fun b => ?_, hs.usage_fits, fun unit => ?_, fun unit => ?_, huniq⟩
    · rw [usageSum_change 0 hr rfl]
      exact hs.usage_total b
    · rw [(hexact unit).1, hs.cost_total unit]
      refine (costSum_change _ hr ?_).symm
      rw [hnone]
      simp [costIn]
    · refine (hexact unit).2.trans ?_
      rw [hs.cost_units unit]
      refine (exists_unit_change _ hs.inference_unique hr ?_ ?_).symm
      · exact fun _ => rfl
      · simp [hnone, costUnits]

/-- An event leaves every ended record in its place as it is. -/
theorem booked_frozen {t : Ledger} {n : ℕ}
    (h : Booked s event t) (hd : Distinct InferenceUsageRecord.inferenceId s.records)
    (hr : s.records[n]? = some r) (hend : r.status ≠ .active) : t.records[n]? = some r := by
  -- A record that is written to is active, so it is another one.
  have hoth : ∀ i active, s.findRecord i = some active → active.status = .active →
      r.inferenceId ≠ i := by
    rintro i active ha hstat rfl
    have hself := lookup_of_mem hd (List.mem_of_getElem? hr)
    obtain rfl : active = r := some.inj (ha.symm.trans hself)
    exact hend hstat
  cases h with
  | kept => exact hr
  | opened =>
    have hlt : n < s.records.length := (List.getElem?_eq_some_iff.1 hr).1
    exact (List.getElem?_append_left hlt).trans hr
  | noted _ hfnd _ hact | used _ hfnd _ hact | charged _ hfnd _ hact =>
    exact getElem?_update_ne hr (hoth _ _ hfnd hact)

theorem reachable_exact (h : UsageLedgerProjection.Reachable s) : Exact s := by
  refine reachable_inv ledger_atomic ?_ ?_ h
  · have hemp : Exact {} := by
      constructor <;> simp [usageSum, costSum, costIn, costUnits]
    exact hemp
  · intro s event ha hs
    obtain ⟨_, hbook, happ⟩ := ledger_accepts ha
    have ht := booked_exact hbook hs
    rw [happ]
    exact ⟨ht.usage_total, ht.usage_fits, ht.cost_total, ht.cost_units, ht.inference_unique⟩

/-- An ended record keeps its place and its value through every later stream. -/
theorem feed_frozen (h : UsageLedgerProjection.Reachable s) {n : ℕ}
    (hr : s.records[n]? = some r) (hend : r.status ≠ .active)
    (events : List RunEvent) : (UsageLedgerProjection.feed s events).records[n]? = some r := by
  have hinv := feed_invariant (P := UsageLedgerProjection)
    (I := fun u : Ledger => u.records[n]? = some r ∧
      Distinct InferenceUsageRecord.inferenceId u.records)
    (atomic_step ledger_atomic ?_) ⟨hr, (reachable_exact h).inference_unique⟩ events
  · exact hinv.1
  · rintro u _ ha ⟨hu, hd⟩
    obtain ⟨_, hbook, happ⟩ := ledger_accepts ha
    rw [happ]
    have hkept := booked_frozen hbook hd hu hend
    have hdist := booked_distinct hbook hd
    exact ⟨hkept, hdist⟩

/-- In every state the ledger reaches, through accepted and refused events, its totals are the
exact sums over its records and no inference occurs twice; an ended record never changes; and a
refused event leaves everything as it was. -/
theorem usage_ledger_exact : (∀ s, LedgerMachine.Reachable s → Exact s) ∧
    (∀ s (n : ℕ) (r : InferenceUsageRecord), LedgerMachine.Reachable s →
      s.records[n]? = some r → r.status ≠ .active → ∀ events,
      (LedgerMachine.feed s events).records[n]? = some r) ∧
    (∀ s event, ¬ LedgerMachine.Accepts s event → (LedgerMachine.apply s event).2 = s) := by
  rw [ledgerMachine_eq]
  refine ⟨fun s hs => reachable_exact hs, ?_, ledger_atomic⟩
  intro s n r hs hr hended events
  exact feed_frozen hs hr hended events

end UsageTotals
