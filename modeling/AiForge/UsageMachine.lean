import AiForge.Operation
import AiForge.UsageLedger

/-! # The usage ledger in place

`UsageLedgerProjection::apply` writes through pointers into its own records and totals. The
operations below assign where the source assigns; what they add up first is kept in copies, so
an event refused for an overflow has changed nothing. From what one accepted event can do the
totals, the identities and the finality of ended records follow for every stream. -/
namespace UsageMachine

open Option

open Content Events EventProjection KeyedList Money Operation Pricing Staged UsageLedger

abbrev LedgerOp := Op Ledger UsageLedgerError

/-- Adds to a counter and tells whether the sum fits; a counter that would overflow is left. -/
def addCheckedInPlace (total amount : ℕ) : Bool × ℕ :=
  if amount > uint64Max - total then (false, total) else (true, total + amount)

/-- Adds bucket after bucket and stops at the first that overflows, earlier ones added. -/
def addUsageInPlace (total addition : Usage) : Bool × Usage :=
  let input := addCheckedInPlace total.inputTokens addition.inputTokens
  let total := { total with inputTokens := input.2 }
  if !input.1 then (false, total)
  else
    let output := addCheckedInPlace total.outputTokens addition.outputTokens
    let total := { total with outputTokens := output.2 }
    if !output.1 then (false, total)
    else
      let cached := addCheckedInPlace total.cachedInputTokens addition.cachedInputTokens
      let total := { total with cachedInputTokens := cached.2 }
      if !cached.1 then (false, total)
      else
        let reasoning := addCheckedInPlace total.reasoningTokens addition.reasoningTokens
        (reasoning.1, { total with reasoningTokens := reasoning.2 })

/-- The record an event is about, looked up and checked to be of the event's run. -/
def requireRecord (event : RunEvent) (i : InferenceId) (unknown wrongRun : String) :
    LedgerOp InferenceUsageRecord := do
  let s ← get
  let record ← require (s.findRecord i) ⟨.unknownInference, unknown⟩
  ensure (record.runId = event.metadata.runId) ⟨.wrongRun, wrongRun⟩
  return record

def writeRecord (i : InferenceId) (f : InferenceUsageRecord → InferenceUsageRecord) :
    LedgerOp PUnit := modify fun s => s.change i f

def finishInPlace (event : RunEvent) (i : InferenceId) (status : InferenceUsageStatus) :
    LedgerOp PUnit := do
  let record ← requireRecord event i "inference terminal event has no matching start"
    "inference terminal event belongs to another run"
  ensure (record.status = .active)
    ⟨.invalidTransition, "inference usage record is already terminal"⟩
  writeRecord i fun r => { r with status := status }
  writeRecord i fun r => { r with endedAt := some event.metadata.timestamp }

def visitInPlace (event : RunEvent) : LedgerOp PUnit :=
  match event.payload with
  | .inferenceStarted i modelId => do
    let s ← get
    ensure (s.findRecord i = none)
      ⟨.duplicateInference, "inference ID is already present in the usage ledger"⟩
    modify fun s => { s with
      records := s.records ++
        [{ runId := event.metadata.runId, inferenceId := i, modelId := modelId,
           startedAt := event.metadata.timestamp }] }
  | .inferencePricingObserved i observation => do
    let record ← requireRecord event i "pricing has no matching inference start"
      "pricing belongs to another run"
    ensure (record.status = .active ∧ record.pricingObservation = none ∧
        record.modelId = observation.modelId)
      ⟨.invalidTransition, "pricing cannot follow a terminal or prior observation"⟩
    ensure ((validatePricingObservation observation).isOk)
      ⟨.invalidPricing, "pricing observation is malformed"⟩
    writeRecord i fun r => { r with pricingObservation := some observation }
  | .usageRecorded i usage => do
    let record ← requireRecord event i "usage event has no matching inference start"
      "usage event belongs to another run"
    ensure (record.status = .active)
      ⟨.invalidTransition, "usage cannot follow an inference terminal event"⟩
    let s ← get
    let nextRecordUsage := addUsageInPlace record.usage usage
    let nextTotalUsage := addUsageInPlace s.totalUsage usage
    ensure (nextRecordUsage.1 ∧ nextTotalUsage.1)
      ⟨.usageOverflow, "usage ledger total overflow"⟩
    writeRecord i fun r => { r with usage := nextRecordUsage.2 }
    writeRecord i fun r => { r with usageObserved := true }
    modify fun s => { s with totalUsage := nextTotalUsage.2 }
  | .inferenceCostRecorded i cost => do
    let record ← requireRecord event i "cost event has no matching inference start"
      "cost event belongs to another run"
    ensure (record.status = .active ∧ record.reportedCost = none)
      ⟨.invalidTransition, "cost cannot follow a terminal or prior cost event"⟩
    let s ← get
    let nextTotal ← require (addCost s.totalReportedCost cost).toOption
      ⟨.costOverflow, "reported cost ledger total overflow"⟩
    writeRecord i fun r => { r with reportedCost := some cost }
    modify fun s => { s with totalReportedCost := some nextTotal }
  | .inferenceFinished i _ => finishInPlace event i .completed
  | .inferenceFailed i _ => finishInPlace event i .failed
  | .inferenceCancelled i _ => finishInPlace event i .cancelled
  | _ => pure ⟨⟩

def applyInPlace (event : RunEvent) : LedgerOp PUnit := do
  let s ← get
  ensure (event.metadata.sequence ≠ 0 ∧ event.metadata.schemaVersion ≠ 0)
    ⟨.invalidEnvelope, "event sequence and schema version must be positive"⟩
  ensure (event.metadata.eventId ∉ s.envelope.eventIds)
    ⟨.duplicateEventId, "event ID is already present in the usage ledger"⟩
  ensure (s.envelope.lastSequence < event.metadata.sequence)
    ⟨.nonMonotonicSequence, "event sequence must increase"⟩
  visitInPlace event
  modify fun s => { s with envelope := s.envelope.next event }

def LedgerMachine : Projection Ledger RunEvent UsageLedgerError :=
  ⟨{}, fun s event => applyInPlace event s⟩

theorem addUsageInPlace_of_some {total addition sum : Usage}
    (h : addUsage total addition = some sum) : addUsageInPlace total addition = (true, sum) := by
  simp only [addUsage, addChecked, pure_def, bind_eq_bind] at h
  simp only [addUsageInPlace, addCheckedInPlace]
  split_ifs at h ⊢ <;> simp_all

theorem addUsageInPlace_of_none {total addition : Usage} (h : addUsage total addition = none) :
    (addUsageInPlace total addition).1 = false := by
  simp only [addUsage, addChecked, pure_def, bind_eq_bind] at h
  simp only [addUsageInPlace, addCheckedInPlace]
  split_ifs at h ⊢ <;> simp_all

section Rules

variable {s : Ledger} {r : Except UsageLedgerError Ledger} {event : RunEvent} {i : InferenceId}

theorem computes_requireRecord_bind {unknown wrongRun : String}
    {f : InferenceUsageRecord → LedgerOp PUnit}
    {g : InferenceUsageRecord → Except UsageLedgerError Ledger}
    (h : ∀ record, s.findRecord i = some record → Computes (f record) s (g record)) :
    Computes (requireRecord event i unknown wrongRun >>= f) s
      (s.require event i unknown wrongRun >>= g) := by
  cases hr : s.findRecord i with
  | none =>
    have hpure : s.require event i unknown wrongRun = .error ⟨.unknownInference, unknown⟩ := by
      simp only [Ledger.require, hr]
    rw [hpure]
    change Computes ((require (s.findRecord i) _ >>= _) >>= f) s _
    rw [hr]
    rfl
  | some record =>
    change Computes ((require (s.findRecord i) _ >>= _) >>= f) s _
    rw [hr]
    change Computes ((ensure (record.runId = event.metadata.runId) _ >>= fun _ => pure record) >>= f)
      s _
    by_cases hrun : record.runId = event.metadata.runId
    · have hpure : s.require event i unknown wrongRun = .ok record := by
        simp only [Ledger.require, hr, hrun, bne_self_eq_false, Bool.false_eq_true, if_false]
      rw [hpure, show ensure (record.runId = event.metadata.runId) _ = pure _ from if_pos hrun]
      exact h record hr
    · have hpure : s.require event i unknown wrongRun = .error ⟨.wrongRun, wrongRun⟩ := by
        simp only [Ledger.require, hr, bne_iff_ne, ne_eq, hrun, not_false_eq_true, if_true]
      rw [hpure, show ensure (record.runId = event.metadata.runId) _ = throw _ from if_neg hrun]
      rfl

theorem change_change {f g : InferenceUsageRecord → InferenceUsageRecord}
    (hf : ∀ x, (f x).inferenceId = x.inferenceId) :
    (s.change i f).change i g = s.change i fun x => g (f x) := by
  have hrec : ((s.change i f).change i g).records = (s.change i fun x => g (f x)).records :=
    updateFirst_update fun x hx => (hf x).trans hx
  exact congrArg (fun records : List InferenceUsageRecord => { s with records := records }) hrec

theorem computes_finishInPlace {status : InferenceUsageStatus} :
    Computes (finishInPlace event i status) s (finish s event i status) := by
  refine computes_requireRecord_bind fun record hr => ?_
  refine computes_ensure_bind (fun hact => computes_total rfl ?_) fun hact => ?_
  · simp only [hact, bne_self_eq_false, Bool.false_eq_true, if_false]
    refine congrArg Except.ok (Eq.symm (change_change ?_))
    exact fun _ => rfl
  · simp only [bne_iff_ne, ne_eq, hact, not_false_eq_true, if_true]
    rfl

end Rules

theorem visitInPlace_computes (s : Ledger) (event : RunEvent) :
    Computes (visitInPlace event) s (visit s event) := by
  unfold visitInPlace visit
  cases event.payload <;> dsimp only
  case inferenceStarted i modelId =>
    refine computes_get_bind (computes_ensure_bind (fun hnew => computes_modify ?_) fun hold => ?_)
    · simp [applyStarted, hnew]
    · simp [applyStarted, isSome_iff_ne_none.2 hold]
  case inferencePricingObserved i observation =>
    refine computes_requireRecord_bind fun record hr => ?_
    refine computes_ensure_bind (fun hfst => ?_) fun hfst => ?_
    · refine computes_ensure_bind (fun hval => computes_modify ?_) fun hval => ?_
      · simp [hfst, hval]
        rfl
      · simp [hfst, hval]
        rfl
    · have href : (record.status != .active || record.pricingObservation.isSome ||
          record.modelId != observation.modelId) = true := by
        by_contra hc
        simp only [Bool.or_eq_true, bne_iff_ne, ne_eq, not_or, not_not, Bool.not_eq_true,
          isSome_eq_false_iff, isNone_iff_eq_none] at hc
        exact hfst ⟨hc.1.1, hc.1.2, hc.2⟩
      simp only [href, if_true]
      rfl
  case usageRecorded i usage =>
    refine computes_requireRecord_bind fun record hr => ?_
    refine computes_ensure_bind (fun hact => computes_get_bind ?_) fun hact => ?_
    · simp only [hact, bne_self_eq_false, Bool.false_eq_true, if_false]
      cases hrec : addUsage record.usage usage with
      | none =>
        have hbad := addUsageInPlace_of_none hrec
        exact computes_ensure_bind (fun hsum => absurd hsum.1 (by simp [hbad])) fun _ => rfl
      | some recordUsage =>
        cases htot : addUsage s.totalUsage usage with
        | none =>
          have hbad := addUsageInPlace_of_none htot
          exact computes_ensure_bind (fun hsum => absurd hsum.2 (by simp [hbad])) fun _ => rfl
        | some totalUsage =>
          rw [addUsageInPlace_of_some hrec, addUsageInPlace_of_some htot]
          refine computes_ensure_bind (fun _ => computes_total rfl ?_) fun hn => ?_
          · have hone := change_change (s := s) (i := i)
              (f := fun r => { r with usage := recordUsage })
              (g := fun r => { r with usageObserved := true }) fun _ => rfl
            exact congrArg (fun t : Ledger => Except.ok { t with totalUsage := totalUsage })
              hone.symm
          · exact absurd ⟨rfl, rfl⟩ hn
    · simp only [bne_iff_ne, ne_eq, hact, not_false_eq_true, if_true]
      rfl
  case inferenceCostRecorded i cost =>
    refine computes_requireRecord_bind fun record hr => ?_
    refine computes_ensure_bind (fun hfst => computes_get_bind ?_) fun hfst => ?_
    · simp only [hfst.1, hfst.2, bne_self_eq_false, isSome_none, Bool.or_self,
        Bool.false_eq_true, if_false]
      refine computes_require_bind (fun next hnext => computes_total rfl ?_) fun hnone => ?_
      · cases ha : addCost s.totalReportedCost cost with
        | error => simp [ha, Except.toOption] at hnext
        | ok total =>
          obtain rfl : total = next := by simpa [ha, Except.toOption] using hnext
          rfl
      · cases ha : addCost s.totalReportedCost cost with
        | error => rfl
        | ok => simp [ha, Except.toOption] at hnone
    · have href : (record.status != .active || record.reportedCost.isSome) = true := by
        by_contra hc
        simp only [Bool.or_eq_true, bne_iff_ne, ne_eq, not_or, not_not, Bool.not_eq_true,
          isSome_eq_false_iff, isNone_iff_eq_none] at hc
        exact hfst hc
      simp only [href, if_true]
      rfl
  case inferenceFinished | inferenceFailed | inferenceCancelled => exact computes_finishInPlace
  all_goals exact computes_pure rfl

def usageOf : RunEventPayload → Option (InferenceId × Usage)
  | .usageRecorded i usage => some (i, usage)
  | _ => none

/-- What an accepted event writes into the ledger: nothing, a new record, an entry of an active
record that is neither usage nor cost, its usage, or its cost. -/
inductive Booked (s : Ledger) (event : RunEvent) : Ledger → Prop where
  | kept : usageOf event.payload = none → Booked s event s
  | opened {i modelId} : event.payload = .inferenceStarted i modelId → s.findRecord i = none →
      Booked s event { s with
        records := s.records ++
          [{ runId := event.metadata.runId, inferenceId := i, modelId := modelId,
             startedAt := event.metadata.timestamp }] }
  | noted {i r f} : usageOf event.payload = none → s.findRecord i = some r →
      r.runId = event.metadata.runId → r.status = .active →
      (∀ x : InferenceUsageRecord, (f x).inferenceId = x.inferenceId) →
      (f r).runId = r.runId → (f r).usage = r.usage → (f r).reportedCost = r.reportedCost →
      Booked s event (s.change i f)
  | used {i r usage recordUsage totalUsage} : event.payload = .usageRecorded i usage →
      s.findRecord i = some r → r.runId = event.metadata.runId → r.status = .active →
      addUsage r.usage usage = some recordUsage → addUsage s.totalUsage usage = some totalUsage →
      Booked s event
        { s.change i fun r => { r with usage := recordUsage, usageObserved := true }
          with totalUsage := totalUsage }
  | charged {i r cost total} : event.payload = .inferenceCostRecorded i cost →
      s.findRecord i = some r → r.runId = event.metadata.runId → r.status = .active →
      r.reportedCost = none → addCost s.totalReportedCost cost = .ok total →
      Booked s event
        { s.change i fun r => { r with reportedCost := some cost }
          with totalReportedCost := some total }

variable {s : Ledger} {event : RunEvent}

theorem require_ok {i : InferenceId} {unknown wrongRun : String}
    {record : InferenceUsageRecord} (h : s.require event i unknown wrongRun = .ok record) :
    s.findRecord i = some record ∧ record.runId = event.metadata.runId := by
  unfold Ledger.require at h
  split at h
  · cases h
  · rename_i found hfnd
    split_ifs at h with hrun
    cases h
    exact ⟨hfnd, by simpa using hrun⟩

theorem finish_booked {t : Ledger} {i : InferenceId}
    {status : InferenceUsageStatus} (h : finish s event i status = .ok t)
    (hu : usageOf event.payload = none) : Booked s event t := by
  obtain ⟨_, hr, h⟩ := bind_ok.1 h
  obtain ⟨hfnd, hrun⟩ := require_ok hr
  split at h
  · cases h
  · rename_i hact
    cases h
    exact .noted hu hfnd hrun (by simpa using hact) (fun _ => rfl) rfl rfl rfl

theorem visit_booked {t : Ledger} (h : visit s event = .ok t) : Booked s event t := by
  unfold visit at h
  cases hp : event.payload <;> rw [hp] at h <;> dsimp only at h
  case inferenceStarted i modelId =>
    simp only [applyStarted] at h
    split at h
    · cases h
    · rename_i hnew
      cases h
      exact .opened hp (by simpa using hnew)
  case inferencePricingObserved i observation =>
    obtain ⟨_, hr, h⟩ := bind_ok.1 h
    obtain ⟨hfnd, hrun⟩ := require_ok hr
    dsimp only at h
    split at h
    · cases h
    · rename_i hfst
      simp only [Bool.or_eq_true, bne_iff_ne, ne_eq, not_or, not_not] at hfst
      split at h
      · cases h
      · cases h
        exact .noted (by rw [hp]; rfl) hfnd hrun hfst.1.1 (fun _ => rfl) rfl rfl rfl
  case usageRecorded i usage =>
    obtain ⟨_, hr, h⟩ := bind_ok.1 h
    obtain ⟨hfnd, hrun⟩ := require_ok hr
    dsimp only at h
    split at h
    · cases h
    · rename_i hact
      split at h
      · rename_i recordUsage totalUsage hrec htot
        cases h
        exact .used hp hfnd hrun (by simpa using hact) hrec htot
      · cases h
  case inferenceCostRecorded i cost =>
    obtain ⟨_, hr, h⟩ := bind_ok.1 h
    obtain ⟨hfnd, hrun⟩ := require_ok hr
    dsimp only at h
    split at h
    · cases h
    · rename_i hfst
      simp only [Bool.or_eq_true, bne_iff_ne, ne_eq, not_or, not_not, Bool.not_eq_true,
        isSome_eq_false_iff, isNone_iff_eq_none] at hfst
      split at h
      · cases h
      · rename_i total htot
        cases h
        exact .charged hp hfnd hrun hfst.1 hfst.2 htot
  case inferenceFinished | inferenceFailed | inferenceCancelled =>
    exact finish_booked h (by rw [hp]; rfl)
  all_goals
    cases h
    exact .kept (by rw [hp]; rfl)

theorem Booked.envelope {t : Ledger} (h : Booked s event t) : t.envelope = s.envelope := by
  cases h <;> rfl

theorem applyInPlace_computes (s : Ledger) (event : RunEvent) : Computes (applyInPlace event) s
      (checkEnvelope s.envelope event "event ID is already present in the usage ledger" >>= fun _ =>
        (visit s event).map fun t => { t with envelope := t.envelope.next event }) := by
  unfold checkEnvelope
  refine computes_get_bind (computes_ensure_bind (fun h₁ => ?_) fun h₁ => ?_)
  · rw [if_neg (by tauto)]
    refine computes_ensure_bind (fun h₂ => ?_) fun h₂ => ?_
    · rw [if_neg h₂]
      refine computes_ensure_bind (fun h₃ => ?_) fun h₃ => ?_
      · rw [if_neg (by omega)]
        exact computes_then_modify (visitInPlace_computes s event) rfl
      · rw [if_pos (by omega)]
        rfl
    · rw [if_pos (not_not.1 h₂)]
      rfl
  · rw [if_pos (by tauto)]
    rfl

theorem ledgerMachine_eq : LedgerMachine = UsageLedgerProjection := by
  have happ : LedgerMachine.apply = apply := by
    funext s event
    have hc := applyInPlace_computes s event
    change applyInPlace event s = _
    rw [hc]
    unfold apply
    cases checkEnvelope s.envelope event "event ID is already present in the usage ledger" with
    | error => rfl
    | ok =>
      cases hv : visit s event with
      | error => rfl
      | ok =>
        have henv := (visit_booked hv).envelope
        simp only [bind, Except.bind, Except.map, stored, henv]
  change LedgerMachine = ⟨LedgerMachine.initial, apply⟩
  rw [← happ]

theorem ledger_atomic : UsageLedgerProjection.Atomic := by
  intro s event h
  unfold Projection.Accepts at h
  simp only [UsageLedgerProjection, apply] at h ⊢
  split
  · rfl
  · rename_i henv
    split
    · rfl
    · rename_i t hv
      simp [henv, hv] at h

theorem ledger_accepts (h : UsageLedgerProjection.Accepts s event) : ∃ t, Booked s event t ∧
      (UsageLedgerProjection.apply s event).2 = { t with envelope := s.envelope.next event } := by
  unfold Projection.Accepts at h
  simp only [UsageLedgerProjection, apply] at h ⊢
  split at h
  · cases h
  · split at h
    · cases h
    · rename_i t hv
      exact ⟨t, visit_booked hv, rfl⟩

end UsageMachine
