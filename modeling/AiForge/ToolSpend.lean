import AiForge.EventLog
import AiForge.KeyedList

/-! # Tool spend ledger

Paid tools reserve their quoted maximum before they start and settle it before they end. The
ledger replays a session's events, stages its tables and assigns them only when the event is
accepted. -/
namespace ToolSpend

open Option

open Content Money Events OpsTarget SafeText EventLog EventProjection KeyedList Function Finset

inductive ToolSpendStatus where
  | reserved | released | finalized | reconciliationRequired
  deriving DecidableEq

structure ToolSpendRecord where
  runId : RunId
  reservation : ToolSpendReservation
  status : ToolSpendStatus
  finalization : Option ToolSpendFinalization
  reconciliationReason : Option ToolSpendReconciliationReason
  toolStarted : Bool

inductive ToolSpendLedgerErrorCode where
  | invalidEnvelope | duplicateEventId | nonMonotonicSequence | invalidReservation
  | duplicateReservation | unknownReservation | wrongRun | invalidTransition | invalidFinalization
  | amountOverflow
  deriving DecidableEq

structure ToolSpendLedgerError where
  code : ToolSpendLedgerErrorCode
  message : String
  deriving DecidableEq

structure ProposalRecord where
  runId : RunId
  quote : Option ToolSpendQuote

structure ToolSpendLedger where
  records : List ToolSpendRecord := []
  proposals : InvocationId → Option ProposalRecord := fun _ => none
  (startedInvocations terminalInvocations : Finset InvocationId := ∅)
  envelope : Envelope := {}

def validDigest (digest : ContentDigest) : Bool :=
  digest.algorithm == "sha256" && digest.value.utf8ByteSize == 64 && digest.byteSize != 0 &&
    digest.value.toList.all fun c => ('0' ≤ c && c ≤ '9') || ('a' ≤ c && c ≤ 'f')

def validUsd (amount : MonetaryAmount) (positive : Bool) : Bool :=
  amount.unit == "USD" && amount.amount.scale ≤ 6 &&
    (!positive || amount.amount.coefficient != 0)

def validToolSpendQuote (quote : ToolSpendQuote) : Bool :=
  validUsd quote.maximum true && validDigest quote.evidenceDigest && 0 < quote.validUntil

def validToolSpendReservation (reservation : ToolSpendReservation) : Bool :=
  validToolSpendQuote reservation.quote

def validToolSpendFinalizationShape (finalization : ToolSpendFinalization) : Bool :=
  validUsd finalization.amount false &&
    match finalization.basis with
    | .providerReported => finalization.providerEvidenceDigest.any validDigest
    | _ => finalization.providerEvidenceDigest.isNone

def validToolSpendFinalization (finalization : ToolSpendFinalization)
    (reservation : ToolSpendReservation) : Bool :=
  finalization.invocationId == reservation.invocationId &&
    validToolSpendFinalizationShape finalization &&
    compare finalization.amount.amount reservation.maximum.amount != .gt &&
    !(finalization.basis == .catalogEstimate && reservation.basis != .catalogEstimate) &&
    !(finalization.basis == .policyUpperBound && reservation.basis != .policyUpperBound)

def eventInvocationMatches (event : RunEvent) (invocationId : InvocationId) : Bool :=
  event.metadata.invocationId == some invocationId

def paid (proposal : ToolProposed) : Bool := proposal.declaredEffects.contains .spend

def proposalSchema (proposal : ToolProposed) (paid : Bool) : ℕ :=
  if proposal.observationRequest.isSome then 3
  else if paid || proposal.validatedArguments.isSome then 2 else 1

def validObservationSpendProposal (proposal : ToolProposed) (paid : Bool) : Bool :=
  match proposal.observationRequest with
  | none => true
  | some request =>
    !paid && proposal.spendQuote.isNone &&
      proposal.validatedArguments.any (fun arguments =>
        arguments.mediaType == "application/json" && !arguments.data.isEmpty &&
          arguments.data.length ≤ 16384 && isSafeUtf8Text arguments.data) &&
      (validateRecordedOpsRequest request).isOk

/-- The tables an event is staged into; started invocations are added on assignment. -/
structure Staged where
  next : List ToolSpendRecord
  proposals : InvocationId → Option ProposalRecord
  terminalInvocations : Finset InvocationId

abbrev Outcome := Except ToolSpendLedgerError Staged

def recordKey (record : ToolSpendRecord) : InvocationId := record.reservation.invocationId

def ToolSpendLedger.find (s : ToolSpendLedger) (invocationId : InvocationId) :
    Option ToolSpendRecord :=
  lookup recordKey invocationId s.records

def ToolSpendLedger.staged (s : ToolSpendLedger) : Staged :=
  ⟨s.records, s.proposals, s.terminalInvocations⟩

def ToolSpendLedger.change (s : ToolSpendLedger) (invocationId : InvocationId)
    (f : ToolSpendRecord → ToolSpendRecord) : Staged :=
  { s.staged with next := updateFirst recordKey invocationId f s.records }

def ToolSpendLedger.terminate (s : ToolSpendLedger) (invocationId : InvocationId) : Staged :=
  { s.staged with terminalInvocations := insert invocationId s.terminalInvocations }

abbrev ledgerError (code : ToolSpendLedgerErrorCode) (message : String) : Outcome :=
  .error ⟨code, message⟩

def stageProposed (s : ToolSpendLedger) (event : RunEvent) (proposed : ToolProposed) : Outcome :=
  if !eventInvocationMatches event proposed.invocationId ||
      event.metadata.schemaVersion != proposalSchema proposed (paid proposed) ||
      !validObservationSpendProposal proposed (paid proposed) ||
      paid proposed != proposed.spendQuote.isSome ||
      (paid proposed && proposed.validatedArguments.isNone) ||
      proposed.spendQuote.any (fun quote =>
        !validToolSpendQuote quote || quote.validUntil ≤ event.metadata.timestamp) ||
      (s.proposals proposed.invocationId).isSome then
    ledgerError .invalidTransition "tool spend proposal is invalid"
  else
    .ok { s.staged with
      proposals := Function.update s.proposals proposed.invocationId
        (some ⟨event.metadata.runId, proposed.spendQuote⟩) }

def stageReserved (s : ToolSpendLedger) (event : RunEvent) (reservation : ToolSpendReservation) :
    Outcome :=
  match s.proposals reservation.invocationId with
  | none => ledgerError .invalidReservation "tool spend reservation is invalid"
  | some proposal =>
    if !eventInvocationMatches event reservation.invocationId ||
        !validToolSpendReservation reservation ||
        reservation.validUntil ≤ event.metadata.timestamp ||
        proposal.quote != some reservation.quote then
      ledgerError .invalidReservation "tool spend reservation is invalid"
    else if proposal.runId != event.metadata.runId then
      ledgerError .wrongRun "tool spend reservation targets the wrong run"
    else if (s.find reservation.invocationId).isSome then
      ledgerError .duplicateReservation "tool spend reservation is duplicated"
    else if reservation.invocationId ∈ s.startedInvocations then
      ledgerError .invalidTransition "tool spend reservation followed tool start"
    else
      .ok { s.staged with
        next := s.records ++
          [⟨event.metadata.runId, reservation, .reserved, none, none, false⟩] }

def stageStarted (s : ToolSpendLedger) (event : RunEvent) (invocationId : InvocationId) :
    Outcome :=
  match s.proposals invocationId with
  | none => ledgerError .invalidTransition "tool start has no unique proposal"
  | some proposal =>
    if !eventInvocationMatches event invocationId || invocationId ∈ s.startedInvocations then
      ledgerError .invalidTransition "tool start has no unique proposal"
    else if proposal.runId != event.metadata.runId then
      ledgerError .wrongRun "tool start targets a different run than its proposal"
    else
      match s.find invocationId with
      | some record =>
        if record.runId != event.metadata.runId || record.toolStarted ||
            record.status != .reserved then
          ledgerError .invalidTransition "paid tool start is invalid"
        else .ok (s.change invocationId fun r => { r with toolStarted := true })
      | none =>
        if proposal.quote.isSome then
          ledgerError .invalidTransition "paid tool started without a reservation"
        else .ok s.staged

def stageReleased (s : ToolSpendLedger) (event : RunEvent) (invocationId : InvocationId) :
    Outcome :=
  match s.find invocationId with
  | none => ledgerError .unknownReservation "tool spend release has no reservation"
  | some record =>
    if !eventInvocationMatches event invocationId || record.runId != event.metadata.runId then
      ledgerError .wrongRun "tool spend release targets the wrong run"
    else if record.status != .reserved then
      ledgerError .invalidTransition "tool spend reservation is already terminal"
    else if invocationId ∈ s.terminalInvocations then
      ledgerError .invalidTransition "tool spend release followed tool termination"
    else .ok (s.change invocationId fun r => { r with status := .released })

def stageFinalized (s : ToolSpendLedger) (event : RunEvent)
    (finalization : ToolSpendFinalization) : Outcome :=
  match s.find finalization.invocationId with
  | none => ledgerError .unknownReservation "tool spend finalization has no reservation"
  | some record =>
    if !eventInvocationMatches event finalization.invocationId ||
        record.runId != event.metadata.runId then
      ledgerError .wrongRun "tool spend finalization targets the wrong run"
    else if record.status != .reserved || !record.toolStarted ||
        finalization.invocationId ∈ s.terminalInvocations then
      ledgerError .invalidTransition "tool spend reservation is already terminal"
    else if !validToolSpendFinalization finalization record.reservation then
      ledgerError .invalidFinalization "tool spend finalization is invalid"
    else
      .ok (s.change finalization.invocationId fun r =>
        { r with status := .finalized, finalization := some finalization })

def stageReconciliationRequired (s : ToolSpendLedger) (event : RunEvent)
    (invocationId : InvocationId) (reason : ToolSpendReconciliationReason) : Outcome :=
  match s.find invocationId with
  | none => ledgerError .unknownReservation "tool spend reconciliation has no reservation"
  | some record =>
    if !eventInvocationMatches event invocationId || record.runId != event.metadata.runId then
      ledgerError .wrongRun "tool spend reconciliation targets the wrong run"
    else if record.status != .reserved || !record.toolStarted ||
        invocationId ∈ s.terminalInvocations then
      ledgerError .invalidTransition "tool spend reservation is already terminal"
    else
      .ok (s.change invocationId fun r =>
        { r with status := .reconciliationRequired, reconciliationReason := some reason })

def stageResult (s : ToolSpendLedger) (event : RunEvent) (invocationId : InvocationId) : Outcome :=
  match s.proposals invocationId with
  | none => ledgerError .invalidTransition "tool result has invalid spend ordering"
  | some proposal =>
    if !eventInvocationMatches event invocationId || invocationId ∈ s.terminalInvocations ||
        (proposal.quote.isSome &&
          (s.find invocationId).all fun record => record.status == .reserved) then
      ledgerError .invalidTransition "tool result has invalid spend ordering"
    else if proposal.runId != event.metadata.runId then
      ledgerError .wrongRun "tool result targets a different run than its proposal"
    else .ok (s.terminate invocationId)

def stageErrored (s : ToolSpendLedger) (event : RunEvent) (invocationId : InvocationId) : Outcome :=
  match s.proposals invocationId with
  | none => ledgerError .invalidTransition "tool error has invalid spend ordering"
  | some proposal =>
    if !eventInvocationMatches event invocationId || invocationId ∈ s.terminalInvocations ||
        (proposal.quote.isSome &&
          (s.find invocationId).any fun record => record.status == .reserved) then
      ledgerError .invalidTransition "tool error has invalid spend ordering"
    else if proposal.runId != event.metadata.runId then
      ledgerError .wrongRun "tool error targets a different run than its proposal"
    else .ok (s.terminate invocationId)

def stage (s : ToolSpendLedger) (event : RunEvent) : Outcome :=
  match event.payload with
  | .toolProposed proposed => stageProposed s event proposed
  | .toolSpendReserved reservation => stageReserved s event reservation
  | .toolStarted invocationId => stageStarted s event invocationId
  | .toolSpendReleased invocationId => stageReleased s event invocationId
  | .toolSpendFinalized finalization => stageFinalized s event finalization
  | .toolSpendReconciliationRequired invocationId reason =>
    stageReconciliationRequired s event invocationId reason
  | .toolResultRecorded invocationId _ _ => stageResult s event invocationId
  | .toolErrored invocationId _ _ => stageErrored s event invocationId
  | _ => .ok s.staged

/-- The assignments made once every check has passed. -/
def ToolSpendLedger.commit (s : ToolSpendLedger) (event : RunEvent) (staged : Staged) :
    ToolSpendLedger where
  records := staged.next
  proposals := staged.proposals
  terminalInvocations := staged.terminalInvocations
  startedInvocations :=
    match event.payload with
    | .toolStarted invocationId => insert invocationId s.startedInvocations
    | _ => s.startedInvocations
  envelope := s.envelope.next event

def apply (s : ToolSpendLedger) (event : RunEvent) :
    Except ToolSpendLedgerError Unit × ToolSpendLedger :=
  if event.metadata.sequence = 0 ∨ event.metadata.schemaVersion = 0 then
    (.error ⟨.invalidEnvelope, "tool spend event envelope is invalid"⟩, s)
  else if event.metadata.eventId ∈ s.envelope.eventIds then
    (.error ⟨.duplicateEventId, "tool spend event ID is duplicated"⟩, s)
  else if event.metadata.sequence ≤ s.envelope.lastSequence then
    (.error ⟨.nonMonotonicSequence, "tool spend event sequence did not advance"⟩, s)
  else
    match stage s event with
    | .error error => (.error error, s)
    | .ok staged => (.ok (), s.commit event staged)

def ToolSpendLedgerProjection : Projection ToolSpendLedger RunEvent ToolSpendLedgerError where
  initial := {}
  apply := apply

/-- The invocation whose reservation or start an event records. -/
def spendSubject : RunEventPayload → Option InvocationId
  | .toolSpendReserved reservation => some reservation.invocationId
  | .toolStarted invocationId => some invocationId
  | .toolSpendReleased invocationId => some invocationId
  | .toolSpendFinalized finalization => some finalization.invocationId
  | .toolSpendReconciliationRequired invocationId _ => some invocationId
  | _ => none

/-- The invocation an event ends, by a result or by an error. -/
def terminalSubject : RunEventPayload → Option InvocationId
  | .toolResultRecorded invocationId _ _ => some invocationId
  | .toolErrored invocationId _ _ => some invocationId
  | _ => none

variable {i : InvocationId}

theorem spendSubject_of_terminal {payload : RunEventPayload}
    (h : terminalSubject payload = some i) : spendSubject payload = none := by
  cases payload <;> simp_all [terminalSubject, spendSubject]

/-- The staged tables of every kind of accepted event, with the checks that let it through. -/
inductive StageStep (s : ToolSpendLedger) (event : RunEvent) : Staged → Prop where
  | proposed (proposed : ToolProposed) :
      event.payload = .toolProposed proposed →
      s.proposals proposed.invocationId = none →
      (∀ quote, proposed.spendQuote = some quote → validToolSpendQuote quote) →
      StageStep s event { s.staged with
        proposals := Function.update s.proposals proposed.invocationId
          (some ⟨event.metadata.runId, proposed.spendQuote⟩) }
  | reserved (reservation : ToolSpendReservation) (proposal : ProposalRecord) :
      event.payload = .toolSpendReserved reservation →
      s.proposals reservation.invocationId = some proposal →
      validToolSpendReservation reservation →
      proposal.quote = some reservation.quote → proposal.runId = event.metadata.runId →
      s.find reservation.invocationId = none →
      reservation.invocationId ∉ s.startedInvocations →
      StageStep s event { s.staged with
        next := s.records ++
          [⟨event.metadata.runId, reservation, .reserved, none, none, false⟩] }
  | startedPaid (invocationId : InvocationId) (record : ToolSpendRecord) :
      event.payload = .toolStarted invocationId →
      (s.proposals invocationId).isSome →
      invocationId ∉ s.startedInvocations →
      s.find invocationId = some record → record.status = .reserved →
      StageStep s event (s.change invocationId fun r => { r with toolStarted := true })
  | startedFree (invocationId : InvocationId) (proposal : ProposalRecord) :
      event.payload = .toolStarted invocationId →
      s.proposals invocationId = some proposal → proposal.quote = none →
      invocationId ∉ s.startedInvocations → s.find invocationId = none →
      StageStep s event s.staged
  | released (invocationId : InvocationId) (record : ToolSpendRecord) :
      event.payload = .toolSpendReleased invocationId →
      s.find invocationId = some record → record.status = .reserved →
      invocationId ∉ s.terminalInvocations →
      StageStep s event (s.change invocationId fun r => { r with status := .released })
  | finalized (finalization : ToolSpendFinalization) (record : ToolSpendRecord) :
      event.payload = .toolSpendFinalized finalization →
      s.find finalization.invocationId = some record → record.status = .reserved →
      finalization.invocationId ∉ s.terminalInvocations →
      validToolSpendFinalization finalization record.reservation →
      StageStep s event (s.change finalization.invocationId fun r =>
        { r with status := .finalized, finalization := some finalization })
  | reconciliationRequired (invocationId : InvocationId)
      (reason : ToolSpendReconciliationReason) (record : ToolSpendRecord) :
      event.payload = .toolSpendReconciliationRequired invocationId reason →
      s.find invocationId = some record → record.status = .reserved →
      invocationId ∉ s.terminalInvocations →
      StageStep s event (s.change invocationId fun r =>
        { r with status := .reconciliationRequired, reconciliationReason := some reason })
  | terminated (invocationId : InvocationId) (proposal : ProposalRecord) :
      terminalSubject event.payload = some invocationId →
      s.proposals invocationId = some proposal →
      invocationId ∉ s.terminalInvocations →
      (∀ record, proposal.quote.isSome → s.find invocationId = some record →
        record.status ≠ .reserved) →
      StageStep s event (s.terminate invocationId)
  | unrelated :
      spendSubject event.payload = none → terminalSubject event.payload = none →
      StageStep s event s.staged

variable {s : ToolSpendLedger} {event : RunEvent} {staged : Staged}

theorem stage_step (h : stage s event = .ok staged) : StageStep s event staged := by
  unfold stage at h
  split at h
  case h_1 proposed hp =>
    unfold stageProposed at h
    split at h
    · cases h
    · rename_i hg
      cases h
      simp only [Bool.or_eq_true, not_or, Bool.not_eq_true, isSome_eq_false_iff,
        isNone_iff_eq_none] at hg
      obtain ⟨⟨-, hq⟩, hn⟩ := hg
      refine .proposed proposed hp hn fun quote hquote => ?_
      simp only [hquote, any_some, Bool.or_eq_false_iff, Bool.not_eq_false'] at hq
      exact hq.1
  case h_2 reservation hp =>
    unfold stageReserved at h
    split at h
    · cases h
    · rename_i proposal hprop
      split_ifs at h with hg hr hf hs
      cases h
      simp only [Bool.or_eq_true, not_or, Bool.not_eq_true', Bool.not_eq_false, bne_iff_ne,
        ne_eq, not_not] at hg hr
      obtain ⟨⟨⟨-, hv⟩, -⟩, hq⟩ := hg
      exact .reserved reservation proposal hp hprop hv hq hr (by simpa using hf) hs
  case h_3 invocationId hp =>
    unfold stageStarted at h
    split at h
    · cases h
    · rename_i proposal hprop
      by_cases hg : (!eventInvocationMatches event invocationId ||
          decide (invocationId ∈ s.startedInvocations)) = true
      · simp [hg] at h
      rw [if_neg hg] at h
      by_cases hr : (proposal.runId != event.metadata.runId) = true
      · simp [hr] at h
      rw [if_neg hr] at h
      simp only [Bool.or_eq_true, not_or, decide_eq_true_eq] at hg
      split at h
      · rename_i record hf
        split_ifs at h with hc
        cases h
        simp only [Bool.or_eq_true, not_or, bne_iff_ne, ne_eq, not_not] at hc
        exact .startedPaid invocationId record hp (by simp [hprop]) hg.2 hf hc.2
      · rename_i hf
        split_ifs at h with hc
        cases h
        exact .startedFree invocationId proposal hp hprop (by simpa using hc) hg.2 hf
  case h_4 invocationId hp =>
    unfold stageReleased at h
    split at h
    · cases h
    · rename_i record hf
      split_ifs at h with hg hs ht
      cases h
      exact .released invocationId record hp hf (by simpa using hs) ht
  case h_5 finalization hp =>
    unfold stageFinalized at h
    split at h
    · cases h
    · rename_i record hf
      split_ifs at h with hg hs hv
      cases h
      simp only [Bool.or_eq_true, not_or, bne_iff_ne, ne_eq, not_not, decide_eq_true_eq] at hs
      exact .finalized finalization record hp hf hs.1.1 hs.2 (by simpa using hv)
  case h_6 invocationId reason hp =>
    unfold stageReconciliationRequired at h
    split at h
    · cases h
    · rename_i record hf
      split_ifs at h with hg hs
      cases h
      simp only [Bool.or_eq_true, not_or, bne_iff_ne, ne_eq, not_not, decide_eq_true_eq] at hs
      exact .reconciliationRequired invocationId reason record hp hf hs.1.1 hs.2
  case h_7 invocationId content message hp =>
    unfold stageResult at h
    split at h
    · cases h
    · rename_i proposal hprop
      split_ifs at h with hg hr
      cases h
      simp only [Bool.or_eq_true, not_or, decide_eq_true_eq, Bool.and_eq_true, not_and] at hg
      refine .terminated invocationId proposal (by rw [hp]; rfl) hprop hg.1.2
        fun record hq hf hs => hg.2 hq (by simp [hf, hs])
  case h_8 invocationId error message hp =>
    unfold stageErrored at h
    split at h
    · cases h
    · rename_i proposal hprop
      split_ifs at h with hg hr
      cases h
      simp only [Bool.or_eq_true, not_or, decide_eq_true_eq, Bool.and_eq_true, not_and] at hg
      refine .terminated invocationId proposal (by rw [hp]; rfl) hprop hg.1.2
        fun record hq hf hs => hg.2 hq (by simp [hf, hs])
  case h_9 =>
    cases h
    refine .unrelated ?_ ?_
    · unfold spendSubject
      split <;> simp_all
    · unfold terminalSubject
      split <;> simp_all

theorem accepts_iff : ToolSpendLedgerProjection.Accepts s event ↔
      s.envelope.Fresh event ∧ ∃ staged, stage s event = .ok staged := by
  unfold Projection.Accepts ToolSpendLedgerProjection apply Envelope.Fresh
  dsimp only
  constructor
  · intro h
    split_ifs at h with h₁ h₂ h₃
    cases hs : stage s event with
    | error => simp [hs] at h
    | ok staged => exact ⟨⟨by tauto, by tauto, h₂, by omega⟩, staged, rfl⟩
  · rintro ⟨⟨h₁, h₂, h₃, _⟩, staged, hs⟩
    rw [if_neg (by tauto), if_neg h₃, if_neg (by omega), hs]

theorem apply_of_stage (hf : s.envelope.Fresh event) (hs : stage s event = .ok staged) :
    (ToolSpendLedgerProjection.apply s event).2 = s.commit event staged := by
  obtain ⟨_, _, h₃, _⟩ := hf
  change (apply s event).2 = _
  unfold apply
  rw [if_neg (by tauto), if_neg h₃, if_neg (by omega), hs]

theorem accepts_step (h : ToolSpendLedgerProjection.Accepts s event) :
    ∃ staged, StageStep s event staged ∧
      (ToolSpendLedgerProjection.apply s event).2 = s.commit event staged := by
  obtain ⟨hf, staged, hs⟩ := accepts_iff.1 h
  exact ⟨staged, stage_step hs, apply_of_stage hf hs⟩

theorem ledger_atomic : ToolSpendLedgerProjection.Atomic := by
  intro s event h
  have hn : ¬ (s.envelope.Fresh event ∧ ∃ staged, stage s event = .ok staged) :=
    fun hx => h (accepts_iff.2 hx)
  change (apply s event).2 = s
  unfold apply
  split_ifs with h₁ h₂ h₃
  · rfl
  · rfl
  · rfl
  · cases hs : stage s event with
    | error => rfl
    | ok staged => exact absurd ⟨⟨by tauto, by tauto, h₂, by omega⟩, staged, hs⟩ hn

structure LedgerInvariant (s : ToolSpendLedger) : Prop where
  distinct : Distinct recordKey s.records
  proposed : ∀ r ∈ s.records, ∃ proposal, s.proposals (recordKey r) = some proposal ∧
    proposal.runId = r.runId ∧ proposal.quote = some r.reservation.quote
  finalization_le : ∀ r ∈ s.records, ∀ f, r.finalization = some f →
    f.amount.unit = r.reservation.maximum.unit ∧
    f.amount.amount.value ≤ r.reservation.maximum.amount.value
  finalized : ∀ r ∈ s.records, r.status = .finalized → r.finalization.isSome
  started_proposed : ∀ i ∈ s.startedInvocations, (s.proposals i).isSome
  started_recorded : ∀ i ∈ s.startedInvocations, ∀ proposal, s.proposals i = some proposal →
    proposal.quote.isSome → ∃ r ∈ s.records, recordKey r = i ∧ r.toolStarted
  quote_valid : ∀ i proposal quote, s.proposals i = some proposal →
    proposal.quote = some quote → validToolSpendQuote quote

theorem LedgerInvariant.initial : LedgerInvariant ToolSpendLedgerProjection.initial where
  distinct := List.nodup_nil
  proposed := fun _ h => nomatch h
  finalization_le := fun _ h => nomatch h
  finalized := fun _ h => nomatch h
  started_proposed := fun _ h => absurd h (notMem_empty _)
  started_recorded := fun _ h => absurd h (notMem_empty _)
  quote_valid := fun _ _ _ h => nomatch h

theorem recordKey_of_reservation {f : ToolSpendRecord → ToolSpendRecord}
    (hf : ∀ r, (f r).reservation = r.reservation) {k : InvocationId} (r : ToolSpendRecord)
    (h : recordKey r = k) : recordKey (f r) = k := by
  unfold recordKey at *
  rw [hf, h]

/-- An event that changes one record keeps the invariant if the changed record satisfies it. -/
theorem LedgerInvariant.change {t : ToolSpendLedger} (hi : LedgerInvariant s)
    {record : ToolSpendRecord} {f : ToolSpendRecord → ToolSpendRecord}
    (hr : s.find i = some record) (hp : t.proposals = s.proposals)
    (ht : t.records = updateFirst recordKey i f s.records)
    (hres : ∀ r, (f r).reservation = r.reservation) (hrun : ∀ r, (f r).runId = r.runId)
    (hfin : ∀ x, (f record).finalization = some x →
      x.amount.unit = record.reservation.maximum.unit ∧
      x.amount.amount.value ≤ record.reservation.maximum.amount.value)
    (hfz : (f record).status = .finalized → (f record).finalization.isSome)
    (hkeep : record.toolStarted → (f record).toolStarted) (hst : ∀ j ∈ t.startedInvocations,
      j ∈ s.startedInvocations ∨ (j = i ∧ (f record).toolStarted)) :
    LedgerInvariant t := by
  have hkey := recordKey_of_reservation hres (k := i)
  have hi' : recordKey record = i := lookup_key hr
  have hmem : record ∈ s.records := lookup_mem hr
  -- A record of the new table is an old one or the changed one.
  have hcases : ∀ r ∈ t.records, r ∈ s.records ∨ r = f record := by
    intro r h
    rw [ht] at h
    rcases mem_update hkey hi.distinct h with ⟨-, h⟩ | ⟨_, hy, rfl⟩
    · exact .inl h
    · rw [show lookup recordKey i s.records = some record from hr] at hy
      exact .inr (by rw [some.inj hy])
  constructor
  · rw [ht]
    exact distinct_update hkey hi.distinct
  · intro r h
    rw [hp]
    rcases hcases r h with h | rfl
    · exact hi.proposed r h
    · obtain ⟨proposal, h₁, h₂, h₃⟩ := hi.proposed record hmem
      refine ⟨proposal, ?_, by rw [hrun, h₂], by rw [hres, h₃]⟩
      rw [show recordKey (f record) = recordKey record from by unfold recordKey; rw [hres]]
      exact h₁
  · intro r h x hx
    rcases hcases r h with h | rfl
    · exact hi.finalization_le r h x hx
    · rw [hres]
      exact hfin x hx
  · intro r h hs
    rcases hcases r h with h | rfl
    · exact hi.finalized r h hs
    · exact hfz hs
  · intro j hj
    rw [hp]
    rcases hst j hj with hj | ⟨rfl, -⟩
    · exact hi.started_proposed j hj
    · obtain ⟨proposal, h₁, -, -⟩ := hi.proposed record hmem
      rw [hi'] at h₁
      simp [h₁]
  · intro j hj proposal hprop hq
    rw [ht]
    rcases hst j hj with hj | ⟨rfl, hbeg⟩
    · rw [hp] at hprop
      obtain ⟨r, hr', hk, hrs⟩ := hi.started_recorded j hj proposal hprop hq
      by_cases hji : j = i
      · have he : r = record := by
          have hl := lookup_of_mem hi.distinct hr'
          rw [hk, hji, show lookup recordKey i s.records = some record from hr] at hl
          exact (some.inj hl).symm
        subst he
        exact ⟨f r, mem_update_self hkey hr, by rw [hkey r hi', hji], hkeep hrs⟩
      · exact ⟨r, mem_update_ne hkey hi.distinct hr' (by rw [hk]; exact hji), hk, hrs⟩
    · exact ⟨f record, mem_update_self hkey hr, hkey record hi', hbeg⟩
  · intro j proposal quote h
    rw [hp] at h
    exact hi.quote_valid j proposal quote h

theorem LedgerInvariant.frame {t : ToolSpendLedger} (hi : LedgerInvariant s)
    (hr : t.records = s.records) (hp : t.proposals = s.proposals)
    (hs : ∀ i ∈ t.startedInvocations, i ∈ s.startedInvocations ∨
      ∃ proposal, s.proposals i = some proposal ∧ proposal.quote = none) :
    LedgerInvariant t := by
  obtain ⟨_, _, _, _, h₅, h₆, _⟩ := hi
  refine ⟨by rwa [hr], by rwa [hr, hp], by rwa [hr], by rwa [hr], ?_, ?_, by rwa [hp]⟩
  · intro i hi
    rw [hp]
    rcases hs i hi with hi | ⟨proposal, hi, -⟩
    · exact h₅ i hi
    · simp [hi]
  · intro i hi proposal hprop hq
    rw [hp] at hprop
    rw [hr]
    rcases hs i hi with hi | ⟨_, hfree, hn⟩
    · exact h₆ i hi proposal hprop hq
    · rw [hprop] at hfree
      cases hfree
      rw [hn] at hq
      cases hq

theorem finalization_bound {finalization : ToolSpendFinalization}
    {reservation : ToolSpendReservation} (hq : validToolSpendQuote reservation.quote)
    (h : validToolSpendFinalization finalization reservation) :
    finalization.amount.unit = reservation.maximum.unit ∧
    finalization.amount.amount.value ≤ reservation.maximum.amount.value := by
  simp only [validToolSpendFinalization, validToolSpendFinalizationShape, validUsd,
    Bool.and_eq_true, beq_iff_eq, bne_iff_ne, ne_eq] at h
  simp only [validToolSpendQuote, validUsd, Bool.and_eq_true, beq_iff_eq] at hq
  obtain ⟨⟨⟨⟨-, ⟨⟨hu, -⟩, -⟩, -⟩, hc⟩, -⟩, -⟩ := h
  refine ⟨hu.trans hq.1.1.1.1.symm, ?_⟩
  rw [compare_gt_iff] at hc
  exact not_lt.1 hc

variable {r : ToolSpendRecord}

theorem LedgerInvariant.reservation_valid (hi : LedgerInvariant s) (hr : r ∈ s.records) :
    validToolSpendQuote r.reservation.quote := by
  obtain ⟨proposal, h₁, -, h₃⟩ := hi.proposed r hr
  exact hi.quote_valid _ proposal _ h₁ h₃

theorem startedInvocations_commit (h : ∀ i, event.payload ≠ .toolStarted i) :
    (s.commit event staged).startedInvocations = s.startedInvocations := by
  unfold ToolSpendLedger.commit
  split
  · rename_i i hp
    exact absurd hp (h i)
  · rfl

theorem startedInvocations_commit_started (h : event.payload = .toolStarted i) :
    (s.commit event staged).startedInvocations = insert i s.startedInvocations := by
  unfold ToolSpendLedger.commit
  rw [h]

theorem step_preserves_inv (hi : LedgerInvariant s) (h : StageStep s event staged) :
    LedgerInvariant (s.commit event staged) := by
  cases h with
  | proposed proposed hp hn hq =>
    have hs : ∀ staged, (s.commit event staged).startedInvocations = s.startedInvocations :=
      fun _ => startedInvocations_commit (by simp [hp])
    -- The new entry is not about any invocation the other tables know.
    have hold : ∀ j, (s.proposals j).isSome → update s.proposals proposed.invocationId
        (some ⟨event.metadata.runId, proposed.spendQuote⟩) j = s.proposals j := by
      intro j hj
      refine update_of_ne ?_ _ _
      rintro rfl
      simp [hn] at hj
    refine ⟨hi.distinct, ?_, hi.finalization_le, hi.finalized, ?_, ?_, ?_⟩
    · intro r hr
      obtain ⟨proposal, h₁, h₂, h₃⟩ := hi.proposed r hr
      exact ⟨proposal, (hold _ (by simp [h₁])).trans h₁, h₂, h₃⟩
    · intro j hj
      rw [hs] at hj
      have := hi.started_proposed j hj
      exact (congrArg isSome (hold j this)).trans this
    · intro j hj proposal hprop
      rw [hs] at hj
      exact hi.started_recorded j hj proposal
        ((hold j (hi.started_proposed j hj)).symm.trans hprop)
    · intro j proposal quote hj hquote
      change update s.proposals proposed.invocationId
        (some ⟨event.metadata.runId, proposed.spendQuote⟩) j = some proposal at hj
      by_cases he : j = proposed.invocationId
      · rw [he, update_self] at hj
        cases hj
        exact hq quote hquote
      · rw [update_of_ne he] at hj
        exact hi.quote_valid j proposal quote hj hquote
  | reserved _ proposal hp hprop _ hq hrun hf =>
    have hs : ∀ staged, (s.commit event staged).startedInvocations = s.startedInvocations :=
      fun _ => startedInvocations_commit (by simp [hp])
    refine ⟨distinct_snoc hi.distinct hf, ?_, ?_, ?_, ?_, ?_, hi.quote_valid⟩
    · intro r hr
      rcases List.mem_append.1 hr with hr | hr
      · exact hi.proposed r hr
      · obtain rfl := List.mem_singleton.1 hr
        exact ⟨proposal, hprop, hrun, hq⟩
    · intro r hr x hx
      rcases List.mem_append.1 hr with hr | hr
      · exact hi.finalization_le r hr x hx
      · obtain rfl := List.mem_singleton.1 hr
        cases hx
    · intro r hr hx
      rcases List.mem_append.1 hr with hr | hr
      · exact hi.finalized r hr hx
      · obtain rfl := List.mem_singleton.1 hr
        cases hx
    · rw [hs]
      exact hi.started_proposed
    · intro j hj p hpj hpq
      rw [hs] at hj
      obtain ⟨r, hr, h⟩ := hi.started_recorded j hj p hpj hpq
      exact ⟨r, List.mem_append_left _ hr, h⟩
  | startedPaid _ record hp _ _ hf =>
    refine hi.change hf rfl rfl (fun _ => rfl) (fun _ => rfl)
      (hi.finalization_le record (lookup_mem hf)) (hi.finalized record (lookup_mem hf))
      (fun _ => rfl) fun j hj => ?_
    rw [startedInvocations_commit_started hp, mem_insert] at hj
    exact hj.symm.imp_right fun h => ⟨h, rfl⟩
  | startedFree _ proposal hp hprop hq =>
    refine hi.frame rfl rfl fun j hj => ?_
    rw [startedInvocations_commit_started hp, mem_insert] at hj
    rcases hj with rfl | hj
    · exact .inr ⟨proposal, hprop, hq⟩
    · exact .inl hj
  | released _ record hp hf | reconciliationRequired _ _ record hp hf =>
    refine hi.change hf rfl rfl (fun _ => rfl) (fun _ => rfl)
      (hi.finalization_le record (lookup_mem hf)) (fun h => nomatch h) id fun j hj => ?_
    rw [startedInvocations_commit (by simp [hp])] at hj
    exact .inl hj
  | finalized _ _ hp hf _ _ hv =>
    refine hi.change hf rfl rfl (fun _ => rfl) (fun _ => rfl) ?_ (fun _ => rfl) id fun j hj => ?_
    · intro x hx
      cases hx
      exact finalization_bound (hi.reservation_valid (lookup_mem hf)) hv
    · rw [startedInvocations_commit (by simp [hp])] at hj
      exact .inl hj
  | terminated _ _ hp =>
    refine hi.frame rfl rfl fun j hj => ?_
    rw [startedInvocations_commit (by rintro _ hk; simp [hk, terminalSubject] at hp)] at hj
    exact .inl hj
  | unrelated hp =>
    refine hi.frame rfl rfl fun j hj => ?_
    rw [startedInvocations_commit (by rintro _ hk; simp [hk, spendSubject] at hp)] at hj
    exact .inl hj

theorem accepts_preserves_invariant (s : ToolSpendLedger) (event : RunEvent)
    (h : ToolSpendLedgerProjection.Accepts s event) (hi : LedgerInvariant s) :
    LedgerInvariant (ToolSpendLedgerProjection.apply s event).2 := by
  obtain ⟨_, hs, he⟩ := accepts_step h
  rw [he]
  exact step_preserves_inv hi hs

theorem reachable_ledgerInvariant (h : ToolSpendLedgerProjection.Reachable s) : LedgerInvariant s :=
  reachable_inv ledger_atomic .initial accepts_preserves_invariant h

/-- A record stays in the ledger, and once settled it never changes again. -/
theorem step_keeps_record (h : StageStep s event staged) (hr : s.find i = some r) :
    ∃ r', (s.commit event staged).find i = some r' ∧ (r.status ≠ .reserved → r' = r) := by
  -- A change of the record under `k`, guarded by its status, is no change of a settled one.
  have hchg : ∀ (k : InvocationId) (record : ToolSpendRecord)
      (f : ToolSpendRecord → ToolSpendRecord), (∀ x, (f x).reservation = x.reservation) →
      s.find k = some record → record.status = .reserved →
      ∃ r', lookup recordKey i (updateFirst recordKey k f s.records) = some r' ∧
        (r.status ≠ .reserved → r' = r) := by
    intro k record f hf hk hstat
    have hkey := recordKey_of_reservation hf (k := k)
    by_cases hik : i = k
    · subst hik
      rw [hr] at hk
      cases hk
      refine ⟨f r, ?_, fun h => absurd hstat h⟩
      rw [lookup_update_self hkey, show lookup recordKey i s.records = some r from hr]
      rfl
    · rw [lookup_update_ne hkey hik]
      exact ⟨r, hr, fun _ => rfl⟩
  cases h with
  | proposed | startedFree | terminated | unrelated => exact ⟨r, hr, fun _ => rfl⟩
  | reserved => exact ⟨r, lookup_snoc_of_some hr, fun _ => rfl⟩
  | startedPaid k record _ _ _ hk hstat | released k record _ hk hstat
  | reconciliationRequired k _ record _ hk hstat =>
    exact hchg k record _ (fun _ => rfl) hk hstat
  | finalized _ record _ hk hstat =>
    exact hchg _ record _ (fun _ => rfl) hk hstat

theorem feed_keeps_record (hr : s.find i = some r) (events : List RunEvent) :
    ∃ r', (ToolSpendLedgerProjection.feed s events).find i = some r' ∧
      (r.status ≠ .reserved → r' = r) := by
  refine feed_invariant (P := ToolSpendLedgerProjection)
    (I := fun t => ∃ r', t.find i = some r' ∧ (r.status ≠ .reserved → r' = r))
    (atomic_step ledger_atomic ?_) ⟨r, hr, fun _ => rfl⟩ events
  rintro t _ h ⟨r', hr', hk⟩
  obtain ⟨_, hs, he⟩ := accepts_step h
  obtain ⟨r'', hr'', hk'⟩ := step_keeps_record hs hr'
  rw [he]
  refine ⟨r'', hr'', fun hstat => ?_⟩
  obtain rfl := hk hstat
  exact hk' hstat

/-- What the proposal table holds was recorded by an accepted proposal. -/
def ProposedBy (past : List RunEvent) (s : ToolSpendLedger) : Prop :=
  ∀ i proposal, s.proposals i = some proposal → ∃ event ∈ past, ∃ proposed,
    event.payload = .toolProposed proposed ∧ proposed.invocationId = i ∧
    event.metadata.runId = proposal.runId ∧ proposed.spendQuote = proposal.quote

theorem step_proposedBy {past : List RunEvent}
    (hb : ProposedBy past s) (h : StageStep s event staged) :
    ProposedBy (past ++ [event]) (s.commit event staged) := by
  have hold : ProposedBy (past ++ [event]) s := by
    intro i proposal hi
    obtain ⟨e, he, rest⟩ := hb i proposal hi
    exact ⟨e, List.mem_append_left _ he, rest⟩
  cases h with
  | proposed proposed hp =>
    intro i proposal hi
    change update s.proposals proposed.invocationId
      (some ⟨event.metadata.runId, proposed.spendQuote⟩) i = some proposal at hi
    by_cases he : i = proposed.invocationId
    · rw [he, update_self] at hi
      cases hi
      exact ⟨event, by simp, proposed, hp, he.symm, rfl, rfl⟩
    · rw [update_of_ne he] at hi
      exact hold i proposal hi
  | reserved | startedPaid | startedFree | released | finalized | reconciliationRequired
  | terminated | unrelated => exact hold

theorem feed_proposedBy (events : List RunEvent) : ProposedBy
      (ToolSpendLedgerProjection.acceptedEvents ToolSpendLedgerProjection.initial events)
      (ToolSpendLedgerProjection.feed ToolSpendLedgerProjection.initial events) := by
  have h := accepted_acceptedEvents ledger_atomic ToolSpendLedgerProjection.initial events
  refine accepted_history (J := ProposedBy) ?_ [] h fun _ _ h => nomatch h
  intro past s event hx hb
  obtain ⟨_, hs, he⟩ := accepts_step hx
  rw [he]
  exact step_proposedBy hb hs

theorem accepted_start_reserved (h : ToolSpendLedgerProjection.Accepts s event)
    (hp : event.payload = .toolStarted i) {proposal : ProposalRecord}
    (hprop : s.proposals i = some proposal) (hq : proposal.quote.isSome) :
    ∃ r, s.find i = some r ∧ r.status = .reserved := by
  obtain ⟨_, hs, -⟩ := accepts_step h
  cases hs
  case startedPaid k record hp' _ _ hf hstat =>
    rw [hp] at hp'
    obtain rfl := RunEventPayload.toolStarted.inj hp'
    exact ⟨record, hf, hstat⟩
  all_goals simp_all [spendSubject, terminalSubject]

theorem accepted_terminal_settled (hi : LedgerInvariant s)
    (h : ToolSpendLedgerProjection.Accepts s event) (hp : terminalSubject event.payload = some i) :
    (s.proposals i).isSome ∧ ∀ r, s.find i = some r → r.status ≠ .reserved := by
  obtain ⟨_, hs, -⟩ := accepts_step h
  cases hs
  case terminated k proposal hp' hk hn hstat =>
    rw [hp] at hp'
    cases hp'
    refine ⟨by simp [hk], fun r hr => hstat r ?_ hr⟩
    obtain ⟨_, hpk, -, hq⟩ := hi.proposed r (lookup_mem hr)
    rw [lookup_key hr, hk] at hpk
    cases hpk
    simp [hq]
  all_goals simp_all [terminalSubject]

theorem started_of_accepted (h : ToolSpendLedgerProjection.Accepts s event)
    (hn : i ∉ s.startedInvocations)
    (hi : i ∈ (ToolSpendLedgerProjection.apply s event).2.startedInvocations) :
    event.payload = .toolStarted i := by
  obtain ⟨_, -, he⟩ := accepts_step h
  rw [he] at hi
  by_cases hp : ∃ j, event.payload = .toolStarted j
  · obtain ⟨j, hp⟩ := hp
    rw [startedInvocations_commit_started hp, mem_insert] at hi
    rcases hi with rfl | hi
    · exact hp
    · exact absurd hi hn
  · rw [startedInvocations_commit fun j hj => hp ⟨j, hj⟩] at hi
    exact absurd hi hn

/-- The guarantees of a ledger `s` whose accepted events were `past`. -/
structure SoundLedger (past : List RunEvent) (s : ToolSpendLedger) : Prop where
  one_record : s.records.Pairwise fun a b => recordKey a ≠ recordKey b
  reservation_quoted : ∀ r ∈ s.records, ∃ event ∈ past, ∃ proposed,
    event.payload = .toolProposed proposed ∧ proposed.invocationId = recordKey r ∧
    event.metadata.runId = r.runId ∧ proposed.spendQuote = some r.reservation.quote
  finalization_bounded : ∀ r ∈ s.records, ∀ f, r.finalization = some f →
    f.amount.unit = r.reservation.maximum.unit ∧
    f.amount.amount.value ≤ r.reservation.maximum.amount.value
  settled_once : ∀ events, ∀ r ∈ s.records,
    ∃ r' ∈ (ToolSpendLedgerProjection.feed s events).records, recordKey r' = recordKey r ∧
      (r.status ≠ .reserved → r'.status = r.status)
  started_reserved : ∀ event i proposal, s.proposals i = some proposal →
    proposal.quote.isSome → i ∉ s.startedInvocations →
    i ∈ (ToolSpendLedgerProjection.apply s event).2.startedInvocations →
    ∃ r ∈ s.records, recordKey r = i ∧ r.status = .reserved
  result_settled : ∀ event i content message,
    event.payload = .toolResultRecorded i content message →
    ToolSpendLedgerProjection.Accepts s event →
    ∀ r ∈ s.records, recordKey r = i → r.status ≠ .reserved
  rejected_unchanged : ∀ event, ¬ ToolSpendLedgerProjection.Accepts s event →
    (ToolSpendLedgerProjection.apply s event).2 = s

/-- Whatever events a ledger was offered, accepted or rejected, its guarantees hold. -/
theorem ledger_sound (events : List RunEvent) : SoundLedger
      (ToolSpendLedgerProjection.acceptedEvents ToolSpendLedgerProjection.initial events)
      (ToolSpendLedgerProjection.feed ToolSpendLedgerProjection.initial events) := by
  have hi := reachable_ledgerInvariant ⟨events, rfl⟩
  constructor
  · exact List.pairwise_map.1 hi.distinct
  · intro r hr
    obtain ⟨proposal, h₁, h₂, h₃⟩ := hi.proposed r hr
    obtain ⟨event, he, proposed, hp, hk, hrun, hq⟩ := feed_proposedBy events _ proposal h₁
    exact ⟨event, he, proposed, hp, hk, hrun.trans h₂, hq.trans h₃⟩
  · exact hi.finalization_le
  · intro later r hr
    obtain ⟨r', hr', hk⟩ := feed_keeps_record (lookup_of_mem hi.distinct hr) later
    exact ⟨r', lookup_mem hr', lookup_key hr', fun h => by rw [hk h]⟩
  · intro event i proposal hproposal hq hn hstarted
    have ha : ToolSpendLedgerProjection.Accepts
        (ToolSpendLedgerProjection.feed ToolSpendLedgerProjection.initial events) event := by
      by_contra ha
      rw [ledger_atomic _ event ha] at hstarted
      exact hn hstarted
    obtain ⟨r, hr, hstatus⟩ :=
      accepted_start_reserved ha (started_of_accepted ha hn hstarted) hproposal hq
    exact ⟨r, lookup_mem hr, lookup_key hr, hstatus⟩
  · intro event i content message hp ha r hr hk
    refine (accepted_terminal_settled hi ha (by rw [hp]; rfl)).2 r ?_
    rw [← hk]
    exact lookup_of_mem hi.distinct hr
  · exact fun event => ledger_atomic _ event

/-- An ended invocation for which no reservation is open and none can be opened. -/
def Closed (i : InvocationId) (s : ToolSpendLedger) : Prop :=
  i ∈ s.terminalInvocations ∧
    ((∃ r, s.find i = some r ∧ r.status ≠ .reserved) ∨
      (s.find i = none ∧ i ∈ s.startedInvocations))

theorem terminalInvocations_mono (h : StageStep s event staged) (hi : i ∈ s.terminalInvocations) :
    i ∈ (s.commit event staged).terminalInvocations := by
  cases h
  case terminated => exact mem_insert_of_mem hi
  all_goals exact hi

theorem startedInvocations_mono (hi : i ∈ s.startedInvocations) :
    i ∈ (s.commit event staged).startedInvocations := by
  unfold ToolSpendLedger.commit
  split
  · exact mem_insert_of_mem hi
  · exact hi

theorem find_none_step (h : StageStep s event staged)
    (hn : ∀ reservation, event.payload = .toolSpendReserved reservation →
      i ∉ s.startedInvocations → reservation.invocationId ≠ i)
    (hi : s.find i = none) : (s.commit event staged).find i = none := by
  have hchg : ∀ (k : InvocationId) (record : ToolSpendRecord)
      (f : ToolSpendRecord → ToolSpendRecord), (∀ x, (f x).reservation = x.reservation) →
      s.find k = some record →
      lookup recordKey i (updateFirst recordKey k f s.records) = none := by
    intro k record f hf hk
    rw [lookup_update_ne (recordKey_of_reservation hf)]
    · exact hi
    · rintro rfl
      simp [hi] at hk
  cases h with
  | proposed | startedFree | terminated | unrelated => exact hi
  | reserved reservation _ hp _ _ _ _ _ hs =>
    refine (lookup_snoc hi).trans (if_neg ?_)
    rintro rfl
    exact hn reservation hp hs rfl
  | startedPaid k record _ _ _ hk | released k record _ hk
  | reconciliationRequired k _ record _ hk => exact hchg k record _ (fun _ => rfl) hk
  | finalized _ record _ hk => exact hchg _ record _ (fun _ => rfl) hk

theorem find_none_of_started (h : StageStep s event staged) (hs : i ∈ s.startedInvocations)
    (hi : s.find i = none) : (s.commit event staged).find i = none :=
  find_none_step h (fun _ _ hn => absurd hs hn) hi

theorem closed_step (s : ToolSpendLedger) (event : RunEvent)
    (h : ToolSpendLedgerProjection.Accepts s event) (hc : Closed i s) :
    Closed i (ToolSpendLedgerProjection.apply s event).2 := by
  obtain ⟨_, hs, he⟩ := accepts_step h
  obtain ⟨ht, hr⟩ := hc
  rw [he]
  refine ⟨terminalInvocations_mono hs ht, ?_⟩
  rcases hr with ⟨_, hr, hstat⟩ | ⟨hr, hbeg⟩
  · obtain ⟨r', hr', hk⟩ := step_keeps_record hs hr
    obtain rfl := hk hstat
    exact .inl ⟨r', hr', hstat⟩
  · exact .inr ⟨find_none_of_started hs hbeg hr, startedInvocations_mono hbeg⟩

theorem closed_rejects (hc : Closed i s) (hp : spendSubject event.payload = some i) :
    ¬ ToolSpendLedgerProjection.Accepts s event := by
  intro h
  obtain ⟨_, hs, -⟩ := accepts_step h
  obtain ⟨ht, hr⟩ := hc
  cases hs with
  | reserved reservation _ hp' _ _ _ _ hf hn =>
    obtain rfl : reservation.invocationId = i := by simpa [hp', spendSubject] using hp
    rcases hr with ⟨_, hr, -⟩ | ⟨-, hbeg⟩
    · simp [hf] at hr
    · exact hn hbeg
  | startedPaid k _ hp' _ _ hf hstat =>
    obtain rfl : k = i := by simpa [hp', spendSubject] using hp
    rcases hr with ⟨_, hr, hne⟩ | ⟨hr, -⟩
    · rw [hf] at hr
      cases hr
      exact hne hstat
    · simp [hf] at hr
  | startedFree k _ hp' _ _ hn hf =>
    obtain rfl : k = i := by simpa [hp', spendSubject] using hp
    rcases hr with ⟨_, hr, -⟩ | ⟨-, hbeg⟩
    · simp [hf] at hr
    · exact hn hbeg
  | released k _ hp' _ _ hn | reconciliationRequired k _ _ hp' _ _ hn =>
    obtain rfl : k = i := by simpa [hp', spendSubject] using hp
    exact hn ht
  | finalized finalization _ hp' _ _ hn =>
    obtain rfl : finalization.invocationId = i := by simpa [hp', spendSubject] using hp
    exact hn ht
  | proposed _ hp' => simp [hp', spendSubject] at hp
  | terminated _ _ hp' => simp [spendSubject_of_terminal hp'] at hp
  | unrelated hp' => simp [hp'] at hp

section

variable (hi : LedgerInvariant s) (h : ToolSpendLedgerProjection.Accepts s event)
  (hp : terminalSubject event.payload = some i)

include hi h hp

theorem closed_of_terminal (hs : i ∈ s.startedInvocations ∨ (s.find i).isSome) :
    Closed i (ToolSpendLedgerProjection.apply s event).2 := by
  have hset := (accepted_terminal_settled hi h hp).2
  obtain ⟨staged, hstep, he⟩ := accepts_step h
  rw [he]
  have ht : i ∈ (s.commit event staged).terminalInvocations := by
    cases hstep
    case terminated k proposal hp' _ _ _ =>
      rw [hp] at hp'
      cases hp'
      exact mem_insert_self _ _
    all_goals simp_all [terminalSubject]
  refine ⟨ht, ?_⟩
  cases hf : s.find i with
  | some r =>
    obtain ⟨r', hr', hk⟩ := step_keeps_record hstep hf
    obtain rfl := hk (hset r hf)
    exact .inl ⟨r', hr', hset r' hf⟩
  | none =>
    have hs : i ∈ s.startedInvocations := by simpa [hf] using hs
    exact .inr ⟨find_none_of_started hstep hs hf, startedInvocations_mono hs⟩

theorem open_of_terminal (hs : i ∉ s.startedInvocations)
    (hf : s.find i = none) : ∃ later, spendSubject later.payload = some i ∧
      later.metadata.sequence = event.metadata.sequence + 1 ∧
      ToolSpendLedgerProjection.Accepts (ToolSpendLedgerProjection.apply s event).2 later := by
  obtain ⟨hproposed, -⟩ := accepted_terminal_settled hi h hp
  obtain ⟨proposal, hprop⟩ := isSome_iff_exists.1 hproposed
  obtain ⟨staged, hstep, he⟩ := accepts_step h
  obtain ⟨fresh, hnew⟩ := Infinite.exists_notMem_finset (s.commit event staged).envelope.eventIds
  -- The terminal event itself changes nothing but the terminal set.
  have hnext : (s.commit event staged).proposals i = some proposal ∧
      (s.commit event staged).find i = none ∧
      i ∉ (s.commit event staged).startedInvocations := by
    rw [startedInvocations_commit (by rintro _ hk; simp [hk, terminalSubject] at hp)]
    cases hstep
    case terminated => exact ⟨hprop, hf, hs⟩
    all_goals simp_all [terminalSubject]
  obtain ⟨h₁, h₂, h₃⟩ := hnext
  rw [he]
  have hlast : (s.commit event staged).envelope.lastSequence = event.metadata.sequence := rfl
  cases hq : proposal.quote with
  | none =>
    refine ⟨⟨⟨fresh, proposal.runId, event.metadata.sequence + 1, 1, 0, none, none, some i⟩,
      .toolStarted i⟩, rfl, rfl, accepts_iff.2 ⟨⟨?_, ?_, hnew, ?_⟩, ?_⟩⟩
    · simp
    · simp
    · simp [hlast]
    · simp [stage, stageStarted, h₁, h₂, h₃, hq, eventInvocationMatches]
  | some quote =>
    have hv := hi.quote_valid i proposal quote hprop hq
    refine ⟨⟨⟨fresh, proposal.runId, event.metadata.sequence + 1, 1, quote.validUntil - 1, none,
      none, some i⟩, .toolSpendReserved ⟨i, quote.maximum, quote.basis, quote.evidenceDigest,
      quote.validUntil⟩⟩, rfl, rfl, accepts_iff.2 ⟨⟨?_, ?_, hnew, ?_⟩, ?_⟩⟩
    · simp
    · simp
    · simp [hlast]
    · simp [stage, stageReserved, h₁, h₂, h₃, hq, eventInvocationMatches,
        validToolSpendReservation, ToolSpendReservation.quote, hv]

end

/-- After an accepted result or error of an invocation, the ledger accepts no reservation,
start, settlement or release for it, in any later stream, exactly when the invocation had been
started or reserved before, or no sequence number is left. -/
theorem terminal_invocation_closed_iff (past : List RunEvent) {s : ToolSpendLedger}
    {event : RunEvent} {i : InvocationId}
    (hpast : ToolSpendLedgerProjection.Accepted ToolSpendLedgerProjection.initial past s)
    (h : ToolSpendLedgerProjection.Accepts s event) (hp : terminalSubject event.payload = some i)
    (hseq : event.metadata.sequence ≤ uint64Max) :
    (∀ between t later, ToolSpendLedgerProjection.Accepted
        (ToolSpendLedgerProjection.apply s event).2 between t →
      spendSubject later.payload = some i → later.metadata.sequence ≤ uint64Max →
      ¬ ToolSpendLedgerProjection.Accepts t later) ↔
    (i ∈ s.startedInvocations ∨ (s.find i).isSome ∨ event.metadata.sequence = uint64Max) := by
  have hi : LedgerInvariant s := accepted_invariant accepts_preserves_invariant hpast .initial
  constructor
  · intro hclosed
    by_contra hopen
    simp only [not_or, Option.not_isSome_iff_eq_none] at hopen
    obtain ⟨hs, hf, hmax⟩ := hopen
    obtain ⟨later, hsub, _, ha⟩ := open_of_terminal hi h hp hs hf
    exact hclosed [] _ later (.nil _) hsub (by omega) ha
  · intro hcond between t later ht hsub hlater ha
    by_cases hmax : event.metadata.sequence = uint64Max
    · -- Sequence numbers only grow, and the last one has been used.
      have hgrow : event.metadata.sequence ≤ t.envelope.lastSequence := by
        refine accepted_invariant (I := fun u : ToolSpendLedger =>
          event.metadata.sequence ≤ u.envelope.lastSequence) ?_ ht ?_
        · intro u e hu hle
          obtain ⟨⟨-, -, -, hlt⟩, _, hs⟩ := accepts_iff.1 hu
          rw [apply_of_stage (accepts_iff.1 hu).1 hs]
          exact hle.trans hlt.le
        · obtain ⟨hf, _, hs⟩ := accepts_iff.1 h
          rw [apply_of_stage hf hs]
          exact le_rfl
      obtain ⟨⟨-, -, -, hlt⟩, -⟩ := accepts_iff.1 ha
      omega
    · have hs : i ∈ s.startedInvocations ∨ (s.find i).isSome := by tauto
      exact closed_rejects (accepted_invariant closed_step ht (closed_of_terminal hi h hp hs))
        hsub ha

def dollarQuote : ToolSpendQuote :=
  ⟨usd one, .catalogEstimate,
    ⟨"sha256", "0000000000000000000000000000000000000000000000000000000000000000", 1⟩, 1000⟩

def imageEvent (eventId : EventId) (sequence schemaVersion : ℕ) (payload : RunEventPayload) :
    RunEvent :=
  ⟨⟨eventId, "run", sequence, schemaVersion, 0, none, none, some "image"⟩, payload⟩

def imageProposal (effects : List Effect) (quote : Option ToolSpendQuote) : RunEvent :=
  imageEvent "proposed" 1 2 (.toolProposed
    ⟨"image", "image", ⟨"application/json", []⟩, effects, none, true, [], [], none, quote,
      some ⟨"application/json", []⟩, none⟩)

def imageDenied : RunEvent :=
  imageEvent "denied" 2 1 (.toolErrored "image" ⟨.policy, "denied", false⟩ none)

def imageReserved : RunEvent :=
  imageEvent "reserved" 3 1 (.toolSpendReserved
    ⟨"image", dollarQuote.maximum, dollarQuote.basis, dollarQuote.evidenceDigest,
      dollarQuote.validUntil⟩)

/-- A paid tool denied before its reservation can still be reserved after its error. -/
theorem late_reservation_accepted : ¬ ∀ past s event i between t later,
      ToolSpendLedgerProjection.Accepted ToolSpendLedgerProjection.initial past s →
      ToolSpendLedgerProjection.Accepts s event → terminalSubject event.payload = some i →
      ToolSpendLedgerProjection.Accepted (ToolSpendLedgerProjection.apply s event).2 between t →
      spendSubject later.payload = some i → ¬ ToolSpendLedgerProjection.Accepts t later := by
  intro h
  exact h [imageProposal [.spend] (some dollarQuote)] _ imageDenied "image" [] _ imageReserved
    (.cons (show (apply _ _).1 = _ by decide) (.nil _)) (show (apply _ _).1 = _ by decide) rfl
    (.nil _) rfl (show (apply _ _).1 = _ by decide)

def imageStarted : RunEvent := imageEvent "started" 2 1 (.toolStarted "image")

def imageResult : RunEvent := imageEvent "result" 3 1 (.toolResultRecorded "image" [] none)

/-- A free tool that ran: its result is accepted, and after it nothing of it any more. -/
theorem ended_free_tool_closed : ToolSpendLedgerProjection.Accepts
      (ToolSpendLedgerProjection.feed ToolSpendLedgerProjection.initial
        [imageProposal [.read] none, imageStarted]) imageResult ∧
    ∀ between t later,
      ToolSpendLedgerProjection.Accepted
        (ToolSpendLedgerProjection.feed ToolSpendLedgerProjection.initial
          [imageProposal [.read] none, imageStarted, imageResult]) between t →
      spendSubject later.payload = some "image" → later.metadata.sequence ≤ uint64Max →
      ¬ ToolSpendLedgerProjection.Accepts t later := by
  have hproposed : ToolSpendLedgerProjection.Accepts ToolSpendLedgerProjection.initial
      (imageProposal [.read] none) := by
    change (apply _ _).1 = _
    decide
  have hstarted : ToolSpendLedgerProjection.Accepts
      (ToolSpendLedgerProjection.apply ToolSpendLedgerProjection.initial
        (imageProposal [.read] none)).2 imageStarted := by
    change (apply _ _).1 = _
    decide
  have hresult : ToolSpendLedgerProjection.Accepts
      (ToolSpendLedgerProjection.feed ToolSpendLedgerProjection.initial
        [imageProposal [.read] none, imageStarted]) imageResult := by
    change (apply _ _).1 = _
    decide
  refine ⟨hresult, ?_⟩
  exact (terminal_invocation_closed_iff [imageProposal [.read] none, imageStarted]
    (.cons hproposed (.cons hstarted (.nil _))) hresult rfl (by decide)).2 (.inl (by decide))

end ToolSpend
