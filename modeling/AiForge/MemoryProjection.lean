import AiForge.EventProjection
import AiForge.Events
import AiForge.KeyedList
import AiForge.Staged

/-! # Memory proposals

A memory is proposed, decided by the user or by policy, and recorded. A decision is final as
far as the branches check that the proposal is still pending; the policy decision is the one
branch that does not. -/
namespace MemoryProjection

open Content Events EventProjection KeyedList SafeText Staged

abbrev MemoryProposalId := String
abbrev MemoryRecordId := String
abbrev RepositoryId := String

inductive MemoryOwnerKind where
  | global | repository | persona | unknown
  deriving DecidableEq

structure MemoryOwner where
  kind : MemoryOwnerKind
  repositoryId : Option RepositoryId
  personaId : Option PersonaId
  deriving DecidableEq

inductive MemoryKind where
  | userPreference | projectConvention | workflow | reusableFact | unknown
  deriving DecidableEq

inductive MemoryDecisionSource where
  | user | policy
  deriving DecidableEq

inductive MemoryPolicyAction where
  | stage | accept | reject
  deriving DecidableEq

structure MemoryProducer where
  modelId : ModelId
  (runtimeName runtimeVersion : Bytes)
  deriving DecidableEq

structure MemorySource where
  sessionId : SessionId
  runId : RunId
  invocationId : InvocationId
  eventIds : List EventId
  deriving DecidableEq

structure MemoryProposal where
  proposalId : MemoryProposalId
  recordId : MemoryRecordId
  owner : MemoryOwner
  kind : MemoryKind
  (content rationale evidenceExcerpt : Bytes)
  source : MemorySource
  producer : MemoryProducer
  replacementRecordId : Option MemoryRecordId
  overlapRecordIds : List MemoryRecordId
  deriving DecidableEq

structure MemoryPolicyEvaluation where
  proposalId : MemoryProposalId
  action : MemoryPolicyAction
  source : MemoryDecisionSource
  reason : Bytes
  expectedProposalEventId : EventId
  deriving DecidableEq

structure MemoryRecord where
  recordId : MemoryRecordId
  proposalId : MemoryProposalId
  owner : MemoryOwner
  kind : MemoryKind
  (content rationale : Bytes)
  source : MemorySource
  producer : MemoryProducer
  deriving DecidableEq

structure MemoryAcceptance where
  record : MemoryRecord
  source : MemoryDecisionSource
  expectedProposalEventId : EventId

structure MemoryEditedAcceptance where
  acceptance : MemoryAcceptance
  replacedRecordId : MemoryRecordId
  expectedRecordEventId : EventId

structure MemoryRejection where
  proposalId : MemoryProposalId
  source : MemoryDecisionSource
  reason : Bytes
  expectedProposalEventId : EventId

structure MemorySupersession where
  (recordId replacementRecordId : MemoryRecordId)
  source : MemoryDecisionSource
  expectedRecordEventId : EventId

structure MemoryExpiry where
  recordId : MemoryRecordId
  source : MemoryDecisionSource
  reason : Bytes
  expectedRecordEventId : EventId

structure MemoryLimits where
  maximumContentBytes : ℕ := 16 * 1024
  (maximumRationaleBytes maximumExcerptBytes : ℕ := 4 * 1024)
  maximumSourceEvents : ℕ := 256
  maximumRelationships : ℕ := 64
  maximumRecords : ℕ := 4096

inductive MemoryErrorCode where
  | invalidLimits | invalidRecord | secretRejected | wrongScope | duplicateIdentity
  | duplicateOrigin | invalidTransition | staleState | nonMonotonicSequence | duplicateEvent
  | resourceExhausted | internalFailure

structure MemoryError where
  code : MemoryErrorCode
  message : String
  proposalId : Option MemoryProposalId := none
  recordId : Option MemoryRecordId := none

/-- The memory events of a journal; every other event only passes the envelope checks. -/
inductive MemoryEventPayload where
  | memoryProposed (proposal : MemoryProposal)
  | memoryPolicyDecided (evaluation : MemoryPolicyEvaluation)
  | memoryAccepted (acceptance : MemoryAcceptance)
  | memoryEditedAndAccepted (acceptance : MemoryEditedAcceptance)
  | memoryRejected (rejection : MemoryRejection)
  | memorySuperseded (supersession : MemorySupersession)
  | memoryExpired (expiry : MemoryExpiry)
  | unrelated (payload : RunEventPayload)

structure MemoryEvent where
  metadata : EventMetadata
  payload : MemoryEventPayload

def validLimits (limits : MemoryLimits) : Bool :=
  limits.maximumContentBytes != 0 && limits.maximumRationaleBytes != 0 &&
  limits.maximumExcerptBytes != 0 && limits.maximumSourceEvents != 0 &&
  limits.maximumRelationships != 0 && limits.maximumRecords != 0

def lowerAscii (value : Bytes) : Bytes :=
  value.map fun c => if 0x41 ≤ c ∧ c ≤ 0x5a then c + 0x20 else c

def findText (needle : Bytes) : Bytes → Option ℕ
  | [] => if needle = [] then some 0 else none
  | c :: rest =>
    if needle.isPrefixOf (c :: rest) then some 0 else (findText needle rest).map (· + 1)

def containsText (value needle : Bytes) : Bool := (findText needle value).isSome

def shapedLikeSecret (value : Bytes) : Bool :=
  let lower := lowerAscii value
  containsText lower (bytesOf "authorization:") || containsText lower (bytesOf "api_key=") ||
  containsText lower (bytesOf "api-key=") || containsText lower (bytesOf "access_token=") ||
  containsText lower (bytesOf "private key-----") ||
  (findText (bytesOf "sk-") lower).any (fun sk => 12 ≤ lower.length - sk) ||
  (findText (bytesOf "bearer ") lower).any fun bearer => 16 ≤ lower.length - bearer

def memoryTextIsSafe (value : Bytes) : Bool :=
  !value.isEmpty && value.all fun c =>
    !(c == 0 || c == 0x1b || c == 0x7f || (c < 0x20 && c != 0x0a && c != 0x09))

def validProducer (producer : MemoryProducer) : Bool :=
  !producer.runtimeName.isEmpty && producer.runtimeName.length ≤ 128 &&
  !producer.runtimeVersion.isEmpty && producer.runtimeVersion.length ≤ 128 &&
  memoryTextIsSafe producer.runtimeName && memoryTextIsSafe producer.runtimeVersion

def validSource (source : MemorySource) (limits : MemoryLimits) : Bool :=
  !source.eventIds.isEmpty && source.eventIds.length ≤ limits.maximumSourceEvents &&
  decide source.eventIds.Nodup

def validateMemoryOwner (owner : MemoryOwner) : Bool :=
  (owner.kind == .global && owner.repositoryId.isNone && owner.personaId.isNone) ||
  (owner.kind == .repository && owner.repositoryId.isSome && owner.personaId.isNone) ||
  (owner.kind == .persona && owner.repositoryId.isNone && owner.personaId.isSome)

def validateMemoryProposal (proposal : MemoryProposal) (limits : MemoryLimits) :
    Except MemoryError PUnit := do
  ensure (validLimits limits) ⟨.invalidLimits, "memory limits must be positive", none, none⟩
  ensure (validateMemoryOwner proposal.owner)
    ⟨.wrongScope, "memory proposal must have exactly one valid owner", some proposal.proposalId,
      some proposal.recordId⟩
  ensure (proposal.content.length ≤ limits.maximumContentBytes ∧
      proposal.rationale.length ≤ limits.maximumRationaleBytes ∧
      proposal.evidenceExcerpt.length ≤ limits.maximumExcerptBytes ∧
      memoryTextIsSafe proposal.content ∧ memoryTextIsSafe proposal.rationale ∧
      memoryTextIsSafe proposal.evidenceExcerpt ∧
      validSource proposal.source limits ∧ validProducer proposal.producer ∧
      proposal.overlapRecordIds.length ≤ limits.maximumRelationships)
    ⟨.invalidRecord, "memory proposal is malformed or exceeds its limits",
      some proposal.proposalId, some proposal.recordId⟩
  ensure (shapedLikeSecret proposal.content = false ∧ shapedLikeSecret proposal.rationale = false ∧
      shapedLikeSecret proposal.evidenceExcerpt = false)
    ⟨.secretRejected, "memory proposal contains credential-shaped content",
      some proposal.proposalId, some proposal.recordId⟩
  ensure (proposal.overlapRecordIds.Nodup ∧ proposal.recordId ∉ proposal.overlapRecordIds ∧
      ∀ replacement ∈ proposal.replacementRecordId,
        replacement ≠ proposal.recordId ∧ replacement ∈ proposal.overlapRecordIds)
    ⟨.invalidRecord, "memory proposal relationships are inconsistent", some proposal.proposalId,
      some proposal.recordId⟩

def validateMemoryRecord (record : MemoryRecord) (limits : MemoryLimits) :
    Except MemoryError PUnit :=
  validateMemoryProposal
    { proposalId := record.proposalId, recordId := record.recordId, owner := record.owner,
      kind := record.kind, content := record.content, rationale := record.rationale,
      evidenceExcerpt := bytesOf "accepted-memory-source", source := record.source,
      producer := record.producer, replacementRecordId := none, overlapRecordIds := [] } limits

inductive ProjectedMemoryProposalState where
  | pending | accepted | rejected
  deriving DecidableEq

inductive ProjectedMemoryRecordState where
  | current | superseded | expired
  deriving DecidableEq

structure ProjectedMemoryProposal where
  proposal : MemoryProposal
  proposalEventId : EventId
  proposedAt : EventTimestamp
  state : ProjectedMemoryProposalState := .pending
  stateChangedAt : Option EventTimestamp := none
  policy : Option MemoryPolicyEvaluation := none
  decisionEventId : Option EventId := none
  deriving DecidableEq

structure ProjectedMemoryRecord where
  record : MemoryRecord
  recordEventId : EventId
  acceptedAt : EventTimestamp
  state : ProjectedMemoryRecordState := .current
  stateChangedAt : Option EventTimestamp := none
  replacementRecordId : Option MemoryRecordId := none
  expiryReason : Option Bytes := none
  deriving DecidableEq

def ProjectedMemoryProposal.id (p : ProjectedMemoryProposal) : MemoryProposalId :=
  p.proposal.proposalId

def ProjectedMemoryRecord.id (r : ProjectedMemoryRecord) : MemoryRecordId := r.record.recordId

structure MemoryState where
  proposals : List ProjectedMemoryProposal := []
  records : List ProjectedMemoryRecord := []
  eventIds : Finset EventId := ∅
  lastSequence : ℕ := 0

def MemoryState.findProposal (s : MemoryState) (id : MemoryProposalId) :
    Option ProjectedMemoryProposal := lookup ProjectedMemoryProposal.id id s.proposals

def MemoryState.findRecord (s : MemoryState) (id : MemoryRecordId) :
    Option ProjectedMemoryRecord := lookup ProjectedMemoryRecord.id id s.records

def MemoryState.changeProposal (s : MemoryState) (id : MemoryProposalId)
    (f : ProjectedMemoryProposal → ProjectedMemoryProposal) : MemoryState :=
  { s with proposals := updateFirst ProjectedMemoryProposal.id id f s.proposals }

def MemoryState.changeRecord (s : MemoryState) (id : MemoryRecordId)
    (f : ProjectedMemoryRecord → ProjectedMemoryRecord) : MemoryState :=
  { s with records := updateFirst ProjectedMemoryRecord.id id f s.records }

/-- The entry of a record that an event has just accepted. -/
def MemoryState.pushRecord (s : MemoryState) (record : MemoryRecord) (metadata : EventMetadata) :
    MemoryState :=
  { s with records := s.records ++
    [{ record := record, recordEventId := metadata.eventId, acceptedAt := metadata.timestamp }] }

/-- The entry of a proposal that an event has just decided. -/
def ProjectedMemoryProposal.settle (p : ProjectedMemoryProposal)
    (state : ProjectedMemoryProposalState) (metadata : EventMetadata) : ProjectedMemoryProposal :=
  { p with state := state, stateChangedAt := some metadata.timestamp,
           decisionEventId := some metadata.eventId }

def recordMatchesProposal (record : MemoryRecord) (proposal : MemoryProposal)
    (allowEditedContent : Bool) : Prop :=
  record.recordId = proposal.recordId ∧ record.proposalId = proposal.proposalId ∧
  record.owner = proposal.owner ∧ record.kind = proposal.kind ∧
  (allowEditedContent ∨ record.content = proposal.content) ∧
  record.rationale = proposal.rationale ∧ record.source = proposal.source ∧
  record.producer = proposal.producer

instance (record : MemoryRecord) (proposal : MemoryProposal) (allowEditedContent : Bool) :
    Decidable (recordMatchesProposal record proposal allowEditedContent) :=
  inferInstanceAs (Decidable (_ ∧ _ ∧ _ ∧ _ ∧ _ ∧ _ ∧ _ ∧ _))

/-- A decision of the user needs a policy that staged the proposal, if there was one; a decision
of the policy needs the policy that took it. -/
def sourceAgrees (source : MemoryDecisionSource) (policy : Option MemoryPolicyEvaluation)
    (action : MemoryPolicyAction) : Prop :=
  (source = .policy → ∃ evaluation ∈ policy, evaluation.action = action) ∧
  (source = .user → ∀ evaluation ∈ policy, evaluation.action = .stage)

instance (source : MemoryDecisionSource) (policy : Option MemoryPolicyEvaluation)
    (action : MemoryPolicyAction) : Decidable (sourceAgrees source policy action) :=
  inferInstanceAs (Decidable ((_ → _) ∧ (_ → _)))

/-- The entry of a record that an event has just replaced. -/
def ProjectedMemoryRecord.supersede (r : ProjectedMemoryRecord) (replacement : MemoryRecordId)
    (metadata : EventMetadata) : ProjectedMemoryRecord :=
  { r with state := .superseded, stateChangedAt := some metadata.timestamp,
           replacementRecordId := some replacement, recordEventId := metadata.eventId }

def ProjectedMemoryRecord.expire (r : ProjectedMemoryRecord) (reason : Bytes)
    (metadata : EventMetadata) : ProjectedMemoryRecord :=
  { r with state := .expired, stateChangedAt := some metadata.timestamp,
           expiryReason := some reason, recordEventId := metadata.eventId }

def applyProposed (s : MemoryState) (metadata : EventMetadata) (limits : MemoryLimits)
    (proposal : MemoryProposal) : Except MemoryError MemoryState := do
  validateMemoryProposal proposal limits
  ensure (s.proposals.length < limits.maximumRecords)
    ⟨.resourceExhausted, "memory proposal limit is exceeded", none, none⟩
  ensure (s.findProposal proposal.proposalId = none)
    ⟨.duplicateIdentity, "memory proposal identity is duplicated", some proposal.proposalId, none⟩
  ensure (∀ p ∈ s.proposals, ¬ (p.proposal.source.sessionId = proposal.source.sessionId ∧
      p.proposal.source.invocationId = proposal.source.invocationId))
    ⟨.duplicateOrigin, "memory proposal origin is duplicated", some proposal.proposalId, none⟩
  return { s with proposals := s.proposals ++
    [{ proposal := proposal, proposalEventId := metadata.eventId,
       proposedAt := metadata.timestamp }] }

/-- The state of the proposal is not looked at; every action a decision can name is allowed. -/
def applyPolicyDecided (s : MemoryState) (metadata : EventMetadata)
    (evaluation : MemoryPolicyEvaluation) : Except MemoryError MemoryState := do
  let stale := ⟨.staleState, "memory policy decision is stale", some evaluation.proposalId, none⟩
  let found ← Staged.require (s.findProposal evaluation.proposalId) stale
  ensure (found.proposalEventId = evaluation.expectedProposalEventId ∧ found.policy = none ∧
    evaluation.source = .policy ∧ memoryTextIsSafe evaluation.reason) stale
  return s.changeProposal evaluation.proposalId fun p =>
    { p with policy := some evaluation, decisionEventId := some metadata.eventId }

def applyAccepted (s : MemoryState) (metadata : EventMetadata) (limits : MemoryLimits)
    (acceptance : MemoryAcceptance) : Except MemoryError MemoryState := do
  let record := acceptance.record
  validateMemoryRecord record limits
  let stale := ⟨.staleState, "memory acceptance is stale or inconsistent", some record.proposalId,
    some record.recordId⟩
  let found ← Staged.require (s.findProposal record.proposalId) stale
  ensure (found.state = .pending ∧
    found.proposalEventId = acceptance.expectedProposalEventId ∧
    found.proposal.recordId = record.recordId ∧
    recordMatchesProposal record found.proposal false ∧
    sourceAgrees acceptance.source found.policy .accept ∧
    s.findRecord record.recordId = none) stale
  ensure (found.proposal.overlapRecordIds = [] ∧ found.proposal.replacementRecordId = none)
    ⟨.invalidTransition, "related memory acceptance requires edited replacement",
      some found.proposal.proposalId, some found.proposal.recordId⟩
  return (s.changeProposal record.proposalId fun p => p.settle .accepted metadata).pushRecord
    record metadata

def applyEditedAndAccepted (s : MemoryState) (metadata : EventMetadata) (limits : MemoryLimits)
    (edited : MemoryEditedAcceptance) : Except MemoryError MemoryState := do
  let acceptance := edited.acceptance
  let record := acceptance.record
  validateMemoryRecord record limits
  let stale := ⟨.staleState, "edited memory acceptance is stale", some record.proposalId,
    some record.recordId⟩
  let proposal ← Staged.require (s.findProposal record.proposalId) stale
  let replaced ← Staged.require (s.findRecord edited.replacedRecordId) stale
  ensure (proposal.state = .pending ∧
    proposal.proposalEventId = acceptance.expectedProposalEventId ∧
    replaced.state = .current ∧ replaced.recordEventId = edited.expectedRecordEventId ∧
    acceptance.source = .user ∧ (∀ evaluation ∈ proposal.policy, evaluation.action = .stage) ∧
    proposal.proposal.replacementRecordId = some edited.replacedRecordId ∧
    edited.replacedRecordId ∈ proposal.proposal.overlapRecordIds ∧
    recordMatchesProposal record proposal.proposal true ∧
    s.findRecord record.recordId = none) stale
  let s := s.changeProposal record.proposalId fun p => p.settle .accepted metadata
  let s := s.changeRecord edited.replacedRecordId fun r => r.supersede record.recordId metadata
  return s.pushRecord record metadata

def applyRejected (s : MemoryState) (metadata : EventMetadata) (rejection : MemoryRejection) :
    Except MemoryError MemoryState := do
  let stale :=
    ⟨.staleState, "memory rejection is stale or invalid", some rejection.proposalId, none⟩
  let found ← Staged.require (s.findProposal rejection.proposalId) stale
  ensure (found.state = .pending ∧ found.proposalEventId = rejection.expectedProposalEventId ∧
    sourceAgrees rejection.source found.policy .reject ∧
    memoryTextIsSafe rejection.reason) stale
  return s.changeProposal rejection.proposalId fun p => p.settle .rejected metadata

def applySuperseded (s : MemoryState) (metadata : EventMetadata)
    (supersession : MemorySupersession) : Except MemoryError MemoryState := do
  let stale :=
    ⟨.staleState, "memory supersession is stale", none, some supersession.recordId⟩
  let found ← Staged.require (s.findRecord supersession.recordId) stale
  ensure (found.state = .current ∧ found.recordEventId = supersession.expectedRecordEventId ∧
    (s.findRecord supersession.replacementRecordId).isSome) stale
  return s.changeRecord supersession.recordId fun r =>
    r.supersede supersession.replacementRecordId metadata

def applyExpired (s : MemoryState) (metadata : EventMetadata) (expiry : MemoryExpiry) :
    Except MemoryError MemoryState := do
  let stale := ⟨.staleState, "memory expiry is stale or invalid", none, some expiry.recordId⟩
  let found ← Staged.require (s.findRecord expiry.recordId) stale
  ensure (found.state = .current ∧ found.recordEventId = expiry.expectedRecordEventId ∧
    memoryTextIsSafe expiry.reason) stale
  return s.changeRecord expiry.recordId fun r => r.expire expiry.reason metadata

def visit (s : MemoryState) (event : MemoryEvent) (limits : MemoryLimits) :
    Except MemoryError MemoryState :=
  match event.payload with
  | .memoryProposed proposal => applyProposed s event.metadata limits proposal
  | .memoryPolicyDecided evaluation => applyPolicyDecided s event.metadata evaluation
  | .memoryAccepted acceptance => applyAccepted s event.metadata limits acceptance
  | .memoryEditedAndAccepted acceptance =>
    applyEditedAndAccepted s event.metadata limits acceptance
  | .memoryRejected rejection => applyRejected s event.metadata rejection
  | .memorySuperseded supersession => applySuperseded s event.metadata supersession
  | .memoryExpired expiry => applyExpired s event.metadata expiry
  | .unrelated _ => .ok s

/-- All work is done on a copy, which replaces the state at the end. -/
def applyChecked (s : MemoryState) (event : MemoryEvent) (limits : MemoryLimits) :
    Except MemoryError MemoryState := do
  ensure (event.metadata.sequence ≠ 0 ∧ s.lastSequence < event.metadata.sequence)
    ⟨.nonMonotonicSequence, "memory event sequence does not increase", none, none⟩
  ensure (event.metadata.eventId ∉ s.eventIds)
    ⟨.duplicateEvent, "memory event identity is duplicated", none, none⟩
  let next ← visit s event limits
  return { next with
    eventIds := insert event.metadata.eventId next.eventIds
    lastSequence := event.metadata.sequence }

def apply (limits : MemoryLimits) (s : MemoryState) (event : MemoryEvent) :
    Except MemoryError Unit × MemoryState :=
  match applyChecked s event limits with
  | .ok t => (.ok (), t)
  | .error err => (.error err, s)

def MemoryProjectionOf (limits : MemoryLimits) : Projection MemoryState MemoryEvent MemoryError :=
  ⟨{}, apply limits⟩

/-- One case for each kind of event that is accepted, with what its branch has checked of the
two tables. -/
inductive Transition (s : MemoryState) (event : MemoryEvent) (t : MemoryState) : Prop where
  | proposed (proposal : MemoryProposal) (payload : event.payload = .memoryProposed proposal)
      (fresh : s.findProposal proposal.proposalId = none)
      (proposals : t.proposals = s.proposals ++
        [{ proposal := proposal, proposalEventId := event.metadata.eventId,
           proposedAt := event.metadata.timestamp }])
      (records : t.records = s.records)
  | evaluated (evaluation : MemoryPolicyEvaluation) (found : ProjectedMemoryProposal)
      (payload : event.payload = .memoryPolicyDecided evaluation)
      (known : s.findProposal evaluation.proposalId = some found) (first : found.policy = none)
      (proposals : t.proposals = (s.changeProposal evaluation.proposalId fun p =>
        { p with policy := some evaluation,
                 decisionEventId := some event.metadata.eventId }).proposals)
      (records : t.records = s.records)
  | accepted (acceptance : MemoryAcceptance) (found : ProjectedMemoryProposal)
      (payload : event.payload = .memoryAccepted acceptance)
      (known : s.findProposal acceptance.record.proposalId = some found)
      (pending : found.state = .pending)
      (matching : acceptance.record.recordId = found.proposal.recordId)
      (fresh : s.findRecord acceptance.record.recordId = none)
      (proposals : t.proposals = (s.changeProposal acceptance.record.proposalId fun p =>
        p.settle .accepted event.metadata).proposals)
      (records : t.records = (s.pushRecord acceptance.record event.metadata).records)
  | edited (edited : MemoryEditedAcceptance) (found : ProjectedMemoryProposal)
      (replaced : ProjectedMemoryRecord)
      (payload : event.payload = .memoryEditedAndAccepted edited)
      (known : s.findProposal edited.acceptance.record.proposalId = some found)
      (pending : found.state = .pending)
      (matching : edited.acceptance.record.recordId = found.proposal.recordId)
      (fresh : s.findRecord edited.acceptance.record.recordId = none)
      (target : s.findRecord edited.replacedRecordId = some replaced)
      (current : replaced.state = .current)
      (proposals : t.proposals = (s.changeProposal edited.acceptance.record.proposalId fun p =>
        p.settle .accepted event.metadata).proposals)
      (records : t.records = ((s.changeRecord edited.replacedRecordId fun r =>
        r.supersede edited.acceptance.record.recordId event.metadata).pushRecord
          edited.acceptance.record event.metadata).records)
  | rejected (rejection : MemoryRejection) (found : ProjectedMemoryProposal)
      (payload : event.payload = .memoryRejected rejection)
      (known : s.findProposal rejection.proposalId = some found)
      (pending : found.state = .pending)
      (proposals : t.proposals = (s.changeProposal rejection.proposalId fun p =>
        p.settle .rejected event.metadata).proposals)
      (records : t.records = s.records)
  | superseded (supersession : MemorySupersession) (found : ProjectedMemoryRecord)
      (payload : event.payload = .memorySuperseded supersession)
      (target : s.findRecord supersession.recordId = some found)
      (current : found.state = .current)
      (replacement : (s.findRecord supersession.replacementRecordId).isSome)
      (proposals : t.proposals = s.proposals)
      (records : t.records = (s.changeRecord supersession.recordId fun r =>
        r.supersede supersession.replacementRecordId event.metadata).records)
  | expired (expiry : MemoryExpiry) (found : ProjectedMemoryRecord)
      (payload : event.payload = .memoryExpired expiry)
      (target : s.findRecord expiry.recordId = some found)
      (current : found.state = .current)
      (proposals : t.proposals = s.proposals)
      (records : t.records = (s.changeRecord expiry.recordId fun r =>
        r.expire expiry.reason event.metadata).records)
  | unrelated (other : RunEventPayload) (payload : event.payload = .unrelated other)
      (proposals : t.proposals = s.proposals) (records : t.records = s.records)

theorem visit_transition {s t : MemoryState} {event : MemoryEvent} {limits : MemoryLimits}
    (h : visit s event limits = .ok t) : Transition s event t := by
  unfold visit at h
  cases hp : event.payload <;> rw [hp] at h <;> dsimp only at h
  case memoryProposed proposal =>
    replace h := later h
    replace h := later h
    obtain ⟨hnew, h⟩ := guarded h
    replace h := later h
    cases h
    exact .proposed proposal hp hnew rfl rfl
  case memoryPolicyDecided evaluation =>
    obtain ⟨found, hf, h⟩ := bind_ok.1 h
    obtain ⟨_, hc, h⟩ := bind_ok.1 h
    cases h
    exact .evaluated evaluation found hp (require_ok.1 hf) (ensure_ok.1 hc).2.1 rfl rfl
  case memoryAccepted acceptance =>
    replace h := later h
    obtain ⟨found, hf, h⟩ := bind_ok.1 h
    obtain ⟨_, hc, h⟩ := bind_ok.1 h
    replace h := later h
    cases h
    obtain ⟨hpend, -, hrec, -, -, hfresh⟩ := ensure_ok.1 hc
    exact .accepted acceptance found hp (require_ok.1 hf) hpend hrec.symm hfresh rfl rfl
  case memoryEditedAndAccepted edited =>
    replace h := later h
    obtain ⟨proposal, hf, h⟩ := bind_ok.1 h
    obtain ⟨replaced, hr, h⟩ := bind_ok.1 h
    obtain ⟨_, hc, h⟩ := bind_ok.1 h
    cases h
    obtain ⟨hpend, -, hcur, -, -, -, -, -, hmatch, hfresh⟩ := ensure_ok.1 hc
    exact .edited edited proposal replaced hp (require_ok.1 hf) hpend hmatch.1 hfresh
      (require_ok.1 hr) hcur rfl rfl
  case memoryRejected rejection =>
    obtain ⟨found, hf, h⟩ := bind_ok.1 h
    obtain ⟨_, hc, h⟩ := bind_ok.1 h
    cases h
    exact .rejected rejection found hp (require_ok.1 hf) (ensure_ok.1 hc).1 rfl rfl
  case memorySuperseded supersession =>
    obtain ⟨found, hf, h⟩ := bind_ok.1 h
    obtain ⟨_, hc, h⟩ := bind_ok.1 h
    cases h
    obtain ⟨hcur, -, hrepl⟩ := ensure_ok.1 hc
    exact .superseded supersession found hp (require_ok.1 hf) hcur hrepl rfl rfl
  case memoryExpired expiry =>
    obtain ⟨found, hf, h⟩ := bind_ok.1 h
    obtain ⟨hc, h⟩ := guarded h
    cases h
    exact .expired expiry found hp (require_ok.1 hf) hc.1 rfl rfl
  case unrelated other =>
    cases h
    exact .unrelated other hp rfl rfl

theorem accepts_transition {limits : MemoryLimits} {s : MemoryState} {event : MemoryEvent}
    (h : (MemoryProjectionOf limits).Accepts s event) :
    Transition s event ((MemoryProjectionOf limits).apply s event).2 := by
  change (apply limits s event).1 = _ at h
  change Transition s event (apply limits s event).2
  unfold apply at h ⊢
  cases hc : applyChecked s event limits with
  | error => simp [hc] at h
  | ok =>
    replace hc := later hc
    replace hc := later hc
    obtain ⟨_, hv, hc⟩ := bind_ok.1 hc
    cases hc
    -- The envelope is written after the tables, which it leaves alone.
    cases visit_transition hv with
    | proposed _ hp hnew hk hr => exact .proposed _ hp hnew hk hr
    | evaluated _ _ hp hf hnone hk hr => exact .evaluated _ _ hp hf hnone hk hr
    | accepted _ _ hp hf hpend hm hnew hk hr =>
      exact .accepted _ _ hp hf hpend hm hnew hk hr
    | edited _ _ _ hp hf hpend hm hnew ht hcur hk hr =>
      exact .edited _ _ _ hp hf hpend hm hnew ht hcur hk hr
    | rejected _ _ hp hf hpend hk hr => exact .rejected _ _ hp hf hpend hk hr
    | superseded _ _ hp ht hcur hrep hk hr => exact .superseded _ _ hp ht hcur hrep hk hr
    | expired _ _ hp ht hcur hk hr => exact .expired _ _ hp ht hcur hk hr
    | unrelated _ hp hk hr => exact .unrelated _ hp hk hr

theorem apply_atomic (limits : MemoryLimits) : (MemoryProjectionOf limits).Atomic := by
  intro s event h
  change (apply limits s event).2 = s
  change ¬ (apply limits s event).1 = _ at h
  unfold apply at h ⊢
  cases hc : applyChecked s event limits with
  | error => rfl
  | ok => simp [hc] at h

def policyDecision : MemoryEventPayload → Option MemoryPolicyEvaluation
  | .memoryPolicyDecided evaluation => some evaluation
  | _ => none

/-- A policy decision reaches its proposal before anything else has decided it. -/
def PolicyTimely (s : MemoryState) (event : MemoryEvent) : Prop :=
  ∀ evaluation ∈ policyDecision event.payload,
    ∀ p ∈ s.findProposal evaluation.proposalId, p.state = .pending

instance (s : MemoryState) (event : MemoryEvent) : Decidable (PolicyTimely s event) :=
  inferInstanceAs (Decidable (∀ evaluation ∈ policyDecision event.payload,
    ∀ p ∈ s.findProposal evaluation.proposalId, p.state = .pending))

/-- What an accepted event does to the proposals: nothing, one more, a policy decision whatever
the state of the proposal, or the end of one that was pending. -/
inductive Moved (s : MemoryState) (event : MemoryEvent) : MemoryState → Prop where
  | kept {t} : policyDecision event.payload = none →
      t.proposals = s.proposals → Moved s event t
  | proposed {t p} : policyDecision event.payload = none →
      s.findProposal p.id = none → t.proposals = s.proposals ++ [p] → Moved s event t
  | evaluated {t evaluation p} : policyDecision event.payload = some evaluation →
      s.findProposal evaluation.proposalId = some p → p.policy = none →
      t.proposals = (s.changeProposal evaluation.proposalId fun p =>
        { p with policy := some evaluation,
                 decisionEventId := some event.metadata.eventId }).proposals → Moved s event t
  | settled {t id p state} : policyDecision event.payload = none →
      s.findProposal id = some p → p.state = .pending →
      t.proposals = (s.changeProposal id fun p => p.settle state event.metadata).proposals →
      Moved s event t

theorem accepts_moved {limits : MemoryLimits} {s : MemoryState} {event : MemoryEvent}
    (h : (MemoryProjectionOf limits).Accepts s event) :
    Moved s event ((MemoryProjectionOf limits).apply s event).2 := by
  cases accepts_transition h with
  | proposed _ hp hnew hk =>
    refine .proposed (by rw [hp]; rfl) ?_ hk
    exact hnew
  | evaluated _ _ hp hf hnone hk =>
    exact .evaluated (by rw [hp]; rfl) hf hnone hk
  | accepted _ _ hp hf hpend _ _ hk | edited _ _ _ hp hf hpend _ _ _ _ hk
  | rejected _ _ hp hf hpend hk =>
    exact .settled (by rw [hp]; rfl) hf hpend hk
  | superseded _ _ hp _ _ _ hk | expired _ _ hp _ _ hk | unrelated _ hp hk =>
    exact .kept (by rw [hp]; rfl) hk

theorem findProposal_changed {s t : MemoryState} {id : MemoryProposalId}
    {f : ProjectedMemoryProposal → ProjectedMemoryProposal}
    (ht : t.proposals = (s.changeProposal id f).proposals)
    (hf : ∀ x : ProjectedMemoryProposal, x.id = id → (f x).id = id) :
    t.findProposal id = (s.findProposal id).map f := by
  unfold MemoryState.findProposal
  rw [ht]
  exact lookup_update_self hf

theorem findProposal_changed_ne {s t : MemoryState} {id id' : MemoryProposalId}
    {f : ProjectedMemoryProposal → ProjectedMemoryProposal}
    (ht : t.proposals = (s.changeProposal id' f).proposals)
    (hf : ∀ x : ProjectedMemoryProposal, x.id = id' → (f x).id = id') (hne : id ≠ id') :
    t.findProposal id = s.findProposal id := by
  unfold MemoryState.findProposal
  rw [ht]
  exact lookup_update_ne hf hne

/-- A decided proposal keeps its entry as long as policy decisions only reach pending ones. -/
theorem moved_final {s t : MemoryState} {event : MemoryEvent} {id : MemoryProposalId}
    {p : ProjectedMemoryProposal} (h : Moved s event t) (hpol : PolicyTimely s event)
    (hp : s.findProposal id = some p) (hdec : p.state ≠ .pending) :
    t.findProposal id = some p := by
  -- What is changed was pending, so it is another proposal.
  have hchg : ∀ id' q (f : ProjectedMemoryProposal → ProjectedMemoryProposal),
      t.proposals = (s.changeProposal id' f).proposals →
      s.findProposal id' = some q → q.state = .pending →
      (∀ x : ProjectedMemoryProposal, x.id = id' → (f x).id = id') →
      t.findProposal id = some p := by
    intro id' q f ht hq hpend hf
    have hne : id ≠ id' := by
      rintro rfl
      obtain rfl : p = q := Option.some.inj (hp.symm.trans hq)
      exact hdec hpend
    rw [findProposal_changed_ne ht hf hne]
    exact hp
  cases h with
  | kept _ hk =>
    unfold MemoryState.findProposal at hp ⊢
    rw [hk]
    exact hp
  | proposed _ _ hk =>
    unfold MemoryState.findProposal at hp ⊢
    rw [hk]
    exact lookup_snoc_of_some hp
  | evaluated hpay hf _ hk => exact hchg _ _ _ hk hf (hpol _ hpay _ hf) fun _ hx => hx
  | settled _ hf hpend hk => exact hchg _ _ _ hk hf hpend fun _ hx => hx

/-- The part of a proposal that a decision fixes. -/
def SameDecision (p q : ProjectedMemoryProposal) : Prop :=
  q.state = p.state ∧ q.policy = p.policy ∧ q.decisionEventId = p.decisionEventId

/-- From `s` to `t` no proposal that had been decided has changed. -/
def Final (s t : MemoryState) : Prop :=
  ∀ id p, s.findProposal id = some p → p.state ≠ .pending →
    ∃ q, t.findProposal id = some q ∧ SameDecision p q

/-- Along an accepted stream decisions are final, between any two of its states, exactly if no
policy decision arrives for a proposal that has been accepted or rejected already. -/
theorem memory_decision_final_iff {limits : MemoryLimits} {events : List MemoryEvent}
    {t : MemoryState}
    (h : (MemoryProjectionOf limits).Accepted (MemoryProjectionOf limits).initial events t) :
    (∀ past s later u, past ++ later <+: events →
      (MemoryProjectionOf limits).Accepted (MemoryProjectionOf limits).initial past s →
      (MemoryProjectionOf limits).Accepted s later u → Final s u) ↔
    ∀ past event s, past ++ [event] <+: events →
      (MemoryProjectionOf limits).Accepted (MemoryProjectionOf limits).initial past s →
      PolicyTimely s event := by
  constructor
  · rintro hfinal past event s ⟨_, rfl⟩ hs evaluation hev p hp
    by_contra hdecided
    obtain ⟨u, hu, -⟩ := accepted_append.1 h
    obtain ⟨s', hs', hstep⟩ := accepted_append.1 hu
    obtain rfl : s' = s := (accepted_feed hs').symm.trans (accepted_feed hs)
    obtain ⟨_, hq, -, hpolicy, -⟩ :=
      hfinal past s' [event] u (List.prefix_append _ _) hs hstep _ p hp hdecided
    rcases hstep with _ | ⟨hx, ⟨⟩⟩
    cases accepts_moved hx with
    | kept hn | proposed hn | settled hn =>
      rw [hn] at hev
      cases hev
    | @evaluated evaluation' p' hpay hf hnone hk =>
      obtain rfl : evaluation' = evaluation := Option.some.inj (hpay.symm.trans hev)
      obtain rfl : p = p' := Option.some.inj (hp.symm.trans hf)
      have hself := findProposal_changed hk fun _ hx => hx
      rw [hq, hp] at hself
      cases hself
      rw [hnone] at hpolicy
      cases hpolicy
  · intro hcond past s later u hpre hs hu
    have hkept : ∀ id p, s.findProposal id = some p → p.state ≠ .pending →
        u.findProposal id = some p := by
      induction later using List.reverseRecOn generalizing u with
      | nil =>
        cases hu
        intro id p hp _
        exact hp
      | append_singleton later event ih =>
        obtain ⟨v, hv, hstep⟩ := accepted_append.1 hu
        rw [← List.append_assoc] at hpre
        have hbefore := ih v ((List.prefix_append _ _).trans hpre) hv
        have hpast := accepted_append.2 ⟨s, hs, hv⟩
        rcases hstep with _ | ⟨hx, ⟨⟩⟩
        intro id p hp hdecided
        refine moved_final (accepts_moved hx) ?_ (hbefore id p hp hdecided) hdecided
        exact hcond (past ++ later) event v hpre hpast
    intro id p hp hdecided
    exact ⟨p, hkept id p hp hdecided, rfl, rfl, rfl⟩

def memoryEvent (eventId : EventId) (sequence : ℕ) (payload : MemoryEventPayload) : MemoryEvent :=
  ⟨⟨eventId, "run", sequence, 1, 0, none, none, none⟩, payload⟩

def tabsProposal : MemoryProposal :=
  { proposalId := "proposal", recordId := "record", owner := ⟨.global, none, none⟩,
    kind := .userPreference, content := bytesOf "tabs", rationale := bytesOf "asked",
    evidenceExcerpt := bytesOf "use tabs", source := ⟨"session", "run", "call", ["message"]⟩,
    producer := ⟨"model", bytesOf "aiforge", bytesOf "1"⟩, replacementRecordId := none,
    overlapRecordIds := [] }

def tabsProposed : MemoryEvent := memoryEvent "proposed" 1 (.memoryProposed tabsProposal)

/-- The user takes the proposal before any policy has looked at it. -/
def tabsAccepted : MemoryEvent :=
  memoryEvent "accepted" 2 (.memoryAccepted
    ⟨⟨"record", "proposal", tabsProposal.owner, tabsProposal.kind, tabsProposal.content,
      tabsProposal.rationale, tabsProposal.source, tabsProposal.producer⟩, .user, "proposed"⟩)

def tabsEvaluation (sequence : ℕ) : MemoryEvent :=
  memoryEvent "evaluated" sequence (.memoryPolicyDecided
    ⟨"proposal", .reject, .policy, bytesOf "style", "proposed"⟩)

/-- A policy decision that comes after the user's replaces the event that decided. -/
theorem late_policy_decision_recorded : ¬ ∀ limits past s later u,
      (MemoryProjectionOf limits).Accepted (MemoryProjectionOf limits).initial past s →
      (MemoryProjectionOf limits).Accepted s later u → Final s u := by
  intro h
  have hfinal := h {} [tabsProposed, tabsAccepted] _ [tabsEvaluation 3] _
    (accepted_of_isOk (by decide)) (accepted_of_isOk (by decide)) "proposal"
    ⟨tabsProposal, "proposed", 0, .accepted, some 0, none, some "accepted"⟩
    (by decide) (by decide)
  obtain ⟨q, hq, -, -, hevent⟩ := hfinal
  have hlate : ∀ q ∈ ((MemoryProjectionOf {}).feed (MemoryProjectionOf {}).initial
      [tabsProposed, tabsAccepted, tabsEvaluation 3]).findProposal "proposal",
      q.decisionEventId = some "evaluated" := by decide
  have hlast := hlate q hq
  rw [hevent] at hlast
  revert hlast
  decide

def stagedTabs : List MemoryEvent :=
  [tabsProposed, memoryEvent "evaluated" 2 (.memoryPolicyDecided
      ⟨"proposal", .stage, .policy, bytesOf "style", "proposed"⟩),
    { tabsAccepted with metadata := { tabsAccepted.metadata with sequence := 3 } }]

theorem staged_decision_final :
    (∃ t, (MemoryProjectionOf {}).Accepted (MemoryProjectionOf {}).initial stagedTabs t) ∧
    ∀ past s later u, past ++ later <+: stagedTabs →
      (MemoryProjectionOf {}).Accepted (MemoryProjectionOf {}).initial past s →
      (MemoryProjectionOf {}).Accepted s later u → Final s u := by
  have hs : (MemoryProjectionOf {}).Accepted (MemoryProjectionOf {}).initial stagedTabs _ :=
    accepted_of_isOk (by decide)
  refine ⟨⟨_, hs⟩, (memory_decision_final_iff hs).2 ?_⟩
  exact forall_steps (Q := PolicyTimely) (by decide)

end MemoryProjection
