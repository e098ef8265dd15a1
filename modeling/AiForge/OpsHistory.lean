import AiForge.LaunchPolicy
import AiForge.OpsEvidence

/-! # Ops history

Replays a session log and accepts it only when every observation in it went through its whole
lifecycle under the selected target. The replay keeps one state for each run and one for each
observed invocation; events that concern no observation pass through. -/
namespace OpsHistory

open Capability Content LaunchPolicy OpsEvidence OpsTarget SafeText Events Staged

structure RunProvenance where
  tools : List ToolProvenanceEntry
  toolPolicy : Option PolicyProvenance
  deriving DecidableEq

structure HumanObservationRequested where
  invocationId : InvocationId
  request : OpsObservationRequest
  tool : ToolProvenanceEntry
  policy : PolicyProvenance
  deriving DecidableEq

/-- The kinds of events the replay tells apart. `otherTool` stands for the remaining kinds that
carry an invocation (progress, released spend and spend to reconcile), `other` for every
further kind. -/
inductive Payload where
  | runStarted (started : RunStarted)
  | runProvenanceRecorded (provenance : RunProvenance)
  | opsTargetSelected (target : OpsTargetBinding) (selectionGeneration : ℕ)
  | humanObservationRequested (intent : HumanObservationRequested)
  | toolProposed (proposed : ToolProposed)
  | toolPolicyDecided (decided : ToolPolicyDecided)
  | toolPolicyFailed (invocationId : InvocationId)
  | toolApprovalRequested (invocationId : InvocationId) (requestedScopes : List CapabilityScope)
  | toolApprovalDecided (invocationId : InvocationId) (decision : ApprovalDecision)
      (grantedScopes : List CapabilityScope)
  | toolStarted (invocationId : InvocationId)
  | toolResultRecorded (invocationId : InvocationId) (content : List ContentBlock)
      (resultMessageId : Option MessageId)
  | toolErrored (invocationId : InvocationId) (resultMessageId : Option MessageId)
  | opsObservationRecorded (invocationId : InvocationId) (observation : OpsObservation)
  | runCancelRequested | runCancelled | runFailed | runCompleted
  | otherTool (invocationId : InvocationId)
  | other | unknown
  deriving DecidableEq

structure Event where
  metadata : EventMetadata
  payload : Payload

def Event.runId (e : Event) : RunId := e.metadata.runId

def Payload.invocationId : Payload → Option InvocationId
  | .humanObservationRequested intent => some intent.invocationId
  | .toolProposed proposed => some proposed.invocationId
  | .toolPolicyDecided decided => some decided.invocationId
  | .toolPolicyFailed id => some id
  | .toolApprovalRequested id _ => some id
  | .toolApprovalDecided id _ _ => some id
  | .toolStarted id => some id
  | .toolResultRecorded id _ _ => some id
  | .toolErrored id _ => some id
  | .opsObservationRecorded id _ => some id
  | .otherTool id => some id
  | _ => none

/-- The event that ends a run. -/
def Payload.closesRun : Payload → Bool
  | .runCompleted | .runFailed | .runCancelled => true
  | _ => false

def Payload.manualEvent : Payload → Bool
  | .toolPolicyDecided _ | .toolPolicyFailed _ | .toolApprovalRequested _ _ |
    .toolApprovalDecided _ _ _ | .toolStarted _ | .toolErrored _ _ | .toolResultRecorded _ _ _ |
    .opsObservationRecorded _ _ | .runCancelRequested | .runCancelled | .runFailed |
    .runCompleted => true
  | _ => false

/-- What may still happen in a manual run once its cancellation was requested. -/
def Payload.afterCancel : Payload → Bool
  | .toolErrored _ _ | .runCancelled | .runFailed => true
  | _ => false

def Payload.runControl : Payload → Bool
  | .runCancelRequested | .runCancelled | .runFailed | .runCompleted => true
  | _ => false

inductive OpsHistoryErrorCode where
  | invalidHistory | resourceExhausted | cancelled

structure OpsHistoryError where
  code : OpsHistoryErrorCode
  message : String

abbrev Check := Except OpsHistoryError

def invalidHistory : OpsHistoryError :=
  ⟨.invalidHistory, "Ops history is incomplete or inconsistent"⟩

def historyLimit : OpsHistoryError :=
  ⟨.resourceExhausted, "Ops history exceeds its resource budget"⟩

def historyCancelled : OpsHistoryError := ⟨.cancelled, "Ops history validation was cancelled"⟩

def require (condition : Bool) : Check PUnit := ensure condition invalidHistory

inductive OpsInvocationPhase where
  | proposed | awaitingApproval | allowed | running | succeeded | failed
  deriving DecidableEq

def OpsInvocationPhase.terminal (phase : OpsInvocationPhase) : Bool :=
  phase == .succeeded || phase == .failed

structure RecordedOpsInvocation where
  runId : RunId
  invocationId : InvocationId
  request : OpsObservationRequest
  humanOrigin : Bool
  phase : OpsInvocationPhase := .proposed
  (observationEventId resultEventId : Option EventId := none)

structure RecordedOpsTargetSelection where
  runId : RunId
  eventId : EventId
  target : OpsTargetBinding
  selectionGeneration : ℕ

structure OpsHistorySnapshot where
  lastSequence : ℕ := 0
  invocations : List RecordedOpsInvocation := []
  unfinishedManualRuns : List RunId := []
  latestSelection : Option RecordedOpsTargetSelection := none
  maximumSelectionGeneration : ℕ := 0

structure Start where
  started : RunStarted
  metadata : EventMetadata

structure RunState where
  start : Option Start := none
  intent : Option HumanObservationRequested := none
  provenance : Option RunProvenance := none
  manualIndex : Option ℕ := none
  (closed nextMarker nextProposal cancelRequested selection contentSeen : Bool := false)
  unknownContent : Bool := false

def RunState.manual (run : RunState) : Bool :=
  run.start.any fun start => start.started.manualObservationRequired

structure InvocationState where
  index : ℕ
  proposal : ToolProposed
  observation : Option OpsObservation := none
  decision : Option PolicyDecision := none
  (policyFailed pendingResult mustError : Bool := false)

structure Validator where
  snapshot : OpsHistorySnapshot := {}
  requestBytes : ℕ := 0
  events : List EventId := []
  proposed : List InvocationId := []
  requests : List String := []
  runs : Std.ExtTreeMap RunId RunState := ∅
  invocations : Std.ExtTreeMap InvocationId InvocationState := ∅

/-- A run that no event named yet has the state a new entry would get. -/
def Validator.run (s : Validator) (id : RunId) : RunState := s.runs[id]?.getD {}

def Validator.setRun (s : Validator) (id : RunId) (run : RunState) : Validator :=
  { s with runs := s.runs.insert id run }

def Validator.setRecords (s : Validator) (records : List RecordedOpsInvocation) : Validator :=
  { s with snapshot := { s.snapshot with invocations := records } }

def Validator.setInvocation (s : Validator) (id : InvocationId) (state : InvocationState)
    (record : RecordedOpsInvocation) : Validator :=
  { s.setRecords (s.snapshot.invocations.set state.index record) with
    invocations := s.invocations.insert id state }

def Validator.noted (s : Validator) (e : Event) : Validator :=
  { s with
    events := e.metadata.eventId :: s.events
    snapshot := { s.snapshot with lastSequence := e.metadata.sequence } }

def Validator.currentSelectionMatches (s : Validator) (request : OpsObservationRequest) : Bool :=
  s.snapshot.latestSelection.all fun selection =>
    request.target == selection.target &&
      request.selectionGeneration == selection.selectionGeneration

def observeEffect (effect : Effect) : Bool :=
  effect == .read || effect == .execute || effect == .network

def historyText (value : Bytes) (maximum : ℕ) : Bool :=
  !value.isEmpty && value.length ≤ maximum && isSafeUtf8Text value

def validScopes (scopes : List CapabilityScope) : Bool :=
  !scopes.isEmpty && scopes.length ≤ 64 &&
    (scopes.all fun scope => observeEffect scope.effect && historyText (bytesOf scope.kind) 256 &&
      historyText (bytesOf scope.value) 4096) && decide scopes.Nodup

def validEffects (effects : List Effect) : Bool :=
  !effects.isEmpty && effects.length ≤ 3 && effects.contains .read &&
    effects.all observeEffect && decide effects.Nodup

def policyBounded (policy : PolicyProvenance) : Bool :=
  policy.effectCeiling.length ≤ 16 && policy.capabilityCeiling.length ≤ 1024 &&
    policy.automaticallyEligibleTools.length ≤ 256 && policy.identity.utf8ByteSize ≤ 256 &&
    policy.mechanismIdentity.utf8ByteSize ≤ 256 && policy.mechanismVersion.utf8ByteSize ≤ 256 &&
    policy.restrictionPolicyIdentity.all (·.utf8ByteSize ≤ 4096) &&
    policy.matcherPolicyIdentity.all (·.utf8ByteSize ≤ 4096) &&
    (policy.capabilityCeiling.all fun scope =>
      scope.kind.utf8ByteSize ≤ 256 && scope.value.utf8ByteSize ≤ 4096) &&
    policy.automaticallyEligibleTools.all (·.utf8ByteSize ≤ 256) &&
    (policy.capabilityCeiling.map fun scope =>
        scope.kind.utf8ByteSize + scope.value.utf8ByteSize).sum +
      (policy.automaticallyEligibleTools.map String.utf8ByteSize).sum ≤ 65536

def registrationDigest (digest : String) : Bool :=
  digest.utf8ByteSize == 71 && digest.startsWith "sha256:" &&
    (digest.toList.drop 7).all fun c => ('0' ≤ c && c ≤ '9') || ('a' ≤ c && c ≤ 'f')

/-- A single entry is checked as a list of one; its name cannot be taken twice. -/
def validToolProvenanceEntry (tool : ToolProvenanceEntry) : Bool :=
  boundedText tool.toolName 256 && tool.registrationDigest.all registrationDigest &&
    tool.declaredEffects.length ≤ 16 && tool.capabilityScopes.length ≤ 64 &&
    tool.capabilityScopes.all fun scope =>
      boundedText scope.kind 256 && boundedText scope.value (4 * 1024)

def jsonArguments (block : StructuredDataBlock) : Bool :=
  block.mediaType == "application/json" && historyText block.data 16384

/-- Metadata without a cause, a parent run or an invocation. -/
def plainMetadata (metadata : EventMetadata) : Bool :=
  metadata.causedByEventId.isNone && metadata.parentRunId.isNone && metadata.invocationId.isNone

def maximumOpsHistoryEvents : ℕ := 1000000

def maximumOpsHistoryInvocations : ℕ := 4096

def maximumOpsHistoryRequestBytes : ℕ := 16 * 1024 * 1024

def unknownEvent (s : Validator) (e : Event) (run : RunState) : Check Validator := do
  require (!run.selection)
  return s.setRun e.runId { run with unknownContent := true }

def startEvent (s : Validator) (e : Event) (run : RunState) (started : RunStarted) :
    Check Validator := do
  require run.start.isNone
  require ((e.metadata.schemaVersion == 6) == started.manualObservationRequired)
  require (!started.manualObservationRequired ||
    (started.purpose == .control && started.conversationAdmission.isNone &&
      !started.localContextAdmissionRequired && e.metadata.parentRunId.isNone &&
      e.metadata.invocationId.isNone))
  return s.setRun e.runId
    { run with
      nextMarker := run.nextMarker || started.manualObservationRequired
      start := some ⟨started, e.metadata⟩ }

def selectingRun (run : RunState) : Bool :=
  (run.start.any fun start =>
    start.metadata.schemaVersion == 3 && start.started.purpose == .control &&
      start.started.personaId.isNone && start.started.memorySelection.isNone &&
      start.started.conversationAdmission.isNone &&
      !start.started.localContextAdmissionRequired &&
      !start.started.manualObservationRequired && plainMetadata start.metadata) &&
    !run.closed && !run.contentSeen && run.intent.isNone && run.provenance.isNone &&
    !run.selection && !run.unknownContent

/-- Every run but the selecting one has ended, or never started. -/
def Validator.othersClosed (s : Validator) (id : RunId) : Bool :=
  s.runs.toList.all fun (other, run) => other == id || run.start.isNone || run.closed

def selectionEvent (s : Validator) (e : Event) (run : RunState) (target : OpsTargetBinding)
    (generation : ℕ) : Check Validator := do
  require (selectingRun run && e.metadata.schemaVersion == 1 && plainMetadata e.metadata &&
    (validateTarget target).isOk && generation != 0 &&
    s.snapshot.maximumSelectionGeneration != 2 ^ 64 - 1 &&
    (s.snapshot.maximumSelectionGeneration == 0 ||
      generation == s.snapshot.maximumSelectionGeneration + 1))
  require (s.othersClosed e.runId)
  let s := s.setRun e.runId { run with selection := true, contentSeen := true }
  return { s with
    snapshot := { s.snapshot with
      maximumSelectionGeneration := generation
      latestSelection := some ⟨e.runId, e.metadata.eventId, target, generation⟩ } }

def intentEvent (session : SessionId) (s : Validator) (e : Event) (run : RunState)
    (intent : HumanObservationRequested) : Check Validator := do
  require (run.manual && run.nextMarker && run.intent.isNone && !run.closed &&
    e.metadata.schemaVersion == 1 && e.metadata.parentRunId.isNone &&
    e.metadata.invocationId == some intent.invocationId)
  require ((validateRecordedOpsRequest intent.request).isOk && intent.request.sessionId == session)
  require (validToolProvenanceEntry intent.tool && intent.tool.registrationDigest.isSome)
  require (policyBounded intent.policy && validToolPolicyProvenance intent.policy {})
  require (run.start.any fun start =>
    intent.policy.permissionProfileId == start.started.permissionProfileId)
  return s.setRun e.runId
    { run with intent := some intent, nextMarker := false, nextProposal := true }

def proposalShape (e : Event) (p : ToolProposed) : Bool :=
  e.metadata.parentRunId.isNone && e.metadata.invocationId == some p.invocationId &&
    p.parentInvocationId.isNone && p.resultMessageId.isSome && p.spendQuote.isNone &&
    p.validatedArguments.any jsonArguments && jsonArguments p.arguments

/-- The registered tool and the policy a proposal is held against: a manual run takes them from
its intent, a conversation from its recorded provenance. -/
def boundTool (run : RunState) (start : Start) (p : ToolProposed)
    (request : OpsObservationRequest) : Check (ToolProvenanceEntry × PolicyProvenance) :=
  if start.started.manualObservationRequired then
    match run.intent with
    | some intent =>
      if run.nextProposal && run.manualIndex.isNone && intent.invocationId == p.invocationId &&
          intent.request == request then .ok (intent.tool, intent.policy)
      else .error invalidHistory
    | none => .error invalidHistory
  else
    match run.provenance with
    | some provenance =>
      match provenance.tools.find? fun tool => tool.toolName == p.toolName,
          provenance.toolPolicy with
      | some tool, some policy =>
        if start.started.purpose == .conversation && provenance.tools.length ≤ 256 then
          .ok (tool, policy)
        else .error invalidHistory
      | _, _ => .error invalidHistory
    | none => .error invalidHistory

/-- The proposal stays within what the tool was registered for and what the policy allows. -/
def withinCeilings (start : Start) (tool : ToolProvenanceEntry) (policy : PolicyProvenance)
    (p : ToolProposed) : Bool :=
  tool.toolName == p.toolName && validToolProvenanceEntry tool &&
    tool.registrationDigest.isSome && policyBounded policy &&
    validToolPolicyProvenance policy {} &&
    policy.permissionProfileId == start.started.permissionProfileId &&
    (p.declaredEffects.all fun effect =>
      tool.declaredEffects.contains effect && policy.effectCeiling.contains effect) &&
    scopesCover tool.capabilityScopes p.requestedScopes &&
    scopesCover policy.capabilityCeiling p.requestedScopes

def proposedRecord (e : Event) (start : Start) (p : ToolProposed)
    (request : OpsObservationRequest) : RecordedOpsInvocation :=
  ⟨e.runId, p.invocationId, request, start.started.manualObservationRequired, .proposed, none, none⟩

/-- Every admitted request is charged with the size of the largest one. -/
def Validator.admitted (s : Validator) (e : Event) (start : Start) (p : ToolProposed)
    (request : OpsObservationRequest) : Validator :=
  { s with
    requestBytes := s.requestBytes + 4096
    requests := request.requestId :: s.requests
    invocations := s.invocations.insert p.invocationId
      { index := s.snapshot.invocations.length, proposal := p }
    snapshot := { s.snapshot with
      maximumSelectionGeneration :=
        max s.snapshot.maximumSelectionGeneration request.selectionGeneration
      invocations := s.snapshot.invocations ++ [proposedRecord e start p request] } }

def RunState.afterProposal (run : RunState) (start : Start) (index : ℕ) : RunState :=
  { run with
    manualIndex :=
      if start.started.manualObservationRequired then some index else run.manualIndex
    nextProposal := false }

def observationProposal (session : SessionId) (s : Validator) (e : Event) (run : RunState)
    (start : Start) (p : ToolProposed) (request : OpsObservationRequest) : Check Validator := do
  require (!run.closed && proposalShape e p)
  require ((validateRecordedOpsRequest request).isOk && request.sessionId == session &&
    validEffects p.declaredEffects && validScopes p.requestedScopes)
  require (s.currentSelectionMatches request)
  require (p.requestedScopes.all fun scope => p.declaredEffects.contains scope.effect)
  require (decide (request.requestId ∉ s.requests))
  require (p.validatedRequiredScopes.isEmpty ||
    (validScopes p.validatedRequiredScopes && p.validatedRequiredScopes == p.requestedScopes))
  let (tool, policy) ← boundTool run start p request
  require (withinCeilings start tool policy p)
  ensure (s.snapshot.invocations.length < maximumOpsHistoryInvocations ∧
    s.requestBytes ≤ maximumOpsHistoryRequestBytes - 4096) historyLimit
  return (s.admitted e start p request).setRun e.runId
    (run.afterProposal start s.snapshot.invocations.length)

def proposalEvent (session : SessionId) (s : Validator) (e : Event) (run : RunState)
    (p : ToolProposed) : Check Validator := do
  require (decide (p.invocationId ∉ s.proposed))
  let s := { s with proposed := p.invocationId :: s.proposed }
  require ((e.metadata.schemaVersion == 3) == p.observationRequest.isSome)
  match p.observationRequest, run.start with
  | some request, some start => observationProposal session s e run start p request
  | some _, none => .error invalidHistory
  | none, _ => do
    require (!run.manual)
    return s.setRun e.runId run

section Steps

variable (format : OpsObservation → Option (List ContentBlock))

abbrev Tracked := InvocationState × RecordedOpsInvocation

def observed (s : Validator) (e : Event) (state : InvocationState)
    (record : RecordedOpsInvocation) (id : InvocationId) (observation : OpsObservation) :
    Check Tracked := do
  require (record.runId == e.runId && id == record.invocationId && record.phase == .running &&
    state.observation.isNone && (validateRecordedOpsObservation observation).isOk &&
    observation.request == record.request && s.currentSelectionMatches record.request)
  return ({ state with observation := some observation, pendingResult := true },
    { record with observationEventId := some e.metadata.eventId })

/-- The scopes of a grant and of the proposal cover each other. -/
def matchingScopes (scopes requested : List CapabilityScope) : Bool :=
  validScopes scopes && scopesCover scopes requested && scopesCover requested scopes

def policyDecided (state : InvocationState) (record : RecordedOpsInvocation)
    (decided : ToolPolicyDecided) : Check Tracked := do
  require (record.phase == .proposed && state.decision.isNone && !state.policyFailed)
  match decided.decision with
  | .deny => do
    require decided.scopes.isEmpty
    return ({ state with decision := some .deny, mustError := true }, record)
  | .allow => do
    require (matchingScopes decided.scopes state.proposal.requestedScopes)
    return ({ state with decision := some .allow }, { record with phase := .allowed })
  | .requireApproval => do
    require (matchingScopes decided.scopes state.proposal.requestedScopes)
    return ({ state with decision := some .requireApproval }, record)

def policyFailed (state : InvocationState) (record : RecordedOpsInvocation) : Check Tracked := do
  require (((record.phase == .proposed && state.decision.isNone) ||
      (record.phase == .awaitingApproval && state.decision == some .requireApproval)) &&
    !state.policyFailed)
  return ({ state with policyFailed := true, mustError := true }, record)

def approvalRequested (state : InvocationState) (record : RecordedOpsInvocation)
    (requestedScopes : List CapabilityScope) : Check Tracked := do
  require (record.phase == .proposed && state.decision == some .requireApproval &&
    requestedScopes == state.proposal.requestedScopes)
  return (state, { record with phase := .awaitingApproval })

def approvalDecided (state : InvocationState) (record : RecordedOpsInvocation)
    (decision : ApprovalDecision) (grantedScopes : List CapabilityScope) : Check Tracked := do
  require (record.phase == .awaitingApproval)
  match decision with
  | .approved => do
    require (matchingScopes grantedScopes state.proposal.requestedScopes)
    return (state, { record with phase := .allowed })
  | .denied | .cancelled => do
    require grantedScopes.isEmpty
    return ({ state with mustError := true }, { record with phase := .proposed })

def toolStarted (state : InvocationState) (record : RecordedOpsInvocation) : Check Tracked := do
  require (record.phase == .allowed && state.observation.isNone)
  return (state, { record with phase := .running })

def resultRecorded (s : Validator) (e : Event) (state : InvocationState)
    (record : RecordedOpsInvocation) (content : List ContentBlock)
    (resultMessageId : Option MessageId) : Check Tracked := do
  require (record.phase == .running && state.observation.isSome && state.pendingResult &&
    resultMessageId == state.proposal.resultMessageId && s.currentSelectionMatches record.request)
  require (state.observation.any fun observation => format observation == some content)
  return ({ state with pendingResult := false },
    { record with phase := .succeeded, resultEventId := some e.metadata.eventId })

def toolErrored (e : Event) (state : InvocationState) (record : RecordedOpsInvocation)
    (resultMessageId : Option MessageId) : Check Tracked := do
  require (state.observation.isNone && resultMessageId == state.proposal.resultMessageId)
  return ({ state with mustError := false },
    { record with phase := .failed, resultEventId := some e.metadata.eventId })

def step (s : Validator) (e : Event) (state : InvocationState) (record : RecordedOpsInvocation) :
    Check Tracked :=
  match e.payload with
  | .toolPolicyDecided decided => policyDecided state record decided
  | .toolPolicyFailed _ => policyFailed state record
  | .toolApprovalRequested _ scopes => approvalRequested state record scopes
  | .toolApprovalDecided _ decision scopes => approvalDecided state record decision scopes
  | .toolStarted _ => toolStarted state record
  | .toolResultRecorded _ content message => resultRecorded format s e state record content message
  | .toolErrored _ message => toolErrored e state record message
  | _ => .error invalidHistory

def Payload.isResult : Payload → Bool
  | .toolResultRecorded _ _ _ => true
  | _ => false

def Payload.isError : Payload → Bool
  | .toolErrored _ _ => true
  | _ => false

def schemaAllowed (e : Event) : Bool :=
  match e.payload with
  | .toolPolicyDecided _ => e.metadata.schemaVersion == 1 || e.metadata.schemaVersion == 2
  | _ => e.metadata.schemaVersion == 1

def invocationEvent (s : Validator) (e : Event) (state : InvocationState)
    (record : RecordedOpsInvocation) : Check Tracked := do
  require (schemaAllowed e)
  require (record.runId == e.runId && !record.phase.terminal)
  require (!state.pendingResult || e.payload.isResult)
  require (!state.mustError || e.payload.isError)
  require (e.payload.invocationId.all (· == record.invocationId))
  step format s e state record

/-- What one event of an observed invocation does to it. -/
def advance (s : Validator) (e : Event) (state : InvocationState)
    (record : RecordedOpsInvocation) : Check Tracked :=
  match e.payload with
  | .opsObservationRecorded id observation => do
    require (e.metadata.schemaVersion == 1)
    observed s e state record id observation
  | _ => invocationEvent format s e state record

def Payload.isObservation : Payload → Bool
  | .opsObservationRecorded _ _ => true
  | _ => false

def Validator.found (s : Validator) (id : Option InvocationId) : Option InvocationState :=
  id.bind fun id => s.invocations[id]?

/-- An event that carries the identity of an observed invocation names it in its metadata too. -/
def namedInMetadata (s : Validator) (e : Event) : Bool :=
  (s.found e.payload.invocationId).isNone || e.metadata.invocationId == e.payload.invocationId

def routeInvocationEvent (s : Validator) (e : Event) (run : RunState) : Check Validator := do
  require (namedInMetadata s e)
  match e.metadata.invocationId, s.found e.metadata.invocationId with
  | some id, some state =>
    match s.snapshot.invocations[state.index]? with
    | some record => do
      require (!run.closed)
      let (state, record) ← advance format s e state record
      return s.setInvocation id state record
    | none => .error invalidHistory
  | _, _ => do
    require (!e.payload.isObservation)
    require (!run.manual || e.payload.runControl)
    return s

def guardManualEvent (e : Event) (run : RunState) : Check RunState := do
  require (!run.manual || (!run.closed && run.manualIndex.isSome && e.payload.manualEvent &&
    (!run.cancelRequested || e.payload.afterCancel) && e.metadata.parentRunId.isNone))
  return { run with
    cancelRequested := run.cancelRequested || (run.manual && e.payload == .runCancelRequested) }

def endsAs (payload : Payload) (phase : OpsInvocationPhase) : Bool :=
  if payload = .runCompleted then phase == .succeeded else phase == .failed

def finishRunEvent (s : Validator) (e : Event) (run : RunState) : Check RunState := do
  require (!e.payload.closesRun || run.manualIndex.all fun index =>
    (s.snapshot.invocations[index]?).any fun record => endsAs e.payload record.phase)
  return { run with closed := run.closed || e.payload.closesRun }

def noteProvenance (e : Event) (run : RunState) : Check RunState :=
  match e.payload with
  | .runProvenanceRecorded provenance => do
    require run.intent.isNone
    return { run with provenance := some provenance }
  | _ => .ok run

def innerEvent (s : Validator) (e : Event) (run : RunState) : Check Validator := do
  let run ← noteProvenance e run
  let run ← guardManualEvent e run
  let s ← routeInvocationEvent format s e run
  let run ← finishRunEvent s e run
  return s.setRun e.runId { run with contentSeen := true }

def Payload.isIntent : Payload → Bool
  | .humanObservationRequested _ => true
  | _ => false

def Payload.isProposal : Payload → Bool
  | .toolProposed _ => true
  | _ => false

/-- A run that selected a target may only complete. -/
def afterSelection (e : Event) (run : RunState) : Bool :=
  !run.closed && e.payload == .runCompleted && e.metadata.schemaVersion == 1 &&
    plainMetadata e.metadata

def runEvent (session : SessionId) (s : Validator) (e : Event) (run : RunState) :
    Check Validator := do
  require (!run.nextMarker || e.payload.isIntent)
  require (!run.nextProposal || e.payload.isProposal)
  match e.payload with
  | .opsTargetSelected target generation => selectionEvent s e run target generation
  | payload => do
    require (!run.selection || afterSelection e run)
    match payload with
    | .humanObservationRequested intent => intentEvent session s e run intent
    | .toolProposed p => proposalEvent session s e run p
    | _ => innerEvent format s e run

def apply (session : SessionId) (s : Validator) (e : Event) : Check Validator := do
  require (s.snapshot.lastSequence < e.metadata.sequence && e.metadata.schemaVersion != 0)
  require (decide (e.metadata.eventId ∉ s.events))
  let s := s.noted e
  let run := s.run e.runId
  match e.payload with
  | .unknown => unknownEvent s e run
  | .runStarted started => startEvent s e run started
  | _ => runEvent format session s e run

def runFinished (s : Validator) (run : RunState) : Bool :=
  !run.nextMarker && !run.nextProposal &&
    (run.closed || run.manualIndex.all fun index =>
      (s.snapshot.invocations[index]?).any fun record => !record.phase.terminal) &&
    (!run.selection || run.closed)

def invocationFinished (s : Validator) (state : InvocationState) : Bool :=
  !state.pendingResult && !state.mustError &&
    (s.snapshot.invocations[state.index]?).any fun record =>
      (state.decision != some .requireApproval || record.phase != .proposed) &&
        (!(s.run record.runId).closed || record.phase.terminal)

def finish (s : Validator) : Check OpsHistorySnapshot := do
  require (s.runs.toList.all fun (_, run) => runFinished s run)
  require (s.invocations.toList.all fun (_, state) => invocationFinished s state)
  return { s.snapshot with
    unfinishedManualRuns := (s.runs.toList.filter fun (_, run) =>
      run.manualIndex.isSome && !run.closed).map Prod.fst }

def replay (session : SessionId) (events : List Event) : Check Validator :=
  events.foldlM (apply format session) {}

/-- `stop i` is the answer of the stop token when event `i` is about to be applied. -/
def polledApply (session : SessionId) (stop : ℕ → Bool) (s : Validator) (next : Event × ℕ) :
    Check Validator :=
  if stop next.2 then .error historyCancelled else apply format session s next.1

def recordedOpsObservations (session : SessionId) (log suffix : List Event) (stop : ℕ → Bool) :
    Check OpsHistorySnapshot :=
  if maximumOpsHistoryEvents < log.length ∨
      maximumOpsHistoryEvents - log.length < suffix.length then .error historyLimit
  else do
    let s ← (log ++ suffix).zipIdx.foldlM (polledApply format session stop) {}
    finish s

end Steps

end OpsHistory
