import AiForge.OpsTarget
import AiForge.Pricing

/-! # Session events

The payloads of a session log. Payloads that no modelled function looks into keep only their
kind and their encoded text, so that two different events stay different. -/
namespace Events

open Content Money OpsTarget Pricing

inductive ToolSpendEstimateBasis where
  | catalogEstimate | policyUpperBound
  deriving DecidableEq

inductive ToolSpendFinalizationBasis where
  | providerReported | catalogEstimate | policyUpperBound
  deriving DecidableEq

inductive ToolSpendReconciliationReason where
  | transportOutcomeUnknown | providerCostUnavailable | providerCostMismatch
  | finalizationPersistenceUnknown
  deriving DecidableEq

structure ToolSpendQuote where
  maximum : MonetaryAmount
  basis : ToolSpendEstimateBasis
  evidenceDigest : ContentDigest
  validUntil : EventTimestamp
  deriving DecidableEq

structure ToolSpendReservation where
  invocationId : InvocationId
  maximum : MonetaryAmount
  basis : ToolSpendEstimateBasis
  evidenceDigest : ContentDigest
  validUntil : EventTimestamp
  deriving DecidableEq

/-- The quote a reservation was made from. -/
def ToolSpendReservation.quote (r : ToolSpendReservation) : ToolSpendQuote :=
  ⟨r.maximum, r.basis, r.evidenceDigest, r.validUntil⟩

structure ToolSpendFinalization where
  invocationId : InvocationId
  amount : MonetaryAmount
  basis : ToolSpendFinalizationBasis
  providerEvidenceDigest : Option ContentDigest
  deriving DecidableEq

structure RepositorySnapshotIdentity where
  repositoryId : String
  fingerprint : ContentDigest
  deriving DecidableEq

structure SourceByteRange where
  (start stop : ℕ)
  deriving DecidableEq

structure RepositorySourceIdentity where
  snapshot : RepositorySnapshotIdentity
  relativePath : SafeText.Bytes
  contentDigest : ContentDigest
  range : Option SourceByteRange
  deriving DecidableEq

structure PlanResourceIntent where
  effect : Effect
  (kind value : String)
  deriving DecidableEq

structure PlanEvidenceBinding where
  evidenceId : EvidenceId
  digest : ContentDigest
  deriving DecidableEq

structure PlanTask where
  taskId : PlanTaskId
  parentTaskId : Option PlanTaskId
  dependencyTaskIds : List PlanTaskId
  title : SafeText.Bytes
  acceptanceCriteria : List SafeText.Bytes
  intendedEffects : List Effect
  resourceIntents : List PlanResourceIntent
  deriving DecidableEq

structure PlanRevision where
  planId : PlanId
  revisionId : PlanRevisionId
  supersedesRevisionId : Option PlanRevisionId
  goal : SafeText.Bytes
  sourceSnapshot : Option RepositorySnapshotIdentity
  tasks : List PlanTask
  evidence : List PlanEvidenceBinding
  deriving DecidableEq

inductive PlanDecision where
  | approved | revisionRequested | rejected
  deriving DecidableEq

inductive PlanDecisionSource where
  | user | policy
  deriving DecidableEq

structure PlanRevisionDecision where
  planId : PlanId
  revisionId : PlanRevisionId
  decision : PlanDecision
  source : PlanDecisionSource
  reason : Option SafeText.Bytes
  deriving DecidableEq

inductive PlanInvalidationTrigger where
  | sourceSnapshotChanged | evidenceChanged
  deriving DecidableEq

structure PlanRevisionInvalidation where
  planId : PlanId
  revisionId : PlanRevisionId
  triggers : List PlanInvalidationTrigger
  deriving DecidableEq

structure ChildRunBudget where
  (maximumInferences maximumToolInvocations maximumInputTokens maximumOutputTokens : ℕ)
  timeout : ℤ
  deriving DecidableEq

structure ChildRunContextBinding where
  parcelId : String
  targetSnapshot : RepositorySnapshotIdentity
  evidenceIds : List EvidenceId
  (representedBytes estimatedTokens : ℕ)
  deriving DecidableEq

structure ChildRunDescriptor where
  parentRunId : RunId
  planId : PlanId
  revisionId : PlanRevisionId
  taskId : PlanTaskId
  context : ChildRunContextBinding
  budget : ChildRunBudget
  effects : List Effect
  capabilityScopes : List CapabilityScope
  attempt : ℕ
  reviewReceiptId : Option String
  deriving DecidableEq

inductive SessionTaskOutcome where
  | completed | failed | cancelled | timedOut | budgetExhausted | unavailable
  deriving DecidableEq

structure ChildRunConsumption where
  (inferenceCount toolInvocationCount : ℕ)
  usage : Usage
  deriving DecidableEq

structure SessionTaskResult where
  planId : PlanId
  revisionId : PlanRevisionId
  taskId : PlanTaskId
  childRunId : RunId
  outcome : SessionTaskOutcome
  consumption : ChildRunConsumption
  evidenceIds : List EvidenceId
  artifactIds : List ArtifactId
  error : Option DomainError
  deriving DecidableEq

inductive RunPurpose where
  | conversation | control | summary
  deriving DecidableEq

/-- Only the version of a conversation admission is read; the rest keeps its encoded text. -/
structure ConversationAdmission where
  version : ℕ
  encoded : String
  deriving DecidableEq

/-- The sealed memory selection keeps its encoded text. -/
structure RunStarted where
  surfaceId : SurfaceId
  workspaceId : WorkspaceId
  permissionProfileId : PermissionProfileId
  personaId : Option PersonaId
  memorySelection : Option String
  purpose : RunPurpose
  conversationAdmission : Option ConversationAdmission
  (localContextAdmissionRequired manualObservationRequired : Bool)
  deriving DecidableEq

structure ToolProvenanceEntry where
  toolName : String
  declaredEffects : List Effect
  capabilityScopes : List CapabilityScope
  registrationDigest : Option String
  deriving DecidableEq

structure ToolPolicyProvenance where
  identity : String
  permissionProfileId : PermissionProfileId
  matcherPolicyIdentity : Option String
  deriving DecidableEq

structure RunProvenance where
  modelId : ModelId
  tools : List ToolProvenanceEntry
  toolPolicy : Option ToolPolicyProvenance
  deriving DecidableEq

inductive PersonaSelectionAction where
  | selected | disabled | unknown
  deriving DecidableEq

inductive PersonaSelectionSource where
  | commandLine | interactive | resumed | retained | unknown
  deriving DecidableEq

structure PersonaReference where
  personaId : PersonaId
  (name sourceLocation : SafeText.Bytes)
  contentDigest : ContentDigest
  deriving DecidableEq

structure PersonaSelection where
  action : PersonaSelectionAction
  source : PersonaSelectionSource
  (persona previousPersona : Option PersonaReference)
  deriving DecidableEq

inductive SessionSpendCeilingSource where
  | commandLine
  deriving DecidableEq

structure ToolProposed where
  invocationId : InvocationId
  toolName : String
  arguments : StructuredDataBlock
  declaredEffects : List Effect
  parentInvocationId : Option InvocationId
  argumentsReplayable : Bool
  (validatedRequiredScopes requestedScopes : List CapabilityScope)
  resultMessageId : Option MessageId
  spendQuote : Option ToolSpendQuote
  validatedArguments : Option StructuredDataBlock
  observationRequest : Option OpsObservationRequest
  deriving DecidableEq

inductive PolicyDecision where
  | allow | deny | requireApproval
  deriving DecidableEq

inductive PolicyDecisionSource where
  | fallback | permissionProfile | automaticMatcher | sessionGrant | savedGrant | userApproval
  deriving DecidableEq

structure AutomaticApprovalEvidence where
  (policyIdentity ruleIdentity : String)
  deriving DecidableEq

structure ToolPolicyDecided where
  invocationId : InvocationId
  decision : PolicyDecision
  scopes : List CapabilityScope
  reason : Option String
  source : PolicyDecisionSource
  automaticApproval : Option AutomaticApprovalEvidence
  deriving DecidableEq

inductive ApprovalDecision where
  | approved | denied | cancelled
  deriving DecidableEq

inductive ApprovalGrantLifetime where
  | invocation | session | saved
  deriving DecidableEq

/-- Kinds of events that are carried and stored but not looked into here. -/
inductive OtherEvent where
  | conversationPolicySet | conversationSummaryGenerationIntentRecorded
  | conversationSummaryCandidatePublished | conversationSummaryActivated
  | conversationSummaryDisabled | repositoryContextAdmitted | localContextAdmitted
  | opsObservationRecorded | opsTargetSelected | opsObservationExplanationSelected | artifactCreated
  | artifactReferenced | artifactDisplayed | artifactRemovedFromView | videoGenerationRequested
  | videoQuoteObserved | videoJobQueued | videoJobStatusObserved | videoArtifactPublished
  | videoCleanupPending | videoCleanupCompleted | videoCleanupFailed | videoTranscriptionRequested
  | videoTranscriptionObserved | verificationEvidenceRecorded | reviewReceiptDrafted
  | reviewRequested | reviewFindingOpened | reviewFindingResolved | reviewVerdictRecorded
  | reviewVerdictRevoked | reviewOverrideRecorded | reviewOverrideRevoked
  | projectBacklogItemPromoted | projectBacklogItemStatusChanged | memoryProposed
  | memoryPolicyDecided | memoryAccepted | memoryEditedAndAccepted | memoryRejected
  | memorySuperseded | memoryExpired | interRunMessageSent
  deriving DecidableEq

inductive RunEventPayload where
  | runStarted (started : RunStarted)
  | runProvenanceRecorded (provenance : RunProvenance)
  | personaSelectionRecorded (selection : PersonaSelection)
  | sessionSpendCeilingSet (ceiling : SessionSpendCeiling) (source : SessionSpendCeilingSource)
  | runAwaitingInput (questionId : QuestionId)
  | runResumed (questionId : Option QuestionId)
  | runCompletionRequested | runCompleted
  | runFailed (error : DomainError)
  | runCancelRequested (reason : Option String)
  | runCancelled (reason : Option String)
  | userContentAdded (message : Message)
  | assistantContentStarted (messageId : MessageId) (inferenceId : InferenceId)
  | assistantContentDeltaAdded (messageId : MessageId) (inferenceId : InferenceId)
      (delta : ContentBlock)
  | assistantContentFinished (messageId : MessageId) (inferenceId : InferenceId)
  | inferenceStarted (inferenceId : InferenceId) (modelId : ModelId)
  | inferencePricingObserved (inferenceId : InferenceId) (observation : PricingObservation)
  | reasoningMetadataAdded (inferenceId : InferenceId) (text : Option String)
      (metadata : List (String × String))
  | usageRecorded (inferenceId : InferenceId) (usage : Usage)
  | inferenceCostRecorded (inferenceId : InferenceId) (cost : ReportedCost)
  | inferenceFinished (inferenceId : InferenceId) (reason : FinishReason)
  | inferenceFailed (inferenceId : InferenceId) (error : DomainError)
  | inferenceCancelled (inferenceId : InferenceId) (reason : Option String)
  | toolProposed (proposed : ToolProposed)
  | humanObservationRequested (invocationId : InvocationId) (request : OpsObservationRequest)
      (tool : ToolProvenanceEntry) (policy : ToolPolicyProvenance)
  | toolPolicyDecided (decided : ToolPolicyDecided)
  | toolApprovalRequested (invocationId : InvocationId) (requestedScopes : List CapabilityScope)
      (reason : Option String)
  | toolApprovalDecided (invocationId : InvocationId) (decision : ApprovalDecision)
      (grantedScopes : List CapabilityScope) (lifetime : ApprovalGrantLifetime)
  | toolPolicyFailed (invocationId : InvocationId) (error : DomainError)
  | toolSpendReserved (reservation : ToolSpendReservation)
  | toolStarted (invocationId : InvocationId)
  | toolProgressed (invocationId : InvocationId) (content : List ContentBlock)
  | toolSpendReleased (invocationId : InvocationId)
  | toolSpendFinalized (finalization : ToolSpendFinalization)
  | toolSpendReconciliationRequired (invocationId : InvocationId)
      (reason : ToolSpendReconciliationReason)
  | toolResultRecorded (invocationId : InvocationId) (content : List ContentBlock)
      (resultMessageId : Option MessageId)
  | toolErrored (invocationId : InvocationId) (error : DomainError)
      (resultMessageId : Option MessageId)
  | questionRequested (question : QuestionDefinition)
  | questionAnswered (answer : QuestionAnswer)
  | questionCancelled (questionId : QuestionId) (reason : Option String)
  | planRevisionProposed (revision : PlanRevision)
  | planRevisionDecisionRecorded (decision : PlanRevisionDecision)
  | planRevisionInvalidated (invalidation : PlanRevisionInvalidation)
  | sessionTasksMaterialized (planId : PlanId) (revisionId : PlanRevisionId)
  | childRunCreated (childRunId : RunId) (descriptor : Option ChildRunDescriptor)
  | sessionTaskResultRecorded (result : SessionTaskResult)
  | other (kind : OtherEvent) (encoded : String)
  | unknown (typeName : String) (payload : StructuredDataBlock)
  deriving DecidableEq

structure EventMetadata where
  eventId : EventId
  runId : RunId
  (sequence schemaVersion : ℕ)
  timestamp : EventTimestamp
  causedByEventId : Option EventId
  parentRunId : Option RunId
  invocationId : Option InvocationId
  deriving DecidableEq

structure RunEvent where
  metadata : EventMetadata
  payload : RunEventPayload

end Events
