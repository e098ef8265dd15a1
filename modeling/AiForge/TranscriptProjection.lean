import AiForge.RunProjection
import AiForge.VideoProjection

/-! # Transcript of a run

The transcript folds the events of one run into the list of items a reader sees: messages,
tool invocations, questions, artifacts, verification evidence and notices. Every event is
checked by the run projection first and then against the items it is about. -/
namespace Transcript

open Content EventProjection Events KeyedList SafeText RunProjection Staged Video

abbrev VerificationEvidenceId := String

structure VerificationProducer where
  toolName : String
  invocationId : InvocationId

structure VerificationOutputExcerpt where
  completeArtifactId : Option ArtifactId
  encoded : String

/-- What the evidence says beside the artifacts it names keeps its encoded text. -/
structure VerificationEvidence where
  evidenceId : VerificationEvidenceId
  producer : VerificationProducer
  output : List VerificationOutputExcerpt
  artifacts : List ArtifactId
  encoded : String

/-- Every artifact that evidence names, as evidence of its own or as a complete output. -/
def VerificationEvidence.named (evidence : VerificationEvidence) : List ArtifactId :=
  evidence.artifacts ++ evidence.output.filterMap VerificationOutputExcerpt.completeArtifactId

inductive TranscriptPayload where
  | run (payload : RunEventPayload)
  | artifactCreated (artifact : ArtifactMetadata)
  | artifactReferenced (artifactId : ArtifactId) (messageId : Option MessageId)
  | videoArtifactPublished (published : VideoArtifactPublished)
  | verificationEvidenceRecorded (evidence : VerificationEvidence)

structure TranscriptEvent where
  metadata : EventMetadata
  payload : TranscriptPayload

/-- The run projection does not look into artifacts and evidence. -/
def TranscriptPayload.runPayload : TranscriptPayload → RunEventPayload
  | .run payload => payload
  | .artifactCreated _ => .other .artifactCreated ""
  | .artifactReferenced _ _ => .other .artifactReferenced ""
  | .videoArtifactPublished _ => .other .videoArtifactPublished ""
  | .verificationEvidenceRecorded _ => .other .verificationEvidenceRecorded ""

def TranscriptEvent.runEvent (event : TranscriptEvent) : RunEvent :=
  ⟨event.metadata, event.payload.runPayload⟩

inductive TranscriptMessageState where
  | streaming | complete | cancelled | failed
  deriving DecidableEq

structure TranscriptReasoning where
  text : String := ""
  hasOpaqueMetadata : Bool := false
  deriving DecidableEq

structure TranscriptMessage where
  messageId : MessageId
  role : Role
  content : List ContentBlock
  state : TranscriptMessageState
  inferenceId : Option InferenceId
  usage : Usage := {}
  error : Option DomainError := none
  artifacts : List ArtifactMetadata := []
  reasoning : TranscriptReasoning := {}
  deriving DecidableEq

inductive TranscriptToolState where
  | proposed | allowed | awaitingApproval | running | complete | denied | cancelled | failed
  deriving DecidableEq

structure TranscriptToolSummary where
  invocationId : InvocationId
  toolName : String
  state : TranscriptToolState := .proposed
  (progress result : List ContentBlock := [])
  error : Option DomainError := none

inductive TranscriptQuestionState where
  | awaitingAnswer | answered | cancelled
  deriving DecidableEq

structure TranscriptQuestionSummary where
  question : QuestionDefinition
  state : TranscriptQuestionState := .awaitingAnswer
  answer : Option QuestionAnswer := none
  cancellationReason : Option String := none
  invocationId : Option InvocationId

/-- A question is looked up under its own identity and the invocation that asked it. -/
abbrev QuestionKey := QuestionId × Option InvocationId

def TranscriptQuestionSummary.key (summary : TranscriptQuestionSummary) : QuestionKey :=
  (summary.question.questionId, summary.invocationId)

inductive TranscriptArtifactPresentation where
  | reference | publishedVideo

structure TranscriptArtifactReference where
  artifact : ArtifactMetadata
  messageId : Option MessageId
  presentation : TranscriptArtifactPresentation := .reference

inductive TranscriptNoticeKind where
  | failed | cancelled
  deriving DecidableEq

structure TranscriptNotice where
  kind : TranscriptNoticeKind
  message : String

inductive TranscriptItem where
  | message (message : TranscriptMessage)
  | tool (summary : TranscriptToolSummary)
  | question (summary : TranscriptQuestionSummary)
  | artifact (reference : TranscriptArtifactReference)
  | verification (evidence : VerificationEvidence)
  | notice (notice : TranscriptNotice)

namespace TranscriptItem

def message? : TranscriptItem → Option TranscriptMessage
  | message m => some m
  | _ => none

def tool? : TranscriptItem → Option TranscriptToolSummary
  | tool summary => some summary
  | _ => none

def question? : TranscriptItem → Option TranscriptQuestionSummary
  | question summary => some summary
  | _ => none

def mapMessage (f : TranscriptMessage → TranscriptMessage) : TranscriptItem → TranscriptItem
  | message m => message (f m)
  | item => item

def mapTool (f : TranscriptToolSummary → TranscriptToolSummary) : TranscriptItem → TranscriptItem
  | tool summary => tool (f summary)
  | item => item

def mapQuestion (f : TranscriptQuestionSummary → TranscriptQuestionSummary) :
    TranscriptItem → TranscriptItem
  | question summary => question (f summary)
  | item => item

end TranscriptItem

inductive TranscriptProjectionErrorCode where
  | invalidEnvelope | duplicateEvent | wrongRun | nonMonotonicSequence | invalidTransition
  | unknownMessage | unknownInference | unknownInvocation | unknownQuestion | unknownArtifact
  | invalidVerification | usageOverflow | costOverflow
  deriving DecidableEq

structure TranscriptProjectionError where
  code : TranscriptProjectionErrorCode
  message : String
  deriving DecidableEq

abbrev Result := Except TranscriptProjectionError

def projectionErrorCode : ProjectionErrorCode → TranscriptProjectionErrorCode
  | .invalidEnvelope => .invalidEnvelope
  | .wrongRun => .wrongRun
  | .nonMonotonicSequence => .nonMonotonicSequence
  | .unknownMessage => .unknownMessage
  | .wrongInference => .unknownInference
  | .usageOverflow => .usageOverflow
  | .costOverflow => .costOverflow
  | .invalidPricing => .invalidTransition
  | .invalidTransition => .invalidTransition

def projectionError (error : ProjectionError) : TranscriptProjectionError :=
  ⟨projectionErrorCode error.code, error.message⟩

def transitionError (message : String) : TranscriptProjectionError :=
  ⟨.invalidTransition, message⟩

/-- The usage of an inference that reported none is zero. -/
structure TranscriptState where
  run : RunState := {}
  items : List TranscriptItem := []
  eventIds : Finset EventId := ∅
  inferenceUsage : InferenceId → Usage := fun _ => {}
  artifacts : List ArtifactMetadata := []
  publishedVideoArtifacts : Finset ArtifactId := ∅
  verificationIds : Finset VerificationEvidenceId := ∅
  verificationInvocations : Finset InvocationId := ∅

namespace TranscriptState

def messages (s : TranscriptState) : List TranscriptMessage :=
  s.items.filterMap TranscriptItem.message?

def tools (s : TranscriptState) : List TranscriptToolSummary :=
  s.items.filterMap TranscriptItem.tool?

def questions (s : TranscriptState) : List TranscriptQuestionSummary :=
  s.items.filterMap TranscriptItem.question?

def message (s : TranscriptState) (messageId : MessageId) : Option TranscriptMessage :=
  lookup TranscriptMessage.messageId messageId s.messages

def inferenceMessage (s : TranscriptState) (inferenceId : InferenceId) :
    Option TranscriptMessage :=
  lookup TranscriptMessage.inferenceId (some inferenceId) s.messages

def tool (s : TranscriptState) (invocationId : InvocationId) : Option TranscriptToolSummary :=
  lookup TranscriptToolSummary.invocationId invocationId s.tools

def question (s : TranscriptState) (questionId : QuestionId)
    (invocationId : Option InvocationId) : Option TranscriptQuestionSummary :=
  lookup TranscriptQuestionSummary.key (questionId, invocationId) s.questions

def artifact (s : TranscriptState) (artifactId : ArtifactId) : Option ArtifactMetadata :=
  lookup ArtifactMetadata.artifactId artifactId s.artifacts

def add (s : TranscriptState) (item : TranscriptItem) : TranscriptState :=
  { s with items := s.items ++ [item] }

def changeMessage (s : TranscriptState) (messageId : MessageId)
    (f : TranscriptMessage → TranscriptMessage) : TranscriptState :=
  { s with
    items := updateFirst (fun item => item.message?.map TranscriptMessage.messageId)
      (some messageId) (TranscriptItem.mapMessage f) s.items }

def changeInferenceMessage (s : TranscriptState) (inferenceId : InferenceId)
    (f : TranscriptMessage → TranscriptMessage) : TranscriptState :=
  { s with
    items := updateFirst (fun item => item.message?.map TranscriptMessage.inferenceId)
      (some (some inferenceId)) (TranscriptItem.mapMessage f) s.items }

def changeTool (s : TranscriptState) (invocationId : InvocationId)
    (f : TranscriptToolSummary → TranscriptToolSummary) : TranscriptState :=
  { s with
    items := updateFirst (fun item => item.tool?.map TranscriptToolSummary.invocationId)
      (some invocationId) (TranscriptItem.mapTool f) s.items }

def changeQuestion (s : TranscriptState) (key : QuestionKey)
    (f : TranscriptQuestionSummary → TranscriptQuestionSummary) : TranscriptState :=
  { s with
    items := updateFirst (fun item => item.question?.map TranscriptQuestionSummary.key)
      (some key) (TranscriptItem.mapQuestion f) s.items }

end TranscriptState

def maximumReasoningTextBytes : ℕ := 1024 * 1024

def addUserContent (s : TranscriptState) (message : Message) : TranscriptState :=
  s.add (.message {
    messageId := message.messageId
    role := message.role
    content := message.content
    state := .complete
    inferenceId := none })

def startAssistantContent (s : TranscriptState) (messageId : MessageId)
    (inferenceId : InferenceId) : TranscriptState :=
  s.add (.message {
    messageId
    role := .assistant
    content := []
    state := .streaming
    inferenceId := some inferenceId
    usage := s.inferenceUsage inferenceId })

def addContentDelta (s : TranscriptState) (messageId : MessageId) (delta : ContentBlock) :
    Result TranscriptState := do
  ensure ((s.message messageId).isSome)
    ⟨.unknownMessage, "content delta refers to an unknown transcript message"⟩
  return s.changeMessage messageId fun m => { m with content := m.content ++ [delta] }

def finishContent (s : TranscriptState) (messageId : MessageId) : Result TranscriptState := do
  ensure ((s.message messageId).isSome)
    ⟨.unknownMessage, "content finish refers to an unknown transcript message"⟩
  return s.changeMessage messageId fun m => { m with state := .complete }

/-- Reasoning that is unsafe or too long is left out without an error. -/
def TranscriptReasoning.extend (reasoning : TranscriptReasoning) (text : Option String)
    (metadata : List (String × String)) : TranscriptReasoning where
  text :=
    match text with
    | none => reasoning.text
    | some text =>
      if isSafeUtf8Text (bytesOf text) ∧
          text.utf8ByteSize ≤ maximumReasoningTextBytes - reasoning.text.utf8ByteSize then
        reasoning.text ++ text
      else reasoning.text
  hasOpaqueMetadata := reasoning.hasOpaqueMetadata || !metadata.isEmpty

def addReasoning (s : TranscriptState) (inferenceId : InferenceId) (text : Option String)
    (metadata : List (String × String)) : Result TranscriptState := do
  ensure ((s.inferenceMessage inferenceId).isSome)
    ⟨.unknownInference, "reasoning refers to an unknown assistant message"⟩
  return s.changeInferenceMessage inferenceId fun m =>
    { m with reasoning := m.reasoning.extend text metadata }

def recordUsage (s : TranscriptState) (inferenceId : InferenceId) (addition : Usage) :
    Result TranscriptState := do
  let usage ← require (UsageLedger.addUsage (s.inferenceUsage inferenceId) addition)
    ⟨.usageOverflow, "inference usage overflow"⟩
  let s := { s with inferenceUsage := Function.update s.inferenceUsage inferenceId usage }
  return s.changeInferenceMessage inferenceId fun m => { m with usage }

def failInference (s : TranscriptState) (inferenceId : InferenceId) (error : DomainError) :
    TranscriptState :=
  if (s.inferenceMessage inferenceId).isSome then
    s.changeInferenceMessage inferenceId fun m => { m with state := .failed, error := some error }
  else s.add (.notice ⟨.failed, error.message⟩)

def cancelInference (s : TranscriptState) (inferenceId : InferenceId) (reason : Option String) :
    TranscriptState :=
  if (s.inferenceMessage inferenceId).isSome then
    s.changeInferenceMessage inferenceId fun m => { m with state := .cancelled }
  else s.add (.notice ⟨.cancelled, reason.getD "inference cancelled"⟩)

def TranscriptItem.showsFailure (error : DomainError) : TranscriptItem → Bool
  | message m => m.state == .failed && m.error == some error
  | notice n => n.kind == .failed && n.message == error.message
  | _ => false

def TranscriptItem.showsCancellation : TranscriptItem → Bool
  | message m => m.state == .cancelled
  | _ => false

def failRun (s : TranscriptState) (error : DomainError) : TranscriptState :=
  if s.items.any (TranscriptItem.showsFailure error) then s
  else s.add (.notice ⟨.failed, error.message⟩)

def cancelRun (s : TranscriptState) (reason : Option String) : TranscriptState :=
  if s.items.any TranscriptItem.showsCancellation then s
  else s.add (.notice ⟨.cancelled, reason.getD "run cancelled"⟩)

/-- An envelope that names an invocation names the one its payload is about. -/
def invocationMatches (metadata : EventMetadata) (invocationId : InvocationId) : Bool :=
  metadata.invocationId.all fun named => named == invocationId

def requireInvocation (metadata : EventMetadata) (invocationId : InvocationId) : Result PUnit :=
  ensure (invocationMatches metadata invocationId)
    (transitionError "tool event envelope and payload invocation IDs differ")

def proposeTool (s : TranscriptState) (metadata : EventMetadata) (proposed : ToolProposed) :
    Result TranscriptState := do
  requireInvocation metadata proposed.invocationId
  ensure (s.tool proposed.invocationId = none)
    (transitionError "tool invocation is already present")
  return s.add (.tool { invocationId := proposed.invocationId, toolName := proposed.toolName })

/-- Every later event of an invocation finds the summary and changes it in place. -/
def onTool (s : TranscriptState) (metadata : EventMetadata) (invocationId : InvocationId)
    (unknown : String) (change : TranscriptToolSummary → Result TranscriptToolSummary) :
    Result TranscriptState := do
  requireInvocation metadata invocationId
  let target ← require (s.tool invocationId) ⟨.unknownInvocation, unknown⟩
  let changed ← change target
  return s.changeTool invocationId fun _ => changed

def policyState : PolicyDecision → TranscriptToolState
  | .allow => .allowed
  | .deny => .denied
  | .requireApproval => .awaitingApproval

def approvalState : ApprovalDecision → TranscriptToolState
  | .approved => .allowed
  | .denied => .denied
  | .cancelled => .cancelled

def policyDecided (decision : PolicyDecision) (tool : TranscriptToolSummary) :
    Result TranscriptToolSummary := do
  ensure (tool.state = .proposed) (transitionError "tool policy may be decided only once")
  return { tool with state := policyState decision }

def approvalRequested (tool : TranscriptToolSummary) : Result TranscriptToolSummary := do
  ensure (tool.state = .awaitingApproval)
    (transitionError "approval request requires an awaiting tool invocation")
  return tool

def approvalDecided (decision : ApprovalDecision) (tool : TranscriptToolSummary) :
    Result TranscriptToolSummary := do
  ensure (tool.state = .awaitingApproval)
    (transitionError "approval decision requires an awaiting tool invocation")
  return { tool with state := approvalState decision }

/-- A failed policy leaves the summary as it is; an error event follows. -/
def policyFailed (tool : TranscriptToolSummary) : Result TranscriptToolSummary := pure tool

def started (tool : TranscriptToolSummary) : Result TranscriptToolSummary := do
  ensure (tool.state = .allowed) (transitionError "only an allowed tool may start")
  return { tool with state := .running }

def progressed (content : List ContentBlock) (tool : TranscriptToolSummary) :
    Result TranscriptToolSummary := do
  ensure (tool.state = .running) (transitionError "tool progress requires a running invocation")
  return { tool with progress := tool.progress ++ content }

def resultRecorded (content : List ContentBlock) (tool : TranscriptToolSummary) :
    Result TranscriptToolSummary := do
  ensure (tool.state = .running) (transitionError "tool result requires a running invocation")
  return { tool with result := content, state := .complete }

def erroredState (error : DomainError) (before : TranscriptToolState) : TranscriptToolState :=
  if error.code = .cancelled then .cancelled
  else if before ≠ .denied then .failed
  else before

def errored (error : DomainError) (tool : TranscriptToolSummary) :
    Result TranscriptToolSummary := do
  ensure (tool.state ≠ .complete ∧ tool.state ≠ .failed ∧ tool.error = none)
    (transitionError "tool invocation is already terminal")
  return { tool with state := erroredState error tool.state, error := some error }

def optionOffered (question : QuestionDefinition) (optionId : String) : Bool :=
  question.options.any fun option => option.optionId == optionId

def answerIsValid (question : QuestionDefinition) (answer : QuestionAnswer) : Bool :=
  let freeForm := answer.freeForm.filter fun text => text != ""
  let answerCount := answer.selectedOptionIds.length + if freeForm.isSome then 1 else 0
  decide answer.selectedOptionIds.Nodup &&
    answer.selectedOptionIds.all (optionOffered question) &&
    (freeForm.all fun text =>
      question.other.any fun other => text.utf8ByteSize ≤ other.maximumBytes) &&
    if answerCount = 0 then !question.required
    else
      question.minimumSelections ≤ answerCount &&
        (question.maximumSelections.all fun maximum => answerCount ≤ maximum) &&
        !(question.selection == .one && 1 < answerCount)

def requestQuestion (s : TranscriptState) (metadata : EventMetadata)
    (question : QuestionDefinition) : Result TranscriptState := do
  ensure (s.question question.questionId metadata.invocationId = none)
    (transitionError "question is already present")
  return s.add (.question { question, invocationId := metadata.invocationId })

def answerQuestion (s : TranscriptState) (metadata : EventMetadata) (answer : QuestionAnswer) :
    Result TranscriptState := do
  let target ← require (s.question answer.questionId metadata.invocationId)
    ⟨.unknownQuestion, "answer refers to an unknown question"⟩
  ensure (target.state = .awaitingAnswer ∧ answerIsValid target.question answer)
    (transitionError "question answer is invalid or duplicated")
  return s.changeQuestion (answer.questionId, metadata.invocationId) fun question =>
    { question with state := .answered, answer := some answer }

def cancelQuestion (s : TranscriptState) (metadata : EventMetadata) (questionId : QuestionId)
    (reason : Option String) : Result TranscriptState := do
  let target ← require (s.question questionId metadata.invocationId)
    ⟨.unknownQuestion, "cancellation refers to an unknown question"⟩
  ensure (target.state = .awaitingAnswer) (transitionError "question is already resolved")
  return s.changeQuestion (questionId, metadata.invocationId) fun question =>
    { question with state := .cancelled, cancellationReason := reason }

def createArtifact (s : TranscriptState) (artifact : ArtifactMetadata) :
    Result TranscriptState := do
  ensure (s.artifact artifact.artifactId = none)
    (transitionError "artifact ID is already present")
  return { s with artifacts := s.artifacts ++ [artifact] }

def referToArtifact (s : TranscriptState) (artifactId : ArtifactId)
    (messageId : Option MessageId) : Result TranscriptState := do
  let found ← require (s.artifact artifactId)
    ⟨.unknownArtifact, "artifact reference has no matching creation event"⟩
  let s ← match messageId with
    | none => pure s
    | some messageId => do
      ensure ((s.message messageId).isSome)
        ⟨.unknownMessage, "artifact reference targets an unknown message"⟩
      pure (s.changeMessage messageId fun m => { m with artifacts := m.artifacts ++ [found] })
  return s.add (.artifact { artifact := found, messageId })

def publishVideo (s : TranscriptState) (published : VideoArtifactPublished) :
    Result TranscriptState := do
  let found ← require (s.artifact published.artifact.artifactId)
    ⟨.unknownArtifact, "video publication has no matching artifact"⟩
  ensure (found = published.artifact ∧ published.artifact.mediaType = "video/mp4" ∧
      published.artifact.artifactId ∉ s.publishedVideoArtifacts)
    (transitionError "video publication does not exactly match its artifact")
  let s := { s with
    publishedVideoArtifacts := insert published.artifact.artifactId s.publishedVideoArtifacts }
  return s.add (.artifact {
    artifact := published.artifact
    messageId := none
    presentation := .publishedVideo })

def TranscriptToolState.terminal : TranscriptToolState → Bool
  | complete | failed | cancelled | denied => true
  | _ => false

section Visit

-- what the repository's own check of verification evidence answers
variable (validateVerificationEvidence : VerificationEvidence → Bool)

def recordVerification (s : TranscriptState) (metadata : EventMetadata)
    (evidence : VerificationEvidence) : Result TranscriptState := do
  ensure (metadata.invocationId = some evidence.producer.invocationId)
    (transitionError "verification event envelope and producer invocation differ")
  let invocation ← require
    ((s.tool evidence.producer.invocationId).filter fun invocation =>
      invocation.toolName == evidence.producer.toolName)
    ⟨.unknownInvocation, "verification evidence has no matching tool invocation"⟩
  ensure (invocation.state.terminal)
    (transitionError "verification evidence requires a terminal tool invocation")
  ensure (validateVerificationEvidence evidence)
    ⟨.invalidVerification, "verification evidence is invalid"⟩
  ensure (evidence.evidenceId ∉ s.verificationIds ∧
      evidence.producer.invocationId ∉ s.verificationInvocations)
    (transitionError "verification evidence or producing invocation is duplicated")
  ensure (∀ artifactId ∈ evidence.artifacts, (s.artifact artifactId).isSome)
    ⟨.unknownArtifact, "verification evidence references an unknown artifact"⟩
  ensure (∀ artifactId ∈ evidence.output.filterMap VerificationOutputExcerpt.completeArtifactId,
      (s.artifact artifactId).isSome)
    ⟨.unknownArtifact, "verification output references an unknown artifact"⟩
  let s := { s with
    verificationIds := insert evidence.evidenceId s.verificationIds
    verificationInvocations := insert evidence.producer.invocationId s.verificationInvocations }
  return s.add (.verification evidence)

def visitRun (s : TranscriptState) (metadata : EventMetadata) :
    RunEventPayload → Result TranscriptState
  | .userContentAdded message => pure (addUserContent s message)
  | .assistantContentStarted messageId inferenceId =>
    pure (startAssistantContent s messageId inferenceId)
  | .assistantContentDeltaAdded messageId _ delta => addContentDelta s messageId delta
  | .assistantContentFinished messageId _ => finishContent s messageId
  | .reasoningMetadataAdded inferenceId text metadata => addReasoning s inferenceId text metadata
  | .usageRecorded inferenceId usage => recordUsage s inferenceId usage
  | .inferenceFailed inferenceId error => pure (failInference s inferenceId error)
  | .inferenceCancelled inferenceId reason => pure (cancelInference s inferenceId reason)
  | .runFailed error => pure (failRun s error)
  | .runCancelled reason => pure (cancelRun s reason)
  | .toolProposed proposed => proposeTool s metadata proposed
  | .toolPolicyDecided decided =>
    onTool s metadata decided.invocationId "policy decision refers to an unknown invocation"
      (policyDecided decided.decision)
  | .toolApprovalRequested invocationId _ _ =>
    onTool s metadata invocationId "approval request refers to an unknown invocation"
      approvalRequested
  | .toolApprovalDecided invocationId decision _ _ =>
    onTool s metadata invocationId "approval decision refers to an unknown invocation"
      (approvalDecided decision)
  | .toolPolicyFailed invocationId _ =>
    onTool s metadata invocationId "policy failure refers to an unknown invocation" policyFailed
  | .toolStarted invocationId =>
    onTool s metadata invocationId "tool start refers to an unknown invocation" started
  | .toolProgressed invocationId content =>
    onTool s metadata invocationId "tool progress refers to an unknown invocation"
      (progressed content)
  | .toolResultRecorded invocationId content _ =>
    onTool s metadata invocationId "tool result refers to an unknown invocation"
      (resultRecorded content)
  | .toolErrored invocationId error _ =>
    onTool s metadata invocationId "tool error refers to an unknown invocation" (errored error)
  | .questionRequested question => requestQuestion s metadata question
  | .questionAnswered answer => answerQuestion s metadata answer
  | .questionCancelled questionId reason => cancelQuestion s metadata questionId reason
  | _ => pure s

def visit (s : TranscriptState) (event : TranscriptEvent) : Result TranscriptState :=
  match event.payload with
  | .run payload => visitRun s event.metadata payload
  | .artifactCreated artifact => createArtifact s artifact
  | .artifactReferenced artifactId messageId => referToArtifact s artifactId messageId
  | .videoArtifactPublished published => publishVideo s published
  | .verificationEvidenceRecorded evidence =>
    recordVerification validateVerificationEvidence s event.metadata evidence

def applyInPlace (s : TranscriptState) (event : TranscriptEvent) : Result TranscriptState := do
  ensure (event.metadata.eventId ∉ s.eventIds)
    ⟨.duplicateEvent, "event ID is already present in the transcript"⟩
  let run ← (RunProjection.applyChecked s.run event.runEvent).mapError projectionError
  let next ← visit validateVerificationEvidence { s with run } event
  return { next with eventIds := insert event.metadata.eventId next.eventIds }

/-- An event is applied to a copy that takes the place of the transcript when it is accepted. -/
def transcriptProjection : Projection TranscriptState TranscriptEvent TranscriptProjectionError where
  initial := {}
  apply s event :=
    match applyInPlace validateVerificationEvidence s event with
    | .ok next => (.ok (), next)
    | .error error => (.error error, s)

end Visit

/-- The events of one invocation, as far as its summary can tell them apart. -/
inductive ToolAct where
  | proposed (toolName : String)
  | policyDecided (decision : PolicyDecision)
  | approvalRequested
  | approvalDecided (decision : ApprovalDecision)
  | policyFailed | started
  | progressed (content : List ContentBlock)
  | resultRecorded (content : List ContentBlock)
  | errored (error : DomainError)

def TranscriptPayload.toolAct : TranscriptPayload → Option (InvocationId × ToolAct)
  | .run (.toolProposed proposed) => some (proposed.invocationId, .proposed proposed.toolName)
  | .run (.toolPolicyDecided decided) =>
    some (decided.invocationId, .policyDecided decided.decision)
  | .run (.toolApprovalRequested invocationId _ _) => some (invocationId, .approvalRequested)
  | .run (.toolApprovalDecided invocationId decision _ _) =>
    some (invocationId, .approvalDecided decision)
  | .run (.toolPolicyFailed invocationId _) => some (invocationId, .policyFailed)
  | .run (.toolStarted invocationId) => some (invocationId, .started)
  | .run (.toolProgressed invocationId content) => some (invocationId, .progressed content)
  | .run (.toolResultRecorded invocationId content _) =>
    some (invocationId, .resultRecorded content)
  | .run (.toolErrored invocationId error _) => some (invocationId, .errored error)
  | _ => none

/-- The moves of a proposed invocation, one for each kind of event, with their guards. -/
inductive ToolMove (tool : TranscriptToolSummary) : ToolAct → TranscriptToolSummary → Prop where
  | policyDecided (decision : PolicyDecision) (hstate : tool.state = .proposed) :
      ToolMove tool (.policyDecided decision) { tool with state := policyState decision }
  | approvalRequested (hstate : tool.state = .awaitingApproval) :
      ToolMove tool .approvalRequested tool
  | approvalDecided (decision : ApprovalDecision) (hstate : tool.state = .awaitingApproval) :
      ToolMove tool (.approvalDecided decision) { tool with state := approvalState decision }
  | policyFailed : ToolMove tool .policyFailed tool
  | started (hstate : tool.state = .allowed) :
      ToolMove tool .started { tool with state := .running }
  | progressed (content : List ContentBlock) (hstate : tool.state = .running) :
      ToolMove tool (.progressed content) { tool with progress := tool.progress ++ content }
  | resultRecorded (content : List ContentBlock) (hstate : tool.state = .running) :
      ToolMove tool (.resultRecorded content) { tool with result := content, state := .complete }
  | errored (error : DomainError) (hcomplete : tool.state ≠ .complete)
      (hfailed : tool.state ≠ .failed) (herror : tool.error = none) :
      ToolMove tool (.errored error)
        { tool with state := erroredState error tool.state, error := some error }

/-- Content, reasoning, usage and the end of inferences and runs. -/
inductive MessageMove (items : List TranscriptItem) : List TranscriptItem → Prop where
  | kept : MessageMove items items
  | added (message : TranscriptMessage) (hartifacts : message.artifacts = []) :
      MessageMove items (items ++ [.message message])
  | noticed (notice : TranscriptNotice) : MessageMove items (items ++ [.notice notice])
  | changed {κ : Type} [DecidableEq κ] (key : TranscriptItem → κ) (k : κ)
      (f : TranscriptMessage → TranscriptMessage)
      (hid : ∀ message, (f message).messageId = message.messageId)
      (hartifacts : ∀ message, (f message).artifacts = message.artifacts) :
      MessageMove items (updateFirst key k (TranscriptItem.mapMessage f) items)

/-- The question that an event answers or cancels. -/
def resolved (metadata : EventMetadata) : TranscriptPayload → Option QuestionKey
  | .run (.questionAnswered answer) => some (answer.questionId, metadata.invocationId)
  | .run (.questionCancelled questionId _) => some (questionId, metadata.invocationId)
  | _ => none

def asked (metadata : EventMetadata) : TranscriptPayload → Option TranscriptQuestionSummary
  | .run (.questionRequested question) => some { question, invocationId := metadata.invocationId }
  | _ => none

def TranscriptPayload.created : TranscriptPayload → Option ArtifactMetadata
  | .artifactCreated artifact => some artifact
  | _ => none

/-- An event that is about no invocation, question or artifact. -/
structure Plain (metadata : EventMetadata) (payload : TranscriptPayload) : Prop where
  tool : payload.toolAct = none
  question : asked metadata payload = none
  resolution : resolved metadata payload = none
  artifact : payload.created = none

inductive Transition (validateVerificationEvidence : VerificationEvidence → Bool)
    (s : TranscriptState) (metadata : EventMetadata) :
    TranscriptPayload → TranscriptState → Prop where
  | content {payload : TranscriptPayload} (hplain : Plain metadata payload)
      {items : List TranscriptItem} (hmove : MessageMove s.items items)
      (inferenceUsage : InferenceId → Usage) :
      Transition validateVerificationEvidence s metadata payload { s with items, inferenceUsage }
  | propose (proposed : ToolProposed) (hnew : s.tool proposed.invocationId = none) :
      Transition validateVerificationEvidence s metadata (.run (.toolProposed proposed))
        (s.add (.tool
          { invocationId := proposed.invocationId, toolName := proposed.toolName }))
  | tool {payload : TranscriptPayload} {invocationId : InvocationId} {act : ToolAct}
      {tool next : TranscriptToolSummary} (hact : payload.toolAct = some (invocationId, act))
      (hquestion : asked metadata payload = none)
      (hresolution : resolved metadata payload = none) (hartifact : payload.created = none)
      (htool : s.tool invocationId = some tool) (hmove : ToolMove tool act next) :
      Transition validateVerificationEvidence s metadata payload
        (s.changeTool invocationId fun _ => next)
  | ask (question : QuestionDefinition)
      (hnew : s.question question.questionId metadata.invocationId = none) :
      Transition validateVerificationEvidence s metadata (.run (.questionRequested question))
        (s.add (.question { question, invocationId := metadata.invocationId }))
  | answer (answer : QuestionAnswer) {target : TranscriptQuestionSummary}
      (htarget : s.question answer.questionId metadata.invocationId = some target)
      (hstate : target.state = .awaitingAnswer)
      (hvalid : answerIsValid target.question answer) :
      Transition validateVerificationEvidence s metadata (.run (.questionAnswered answer))
        (s.changeQuestion (answer.questionId, metadata.invocationId) fun question =>
          { question with state := .answered, answer := some answer })
  | cancel (questionId : QuestionId) (reason : Option String)
      {target : TranscriptQuestionSummary}
      (htarget : s.question questionId metadata.invocationId = some target)
      (hstate : target.state = .awaitingAnswer) :
      Transition validateVerificationEvidence s metadata (.run (.questionCancelled questionId reason))
        (s.changeQuestion (questionId, metadata.invocationId) fun question =>
          { question with state := .cancelled, cancellationReason := reason })
  | create (artifact : ArtifactMetadata) (hnew : s.artifact artifact.artifactId = none) :
      Transition validateVerificationEvidence s metadata (.artifactCreated artifact)
        { s with artifacts := s.artifacts ++ [artifact] }
  | refer (artifactId : ArtifactId) {found : ArtifactMetadata}
      (hfound : s.artifact artifactId = some found) :
      Transition validateVerificationEvidence s metadata (.artifactReferenced artifactId none)
        (s.add (.artifact { artifact := found, messageId := none }))
  | referMessage (artifactId : ArtifactId) (messageId : MessageId) {found : ArtifactMetadata}
      (hfound : s.artifact artifactId = some found) :
      Transition validateVerificationEvidence s metadata
        (.artifactReferenced artifactId (some messageId))
        ((s.changeMessage messageId fun m => { m with artifacts := m.artifacts ++ [found] }).add
          (.artifact { artifact := found, messageId := some messageId }))
  | publish (published : VideoArtifactPublished)
      (hfound : s.artifact published.artifact.artifactId = some published.artifact)
      (hmedia : published.artifact.mediaType = "video/mp4")
      (hnew : published.artifact.artifactId ∉ s.publishedVideoArtifacts) :
      Transition validateVerificationEvidence s metadata (.videoArtifactPublished published)
        ({ s with
          publishedVideoArtifacts :=
            insert published.artifact.artifactId s.publishedVideoArtifacts }.add (.artifact {
              artifact := published.artifact
              messageId := none
              presentation := .publishedVideo }))
  | verify (evidence : VerificationEvidence) {invocation : TranscriptToolSummary}
      (hinvocation : s.tool evidence.producer.invocationId = some invocation)
      (hname : invocation.toolName = evidence.producer.toolName)
      (hterminal : invocation.state.terminal)
      (hvalid : validateVerificationEvidence evidence)
      (hnew : evidence.evidenceId ∉ s.verificationIds)
      (hinvocationNew : evidence.producer.invocationId ∉ s.verificationInvocations)
      (hartifacts : ∀ artifactId ∈ evidence.named, (s.artifact artifactId).isSome) :
      Transition validateVerificationEvidence s metadata (.verificationEvidenceRecorded evidence)
        ({ s with
          verificationIds := insert evidence.evidenceId s.verificationIds
          verificationInvocations :=
            insert evidence.producer.invocationId s.verificationInvocations }.add
          (.verification evidence))

variable {validateVerificationEvidence : VerificationEvidence → Bool}
variable {s t : TranscriptState} {metadata : EventMetadata}

/-- A handler whose summary change is a move of the invocation is a transition. -/
theorem onTool_transition {payload : TranscriptPayload} {invocationId : InvocationId}
    {act : ToolAct} {unknown : String}
    {change : TranscriptToolSummary → Result TranscriptToolSummary}
    (hact : payload.toolAct = some (invocationId, act))
    (hques : asked metadata payload = none) (hres : resolved metadata payload = none)
    (hart : payload.created = none)
    (hchg : ∀ tool next, change tool = .ok next → ToolMove tool act next)
    (h : onTool s metadata invocationId unknown change = .ok t) :
    Transition validateVerificationEvidence s metadata payload t := by
  obtain ⟨_, _, h⟩ := bind_ok.1 h
  obtain ⟨tool, htool, h⟩ := bind_ok.1 h
  obtain ⟨next, hnext, h⟩ := bind_ok.1 h
  cases h
  exact .tool hact hques hres hart (require_ok.1 htool)
    (hchg tool next hnext)

section Moves

variable {tool next : TranscriptToolSummary}

theorem policyDecided_move {decision : PolicyDecision} (h : policyDecided decision tool = .ok next) :
    ToolMove tool (.policyDecided decision) next := by
  obtain ⟨hst, h⟩ := guarded h
  cases h
  exact .policyDecided decision hst

theorem approvalRequested_move (h : approvalRequested tool = .ok next) :
    ToolMove tool .approvalRequested next := by
  obtain ⟨hst, h⟩ := guarded h
  cases h
  exact .approvalRequested hst

theorem approvalDecided_move {decision : ApprovalDecision}
    (h : approvalDecided decision tool = .ok next) :
    ToolMove tool (.approvalDecided decision) next := by
  obtain ⟨hst, h⟩ := guarded h
  cases h
  exact .approvalDecided decision hst

theorem policyFailed_move (h : policyFailed tool = .ok next) :
    ToolMove tool .policyFailed next := by
  cases h
  exact .policyFailed

theorem started_move (h : started tool = .ok next) : ToolMove tool .started next := by
  obtain ⟨hst, h⟩ := guarded h
  cases h
  exact .started hst

theorem progressed_move {content : List ContentBlock} (h : progressed content tool = .ok next) :
    ToolMove tool (.progressed content) next := by
  obtain ⟨hst, h⟩ := guarded h
  cases h
  exact .progressed content hst

theorem resultRecorded_move {content : List ContentBlock}
    (h : resultRecorded content tool = .ok next) :
    ToolMove tool (.resultRecorded content) next := by
  obtain ⟨hst, h⟩ := guarded h
  cases h
  exact .resultRecorded content hst

theorem errored_move {error : DomainError} (h : errored error tool = .ok next) :
    ToolMove tool (.errored error) next := by
  obtain ⟨⟨hdone, hfail, herr⟩, h⟩ := guarded h
  cases h
  exact .errored error hdone hfail herr

end Moves

theorem inference_move (inferenceId : InferenceId) (f : TranscriptMessage → TranscriptMessage)
    (hid : ∀ message, (f message).messageId = message.messageId)
    (hart : ∀ message, (f message).artifacts = message.artifacts) :
    MessageMove s.items (s.changeInferenceMessage inferenceId f).items :=
  .changed _ _ f hid hart

theorem content_transition {payload : TranscriptPayload} (hplain : Plain metadata payload)
    (hmove : MessageMove s.items t.items)
    (ht : t = { s with items := t.items, inferenceUsage := t.inferenceUsage }) :
    Transition validateVerificationEvidence s metadata payload t := by
  rw [ht]
  exact .content hplain hmove _

theorem visitRun_transition {payload : RunEventPayload} (h : visitRun s metadata payload = .ok t) :
    Transition validateVerificationEvidence s metadata (.run payload) t := by
  cases payload
  case userContentAdded message | assistantContentStarted messageId inferenceId =>
    cases h
    exact content_transition ⟨rfl, rfl, rfl, rfl⟩ (.added _ rfl) rfl
  case assistantContentDeltaAdded messageId inferenceId delta
      | assistantContentFinished messageId inferenceId =>
    obtain ⟨-, h⟩ := guarded h
    cases h
    exact content_transition ⟨rfl, rfl, rfl, rfl⟩
      (.changed _ _ _ (fun _ => rfl) fun _ => rfl) rfl
  case reasoningMetadataAdded inferenceId text metadata =>
    obtain ⟨-, h⟩ := guarded h
    cases h
    exact content_transition ⟨rfl, rfl, rfl, rfl⟩
      (inference_move inferenceId _ (fun _ => rfl) fun _ => rfl) rfl
  case usageRecorded inferenceId usage =>
    obtain ⟨_, -, h⟩ := bind_ok.1 h
    cases h
    exact content_transition ⟨rfl, rfl, rfl, rfl⟩
      (inference_move inferenceId _ (fun _ => rfl) fun _ => rfl) rfl
  case inferenceFailed inferenceId error =>
    cases h
    unfold failInference
    split
    · exact content_transition ⟨rfl, rfl, rfl, rfl⟩
        (inference_move inferenceId _ (fun _ => rfl) fun _ => rfl) rfl
    · exact content_transition ⟨rfl, rfl, rfl, rfl⟩ (.noticed _) rfl
  case inferenceCancelled inferenceId reason =>
    cases h
    unfold cancelInference
    split
    · exact content_transition ⟨rfl, rfl, rfl, rfl⟩
        (inference_move inferenceId _ (fun _ => rfl) fun _ => rfl) rfl
    · exact content_transition ⟨rfl, rfl, rfl, rfl⟩ (.noticed _) rfl
  case runFailed error =>
    cases h
    unfold failRun
    split
    · exact content_transition ⟨rfl, rfl, rfl, rfl⟩ .kept rfl
    · exact content_transition ⟨rfl, rfl, rfl, rfl⟩ (.noticed _) rfl
  case runCancelled reason =>
    cases h
    unfold cancelRun
    split
    · exact content_transition ⟨rfl, rfl, rfl, rfl⟩ .kept rfl
    · exact content_transition ⟨rfl, rfl, rfl, rfl⟩ (.noticed _) rfl
  case toolProposed proposed =>
    obtain ⟨_, _, h⟩ := bind_ok.1 h
    obtain ⟨hnew, h⟩ := guarded h
    cases h
    exact .propose proposed hnew
  case toolPolicyDecided decided =>
    exact onTool_transition rfl rfl rfl rfl (fun _ _ => policyDecided_move) h
  case toolApprovalRequested invocationId scopes reason =>
    exact onTool_transition rfl rfl rfl rfl (fun _ _ => approvalRequested_move) h
  case toolApprovalDecided invocationId decision scopes lifetime =>
    exact onTool_transition rfl rfl rfl rfl (fun _ _ => approvalDecided_move) h
  case toolPolicyFailed invocationId error =>
    exact onTool_transition rfl rfl rfl rfl (fun _ _ => policyFailed_move) h
  case toolStarted invocationId =>
    exact onTool_transition rfl rfl rfl rfl (fun _ _ => started_move) h
  case toolProgressed invocationId content =>
    exact onTool_transition rfl rfl rfl rfl (fun _ _ => progressed_move) h
  case toolResultRecorded invocationId content messageId =>
    exact onTool_transition rfl rfl rfl rfl (fun _ _ => resultRecorded_move) h
  case toolErrored invocationId error messageId =>
    exact onTool_transition rfl rfl rfl rfl (fun _ _ => errored_move) h
  case questionRequested question =>
    obtain ⟨hnew, h⟩ := guarded h
    cases h
    exact .ask question hnew
  case questionAnswered answer =>
    obtain ⟨_, htgt, h⟩ := bind_ok.1 h
    obtain ⟨⟨hst, hval⟩, h⟩ := guarded h
    cases h
    exact .answer answer (require_ok.1 htgt) hst hval
  case questionCancelled questionId reason =>
    obtain ⟨_, htgt, h⟩ := bind_ok.1 h
    obtain ⟨hst, h⟩ := guarded h
    cases h
    exact .cancel questionId reason (require_ok.1 htgt) hst
  -- the remaining events only move the run
  all_goals
    cases h
    exact content_transition ⟨rfl, rfl, rfl, rfl⟩ .kept rfl

theorem recordVerification_transition {evidence : VerificationEvidence}
    (h : recordVerification validateVerificationEvidence s metadata evidence = .ok t) :
    Transition validateVerificationEvidence s metadata
      (.verificationEvidenceRecorded evidence) t := by
  obtain ⟨-, h⟩ := guarded h
  obtain ⟨_, hfnd, h⟩ := bind_ok.1 h
  obtain ⟨hinv, hname⟩ := Option.filter_eq_some_iff.1 (require_ok.1 hfnd)
  obtain ⟨hterm, h⟩ := guarded h
  obtain ⟨hval, h⟩ := guarded h
  obtain ⟨⟨hnew, hinvocationNew⟩, h⟩ := guarded h
  obtain ⟨hart, h⟩ := guarded h
  obtain ⟨houtputs, h⟩ := guarded h
  cases h
  refine .verify evidence hinv (by simpa using hname) hterm hval hnew
    hinvocationNew ?_
  intro artifactId hmem
  rcases List.mem_append.1 hmem with hmem | hmem
  · exact hart artifactId hmem
  · exact houtputs artifactId hmem

variable {event : TranscriptEvent}

theorem visit_transition (h : visit validateVerificationEvidence s event = .ok t) :
    Transition validateVerificationEvidence s event.metadata event.payload t := by
  unfold visit at h
  split at h
  · rename_i payload hpay
    rw [hpay]
    exact visitRun_transition h
  · rename_i artifact hpay
    rw [hpay]
    obtain ⟨hnew, h⟩ := guarded h
    cases h
    exact .create artifact hnew
  · rename_i artifactId messageId hpay
    rw [hpay]
    obtain ⟨_, hfnd, h⟩ := bind_ok.1 h
    have hfnd := require_ok.1 hfnd
    cases messageId with
    | none =>
      cases h
      exact .refer artifactId hfnd
    | some messageId =>
      obtain ⟨-, h⟩ := guarded h
      cases h
      exact .referMessage artifactId messageId hfnd
  · rename_i published hpay
    rw [hpay]
    obtain ⟨_, hfnd, h⟩ := bind_ok.1 h
    obtain ⟨⟨hsame, hmedia, hnew⟩, h⟩ := guarded h
    cases h
    have hart := (require_ok.1 hfnd).trans (congrArg some hsame)
    exact .publish published hart hmedia hnew
  · rename_i evidence hpay
    rw [hpay]
    exact recordVerification_transition h

/-- An accepted event is new, moves the run and makes its own transition. -/
structure Step (validateVerificationEvidence : VerificationEvidence → Bool) (s : TranscriptState)
    (event : TranscriptEvent) (t : TranscriptState) : Prop where
  new : event.metadata.eventId ∉ s.eventIds
  moved : ∃ run next, RunProjection.applyChecked s.run event.runEvent = .ok run ∧
    Transition validateVerificationEvidence { s with run } event.metadata event.payload next ∧
    t = { next with eventIds := insert event.metadata.eventId next.eventIds }

theorem applyInPlace_ok (h : applyInPlace validateVerificationEvidence s event = .ok t) :
    Step validateVerificationEvidence s event t := by
  obtain ⟨hnew, h⟩ := guarded h
  obtain ⟨run, hrun, h⟩ := bind_ok.1 h
  obtain ⟨next, hnext, h⟩ := bind_ok.1 h
  exact ⟨hnew, run, next, mapError_ok.1 hrun, visit_transition hnext,
    (Except.ok.inj h).symm⟩

theorem accepts_step (h : (transcriptProjection validateVerificationEvidence).Accepts s event) :
    Step validateVerificationEvidence s event
      ((transcriptProjection validateVerificationEvidence).apply s event).2 := by
  change ((transcriptProjection validateVerificationEvidence).apply s event).1 = .ok () at h
  simp only [transcriptProjection] at h ⊢
  cases happ : applyInPlace validateVerificationEvidence s event with
  | error => simp [happ] at h
  | ok => exact applyInPlace_ok happ

theorem transcriptProjection_atomic :
    (transcriptProjection validateVerificationEvidence).Atomic := by
  intro s event h
  change ¬ ((transcriptProjection validateVerificationEvidence).apply s event).1 = .ok () at h
  simp only [transcriptProjection] at h ⊢
  cases happ : applyInPlace validateVerificationEvidence s event with
  | error => rfl
  | ok => simp [happ] at h

end Transcript
