import AiForge.Staged
import AiForge.UsageLedger

/-! # Run projection

The state of one run, folded from its events. What a run waits for is read from its status,
its pending approvals and its open inference; `View` keeps these three and `View.next` says
how an accepted event moves them. -/
namespace RunProjection

open Content Events EventProjection Money Pricing SafeText UsageLedger Staged Except

inductive PersonaValidationErrorCode where
  | invalidName | invalidIdentity | invalidLocation | invalidDigest | invalidSelection

structure PersonaValidationError where
  code : PersonaValidationErrorCode
  message : String

def isAsciiAlnum (character : UInt8) : Bool :=
  (0x30 ≤ character && character ≤ 0x39) || (0x41 ≤ character && character ≤ 0x5a) ||
  (0x61 ≤ character && character ≤ 0x7a)

def isPersonaCharacter (character : UInt8) : Bool :=
  isAsciiAlnum character || character == 0x2d || character == 0x5f

def validPersonaName (value : Bytes) : Bool :=
  match value with
  | [] => false
  | first :: rest => value.length ≤ 96 && isAsciiAlnum first && rest.all isPersonaCharacter

/-- No identity is longer than this many bytes. -/
def identifierMaxSize : ℕ := 128

def validPersonaIdentity (value : Bytes) : Bool :=
  let start := bytesOf "persona:"
  start.isPrefixOf value && start.length < value.length && value.length ≤ identifierMaxSize &&
    (value.drop start.length).all isPersonaCharacter

def isLowerHex (c : Char) : Bool := ('0' ≤ c && c ≤ '9') || ('a' ≤ c && c ≤ 'f')

def validPersonaDigest (digest : ContentDigest) : Bool :=
  digest.algorithm == "sha256" && digest.value.utf8ByteSize == 64 && digest.byteSize != 0 &&
    digest.byteSize ≤ 1024 * 1024 && digest.value.toList.all isLowerHex

def validatePersonaReference (reference : PersonaReference) :
    Except PersonaValidationError Unit := do
  if !validPersonaName reference.name then
    throw ⟨.invalidName, "persona name is invalid"⟩
  if !validPersonaIdentity (bytesOf reference.personaId) then
    throw ⟨.invalidIdentity, "persona identity is invalid"⟩
  if reference.sourceLocation != bytesOf "personas/" ++ reference.name ++ bytesOf ".md" &&
      reference.sourceLocation != bytesOf "personas/" ++ reference.name ++ bytesOf ".txt" then
    throw ⟨.invalidLocation, "persona source location is invalid"⟩
  if !validPersonaDigest reference.contentDigest then
    throw ⟨.invalidDigest, "persona content digest is invalid"⟩

def validatePersonaSelection (selection : PersonaSelection) :
    Except PersonaValidationError Unit := do
  if selection.source = .unknown ∨ selection.action = .unknown ∨
      (decide (selection.action = .selected) != selection.persona.isSome) then
    throw ⟨.invalidSelection, "persona selection is inconsistent"⟩
  if let some persona := selection.persona then validatePersonaReference persona
  if let some previous := selection.previousPersona then validatePersonaReference previous

inductive RunStatus where
  | notStarted | running | awaitingInput | awaitingApproval | awaitingPlanDecision
  | awaitingPlanRevision | completed | failed | cancelled
  deriving DecidableEq

def RunStatus.live : RunStatus → Bool
  | .running | .awaitingInput | .awaitingApproval => true
  | _ => false

def RunStatus.terminal : RunStatus → Bool
  | .completed | .failed | .cancelled => true
  | _ => false

structure ProjectedMessage where
  messageId : MessageId
  role : Role
  content : List ContentBlock
  complete : Bool
  inferenceId : Option InferenceId

inductive ProjectionErrorCode where
  | invalidEnvelope | wrongRun | nonMonotonicSequence | invalidTransition | unknownMessage
  | wrongInference | usageOverflow | costOverflow | invalidPricing

structure ProjectionError where
  code : ProjectionErrorCode
  message : String

structure RunState where
  runId : Option RunId := none
  status : RunStatus := .notStarted
  messages : List ProjectedMessage := []
  usage : Usage := {}
  reportedCost : Option ReportedCost := none
  activeInferenceId : Option InferenceId := none
  activeModelId : Option ModelId := none
  (activeInferenceCostRecorded activeInferencePricingRecorded : Bool := false)
  pricingObservations : List PricingObservation := []
  provenance : Option RunProvenance := none
  personaId : Option PersonaId := none
  personaSelection : Option PersonaSelection := none
  pendingApprovalIds : Finset InvocationId := ∅
  lastSequence : ℕ := 0

abbrev transitionError {α : Type} (message : String) : Except ProjectionError α :=
  .error ⟨.invalidTransition, message⟩

abbrev wrongInference {α : Type} (message : String) : Except ProjectionError α :=
  .error ⟨.wrongInference, message⟩

def RunState.findMessage (s : RunState) (messageId : MessageId) : Option ProjectedMessage :=
  s.messages.find? fun message => message.messageId = messageId

def RunState.changeMessage (s : RunState) (messageId : MessageId)
    (f : ProjectedMessage → ProjectedMessage) : RunState :=
  { s with messages := KeyedList.updateFirst ProjectedMessage.messageId messageId f s.messages }

def RunState.completeMessages (s : RunState) (inferenceId : Option InferenceId) : RunState :=
  { s with messages := s.messages.map fun message =>
      if message.inferenceId = inferenceId then { message with complete := true } else message }

def RunState.closeInference (s : RunState) : RunState :=
  { s with
    activeInferenceId := none
    activeModelId := none
    activeInferenceCostRecorded := false
    activeInferencePricingRecorded := false }

def requireRunning (s : RunState) : Except ProjectionError RunState :=
  if s.status.live then .ok s else transitionError "event requires a live run"

def applyStarted (s : RunState) (event : RunEvent) (started : RunStarted) :
    Except ProjectionError RunState :=
  if s.status ≠ .notStarted ∨ s.runId.isSome then
    transitionError "run.started may occur only once"
  else .ok { s with
    runId := some event.metadata.runId
    status := .running
    personaId := started.personaId }

def applyProvenance (s : RunState) (provenance : RunProvenance) :
    Except ProjectionError RunState := do
  let s ← requireRunning s
  if s.provenance.isSome then transitionError "run provenance may be recorded only once"
  else return { s with provenance := some provenance }

def applyPersonaSelection (s : RunState) (selection : PersonaSelection) :
    Except ProjectionError RunState := do
  let s ← requireRunning s
  if s.personaSelection.isSome || !s.messages.isEmpty ||
      (validatePersonaSelection selection matches .error _) then
    transitionError "persona selection must be recorded once before run content"
  else if selection.persona.map PersonaReference.personaId ≠ s.personaId then
    transitionError "persona selection does not match run start metadata"
  else return { s with personaSelection := some selection }

def applyAwaitingInput (s : RunState) : Except ProjectionError RunState :=
  if (s.status ≠ .running ∧ s.status ≠ .awaitingApproval) ∨ s.activeInferenceId.isSome then
    transitionError "a run may await input only between inferences"
  else .ok { s with status := .awaitingInput }

def applyResumed (s : RunState) : Except ProjectionError RunState :=
  if s.status ≠ .awaitingInput then transitionError "only an awaiting run may resume"
  else .ok { s with
    status := if s.pendingApprovalIds = ∅ then .running else .awaitingApproval }

def applyApprovalRequested (s : RunState) (invocationId : InvocationId) :
    Except ProjectionError RunState :=
  if !s.status.live ∨ s.activeInferenceId.isSome ∨ invocationId ∈ s.pendingApprovalIds then
    transitionError "tool approval request is duplicated or out of order"
  else .ok { s with
    pendingApprovalIds := insert invocationId s.pendingApprovalIds
    status := if s.status = .running then .awaitingApproval else s.status }

def applyApprovalDecided (s : RunState) (invocationId : InvocationId) :
    Except ProjectionError RunState :=
  if (s.status ≠ .awaitingApproval ∧ s.status ≠ .awaitingInput) ∨
      invocationId ∉ s.pendingApprovalIds then
    transitionError "tool approval decision has no pending request"
  else .ok { s with
    pendingApprovalIds := s.pendingApprovalIds.erase invocationId
    status :=
      if s.status = .awaitingApproval ∧ s.pendingApprovalIds.erase invocationId = ∅ then .running
      else s.status }

def applyPlanProposed (s : RunState) : Except ProjectionError RunState :=
  if (s.status ≠ .running ∧ s.status ≠ .awaitingPlanRevision) ∨ s.activeInferenceId.isSome then
    transitionError "a plan may be proposed only between inference attempts"
  else .ok { s with status := .awaitingPlanDecision }

def applyPlanDecision (s : RunState) (decision : PlanRevisionDecision) :
    Except ProjectionError RunState :=
  if s.status ≠ .awaitingPlanDecision then
    transitionError "a plan decision requires an awaiting plan revision"
  else .ok { s with
    status := if decision.decision = .revisionRequested then .awaitingPlanRevision else .running }

def applyPlanInvalidated (s : RunState) : Except ProjectionError RunState :=
  if s.status ≠ .running ∧ s.status ≠ .awaitingPlanDecision then
    transitionError "plan invalidation requires a live control run"
  else .ok { s with
    status := if s.status = .awaitingPlanDecision then .awaitingPlanRevision else s.status }

def applyCompleted (s : RunState) : Except ProjectionError RunState := do
  let s ← requireRunning s
  if s.activeInferenceId.isSome ∨ s.pendingApprovalIds ≠ ∅ then
    transitionError "a run cannot complete with active work"
  else return { s with status := .completed }

def applyFailed (s : RunState) : Except ProjectionError RunState := do
  let s ← requireRunning s
  return { s.closeInference with pendingApprovalIds := ∅, status := .failed }

def applyCancelled (s : RunState) : Except ProjectionError RunState := do
  let s ← requireRunning s
  return { (s.completeMessages s.activeInferenceId).closeInference with
    pendingApprovalIds := ∅
    status := .cancelled }

def applyUserContent (s : RunState) (message : Message) : Except ProjectionError RunState := do
  let s ← requireRunning s
  if s.personaId.isSome && s.personaSelection.isNone then
    transitionError "selected persona provenance must precede run content"
  else if message.role ≠ .user then transitionError "user content must carry the user role"
  else if (s.findMessage message.messageId).isSome then
    transitionError "message ID is already present in the run"
  else return { s with
    messages := s.messages ++ [⟨message.messageId, .user, message.content, true, none⟩] }

def applyInferenceStarted (s : RunState) (inferenceId : InferenceId) (modelId : ModelId) :
    Except ProjectionError RunState :=
  if s.status ≠ .running then transitionError "inference requires a running run"
  else if s.activeInferenceId.isSome then
    transitionError "only one inference may be active in this projection"
  else .ok { s with
    activeInferenceId := some inferenceId
    activeModelId := some modelId
    activeInferenceCostRecorded := false
    activeInferencePricingRecorded := false }

/-- Every event of an inference names the inference that is open. -/
def matchInference (s : RunState) (inferenceId : InferenceId) (message : String) :
    Except ProjectionError RunState :=
  if s.activeInferenceId = some inferenceId then .ok s else wrongInference message

def applyPricing (s : RunState) (inferenceId : InferenceId) (observation : PricingObservation) :
    Except ProjectionError RunState := do
  let s ← matchInference s inferenceId "pricing observation has no matching inference"
  if s.activeModelId ≠ some observation.modelId then
    wrongInference "pricing observation has no matching inference"
  else if s.activeInferencePricingRecorded then
    transitionError "pricing may be observed only once per inference"
  else if validatePricingObservation observation matches .error _ then
    .error ⟨.invalidPricing, "pricing observation is malformed"⟩
  else return { s with
    pricingObservations := s.pricingObservations ++ [observation]
    activeInferencePricingRecorded := true }

def applyContentStarted (s : RunState) (messageId : MessageId) (inferenceId : InferenceId) :
    Except ProjectionError RunState := do
  let s ← matchInference s inferenceId "assistant content has no matching inference"
  if (s.findMessage messageId).isSome then
    transitionError "message ID is already present in the run"
  else return { s with
    messages := s.messages ++ [⟨messageId, .assistant, [], false, some inferenceId⟩] }

def applyContentDelta (s : RunState) (messageId : MessageId) (inferenceId : InferenceId)
    (delta : ContentBlock) : Except ProjectionError RunState := do
  let s ← matchInference s inferenceId "content delta has no matching inference"
  match s.findMessage messageId with
  | none => .error ⟨.unknownMessage, "content delta refers to an unknown message"⟩
  | some message =>
    if message.complete || message.inferenceId != some inferenceId then
      transitionError "content delta targets a finished or unrelated message"
    else return s.changeMessage messageId fun m => { m with content := m.content ++ [delta] }

def applyContentFinished (s : RunState) (messageId : MessageId) (inferenceId : InferenceId) :
    Except ProjectionError RunState := do
  let s ← matchInference s inferenceId "content finish has no matching inference"
  match s.findMessage messageId with
  | none => .error ⟨.unknownMessage, "content finish refers to an unknown message"⟩
  | some message =>
    if message.complete || message.inferenceId != some inferenceId then
      transitionError "assistant message is already finished or unrelated"
    else return s.changeMessage messageId fun m => { m with complete := true }

def applyUsage (s : RunState) (inferenceId : InferenceId) (usage : Usage) :
    Except ProjectionError RunState := do
  let s ← matchInference s inferenceId "usage has no matching inference"
  match addUsage s.usage usage with
  | none => .error ⟨.usageOverflow, "usage total overflow"⟩
  | some total => return { s with usage := total }

def applyCost (s : RunState) (inferenceId : InferenceId) (cost : ReportedCost) :
    Except ProjectionError RunState := do
  let s ← matchInference s inferenceId "reported cost has no matching inference"
  if s.activeInferenceCostRecorded then
    transitionError "reported cost may be recorded only once per inference"
  else
    match addCost s.reportedCost cost with
    | .error _ => .error ⟨.costOverflow, "reported cost total overflow"⟩
    | .ok total =>
      return { s with reportedCost := some total, activeInferenceCostRecorded := true }

def applyInferenceFinished (s : RunState) (inferenceId : InferenceId) :
    Except ProjectionError RunState := do
  let s ← matchInference s inferenceId "finish has no matching inference"
  if s.messages.any fun m => m.inferenceId == some inferenceId && !m.complete then
    transitionError "inference finished before its assistant content"
  else return s.closeInference

/-- A failed or cancelled inference completes whatever it had begun to say. -/
def applyInferenceAborted (s : RunState) (inferenceId : InferenceId) (message : String) :
    Except ProjectionError RunState := do
  let s ← matchInference s inferenceId message
  return (s.completeMessages (some inferenceId)).closeInference

def visit (s : RunState) (event : RunEvent) : Except ProjectionError RunState :=
  match event.payload with
  | .runStarted started => applyStarted s event started
  | .runProvenanceRecorded provenance => applyProvenance s provenance
  | .personaSelectionRecorded selection => applyPersonaSelection s selection
  | .runAwaitingInput _ => applyAwaitingInput s
  | .runResumed _ => applyResumed s
  | .toolApprovalRequested invocationId _ _ => applyApprovalRequested s invocationId
  | .toolApprovalDecided invocationId _ _ _ => applyApprovalDecided s invocationId
  | .planRevisionProposed _ => applyPlanProposed s
  | .planRevisionDecisionRecorded decision => applyPlanDecision s decision
  | .planRevisionInvalidated _ => applyPlanInvalidated s
  | .runCompleted => applyCompleted s
  | .runFailed _ => applyFailed s
  | .runCancelled _ => applyCancelled s
  | .userContentAdded message => applyUserContent s message
  | .inferenceStarted inferenceId modelId => applyInferenceStarted s inferenceId modelId
  | .inferencePricingObserved inferenceId observation => applyPricing s inferenceId observation
  | .assistantContentStarted messageId inferenceId => applyContentStarted s messageId inferenceId
  | .assistantContentDeltaAdded messageId inferenceId delta =>
    applyContentDelta s messageId inferenceId delta
  | .assistantContentFinished messageId inferenceId =>
    applyContentFinished s messageId inferenceId
  | .reasoningMetadataAdded inferenceId _ _ =>
    matchInference s inferenceId "reasoning metadata has no matching inference"
  | .usageRecorded inferenceId usage => applyUsage s inferenceId usage
  | .inferenceCostRecorded inferenceId cost => applyCost s inferenceId cost
  | .inferenceFinished inferenceId _ => applyInferenceFinished s inferenceId
  | .inferenceFailed inferenceId _ =>
    applyInferenceAborted s inferenceId "failure has no matching inference"
  | .inferenceCancelled inferenceId _ =>
    applyInferenceAborted s inferenceId "cancellation has no matching inference"
  | .unknown _ _ => .ok s
  | _ => requireRunning s

def isUnknown : RunEventPayload → Bool
  | .unknown _ _ => true
  | _ => false

def isRunStarted : RunEventPayload → Bool
  | .runStarted _ => true
  | _ => false

/-- The checks every event passes before its own transition is looked up. -/
def precheck (s : RunState) (event : RunEvent) : Except ProjectionError Unit :=
  if event.metadata.sequence = 0 ∨ event.metadata.schemaVersion = 0 then
    .error ⟨.invalidEnvelope, "event sequence and schema version must be positive"⟩
  else if event.metadata.sequence ≤ s.lastSequence then
    .error ⟨.nonMonotonicSequence, "event sequence did not increase"⟩
  else if s.runId.isSome ∧ s.runId ≠ some event.metadata.runId then
    .error ⟨.wrongRun, "event belongs to another run"⟩
  else if s.runId.isNone && !isRunStarted event.payload && !isUnknown event.payload then
    transitionError "the first known run event must be run.started"
  else if s.status.terminal && !isUnknown event.payload then
    transitionError "known events cannot follow a terminal run event"
  else .ok ()

def applyChecked (s : RunState) (event : RunEvent) : Except ProjectionError RunState := do
  precheck s event
  let t ← visit s event
  return { t with lastSequence := event.metadata.sequence }

def apply (s : RunState) (event : RunEvent) : Except ProjectionError Unit × RunState :=
  match applyChecked s event with
  | .ok t => (.ok (), t)
  | .error err => (.error err, s)

def RunProjectionOf : Projection RunState RunEvent ProjectionError := ⟨{}, apply⟩

structure View where
  status : RunStatus
  pending : Finset InvocationId
  inference : Option InferenceId

def RunState.view (s : RunState) : View := ⟨s.status, s.pendingApprovalIds, s.activeInferenceId⟩

def View.during (v : View) (inferenceId : InferenceId) : Option View :=
  if v.inference = some inferenceId then some v else none

def View.closing (v : View) (inferenceId : InferenceId) : Option View :=
  if v.inference = some inferenceId then some { v with inference := none } else none

def View.ending (v : View) (status : RunStatus) : Option View :=
  if v.status.live then some ⟨status, ∅, none⟩ else none

def View.next (v : View) : RunEventPayload → Option View
  | .runStarted _ => if v.status = .notStarted then some { v with status := .running } else none
  | .runAwaitingInput _ =>
    if (v.status = .running ∨ v.status = .awaitingApproval) ∧ v.inference = none then
      some { v with status := .awaitingInput }
    else none
  | .runResumed _ =>
    if v.status = .awaitingInput then
      some { v with status := if v.pending = ∅ then .running else .awaitingApproval }
    else none
  | .toolApprovalRequested i _ _ =>
    if v.status.live ∧ v.inference = none ∧ i ∉ v.pending then
      some { v with
        status := if v.status = .running then .awaitingApproval else v.status
        pending := insert i v.pending }
    else none
  | .toolApprovalDecided i _ _ _ =>
    if (v.status = .awaitingApproval ∨ v.status = .awaitingInput) ∧ i ∈ v.pending then
      some { v with
        status := if v.status = .awaitingApproval ∧ v.pending.erase i = ∅ then .running
          else v.status
        pending := v.pending.erase i }
    else none
  | .planRevisionProposed _ =>
    if (v.status = .running ∨ v.status = .awaitingPlanRevision) ∧ v.inference = none then
      some { v with status := .awaitingPlanDecision }
    else none
  | .planRevisionDecisionRecorded decision =>
    if v.status = .awaitingPlanDecision then
      some { v with
        status := if decision.decision = .revisionRequested then .awaitingPlanRevision
          else .running }
    else none
  | .planRevisionInvalidated _ =>
    if v.status = .running ∨ v.status = .awaitingPlanDecision then
      some { v with
        status := if v.status = .awaitingPlanDecision then .awaitingPlanRevision else v.status }
    else none
  | .runCompleted =>
    if v.status.live ∧ v.inference = none ∧ v.pending = ∅ then
      some { v with status := .completed }
    else none
  | .runFailed _ => v.ending .failed
  | .runCancelled _ => v.ending .cancelled
  | .inferenceStarted i _ =>
    if v.status = .running ∧ v.inference = none then some { v with inference := some i } else none
  | .inferencePricingObserved i _ => v.during i
  | .assistantContentStarted _ i => v.during i
  | .assistantContentDeltaAdded _ i _ => v.during i
  | .assistantContentFinished _ i => v.during i
  | .reasoningMetadataAdded i _ _ => v.during i
  | .usageRecorded i _ => v.during i
  | .inferenceCostRecorded i _ => v.during i
  | .inferenceFinished i _ => v.closing i
  | .inferenceFailed i _ => v.closing i
  | .inferenceCancelled i _ => v.closing i
  | .unknown _ _ => some v
  | _ => if v.status.live then some v else none

variable {s t : RunState}

theorem requireRunning_ok (h : requireRunning s = .ok t) : s.status.live ∧ t = s := by
  unfold requireRunning at h
  split_ifs at h with hl
  exact ⟨hl, (ok.inj h).symm⟩

theorem matchInference_ok {i : InferenceId} {message : String}
    (h : matchInference s i message = .ok t) : s.activeInferenceId = some i ∧ t = s := by
  unfold matchInference at h
  split_ifs at h with hi
  exact ⟨hi, (ok.inj h).symm⟩

theorem live_bind {f : RunState → Except ProjectionError RunState}
    (h : (requireRunning s >>= f) = .ok t) : s.status.live ∧ f s = .ok t := by
  obtain ⟨u, hu, h⟩ := bind_ok.1 h
  obtain ⟨hl, hus⟩ := requireRunning_ok hu
  rw [hus] at h
  exact ⟨hl, h⟩

theorem during_bind {i : InferenceId} {message : String}
    {f : RunState → Except ProjectionError RunState}
    (h : (matchInference s i message >>= f) = .ok t) :
    s.activeInferenceId = some i ∧ f s = .ok t := by
  obtain ⟨u, hu, h⟩ := bind_ok.1 h
  obtain ⟨hi, hus⟩ := matchInference_ok hu
  rw [hus] at h
  exact ⟨hi, h⟩

variable {event : RunEvent}

theorem visit_view (h : visit s event = .ok t) : s.view.next event.payload = some t.view := by
  unfold visit at h
  cases hp : event.payload <;> rw [hp] at h <;> dsimp only at h
  case runStarted =>
    unfold applyStarted at h
    split_ifs at h with hc
    cases h
    simp_all [View.next, RunState.view]
  case runAwaitingInput =>
    unfold applyAwaitingInput at h
    split_ifs at h with hc
    cases h
    simp_all [View.next, RunState.view]
  case runResumed =>
    unfold applyResumed at h
    split_ifs at h with hc <;> obtain rfl := ok.inj h <;>
    simp_all [View.next, RunState.view]
  case toolApprovalRequested =>
    unfold applyApprovalRequested at h
    split_ifs at h with hc <;> obtain rfl := ok.inj h <;>
    simp_all [View.next, RunState.view]
  case toolApprovalDecided i _ _ _ =>
    unfold applyApprovalDecided at h
    by_cases hw : (s.status = .awaitingApproval ∨ s.status = .awaitingInput) ∧
        i ∈ s.pendingApprovalIds
    · rw [if_neg (by tauto)] at h
      cases h
      simp only [View.next, RunState.view, hw, and_self, if_true, Option.some.injEq, View.mk.injEq,
        and_true]
      congr
    · rw [if_pos (by tauto)] at h
      cases h
  case planRevisionProposed =>
    unfold applyPlanProposed at h
    split_ifs at h with hc
    cases h
    simp_all [View.next, RunState.view]
  case planRevisionDecisionRecorded =>
    unfold applyPlanDecision at h
    split_ifs at h with hc <;> obtain rfl := ok.inj h <;>
    simp_all [View.next, RunState.view]
  case planRevisionInvalidated =>
    unfold applyPlanInvalidated at h
    split_ifs at h with hc <;> obtain rfl := ok.inj h <;>
    simp_all [View.next, RunState.view]
  case inferenceStarted =>
    unfold applyInferenceStarted at h
    split_ifs at h with hc
    cases h
    simp_all [View.next, RunState.view]
  case runProvenanceRecorded | personaSelectionRecorded =>
    obtain ⟨hl, h⟩ := live_bind h
    split_ifs at h
    cases h
    simp [View.next, RunState.view, hl]
  case runCompleted =>
    obtain ⟨hl, h⟩ := live_bind h
    split_ifs at h with hc
    cases h
    simp_all [View.next, RunState.view]
  case runFailed | runCancelled =>
    obtain ⟨hl, h⟩ := live_bind h
    cases h
    simp [View.next, View.ending, RunState.view, hl, RunState.closeInference]
  case userContentAdded =>
    obtain ⟨hl, h⟩ := live_bind h
    split_ifs at h with hc
    cases h
    simp [View.next, RunState.view, hl]
  case inferencePricingObserved | assistantContentStarted =>
    obtain ⟨hi, h⟩ := during_bind h
    split_ifs at h
    cases h
    simp [View.next, View.during, RunState.view, hi]
  case assistantContentDeltaAdded | assistantContentFinished =>
    obtain ⟨hi, h⟩ := during_bind h
    split at h
    · cases h
    · split_ifs at h
      cases h
      simp [View.next, View.during, RunState.view, hi, RunState.changeMessage]
  case usageRecorded =>
    obtain ⟨hi, h⟩ := during_bind h
    split at h
    · cases h
    · cases h
      simp [View.next, View.during, RunState.view, hi]
  case inferenceCostRecorded =>
    obtain ⟨hi, h⟩ := during_bind h
    split_ifs at h
    split at h
    · cases h
    · cases h
      simp [View.next, View.during, RunState.view, hi]
  case reasoningMetadataAdded =>
    obtain ⟨hi, rfl⟩ := matchInference_ok h
    simp [View.next, View.during, RunState.view, hi]
  case inferenceFinished =>
    obtain ⟨hi, h⟩ := during_bind h
    split_ifs at h
    cases h
    simp [View.next, View.closing, RunState.view, hi, RunState.closeInference]
  case inferenceFailed | inferenceCancelled =>
    obtain ⟨hi, h⟩ := during_bind h
    cases h
    simp [View.next, View.closing, RunState.view, hi, RunState.closeInference,
      RunState.completeMessages]
  case unknown =>
    cases h
    rfl
  all_goals
    obtain ⟨hl, rfl⟩ := requireRunning_ok h
    simp [View.next, RunState.view, hl]

/-- The events that add, extend or close messages. -/
def writesMessages : RunEventPayload → Bool
  | .userContentAdded _ | .assistantContentStarted _ _ | .assistantContentDeltaAdded _ _ _
  | .assistantContentFinished _ _ | .inferenceFailed _ _ | .inferenceCancelled _ _
  | .runCancelled _ => true
  | _ => false

/-- What a run is, what it has used and what was said in it changes only with events about it. -/
structure Framed (s t : RunState) (payload : RunEventPayload) : Prop where
  runId : isRunStarted payload = false → t.runId = s.runId
  usage : (∀ i usage, payload ≠ .usageRecorded i usage) → t.usage = s.usage
  messages : writesMessages payload = false → t.messages = s.messages

theorem Framed.other {payload : RunEventPayload} (hrun : t.runId = s.runId)
    (huse : t.usage = s.usage) (hmsg : t.messages = s.messages) : Framed s t payload :=
  ⟨fun _ => hrun, fun _ => huse, fun _ => hmsg⟩

theorem Framed.said {payload : RunEventPayload}
    (hwrit : writesMessages payload) (hrun : t.runId = s.runId)
    (huse : t.usage = s.usage) : Framed s t payload :=
  ⟨fun _ => hrun, fun _ => huse, fun hquiet => absurd hwrit (by simp [hquiet])⟩

theorem visit_framed (h : visit s event = .ok t) : Framed s t event.payload := by
  unfold visit at h
  cases hp : event.payload <;> rw [hp] at h <;> dsimp only at h
  case runStarted =>
    simp only [applyStarted] at h
    split at h
    · cases h
    · cases h
      exact ⟨nofun, fun _ => rfl, fun _ => rfl⟩
  case runAwaitingInput | runResumed | toolApprovalRequested | toolApprovalDecided |
      planRevisionProposed | planRevisionDecisionRecorded | planRevisionInvalidated |
      inferenceStarted =>
    simp only [applyAwaitingInput, applyResumed, applyApprovalRequested, applyApprovalDecided,
      applyPlanProposed, applyPlanDecision, applyPlanInvalidated, applyInferenceStarted] at h
    split at h
    · cases h
    · first
      | obtain rfl := ok.inj h
        exact .other rfl rfl rfl
      | split at h
        · cases h
        · cases h
          exact .other rfl rfl rfl
  case runProvenanceRecorded | personaSelectionRecorded | runCompleted | userContentAdded =>
    obtain ⟨-, h⟩ := live_bind h
    split_ifs at h
    cases h
    first
    | exact .other rfl rfl rfl
    | exact .said rfl rfl rfl
  case runFailed | runCancelled =>
    obtain ⟨-, h⟩ := live_bind h
    cases h
    first
    | exact .other rfl rfl rfl
    | exact .said rfl rfl rfl
  case inferencePricingObserved | assistantContentStarted | inferenceFinished =>
    obtain ⟨-, h⟩ := during_bind h
    split_ifs at h
    cases h
    first
    | exact .other rfl rfl rfl
    | exact .said rfl rfl rfl
  case inferenceFailed | inferenceCancelled =>
    obtain ⟨-, h⟩ := during_bind h
    cases h
    exact .said rfl rfl rfl
  case assistantContentDeltaAdded | assistantContentFinished =>
    obtain ⟨-, h⟩ := during_bind h
    split at h
    · cases h
    · split_ifs at h
      cases h
      exact .said rfl rfl rfl
  case usageRecorded =>
    obtain ⟨-, h⟩ := during_bind h
    split at h
    · cases h
    · cases h
      exact ⟨fun _ => rfl, fun hne => absurd rfl (hne _ _), fun _ => rfl⟩
  case inferenceCostRecorded =>
    obtain ⟨-, h⟩ := during_bind h
    split_ifs at h
    split at h
    · cases h
    · cases h
      exact .other rfl rfl rfl
  case reasoningMetadataAdded =>
    obtain ⟨-, rfl⟩ := matchInference_ok h
    exact .other rfl rfl rfl
  case unknown =>
    cases h
    exact .other rfl rfl rfl
  all_goals
    obtain ⟨-, rfl⟩ := requireRunning_ok h
    exact .other rfl rfl rfl

theorem precheck_ok (h : precheck s event = .ok ()) : s.lastSequence < event.metadata.sequence ∧
      (s.runId = none ∨ s.runId = some event.metadata.runId) ∧
      (s.runId = none → isRunStarted event.payload ∨ isUnknown event.payload) ∧
      (s.status.terminal → isUnknown event.payload) := by
  unfold precheck at h
  split_ifs at h with h₁ h₂ h₃ h₄ h₅
  refine ⟨by omega, ?_, ?_, ?_⟩
  · cases hr : s.runId with
    | none => exact .inl rfl
    | some => simp_all
  · intro hn
    cases hp : isRunStarted event.payload <;> simp_all
  · intro ht
    simp_all

section

variable (h : applyChecked s event = .ok t)

include h

theorem applyChecked_ok :
    precheck s event = .ok () ∧ ∃ u, visit s event = .ok u ∧
      t = { u with lastSequence := event.metadata.sequence } := by
  obtain ⟨_, ha, h⟩ := bind_ok.1 h
  obtain ⟨u, hu, h⟩ := bind_ok.1 h
  exact ⟨ha, u, hu, (ok.inj h).symm⟩

/-- How an accepted event moves what the run waits for. -/
theorem applyChecked_view : s.view.next event.payload = some t.view := by
  obtain ⟨-, u, hu, rfl⟩ := applyChecked_ok h
  have hv := visit_view hu
  exact hv

/-- Once a run has ended no event the program knows is accepted for it. -/
theorem applyChecked_terminal (hs : s.status.terminal) : isUnknown event.payload := by
  obtain ⟨ha, -⟩ := applyChecked_ok h
  exact (precheck_ok ha).2.2.2 hs

end

end RunProjection
