import AiForge.EventProjection
import AiForge.Events
import AiForge.Staged

/-! # Video runs

A video run generates a video with a provider or has one transcribed. The projection folds the
events of one run into its lifecycle; each event is checked against the request, the job and
the counters that the events before it established. -/
namespace Video

open Content EventProjection Events SafeText Money Staged

abbrev VideoOperationId := String
abbrev VideoJobId := String

structure VideoGenerationSpec where
  modelId : ModelId
  prompt : Bytes
  /-- In seconds. -/
  duration : ℤ
  deriving DecidableEq

/-- A cast can make a state that is none of the enumerators. -/
inductive VideoJobState where
  | queued | processing | completed | failed
  | outOfRange (value : ℕ)
  deriving DecidableEq

structure ArtifactMetadata where
  artifactId : ArtifactId
  mediaType : String
  byteSize : ℕ
  digest : String
  producingInvocationId : Option InvocationId
  (width height : Option ℕ)
  producingInferenceId : Option InferenceId
  deriving DecidableEq

structure VideoGenerationRequested where
  operationId : VideoOperationId
  spec : VideoGenerationSpec
  artifactId : ArtifactId
  deriving DecidableEq

structure VideoQuoteObserved where
  operationId : VideoOperationId
  quote : MonetaryAmount
  deriving DecidableEq

structure VideoJobQueued where
  operationId : VideoOperationId
  jobId : VideoJobId
  deriving DecidableEq

structure VideoJobStatusObserved where
  operationId : VideoOperationId
  jobId : VideoJobId
  pollNumber : ℕ
  state : VideoJobState
  deriving DecidableEq

structure VideoArtifactPublished where
  operationId : VideoOperationId
  jobId : VideoJobId
  artifact : ArtifactMetadata
  deriving DecidableEq

/-- One numbered attempt to clean up; the pending and the completed attempt have its shape. -/
structure VideoCleanupAttempt where
  operationId : VideoOperationId
  jobId : VideoJobId
  attempt : ℕ
  deriving DecidableEq

structure VideoTranscriptionRequested where
  operationId : VideoOperationId
  modelId : ModelId
  deriving DecidableEq

structure VideoTranscriptionObserved where
  operationId : VideoOperationId
  text : Bytes
  language : Option Bytes
  deriving DecidableEq

/-- The payloads a video run is made of. `other` stands for every further known kind. -/
inductive VideoPayload where
  | runStarted (started : RunStarted)
  | generationRequested (requested : VideoGenerationRequested)
  | transcriptionRequested (requested : VideoTranscriptionRequested)
  | quoteObserved (observed : VideoQuoteObserved)
  | jobQueued (queued : VideoJobQueued)
  | jobStatusObserved (status : VideoJobStatusObserved)
  | artifactCreated (artifact : ArtifactMetadata)
  | artifactPublished (published : VideoArtifactPublished)
  | cleanupPending (pending : VideoCleanupAttempt)
  | cleanupCompleted (completed : VideoCleanupAttempt)
  | cleanupFailed (failed : VideoCleanupAttempt) (error : DomainError)
  | transcriptionObserved (observed : VideoTranscriptionObserved)
  | runCancelRequested (reason : Option String)
  | runCancelled (reason : Option String)
  | runFailed (error : DomainError)
  | runCompleted
  | other (encoded : String)
  | unknown (encoded : String)
  deriving DecidableEq

structure VideoEvent where
  metadata : EventMetadata
  payload : VideoPayload
  deriving DecidableEq

def VideoPayload.known : VideoPayload → Bool
  | .unknown _ => false
  | _ => true

def maximumVideoPromptBytes : ℕ := 1024 * 1024
def maximumVideoTranscriptionBytes : ℕ := 1024 * 1024
def maximumVideoLanguageBytes : ℕ := 128
def maximumVideoDuration : ℤ := 3600
def uint32Max : ℕ := 2 ^ 32 - 1

/-- The payload bits and the length that a lead byte announces. -/
def utf8Lead (first : UInt8) : Option Utf8Codepoint :=
  if first = 0 then none
  else if first ≤ 0x7f then some ⟨first.toNat, 1⟩
  else if first &&& 0xe0 = 0xc0 then
    if first &&& 0x1f < 2 then none else some ⟨(first &&& 0x1f).toNat, 2⟩
  else if first &&& 0xf0 = 0xe0 then some ⟨(first &&& 0x0f).toNat, 3⟩
  else if first &&& 0xf8 = 0xf0 then some ⟨(first &&& 0x07).toNat, 4⟩
  else none

def scalarValue (length codepoint : ℕ) : Bool :=
  !((length == 3 && codepoint < 0x800) || (length == 4 && codepoint < 0x10000) ||
    (0xd800 ≤ codepoint && codepoint ≤ 0xdfff) || 0x10ffff < codepoint)

/-- Every step consumes a byte, so the length of the text is enough fuel. -/
def utf8Scan : ℕ → Bytes → Bool
  | _, [] => true
  | 0, _ :: _ => false
  | fuel + 1, first :: rest =>
    match utf8Lead first with
    | none => false
    | some lead =>
      lead.bytes ≤ rest.length + 1 &&
        ((continuation (rest.take (lead.bytes - 1)) lead.value).any (scalarValue lead.bytes)) &&
        utf8Scan fuel (rest.drop (lead.bytes - 1))

def validUtf8 (value : Bytes) : Bool := utf8Scan value.length value

def validTextControls (value : Bytes) : Bool :=
  value.all fun c => !((c < 0x20 && c != '\n'.toUInt8 && c != '\t'.toUInt8) || c == 0x7f)

def validLanguageControls (value : Bytes) : Bool := value.all fun c => !(c ≤ 0x20 || c == 0x7f)

def digestText (digest : String) : Bool :=
  digest.startsWith "sha256:" && digest.utf8ByteSize == 71 &&
    (digest.toList.drop 7).all fun c => ('0' ≤ c && c ≤ '9') || ('a' ≤ c && c ≤ 'f')

def validArtifact (artifact : ArtifactMetadata) : Bool :=
  artifact.mediaType == "video/mp4" && artifact.byteSize != 0 && digestText artifact.digest &&
    artifact.producingInvocationId.isNone && artifact.producingInferenceId.isNone &&
    artifact.width.isNone && artifact.height.isNone

def validateVideoJobState : VideoJobState → Bool
  | .outOfRange _ => false
  | _ => true

def validateVideoGenerationSpec (spec : VideoGenerationSpec) : Bool :=
  !spec.prompt.isEmpty && spec.prompt.length ≤ maximumVideoPromptBytes && validUtf8 spec.prompt &&
    validTextControls spec.prompt && 0 < spec.duration && spec.duration ≤ maximumVideoDuration

def validateVideoTranscription (observation : VideoTranscriptionObserved) : Bool :=
  !observation.text.isEmpty && observation.text.length ≤ maximumVideoTranscriptionBytes &&
    validUtf8 observation.text && validTextControls observation.text &&
    observation.language.all fun language =>
      !language.isEmpty && language.length ≤ maximumVideoLanguageBytes && validUtf8 language &&
        validLanguageControls language

inductive VideoWorkflow where
  | none | generation | transcription
  deriving DecidableEq

inductive VideoLifecycleState where
  | notStarted | requested | quoted | queued | processing | mediaReady | jobFailed | published
  | cleanupPending | cleanupFailed | cleanupCompleted | transcriptionObserved | completed | failed
  | cancelled
  deriving DecidableEq

inductive VideoProjectionErrorCode where
  | invalidEnvelope | duplicateEvent | wrongRun | missingRun | nonMonotonicSequence
  | invalidTransition | mismatchedOperation | mismatchedJob | invalidValue | internalFailure

structure VideoProjectionError where
  code : VideoProjectionErrorCode
  message : String

def VideoLifecycleState.terminal : VideoLifecycleState → Bool
  | .completed | .failed | .cancelled => true
  | _ => false

/-- The states of a run whose video is published or whose transcription is observed. -/
def VideoLifecycleState.succeeding : VideoLifecycleState → Bool
  | .published | .cleanupPending | .cleanupFailed | .cleanupCompleted |
    .transcriptionObserved => true
  | _ => false

structure VideoProjection where
  sessionId : Option SessionId := none
  runId : Option RunId := none
  startedAt : Option EventTimestamp := none
  attributes : Option RunStarted := none
  workflow : VideoWorkflow := .none
  state : VideoLifecycleState := .notStarted
  generationRequest : Option VideoGenerationRequested := none
  transcriptionRequest : Option VideoTranscriptionRequested := none
  quote : Option MonetaryAmount := none
  jobId : Option VideoJobId := none
  (stagedArtifact artifact : Option ArtifactMetadata := none)
  transcription : Option VideoTranscriptionObserved := none
  (lastPollNumber cleanupAttempt : ℕ := 0)
  cancelRequested : Bool := false
  lastSequence : ℕ := 0

abbrev Result := Except VideoProjectionError

def invalidTransition (message : String) : VideoProjectionError := ⟨.invalidTransition, message⟩
def invalidValue (message : String) : VideoProjectionError := ⟨.invalidValue, message⟩
def mismatchedOperation (message : String) : VideoProjectionError :=
  ⟨.mismatchedOperation, message⟩
def mismatchedJob (message : String) : VideoProjectionError := ⟨.mismatchedJob, message⟩

/-- An event of the provider's operation names the operation that was requested. -/
def requireOperation (s : VideoProjection) (operationId : VideoOperationId) (message : String) :
    Result PUnit :=
  ensure ((s.generationRequest.any fun request => request.operationId == operationId) = true)
    (mismatchedOperation message)

def requireJob (s : VideoProjection) (jobId : VideoJobId) (message : String) : Result PUnit :=
  ensure (s.jobId = some jobId) (mismatchedJob message)

def startRun (s : VideoProjection) (metadata : EventMetadata) (started : RunStarted) :
    Result VideoProjection := do
  ensure (s.runId = none ∧ s.state = .notStarted)
    (invalidTransition "video run may start only once")
  return { s with
    runId := some metadata.runId
    startedAt := some metadata.timestamp
    attributes := some started }

def requestGeneration (s : VideoProjection) (requested : VideoGenerationRequested) :
    Result VideoProjection := do
  ensure (s.workflow = .none ∧ s.state = .notStarted ∧
      validateVideoGenerationSpec requested.spec)
    (invalidValue "video generation request is invalid")
  return { s with
    workflow := .generation
    generationRequest := some requested
    state := .requested }

def requestTranscription (s : VideoProjection) (requested : VideoTranscriptionRequested) :
    Result VideoProjection := do
  ensure (s.workflow = .none ∧ s.state = .notStarted)
    (invalidTransition "video transcription request is out of order")
  return { s with
    workflow := .transcription
    transcriptionRequest := some requested
    state := .requested }

def observeQuote (s : VideoProjection) (observed : VideoQuoteObserved) :
    Result VideoProjection := do
  requireOperation s observed.operationId "video quote operation does not match"
  ensure (s.state = .requested ∧ s.quote = none)
    (invalidTransition "video quote is repeated or out of order")
  return { s with quote := some observed.quote, state := .quoted }

def queueJob (s : VideoProjection) (queued : VideoJobQueued) : Result VideoProjection := do
  requireOperation s queued.operationId "queued video operation does not match"
  ensure (s.state = .quoted ∧ s.jobId = none)
    (invalidTransition "queued video job is repeated or out of order")
  return { s with jobId := some queued.jobId, state := .queued }

def lifecycleOf : VideoJobState → VideoLifecycleState → VideoLifecycleState
  | .queued, _ => .queued
  | .processing, _ => .processing
  | .completed, _ => .mediaReady
  | .failed, _ => .jobFailed
  | .outOfRange _, before => before

def observeStatus (s : VideoProjection) (status : VideoJobStatusObserved) :
    Result VideoProjection := do
  requireOperation s status.operationId "video status operation does not match"
  requireJob s status.jobId "video status job does not match"
  ensure (validateVideoJobState status.state)
    (invalidValue "video status state is invalid")
  ensure (s.lastPollNumber ≠ uint32Max ∧ status.pollNumber = s.lastPollNumber + 1)
    (invalidValue "video poll number is not consecutive")
  ensure (s.state = .queued ∨ s.state = .processing)
    (invalidTransition "video status is out of order")
  ensure (¬ (s.state = .processing ∧ status.state = .queued))
    (invalidTransition "video status regressed")
  return { s with
    lastPollNumber := status.pollNumber
    state := lifecycleOf status.state s.state }

def createArtifact (s : VideoProjection) (artifact : ArtifactMetadata) :
    Result VideoProjection := do
  ensure (s.state = .mediaReady ∧ s.stagedArtifact = none ∧
      (s.generationRequest.any fun request => artifact.artifactId == request.artifactId) = true ∧
      validArtifact artifact = true)
    (invalidValue "video artifact creation is invalid")
  return { s with stagedArtifact := some artifact }

def publishArtifact (s : VideoProjection) (published : VideoArtifactPublished) :
    Result VideoProjection := do
  requireOperation s published.operationId "video publication operation does not match"
  requireJob s published.jobId "video publication job does not match"
  ensure (s.state = .mediaReady ∧ s.stagedArtifact = some published.artifact)
    (invalidTransition "video publication is out of order")
  return { s with
    artifact := some published.artifact
    stagedArtifact := none
    state := .published }

def cleanupPending (s : VideoProjection) (pending : VideoCleanupAttempt) :
    Result VideoProjection := do
  requireOperation s pending.operationId "video cleanup operation does not match"
  requireJob s pending.jobId "video cleanup job does not match"
  ensure ((s.state = .published ∨ s.state = .cleanupFailed) ∧ s.cleanupAttempt ≠ uint32Max ∧
      pending.attempt = s.cleanupAttempt + 1)
    (invalidTransition "video cleanup attempt is out of order")
  return { s with cleanupAttempt := pending.attempt, state := .cleanupPending }

def cleanupCompleted (s : VideoProjection) (completed : VideoCleanupAttempt) :
    Result VideoProjection := do
  requireOperation s completed.operationId "video cleanup operation does not match"
  requireJob s completed.jobId "video cleanup job does not match"
  ensure (s.state = .cleanupPending ∧ completed.attempt = s.cleanupAttempt)
    (invalidTransition "video cleanup completion is out of order")
  return { s with state := .cleanupCompleted }

def cleanupFailed (s : VideoProjection) (failed : VideoCleanupAttempt) (error : DomainError) :
    Result VideoProjection := do
  requireOperation s failed.operationId "video cleanup operation does not match"
  requireJob s failed.jobId "video cleanup job does not match"
  ensure (s.state = .cleanupPending ∧ failed.attempt = s.cleanupAttempt ∧ error.retryable)
    (invalidTransition "video cleanup failure is invalid")
  return { s with state := .cleanupFailed }

def observeTranscription (s : VideoProjection) (observed : VideoTranscriptionObserved) :
    Result VideoProjection := do
  ensure ((s.transcriptionRequest.any fun request =>
      request.operationId == observed.operationId) = true)
    (mismatchedOperation "video transcription operation does not match")
  ensure (s.state = .requested ∧ validateVideoTranscription observed)
    (invalidValue "video transcription is invalid")
  return { s with transcription := some observed, state := .transcriptionObserved }

def requestCancel (s : VideoProjection) : Result VideoProjection := do
  ensure (s.workflow ≠ .none ∧ s.cancelRequested = false ∧ s.state.succeeding = false)
    (invalidTransition "video cancellation is out of order")
  return { s with cancelRequested := true }

def cancelRun (s : VideoProjection) : Result VideoProjection := do
  ensure (s.cancelRequested) (invalidTransition "video cancellation was not requested")
  return { s with state := .cancelled }

def failRun (s : VideoProjection) : Result VideoProjection := do
  ensure (s.workflow ≠ .none ∧ s.state.succeeding = false)
    (invalidTransition "published video run cannot fail")
  return { s with state := .failed }

def completeRun (s : VideoProjection) : Result VideoProjection := do
  ensure (s.state = .cleanupCompleted ∨ s.state = .transcriptionObserved)
    (invalidTransition "video run completed before durable success")
  return { s with state := .completed }

def VideoPayload.isStart : VideoPayload → Bool
  | .runStarted _ => true
  | _ => false

def VideoPayload.isCancelled : VideoPayload → Bool
  | .runCancelled _ => true
  | _ => false

def VideoPayload.isFailed : VideoPayload → Bool
  | .runFailed _ => true
  | _ => false

def visit (s : VideoProjection) (event : VideoEvent) : Result VideoProjection := do
  ensure (event.payload.isStart ∨ s.runId ≠ none)
    (invalidTransition "video run must start first")
  match event.payload with
  | .runStarted started => startRun s event.metadata started
  | .generationRequested requested => requestGeneration s requested
  | .transcriptionRequested requested => requestTranscription s requested
  | .quoteObserved observed => observeQuote s observed
  | .jobQueued queued => queueJob s queued
  | .jobStatusObserved status => observeStatus s status
  | .artifactCreated artifact => createArtifact s artifact
  | .artifactPublished published => publishArtifact s published
  | .cleanupPending pending => cleanupPending s pending
  | .cleanupCompleted completed => cleanupCompleted s completed
  | .cleanupFailed failed error => cleanupFailed s failed error
  | .transcriptionObserved observed => observeTranscription s observed
  | .runCancelRequested _ => requestCancel s
  | .runCancelled _ => cancelRun s
  | .runFailed _ => failRun s
  | .runCompleted => completeRun s
  | .other _ | .unknown _ => throw (invalidTransition "event is not valid in a video run")

def checkEnvelope (s : VideoProjection) (event : VideoEvent) : Result PUnit := do
  ensure (event.metadata.sequence ≠ 0 ∧ event.metadata.schemaVersion ≠ 0)
    ⟨.invalidEnvelope, "video event envelope is invalid"⟩
  ensure (s.lastSequence < event.metadata.sequence)
    ⟨.nonMonotonicSequence, "video event sequence did not increase"⟩
  ensure ((s.runId.all fun runId => runId == event.metadata.runId) = true)
    ⟨.wrongRun, "video event belongs to another run"⟩

def checkMode (s : VideoProjection) (event : VideoEvent) : Result PUnit := do
  ensure (s.cancelRequested = false ∨ event.payload.isCancelled)
    (invalidTransition "known event followed cancellation request")
  ensure (s.state ≠ .jobFailed ∨ event.payload.isFailed)
    (invalidTransition "known event followed failed video status")
  ensure (s.state.terminal = false) (invalidTransition "known event followed terminal video run")

def applyInPlace (s : VideoProjection) (event : VideoEvent) : Result VideoProjection := do
  checkEnvelope s event
  if event.payload.known then
    checkMode s event
    let next ← visit s event
    return { next with lastSequence := event.metadata.sequence }
  else return { s with lastSequence := event.metadata.sequence }

/-- An event is applied to a copy that takes the place of the projection when it is accepted. -/
def videoProjection : Projection VideoProjection VideoEvent VideoProjectionError where
  initial := {}
  apply s event :=
    match applyInPlace s event with
    | .ok next => (.ok (), next)
    | .error error => (.error error, s)

variable {s t : VideoProjection} {event : VideoEvent}

def Operates (s : VideoProjection) (operationId : VideoOperationId) : Prop :=
  ∃ request, s.generationRequest = some request ∧ request.operationId = operationId

/-- The accepted moves of a run, one for each kind of event, with all their guards. -/
inductive Transition (s : VideoProjection) (metadata : EventMetadata) :
    VideoPayload → VideoProjection → Prop where
  | start (started : RunStarted) (hrun : s.runId = none) (hstate : s.state = .notStarted) :
      Transition s metadata (.runStarted started)
        { s with
          runId := some metadata.runId
          startedAt := some metadata.timestamp
          attributes := some started }
  | requestGeneration (requested : VideoGenerationRequested) (hworkflow : s.workflow = .none)
      (hstate : s.state = .notStarted)
      (hspec : validateVideoGenerationSpec requested.spec) :
      Transition s metadata (.generationRequested requested)
        { s with
          workflow := .generation
          generationRequest := some requested
          state := .requested }
  | requestTranscription (requested : VideoTranscriptionRequested) (hworkflow : s.workflow = .none)
      (hstate : s.state = .notStarted) :
      Transition s metadata (.transcriptionRequested requested)
        { s with
          workflow := .transcription
          transcriptionRequest := some requested
          state := .requested }
  | quote (observed : VideoQuoteObserved) (hoperation : Operates s observed.operationId)
      (hstate : s.state = .requested) (hquote : s.quote = none) :
      Transition s metadata (.quoteObserved observed)
        { s with quote := some observed.quote, state := .quoted }
  | queue (queued : VideoJobQueued) (hoperation : Operates s queued.operationId)
      (hstate : s.state = .quoted) (hjob : s.jobId = none) :
      Transition s metadata (.jobQueued queued)
        { s with jobId := some queued.jobId, state := .queued }
  | status (status : VideoJobStatusObserved) (hoperation : Operates s status.operationId)
      (hjob : s.jobId = some status.jobId) (hvalid : validateVideoJobState status.state)
      (hpoll : status.pollNumber = s.lastPollNumber + 1)
      (hstate : s.state = .queued ∨ s.state = .processing)
      (hforward : ¬ (s.state = .processing ∧ status.state = .queued)) :
      Transition s metadata (.jobStatusObserved status)
        { s with
          lastPollNumber := status.pollNumber
          state := lifecycleOf status.state s.state }
  | create (artifact : ArtifactMetadata) (hstate : s.state = .mediaReady)
      (hstaged : s.stagedArtifact = none) {request : VideoGenerationRequested}
      (hrequest : s.generationRequest = some request)
      (hid : artifact.artifactId = request.artifactId) (hvalid : validArtifact artifact) :
      Transition s metadata (.artifactCreated artifact) { s with stagedArtifact := some artifact }
  | publish (published : VideoArtifactPublished) (hoperation : Operates s published.operationId)
      (hjob : s.jobId = some published.jobId) (hstate : s.state = .mediaReady)
      (hstaged : s.stagedArtifact = some published.artifact) :
      Transition s metadata (.artifactPublished published)
        { s with
          artifact := some published.artifact
          stagedArtifact := none
          state := .published }
  | pending (pending : VideoCleanupAttempt) (hoperation : Operates s pending.operationId)
      (hjob : s.jobId = some pending.jobId)
      (hstate : s.state = .published ∨ s.state = .cleanupFailed)
      (hattempt : pending.attempt = s.cleanupAttempt + 1) :
      Transition s metadata (.cleanupPending pending)
        { s with cleanupAttempt := pending.attempt, state := .cleanupPending }
  | cleaned (completed : VideoCleanupAttempt) (hoperation : Operates s completed.operationId)
      (hjob : s.jobId = some completed.jobId) (hstate : s.state = .cleanupPending)
      (hattempt : completed.attempt = s.cleanupAttempt) :
      Transition s metadata (.cleanupCompleted completed) { s with state := .cleanupCompleted }
  | cleanupFailed (failed : VideoCleanupAttempt) (error : DomainError)
      (hoperation : Operates s failed.operationId) (hjob : s.jobId = some failed.jobId)
      (hstate : s.state = .cleanupPending) (hattempt : failed.attempt = s.cleanupAttempt)
      (hretryable : error.retryable) :
      Transition s metadata (.cleanupFailed failed error) { s with state := .cleanupFailed }
  | transcribe (observed : VideoTranscriptionObserved) {request : VideoTranscriptionRequested}
      (hrequest : s.transcriptionRequest = some request)
      (hoperation : request.operationId = observed.operationId) (hstate : s.state = .requested)
      (hvalid : validateVideoTranscription observed) :
      Transition s metadata (.transcriptionObserved observed)
        { s with transcription := some observed, state := .transcriptionObserved }
  | requestCancel (reason : Option String) (hworkflow : s.workflow ≠ .none)
      (hrequested : s.cancelRequested = false) (hstate : s.state.succeeding = false) :
      Transition s metadata (.runCancelRequested reason) { s with cancelRequested := true }
  | cancel (reason : Option String) (hrequested : s.cancelRequested) :
      Transition s metadata (.runCancelled reason) { s with state := .cancelled }
  | fail (error : DomainError) (hworkflow : s.workflow ≠ .none)
      (hstate : s.state.succeeding = false) :
      Transition s metadata (.runFailed error) { s with state := .failed }
  | complete (hstate : s.state = .cleanupCompleted ∨ s.state = .transcriptionObserved) :
      Transition s metadata .runCompleted { s with state := .completed }

variable {message : String} {u : PUnit}

theorem requireOperation_ok {operationId : VideoOperationId} :
    requireOperation s operationId message = .ok u ↔ Operates s operationId := by
  unfold requireOperation Operates
  rw [ensure_ok]
  cases s.generationRequest with
  | none | some => simp

theorem requireJob_ok {jobId : VideoJobId} :
    requireJob s jobId message = .ok u ↔ s.jobId = some jobId := by
  exact ensure_ok

theorem operated {operationId : VideoOperationId} {α : Type} {rest : Result α}
    {value : α} (h : (do requireOperation s operationId message; rest) = .ok value) :
    Operates s operationId ∧ rest = .ok value := by
  obtain ⟨_, hc, hrest⟩ := bind_ok.1 h
  exact ⟨requireOperation_ok.1 hc, hrest⟩

theorem jobbed {jobId : VideoJobId} {α : Type} {rest : Result α} {value : α}
    (h : (do requireJob s jobId message; rest) = .ok value) :
    s.jobId = some jobId ∧ rest = .ok value := by
  obtain ⟨_, hc, hrest⟩ := bind_ok.1 h
  exact ⟨requireJob_ok.1 hc, hrest⟩

theorem visit_transition (h : visit s event = .ok t) :
    Transition s event.metadata event.payload t := by
  obtain ⟨_, h⟩ := guarded h
  cases hp : event.payload with
  | runStarted started =>
    rw [hp] at h
    obtain ⟨⟨hrun, hst⟩, h⟩ := guarded h
    cases h
    exact .start started hrun hst
  | generationRequested requested =>
    rw [hp] at h
    obtain ⟨⟨hflow, hst, hspec⟩, h⟩ := guarded h
    cases h
    exact .requestGeneration requested hflow hst hspec
  | transcriptionRequested requested =>
    rw [hp] at h
    obtain ⟨⟨hflow, hst⟩, h⟩ := guarded h
    cases h
    exact .requestTranscription requested hflow hst
  | quoteObserved observed =>
    rw [hp] at h
    obtain ⟨hop, h⟩ := operated h
    obtain ⟨⟨hst, hquote⟩, h⟩ := guarded h
    cases h
    exact .quote observed hop hst hquote
  | jobQueued queued =>
    rw [hp] at h
    obtain ⟨hop, h⟩ := operated h
    obtain ⟨⟨hst, hjob⟩, h⟩ := guarded h
    cases h
    exact .queue queued hop hst hjob
  | jobStatusObserved status =>
    rw [hp] at h
    obtain ⟨hop, h⟩ := operated h
    obtain ⟨hjob, h⟩ := jobbed h
    obtain ⟨hval, h⟩ := guarded h
    obtain ⟨⟨_, hpoll⟩, h⟩ := guarded h
    obtain ⟨hst, h⟩ := guarded h
    obtain ⟨hfwd, h⟩ := guarded h
    cases h
    exact .status status hop hjob hval hpoll hst hfwd
  | artifactCreated artifact =>
    rw [hp] at h
    obtain ⟨⟨hst, hstg, hid, hval⟩, h⟩ := guarded h
    cases h
    obtain ⟨_, hreq, hsame⟩ := (Option.any_eq_true _ _).1 hid
    exact .create artifact hst hstg hreq (eq_of_beq hsame) hval
  | artifactPublished published =>
    rw [hp] at h
    obtain ⟨hop, h⟩ := operated h
    obtain ⟨hjob, h⟩ := jobbed h
    obtain ⟨⟨hst, hstg⟩, h⟩ := guarded h
    cases h
    exact .publish published hop hjob hst hstg
  | cleanupPending pending =>
    rw [hp] at h
    obtain ⟨hop, h⟩ := operated h
    obtain ⟨hjob, h⟩ := jobbed h
    obtain ⟨⟨hst, _, hatt⟩, h⟩ := guarded h
    cases h
    exact .pending pending hop hjob hst hatt
  | cleanupCompleted completed =>
    rw [hp] at h
    obtain ⟨hop, h⟩ := operated h
    obtain ⟨hjob, h⟩ := jobbed h
    obtain ⟨⟨hst, hatt⟩, h⟩ := guarded h
    cases h
    exact .cleaned completed hop hjob hst hatt
  | cleanupFailed failed error =>
    rw [hp] at h
    obtain ⟨hop, h⟩ := operated h
    obtain ⟨hjob, h⟩ := jobbed h
    obtain ⟨⟨hst, hatt, hretryable⟩, h⟩ := guarded h
    cases h
    exact .cleanupFailed failed error hop hjob hst hatt hretryable
  | transcriptionObserved observed =>
    rw [hp] at h
    obtain ⟨hop, h⟩ := guarded h
    obtain ⟨⟨hst, hval⟩, h⟩ := guarded h
    cases h
    obtain ⟨_, hreq, hsame⟩ := (Option.any_eq_true _ _).1 hop
    exact .transcribe observed hreq (eq_of_beq hsame) hst hval
  | runCancelRequested reason =>
    rw [hp] at h
    obtain ⟨⟨hflow, hrequested, hst⟩, h⟩ := guarded h
    cases h
    exact .requestCancel reason hflow hrequested hst
  | runCancelled reason =>
    rw [hp] at h
    obtain ⟨hrequested, h⟩ := guarded h
    cases h
    exact .cancel reason hrequested
  | runFailed error =>
    rw [hp] at h
    obtain ⟨⟨hflow, hst⟩, h⟩ := guarded h
    cases h
    exact .fail error hflow hst
  | runCompleted =>
    rw [hp] at h
    obtain ⟨hst, h⟩ := guarded h
    cases h
    exact .complete hst
  | other | unknown =>
    rw [hp] at h
    cases h

/-- The run is in no mode that waits for an event of another kind. -/
structure Free (s : VideoProjection) (payload : VideoPayload) : Prop where
  cancelling : s.cancelRequested = false ∨ payload.isCancelled
  failing : s.state ≠ .jobFailed ∨ payload.isFailed
  running : s.state.terminal = false

structure Enveloped (s : VideoProjection) (event : VideoEvent) : Prop where
  sequence : event.metadata.sequence ≠ 0
  schemaVersion : event.metadata.schemaVersion ≠ 0
  later : s.lastSequence < event.metadata.sequence
  run : ∀ runId, s.runId = some runId → runId = event.metadata.runId

/-- An accepted event is recorded as unknown, or moves the run. -/
inductive Step (s : VideoProjection) (event : VideoEvent) : VideoProjection → Prop where
  | skipped (hunknown : event.payload.known = false) :
      Step s event { s with lastSequence := event.metadata.sequence }
  | moved (hknown : event.payload.known) (hfree : Free s event.payload)
      {next : VideoProjection} (hmove : Transition s event.metadata event.payload next)
      (hstarted : event.payload.isStart ∨ s.runId ≠ none) :
      Step s event { next with lastSequence := event.metadata.sequence }

theorem enveloped_of_check (h : checkEnvelope s event = .ok u) : Enveloped s event := by
  obtain ⟨⟨hseq, hver⟩, h⟩ := guarded h
  obtain ⟨hlat, h⟩ := guarded h
  have hrun := ensure_ok.1 h
  refine ⟨hseq, hver, hlat, ?_⟩
  intro runId hsome
  simpa [hsome] using hrun

theorem free_of_check (h : checkMode s event = .ok u) : Free s event.payload := by
  obtain ⟨hcancelling, h⟩ := guarded h
  obtain ⟨hfailing, h⟩ := guarded h
  exact ⟨hcancelling, hfailing, ensure_ok.1 h⟩

theorem applyInPlace_ok (h : applyInPlace s event = .ok t) :
    Enveloped s event ∧ Step s event t := by
  obtain ⟨_, henv, h⟩ := bind_ok.1 h
  refine ⟨enveloped_of_check henv, ?_⟩
  split at h
  · rename_i hknw
    obtain ⟨_, hmode, h⟩ := bind_ok.1 h
    obtain ⟨_, hvis, h⟩ := bind_ok.1 h
    cases h
    have hbeg := (guarded hvis).1
    exact .moved hknw (free_of_check hmode) (visit_transition hvis) hbeg
  · rename_i hunk
    cases h
    exact .skipped (by simpa using hunk)

theorem accepts_iff : videoProjection.Accepts s event ↔
    applyInPlace s event = .ok (videoProjection.apply s event).2 := by
  change (videoProjection.apply s event).1 = .ok () ↔ _
  simp only [videoProjection]
  cases applyInPlace s event with
  | error | ok => simp

theorem accepts_step (h : videoProjection.Accepts s event) :
    Enveloped s event ∧ Step s event (videoProjection.apply s event).2 :=
  applyInPlace_ok (accepts_iff.1 h)

theorem videoProjection_atomic : videoProjection.Atomic := by
  intro s event h
  change ¬ (videoProjection.apply s event).1 = .ok () at h
  simp only [videoProjection] at h ⊢
  cases happ : applyInPlace s event with
  | error => rfl
  | ok => simp [happ] at h

end Video
