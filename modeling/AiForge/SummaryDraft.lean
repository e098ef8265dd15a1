import AiForge.SummaryLog

/-! # Drafts of a summary

The text of a generated summary is not stored on its own. It is read back from the run that was
started for the recorded intent: one inference, one assistant message, text only, and a regular
end. -/
namespace SummaryDraft

open Content Events SafeText Summary SummaryLog Staged Option

def plainEvent (event : SummaryEvent) : Bool :=
  event.metadata.schemaVersion == 1 && event.metadata.parentRunId.isNone

/-- One turn of the loop in `intent_provenance`; the state says what has been seen. -/
def provenanceStep (seen : Bool × Bool) (event : SummaryEvent) : Option (Bool × Bool) := do
  guard (plainEvent event)
  match event.payload with
  | .run (.runProvenanceRecorded _) =>
    guard (!seen.1 && !seen.2)
    return (true, seen.2)
  | .run (.personaSelectionRecorded _) =>
    guard (!seen.2)
    return (seen.1, true)
  | _ => none

def intentProvenance (events : List SummaryEvent) (startIndex index : ℕ) : Bool :=
  (((events.take index).drop (startIndex + 1)).foldlM provenanceStep (false, false)).isSome

/-- The backward search for the start of the run; it gives up at an event of another run. -/
def findStart (events : List SummaryEvent) (run : RunId) : ℕ → Option ℕ
  | 0 => some 0
  | index + 1 => do
    let event ← events[index + 1]?
    if (runStarted? event.payload).isSome then return index + 1
    let before ← events[index]?
    guard (before.metadata.runId = run)
    findStart events run index

def summaryStart (intent : ConversationSummaryIntent) (start : SummaryEvent) (snapshot : ℕ) :
    Bool :=
  ((runStarted? start.payload).any fun attributes =>
    attributes.purpose == .summary && attributes.memorySelection.isNone &&
      attributes.conversationAdmission.isNone) &&
  start.metadata.schemaVersion == 3 && start.metadata.parentRunId.isNone &&
  snapshot == intent.sources.snapshotSequence

def isUserRequest : SummaryPayload → Bool
  | .run (.userContentAdded message) => message.role == .user && message.toolCalls.isEmpty
  | _ => false

def isCompletionRequested : SummaryPayload → Bool
  | .run .runCompletionRequested => true
  | _ => false

def isInference (intent : ConversationSummaryIntent) : SummaryPayload → Bool
  | .run (.inferenceStarted inferenceId modelId) =>
    inferenceId == intent.producingInferenceId && modelId == intent.modelId
  | _ => false

def producedBy (intent : ConversationSummaryIntent) (event : SummaryEvent) : Bool :=
  event.metadata.runId == intent.producingRunId && plainEvent event

/-- The sequence of the event before the start of the run. -/
def sequenceBefore (events : List SummaryEvent) : ℕ → Option ℕ
  | 0 => some 0
  | index + 1 => events[index]?.map SummaryEvent.sequence

def locateIntent (events : List SummaryEvent) (index : ℕ) (intent : ConversationSummaryIntent) :
    Option Unit := do
  guard (index ≠ 0)
  let current ← events[index]?
  guard (producedBy intent current)
  let startIndex ← findStart events intent.producingRunId index
  let start ← events[startIndex]?
  let snapshot ← sequenceBefore events startIndex
  guard (summaryStart intent start snapshot)
  guard (intentProvenance events startIndex index)
  let user ← events[index + 1]?
  let requested ← events[index + 2]?
  let inference ← events[index + 3]?
  guard (producedBy intent user && producedBy intent requested && producedBy intent inference)
  guard (isUserRequest user.payload && isCompletionRequested requested.payload &&
    isInference intent inference.payload)

def intentTransaction (events : List SummaryEvent) (index : ℕ)
    (intent : ConversationSummaryIntent) : Bool := (locateIntent events index intent).isSome

/-- One turn of the loop in `recorded_intent_matches`. -/
def matchStep (events : List SummaryEvent) (intent : ConversationSummaryIntent) (found : Bool)
    (item : SummaryEvent × ℕ) : Option Bool :=
  match item.1.payload with
  | .conversationSummaryGenerationIntentRecorded recorded =>
    if recorded.summaryId ≠ intent.summaryId then some found
    else if found ∨ recorded ≠ intent ∨ intentTransaction events item.2 intent = false then none
    else some true
  | _ => some found

def recordedIntentMatches (events : List SummaryEvent) (intent : ConversationSummaryIntent) :
    Bool := events.zipIdx.foldlM (matchStep events intent) false == some true

structure ConversationSummaryDraft where
  intent : ConversationSummaryIntent
  outputEventId : EventId
  outputSequence : ℕ
  text : Bytes
  deriving DecidableEq

structure OutputState where
  (inferenceStarted assistantStarted assistantFinished inferenceFinished completed : Bool := false)
  outputEventId : Option EventId := none
  outputSequence : ℕ := 0
  text : Bytes := []

def invalid (message : String) : ConversationSummaryError := ⟨.invalidCandidate, message⟩

def appendOutput (state : OutputState) (messageId : MessageId) (inferenceId : InferenceId)
    (delta : ContentBlock) (intent : ConversationSummaryIntent) : Status OutputState :=
  let malformed := invalid "summary output is malformed or exceeds its bound"
  match delta with
  | .text text => do
    ensure (state.assistantStarted ∧ state.assistantFinished = false ∧
      messageId = intent.outputMessageId ∧ inferenceId = intent.producingInferenceId ∧
      text.length ≤ intent.maximumOutputBytes - state.text.length) malformed
    return { state with text := state.text ++ text }
  | _ => throw malformed

def finishOutput (state : OutputState) (messageId : MessageId) (inferenceId : InferenceId)
    (metadata : EventMetadata) (intent : ConversationSummaryIntent) : Status OutputState := do
  ensure (state.assistantStarted ∧ state.assistantFinished = false ∧
    messageId = intent.outputMessageId ∧ inferenceId = intent.producingInferenceId)
    (invalid "summary output completion is inconsistent")
  return { state with
    assistantFinished := true
    outputEventId := some metadata.eventId
    outputSequence := metadata.sequence }

def consumeOutput (state : OutputState) (event : SummaryEvent)
    (intent : ConversationSummaryIntent) : Status OutputState :=
  match event.payload with
  | .run (.inferenceStarted inferenceId modelId) => do
    ensure (state.inferenceStarted = false ∧ inferenceId = intent.producingInferenceId ∧
      modelId = intent.modelId) (invalid "summary producer inference is inconsistent")
    return { state with inferenceStarted := true }
  | .run (.assistantContentStarted messageId inferenceId) => do
    ensure (state.inferenceStarted ∧ state.assistantStarted = false ∧
      messageId = intent.outputMessageId ∧ inferenceId = intent.producingInferenceId)
      (invalid "summary output start is inconsistent")
    return { state with assistantStarted := true }
  | .run (.assistantContentDeltaAdded messageId inferenceId delta) =>
    appendOutput state messageId inferenceId delta intent
  | .run (.assistantContentFinished messageId inferenceId) =>
    finishOutput state messageId inferenceId event.metadata intent
  | .run (.inferenceFinished inferenceId reason) => do
    ensure (state.assistantFinished ∧ state.inferenceFinished = false ∧
      inferenceId = intent.producingInferenceId ∧ reason = .stop)
      (invalid "summary inference did not finish successfully")
    return { state with inferenceFinished := true }
  | .run .runCompleted => do
    ensure (state.inferenceFinished ∧ state.completed = false)
      (invalid "summary producer completed illegally")
    return { state with completed := true }
  | .run (.toolProposed _) | .run (.runFailed _) | .run (.runCancelled _)
  | .run (.runCancelRequested _) | .run (.inferenceFailed _ _) | .run (.inferenceCancelled _ _)
  | .run (.unknown _ _) =>
    throw (invalid "summary producer is failed, cancelled or unsupported")
  | _ => return state

def validateProducerEvent (event : SummaryEvent) : Status Unit := do
  ensure (event.metadata.parentRunId = none) (invalid "summary producer cannot be a child")
  match runStarted? event.payload with
  | some started =>
    ensure (event.metadata.schemaVersion = 3 ∧ started.purpose = .summary)
      (invalid "summary producer purpose or schema is unsupported")
  | none =>
    ensure (event.metadata.schemaVersion = 1)
      (invalid "summary producer event schema is unsupported")

/-- One turn of the loop over the events, which skips the events of other runs. -/
def draftStep (intent : ConversationSummaryIntent) (state : OutputState) (event : SummaryEvent) :
    Status OutputState := do
  if event.metadata.runId ≠ intent.producingRunId then return state
  validateProducerEvent event
  consumeOutput state event intent

def eventPrefix (log : SessionLog) (snapshotSequence : Option ℕ) : Status (List SummaryEvent) :=
  log.snapshot snapshotSequence (invalid "summary snapshot is unavailable")
    ⟨.resourceExhausted, "summary event limit exceeded"⟩

def recoverConversationSummaryDraft (log : SessionLog) (intent : ConversationSummaryIntent)
    (snapshotSequence : Option ℕ) : Status ConversationSummaryDraft := do
  let events ← eventPrefix log snapshotSequence
  ensure (validateConversationSummaryIntent intent = .ok () ∧
    intent.sources.sessionId = log.sessionId) (invalid "summary draft intent is invalid")
  ensure (recordedIntentMatches events intent)
    (invalid "summary draft has no exact durable generation intent")
  let state ← events.foldlM (draftStep intent) {}
  let incomplete := invalid "summary output is not durably complete"
  let outputEventId ← Staged.require state.outputEventId incomplete
  ensure (state.completed ∧ isSafeUtf8Text state.text) incomplete
  return ⟨intent, outputEventId, state.outputSequence, state.text⟩

section Extended

variable {events : List SummaryEvent} {index : ℕ} {intent : ConversationSummaryIntent}

theorem findStart_append (suffix : List SummaryEvent) {run : RunId} {found : ℕ}
    (h : findStart events run index = some found) :
    findStart (events ++ suffix) run index = some found := by
  induction index with
  | zero => exact h
  | succ _ ih =>
    obtain ⟨event, hev, h⟩ := bind_eq_some_iff.1 h
    refine bind_eq_some_iff.2 ⟨event, getElem?_append suffix hev, ?_⟩
    split at h
    · rename_i hbeg
      rw [if_pos hbeg]
      exact h
    · rename_i hbeg
      rw [if_neg hbeg]
      obtain ⟨before, hpre, h⟩ := bind_eq_some_iff.1 h
      obtain ⟨_, hrun, h⟩ := bind_eq_some_iff.1 h
      exact bind_eq_some_iff.2 ⟨before, getElem?_append suffix hpre,
        bind_eq_some_iff.2 ⟨_, hrun, ih h⟩⟩

theorem sequenceBefore_append (suffix : List SummaryEvent) {sequence : ℕ}
    (h : sequenceBefore events index = some sequence) :
    sequenceBefore (events ++ suffix) index = some sequence := by
  cases index with
  | zero => exact h
  | succ =>
    obtain ⟨event, hev, heq⟩ := map_eq_some_iff.1 h
    exact map_eq_some_iff.2 ⟨event, getElem?_append suffix hev, heq⟩

theorem intentProvenance_append (suffix : List SummaryEvent) {current : SummaryEvent}
    (h : events[index]? = some current) (startIndex : ℕ) :
    intentProvenance (events ++ suffix) startIndex index =
      intentProvenance events startIndex index := by
  obtain ⟨_, -⟩ := List.getElem?_eq_some_iff.1 h
  unfold intentProvenance
  rw [List.take_append_of_le_length (by omega)]

/-- An intent that stands in its run still does so when events are appended. -/
theorem intentTransaction_append (suffix : List SummaryEvent)
    (h : intentTransaction events index intent) :
    intentTransaction (events ++ suffix) index intent = true := by
  obtain ⟨_, h⟩ := isSome_iff_exists.1 h
  obtain ⟨_, hzero, h⟩ := bind_eq_some_iff.1 h
  obtain ⟨current, hcur, h⟩ := bind_eq_some_iff.1 h
  obtain ⟨_, hproduced, h⟩ := bind_eq_some_iff.1 h
  obtain ⟨startIndex, hbeg, h⟩ := bind_eq_some_iff.1 h
  obtain ⟨start, hev, h⟩ := bind_eq_some_iff.1 h
  obtain ⟨snapshot, hsnap, h⟩ := bind_eq_some_iff.1 h
  obtain ⟨_, hattr, h⟩ := bind_eq_some_iff.1 h
  obtain ⟨_, hprov, h⟩ := bind_eq_some_iff.1 h
  obtain ⟨user, huser, h⟩ := bind_eq_some_iff.1 h
  obtain ⟨requested, hreq, h⟩ := bind_eq_some_iff.1 h
  obtain ⟨inference, hinference, h⟩ := bind_eq_some_iff.1 h
  rw [← intentProvenance_append suffix hcur] at hprov
  refine isSome_iff_exists.2 ⟨(), ?_⟩
  refine bind_eq_some_iff.2 ⟨_, hzero, ?_⟩
  refine bind_eq_some_iff.2 ⟨current, getElem?_append suffix hcur, ?_⟩
  refine bind_eq_some_iff.2 ⟨_, hproduced, ?_⟩
  refine bind_eq_some_iff.2 ⟨startIndex, findStart_append suffix hbeg, ?_⟩
  refine bind_eq_some_iff.2 ⟨start, getElem?_append suffix hev, ?_⟩
  refine bind_eq_some_iff.2 ⟨snapshot, sequenceBefore_append suffix hsnap, ?_⟩
  refine bind_eq_some_iff.2 ⟨_, hattr, ?_⟩
  refine bind_eq_some_iff.2 ⟨_, hprov, ?_⟩
  refine bind_eq_some_iff.2 ⟨user, getElem?_append suffix huser, ?_⟩
  refine bind_eq_some_iff.2 ⟨requested, getElem?_append suffix hreq, ?_⟩
  exact bind_eq_some_iff.2 ⟨inference, getElem?_append suffix hinference, h⟩

/-- A draft that could be recovered up to a snapshot still can. -/
theorem recover_extended {log longer : SessionLog} {suffix : List SummaryEvent}
    (hlog : log.ExtendedBy suffix longer) {sequence : ℕ} {draft : ConversationSummaryDraft}
    (h : recoverConversationSummaryDraft log intent (some sequence) = .ok draft) :
    recoverConversationSummaryDraft longer intent (some sequence) = .ok draft := by
  obtain ⟨events, hevs, h⟩ := bind_ok.1 h
  refine bind_ok.2 ⟨events, snapshot_extended hlog hevs, ?_⟩
  rw [hlog.session]
  exact h

end Extended

end SummaryDraft
