import AiForge.SourceRecovery
import AiForge.SummaryDraft
import AiForge.SummaryReplacement
import AiForge.SummarySeals

/-! # The summaries of a session

The catalog of intents, candidates and active summaries is replayed from the whole log. A
transition is previewed on the replayed catalog before its three events are written. -/
namespace SummaryProjection

open Admission Content Events MessageDigest SafeText SourceRecovery Summary SummaryDraft SummaryLog
  SummaryReplacement
open Money Staged

def summaryMaximumIntents : ℕ := 256
def summaryMaximumCandidates : ℕ := 1024
def summaryMaximumRetainedTextBytes : ℕ := 8 * 1024 * 1024
def maximumManifest : ℕ := 16 * 1024 * 1024
def maximumWork : ℕ := 8 * 1024 * 1024
def maximumSourceTokens : ℕ := 16 * 1024 * 1024

/-- The part of a snapshot that the events change. -/
structure Catalog where
  intents : List ConversationSummaryIntent := []
  candidates : List ConversationSummaryCandidate := []
  active : List ConversationSummaryActivation := []
  deriving DecidableEq

structure ConversationSummarySnapshot extends Catalog where
  (snapshotSequence policyRevision : ℕ)
  deriving DecidableEq

def findCandidate (catalog : Catalog) (version : ConversationSummaryVersion) :
    Option ConversationSummaryCandidate :=
  catalog.candidates.find? fun candidate =>
    decide (candidate.candidateDigest.map (candidateVersion candidate) = some version)

def findIntent (catalog : Catalog) (summary : ConversationSummaryId) :
    Option ConversationSummaryIntent :=
  catalog.intents.find? fun intent => decide (intent.summaryId = summary)

structure ManifestBudget where
  (manifestBytes sourceEntries : ℕ := 0)
  deriving DecidableEq

structure CatalogBudget extends ManifestBudget where
  (resolutionEvents sourceTokens : ℕ := 0)
  deriving DecidableEq

namespace ManifestBudget

def add (budget : ManifestBudget) (bytes : ℕ) : Option ManifestBudget := do
  guard (bytes ≤ maximumManifest - budget.manifestBytes)
  return { budget with manifestBytes := budget.manifestBytes + bytes }

def addOptional (budget : ManifestBudget) (text : Option Bytes) : Option ManifestBudget :=
  match text with
  | none => some budget
  | some text => budget.add text.length

def entry (budget : ManifestBudget) (entry : ConversationAdmittedEntry) :
    Option ManifestBudget := do
  guard (budget.sourceEntries + 1 ≤ 16384)
  let budget := { budget with sourceEntries := budget.sourceEntries + 1 }
  let budget ← budget.add (512 + entry.completedEventId.utf8ByteSize +
    entry.entryId.utf8ByteSize + entry.messageId.utf8ByteSize +
    entry.provenance.sourceId.utf8ByteSize)
  let budget ← budget.addOptional entry.provenance.sourceLocation
  budget.addOptional entry.provenance.digest

def group (budget : ManifestBudget) (group : ConversationSummarySourceGroup) :
    Option ManifestBudget := do
  let budget ← budget.add
    (256 + group.runId.utf8ByteSize + group.terminalEventId.utf8ByteSize)
  group.entries.foldlM entry budget

def intent (budget : ManifestBudget) (intent : ConversationSummaryIntent) :
    Option ManifestBudget := do
  let budget ← budget.add (2048 + intent.runtimeVersion.length)
  intent.sources.groups.foldlM group budget

end ManifestBudget

def CatalogBudget.reserve (budget : CatalogBudget) (intent : ConversationSummaryIntent)
    (events : ℕ) : Option CatalogBudget := do
  guard (events ≤ maximumWork - budget.resolutionEvents)
  let manifest ← budget.toManifestBudget.intent intent
  return { budget with
    toManifestBudget := manifest
    resolutionEvents := budget.resolutionEvents + events }

structure Replay where
  catalog : Catalog := {}
  textBytes : ℕ := 0
  budget : CatalogBudget := {}
  deriving DecidableEq

section Replay

variable (history : History) (log : SessionLog) (events : List SummaryEvent)

def addIntent (state : Replay) (index : ℕ) (intent : ConversationSummaryIntent) :
    Status Replay := do
  ensure (state.catalog.intents.length < summaryMaximumIntents)
    ⟨.resourceExhausted, "summary intent limit exceeded"⟩
  ensure (validateConversationSummaryIntent intent = .ok () ∧
      intent.sources.sessionId = log.sessionId ∧ intentTransaction events index intent ∧
      ∀ prior ∈ state.catalog.intents, ¬ (prior.summaryId = intent.summaryId ∨
        prior.producingRunId = intent.producingRunId ∨
        prior.producingInferenceId = intent.producingInferenceId))
    ⟨.invalidIntent, "summary generation intent is inconsistent"⟩
  let budget ← require (state.budget.reserve intent events.length)
    ⟨.resourceExhausted, "summary catalog metadata or work limit exceeded"⟩
  let resolved ← (resolveConversationSummarySources history log intent.sources).mapError
    fun _ => ⟨.invalidSource, "summary generation sources are unavailable"⟩
  ensure (resolved.estimatedTokens ≤ maximumSourceTokens - budget.sourceTokens)
    ⟨.resourceExhausted, "summary catalog source limit exceeded"⟩
  return { state with
    catalog := { state.catalog with intents := state.catalog.intents ++ [intent] }
    budget := { budget with sourceTokens := budget.sourceTokens + resolved.estimatedTokens } }

/-- One turn of the loop that looks for the parent of a candidate. -/
def parentStep (candidate : ConversationSummaryCandidate)
    (parent : Option ConversationSummaryCandidate) (prior : ConversationSummaryCandidate) :
    Status (Option ConversationSummaryCandidate) := do
  if prior.summaryId ≠ candidate.summaryId then return parent
  ensure (prior.revision < candidate.revision)
    (invalid "summary candidate revision is reused or stale")
  match parent with
  | none => return some prior
  | some best => return if best.revision < prior.revision then some prior else some best

def findParent (catalog : Catalog) (candidate : ConversationSummaryCandidate) :
    Status (Option ConversationSummaryCandidate) :=
  catalog.candidates.foldlM (parentStep candidate) none

/-- The text of a generated candidate is the one its run has produced. -/
def checkDraft (intent : ConversationSummaryIntent) (candidate : ConversationSummaryCandidate)
    (sequence : ℕ) : Status Unit :=
  match candidate.author with
  | .userEdit => return
  | .model => do
    let differs := invalid "summary candidate differs from its durable output"
    let draft ← (recoverConversationSummaryDraft log intent (some sequence)).mapError
      fun _ => differs
    ensure (draft.outputEventId = candidate.outputEventId ∧
      draft.outputSequence = candidate.outputSequence ∧ draft.text = candidate.text) differs

def addCandidate (state : Replay) (event : SummaryEvent)
    (candidate : ConversationSummaryCandidate) : Status Replay := do
  ensure (state.catalog.candidates.length < summaryMaximumCandidates ∧
      candidate.text.length ≤ summaryMaximumRetainedTextBytes - state.textBytes)
    ⟨.resourceExhausted, "retained summary limit exceeded"⟩
  let unmatched := invalid "summary publication has no matching intent or envelope"
  let intent ← require (findIntent state.catalog candidate.summaryId) unmatched
  ensure (candidate.createdEventId = event.eventId ∧ candidate.createdSequence = event.sequence)
    unmatched
  let parent ← findParent state.catalog candidate
  ensure (validateConversationSummaryCandidate candidate intent parent = .ok ())
    (invalid "summary candidate seal or parent is invalid")
  checkDraft log intent candidate event.sequence
  return { state with
    catalog := { state.catalog with candidates := state.catalog.candidates ++ [candidate] }
    textBytes := state.textBytes + candidate.text.length }

def activate (catalog : Catalog) (action : ConversationSummaryActivated) (event : SummaryEvent) :
    Status Catalog := do
  let unmatched : ConversationSummaryError :=
    ⟨.invalidActivation, "summary activation has no matching candidate or envelope"⟩
  let candidate ← require (findCandidate catalog action.activation.candidate) unmatched
  ensure (action.activation.activationEventId = event.eventId ∧
    action.activation.activationSequence = event.sequence) unmatched
  ensure (∀ later ∈ catalog.candidates, ¬ (later.summaryId = candidate.summaryId ∧
      candidate.revision < later.revision))
    ⟨.staleRevision, "summary activation targets a stale candidate"⟩
  let uncovered : ConversationSummaryError :=
    ⟨.invalidActivation, "summary activation coverage or replacement is invalid"⟩
  let intent ← require (findIntent catalog candidate.summaryId) uncovered
  let parent := candidate.editedFrom.bind (findCandidate catalog)
  ensure (sealConversationSummaryActivation action.activation candidate intent parent =
      .ok action.activation ∧
    validateConversationSummaryReplacement catalog.active action.replacedVersions
      action.activation = .ok ()) uncovered
  return { catalog with
    active := catalog.active.filter (fun prior =>
      decide (prior.candidate ∉ action.replacedVersions)) ++ [action.activation] }

def isActivation (action : ConversationSummaryDisabled) (active : ConversationSummaryActivation) :
    Bool :=
  decide (active.candidate = action.candidate ∧
    active.activationEventId = action.activationEventId)

def disable (catalog : Catalog) (action : ConversationSummaryDisabled) : Status Catalog := do
  ensure ((catalog.active.find? (isActivation action)).isSome)
    ⟨.invalidActivation, "summary disable targets an unavailable activation"⟩
  return { catalog with active := catalog.active.eraseP (isActivation action) }

def ensureControl (index : ℕ) : Status Unit :=
  ensure (controlTransaction events index)
    (invalid "summary control transaction is incomplete")

def applySummaryEvent (state : Replay) (event : SummaryEvent) (index : ℕ) : Status Replay :=
  match event.payload with
  | .conversationSummaryGenerationIntentRecorded intent =>
    addIntent history log events state index intent
  | .conversationSummaryCandidatePublished candidate => do
    ensureControl events index
    addCandidate log state event candidate
  | .conversationSummaryActivated action => do
    ensureControl events index
    let catalog ← activate state.catalog action event
    return { state with catalog := catalog }
  | .conversationSummaryDisabled action => do
    ensureControl events index
    let catalog ← disable state.catalog action
    return { state with catalog := catalog }
  | _ => return state

def supportedSummaryEvent : SummaryPayload → Status Unit
  | .run (.unknown typeName _) =>
    ensure (typeName.startsWith "session.conversation_summary_" = false)
      ⟨.unsupportedVersion, "summary event schema is unsupported"⟩
  | _ => return

/-- One turn of the loop in `recorded_conversation_summaries`. -/
def summaryStep (state : Replay) (item : SummaryEvent × ℕ) : Status Replay := do
  supportedSummaryEvent item.1.payload
  applySummaryEvent history log events state item.1 item.2

end Replay

def position (active : ConversationSummaryActivation) : ℕ × ConversationSummaryId :=
  (active.sourceAnchorSequence, summaryOf active)

def sortActive (active : List ConversationSummaryActivation) :
    List ConversationSummaryActivation :=
  active.mergeSort fun left right => positionLe (position left) (position right)

def recordedConversationSummaries (history : History) (log : SessionLog)
    (snapshotSequence : Option ℕ) : Status ConversationSummarySnapshot := do
  let events ← eventPrefix log snapshotSequence
  let policy ← (recordedConversationPolicy log snapshotSequence).mapError
    fun _ => invalid "summary policy history is invalid"
  let replay ← events.zipIdx.foldlM (summaryStep history log events) {}
  return {
    snapshotSequence := snapshotSequence.getD log.lastSequence
    policyRevision := policy.policy.revision
    intents := replay.catalog.intents
    candidates := replay.catalog.candidates
    active := sortActive replay.catalog.active }

theorem recorded_eq_ok {history : History} {log : SessionLog} {snapshotSequence : Option ℕ}
    {snapshot : ConversationSummarySnapshot} :
    recordedConversationSummaries history log snapshotSequence = .ok snapshot ↔
      ∃ events policy replay, eventPrefix log snapshotSequence = .ok events ∧
        recordedConversationPolicy log snapshotSequence = .ok policy ∧
        events.zipIdx.foldlM (summaryStep history log events) {} = .ok replay ∧
        snapshot = {
          snapshotSequence := snapshotSequence.getD log.lastSequence
          policyRevision := policy.policy.revision
          intents := replay.catalog.intents
          candidates := replay.catalog.candidates
          active := sortActive replay.catalog.active } := by
  constructor
  · intro h
    obtain ⟨events, hevs, h⟩ := bind_ok.1 h
    obtain ⟨policy, hpol, h⟩ := bind_ok.1 h
    obtain ⟨replay, hrepl, h⟩ := bind_ok.1 h
    cases h
    exact ⟨events, policy, replay, hevs, mapError_ok.1 hpol, hrepl, rfl⟩
  · rintro ⟨events, policy, replay, hevs, hpol, hrepl, rfl⟩
    exact bind_ok.2 ⟨events, hevs, bind_ok.2
      ⟨policy, mapError_ok.2 hpol, bind_ok.2 ⟨replay, hrepl, rfl⟩⟩⟩

theorem sortActive_perm (active : List ConversationSummaryActivation) :
    (sortActive active).Perm active := List.mergeSort_perm _ _

def referenceShape (version : ConversationSummaryVersion) : Bool :=
  version.candidateDigest.algorithm == "sha256" &&
    version.candidateDigest.value.utf8ByteSize == 64 &&
    decide (version.candidateDigest.byteSize ≤ summaryMaximumManifestBytes)

def transitionReferences (action : ConversationSummaryActivated) : Status Unit := do
  ensure (action.replacedVersions.length ≤ summaryMaximumActive)
    ⟨.resourceExhausted, "summary replacement limit exceeded"⟩
  validateConversationSummaryActivation action.activation
  ensure (∀ version ∈ action.replacedVersions, referenceShape version)
    (invalid "summary replacement reference is invalid")

/-- One turn of the loop over the new events. -/
def envelopeStep (log : SessionLog) (suffix : List SummaryEvent) (item : SummaryEvent × ℕ) :
    Status Unit := do
  let metadata := item.1.metadata
  ensure (metadata.sequence = log.lastSequence + item.2 + 1 ∧ metadata.causedByEventId = none ∧
    metadata.invocationId = none) (invalid "summary preview event metadata is invalid")
  ensure (∀ prior ∈ suffix.take item.2, prior.eventId ≠ item.1.eventId)
    (invalid "summary preview event identity is reused")

def isIntentRecorded (event : SummaryEvent) : Bool :=
  match event.payload with
  | .conversationSummaryGenerationIntentRecorded _ => true
  | _ => false

/-- One turn of the loop over the recorded events, which counts the intents. -/
def countIntents (before : SummaryEvent) (suffix : List SummaryEvent) (intents : ℕ)
    (event : SummaryEvent) : Status ℕ := do
  ensure (event.metadata.runId ≠ before.metadata.runId ∧
    ∀ appended ∈ suffix, appended.eventId ≠ event.eventId)
    (invalid "summary preview reuses a durable identity")
  return if isIntentRecorded event then intents + 1 else intents

def transitionEnvelope (log : SessionLog) (suffix : List SummaryEvent) :
    Status (SummaryEvent × SummaryEvent × SummaryEvent) :=
  match suffix with
  | [before, current, after] => do
    ensure (log.events.length ≤ maximumEvents - suffix.length)
      ⟨.resourceExhausted, "summary event limit exceeded"⟩
    ensure (log.lastSequence ≤ uint64Max - 3 ∧ controlTransaction suffix 1)
      (invalid "summary preview control transaction is invalid")
    suffix.zipIdx.forM (envelopeStep log suffix)
    let intents ← log.events.foldlM (countIntents before suffix) 0
    ensure (intents ≤ maximumWork / (log.events.length + suffix.length))
      ⟨.resourceExhausted, "summary catalog work limit exceeded"⟩
    return (before, current, after)
  | _ => throw (invalid "summary preview requires three control events")

def previewConversationSummaryTransition (history : History) (log : SessionLog)
    (suffix : List SummaryEvent) : Status ConversationSummarySnapshot := do
  let (_, current, after) ← transitionEnvelope log suffix
  match current.payload with
  | .conversationSummaryActivated action =>
    transitionReferences action
    let state ← recordedConversationSummaries history log none
    ensure (state.policyRevision ≠ uint64Max ∧
        action.previousPolicyRevision = state.policyRevision)
      ⟨.staleRevision, "summary preview policy revision is stale"⟩
    let catalog ← activate state.toCatalog action current
    return {
      snapshotSequence := after.sequence
      policyRevision := state.policyRevision + 1
      intents := catalog.intents
      candidates := catalog.candidates
      active := sortActive catalog.active }
  | _ => throw (invalid "summary preview requires an activation event")

/-! ## A sample session

A question that was cancelled, a run that summarizes it, and the publication of the summary. -/

def sampleDigest (value : String) (byteSize : ℕ) : ContentDigest := ⟨"sha256", value, byteSize⟩

def sampleStart (purpose : RunPurpose) : SummaryPayload := .run (.runStarted {
  surfaceId := "cli", workspaceId := "workspace", permissionProfileId := "default"
  personaId := none, memorySelection := none, purpose := purpose, conversationAdmission := none
  localContextAdmissionRequired := false, manualObservationRequired := false })

def sampleEvent (run : RunId) (eventId : EventId) (sequence : ℕ) (payload : SummaryPayload) :
    SummaryEvent where
  metadata := {
    eventId := eventId, runId := run, sequence := sequence
    schemaVersion := if (runStarted? payload).isSome then 3 else 1
    timestamp := 0, causedByEventId := none, parentRunId := none, invocationId := none }
  payload := payload

def sampleMessage : Message := ⟨"question", .user, [.text (bytesOf "hi")], none, []⟩

def sampleContent : ContextContentInput where
  entryId := "history-entry-2"
  message := sampleMessage
  provenance :=
    ⟨"history-source-2", some (bytesOf "session:session/run:talk/event:event-2"), none⟩
  order := 1
  estimatedTokens := 26

def sampleHistory : History := fun _ _ _ => .ok [⟨"talk", [⟨sampleContent, "event-2", 2⟩]⟩]

def sampleEntry : ConversationAdmittedEntry where
  completedEventId := "event-2"
  eventSequence := 2
  entryId := "history-entry-2"
  messageId := "question"
  provenance := sampleContent.provenance
  order := 1
  estimatedTokens := 26
  kind := .conversation
  messageDigest :=
    sampleDigest "57cfe43caeb14c7228e26bc4e4144d3bf3d57dff6e30c4970860ffae9c3b0eee" 69

def sampleSources : ConversationSummarySources where
  sessionId := "session"
  snapshotSequence := 3
  groups := [⟨"talk", "event-3", 3, [sampleEntry]⟩]
  sourceDigest :=
    some (sampleDigest "52195acb6a4890b4d776336cf375747718fa2e81c3b7f87c9267f8062c1af1e3" 266)

def sampleIntent : ConversationSummaryIntent where
  summaryId := "summary"
  sources := sampleSources
  producingRunId := "summarize"
  producingInferenceId := "inference"
  modelId := "model"
  outputMessageId := "answer"
  runtimeVersion := bytesOf "1.0"
  capacity := ⟨1000, 100, 0⟩
  estimatedInputTokens := 50
  intentDigest :=
    some (sampleDigest "f3ccb69968951d9ed187995e212730283c7f810a6e0da2729f0112d22700a8c9" 190)

def sampleCandidate : ConversationSummaryCandidate where
  sessionId := "session"
  summaryId := "summary"
  sourceDigest :=
    sampleDigest "52195acb6a4890b4d776336cf375747718fa2e81c3b7f87c9267f8062c1af1e3" 266
  intentDigest :=
    sampleDigest "f3ccb69968951d9ed187995e212730283c7f810a6e0da2729f0112d22700a8c9" 190
  outputEventId := "event-11"
  outputSequence := 11
  createdEventId := "event-15"
  createdSequence := 15
  editedFrom := none
  text := bytesOf "A greeting."
  candidateDigest :=
    some (sampleDigest "af4572211edd1adcdc4c64379fba3fe28ad3c07c1d3baff1c955cd0dbc98eeca" 263)

def sampleRecorded : SummaryEvent :=
  sampleEvent "summarize" "event-5" 5 (.conversationSummaryGenerationIntentRecorded sampleIntent)

def samplePublished : SummaryEvent :=
  sampleEvent "publish" "event-15" 15 (.conversationSummaryCandidatePublished sampleCandidate)

def sampleEvents : List SummaryEvent := [
  sampleEvent "talk" "event-1" 1 (sampleStart .conversation),
  sampleEvent "talk" "event-2" 2 (.run (.userContentAdded sampleMessage)),
  sampleEvent "talk" "event-3" 3 (.run (.runCancelled none)),
  sampleEvent "summarize" "event-4" 4 (sampleStart .summary),
  sampleRecorded,
  sampleEvent "summarize" "event-6" 6 (.run (.userContentAdded
    ⟨"request", .user, [.text (bytesOf "Summarize.")], none, []⟩)),
  sampleEvent "summarize" "event-7" 7 (.run .runCompletionRequested),
  sampleEvent "summarize" "event-8" 8 (.run (.inferenceStarted "inference" "model")),
  sampleEvent "summarize" "event-9" 9 (.run (.assistantContentStarted "answer" "inference")),
  sampleEvent "summarize" "event-10" 10 (.run (.assistantContentDeltaAdded "answer" "inference"
    (.text (bytesOf "A greeting.")))),
  sampleEvent "summarize" "event-11" 11 (.run (.assistantContentFinished "answer" "inference")),
  sampleEvent "summarize" "event-12" 12 (.run (.inferenceFinished "inference" .stop)),
  sampleEvent "summarize" "event-13" 13 (.run .runCompleted),
  sampleEvent "publish" "event-14" 14 (sampleStart .control),
  samplePublished,
  sampleEvent "publish" "event-16" 16 (.run .runCompleted)]

def sampleLog : SessionLog where
  sessionId := "session"
  events := sampleEvents
  increasing := by decide
  positive := by decide
  distinct := by decide

def sampleSnapshot : ConversationSummarySnapshot where
  snapshotSequence := 16
  policyRevision := 0
  intents := [sampleIntent]
  candidates := [sampleCandidate]

/-- The records of the sample are sealed; each digest is computed once. -/
theorem sample_valid :
    normalizedConversationMessageDigest sampleContent.message 1 = .ok sampleEntry.messageDigest ∧
    validateConversationSummarySources sampleSources = .ok () ∧
    validateConversationSummaryIntent sampleIntent = .ok () ∧
    validateConversationSummaryCandidate sampleCandidate sampleIntent none = .ok () := by
  have hsrc : validateConversationSummarySources sampleSources = .ok () := by
    refine bind_ok.2 ⟨(), by decide +kernel, ?_⟩
    rw [SummarySeals.encodeSources_eq, SummarySeals.sealOf_digestNat (by decide +kernel)]
    decide +kernel
  have hint : validateConversationSummaryIntent sampleIntent = .ok () := by
    refine bind_ok.2 ⟨(), ?_, ?_⟩
    · exact bind_ok.2 ⟨⟨⟩, by decide +kernel, bind_ok.2 ⟨(), hsrc, by decide +kernel⟩⟩
    · rw [SummarySeals.encodeIntent_eq rfl, SummarySeals.sealOf_digestNat (by decide +kernel)]
      decide +kernel
  refine ⟨by decide +kernel, hsrc, hint, ?_⟩
  refine bind_ok.2 ⟨(), bind_ok.2 ⟨(), hint, by decide +kernel⟩, ?_⟩
  rw [SummarySeals.encodeCandidate_eq, SummarySeals.sealOf_digestNat (by decide +kernel)]
  decide +kernel

def sampleIndex : SourceIndex where
  terminals := Function.update (fun _ => none) "talk"
    (some (sampleEvent "talk" "event-3" 3 (.run (.runCancelled none))))

def sampleBuilder : SourceBuilder where
  result := ⟨{ sampleSources with sourceDigest := none }, [sampleContent], 26⟩
  sourceBytes := 69

theorem sampleEntry_recorded : sourceEntry ⟨sampleContent, "event-2", 2⟩ = .ok sampleEntry := by
  unfold sourceEntry
  rw [sample_valid.1]
  rfl

theorem sampleSources_sealed :
    sealConversationSummarySources sampleBuilder.result.sources = .ok sampleSources := by
  obtain ⟨_, hshp, hchk⟩ := bind_ok.1 sample_valid.2.1
  obtain ⟨digest, hdig, hchk⟩ := bind_ok.1 hchk
  have hsame := ensure_ok.1 hchk
  simp only [sampleSources, Option.any_some, Bool.and_eq_true, decide_eq_true_eq] at hsame
  refine bind_ok.2 ⟨(), hshp, bind_ok.2 ⟨digest, hdig, ?_⟩⟩
  rw [← hsame.2]
  rfl

theorem sampleGroup_added (start : SourceBuilder)
    (hbeg : start = ⟨⟨{ sampleSources with groups := [], sourceDigest := none }, [], 0⟩, 0⟩) :
    addGroup sampleIndex start ⟨"talk", [⟨sampleContent, "event-2", 2⟩]⟩ = .ok sampleBuilder := by
  subst hbeg
  refine bind_ok.2 ⟨_, rfl, ensured (by decide) ?_⟩
  refine bind_ok.2 ⟨(⟨⟨{ sampleSources with groups := [], sourceDigest := none },
    [sampleContent], 26⟩, 69⟩, [sampleEntry]), foldlM_cons_ok.2 ⟨_, ?_, rfl⟩, rfl⟩
  exact bind_ok.2 ⟨sampleEntry, sampleEntry_recorded, ensured (by decide) (ensured (by decide) rfl)⟩

theorem sampleSources_resolved : resolveConversationSummarySources sampleHistory sampleLog
    sampleSources = .ok ⟨sampleSources, [sampleContent], 26⟩ := by
  refine bind_ok.2 ⟨⟨⟩, rfl, bind_ok.2
    ⟨(), mapError_ok.2 sample_valid.2.1, ?_⟩⟩
  refine bind_ok.2 ⟨_, ?_, ensured rfl rfl⟩
  refine bind_ok.2 ⟨sampleEvents.take 3, rfl, ?_⟩
  refine bind_ok.2 ⟨sampleIndex, rfl, ?_⟩
  refine bind_ok.2 ⟨_, mapError_ok.2 (bind_ok.2
    ⟨sampleEvents.take 3, rfl, rfl⟩), ?_⟩
  refine ensured rfl ?_
  refine bind_ok.2 ⟨sampleBuilder,
    foldlM_cons_ok.2 ⟨sampleBuilder, sampleGroup_added _ rfl, rfl⟩, ?_⟩
  exact bind_ok.2 ⟨sampleSources, mapError_ok.2 sampleSources_sealed, rfl⟩

def sampleReplay (candidates : List ConversationSummaryCandidate) (textBytes : ℕ) : Replay where
  catalog := { intents := [sampleIntent], candidates := candidates }
  textBytes := textBytes
  budget := {
    manifestBytes := 2914, sourceEntries := 1, resolutionEvents := 16, sourceTokens := 26 }

theorem sampleLog_recorded :
    recordedConversationSummaries sampleHistory sampleLog none = .ok sampleSnapshot := by
  have hdrf : recoverConversationSummaryDraft sampleLog sampleIntent (some 15) =
      .ok ⟨sampleIntent, "event-11", 11, bytesOf "A greeting."⟩ := by
    refine bind_ok.2 ⟨sampleEvents.take 15, rfl, ?_⟩
    refine ensured ⟨sample_valid.2.2.1, rfl⟩ ?_
    decide +kernel
  have hrec : summaryStep sampleHistory sampleLog sampleEvents {} (sampleRecorded, 4) =
      .ok (sampleReplay [] 0) := by
    refine bind_ok.2 ⟨(), rfl, ensured (by decide) ?_⟩
    refine ensured ⟨sample_valid.2.2.1, rfl, by decide +kernel, List.forall_mem_nil _⟩ ?_
    refine bind_ok.2 ⟨{ (sampleReplay [] 0).budget with sourceTokens := 0 },
      require_ok.2 (by decide +kernel), ?_⟩
    refine bind_ok.2 ⟨_, mapError_ok.2 sampleSources_resolved, ?_⟩
    exact ensured (by decide) rfl
  have hpub : summaryStep sampleHistory sampleLog sampleEvents (sampleReplay [] 0)
      (samplePublished, 14) = .ok (sampleReplay [sampleCandidate] 11) := by
    refine bind_ok.2 ⟨(), rfl, bind_ok.2 ⟨(), by decide +kernel, ?_⟩⟩
    refine ensured (by decide) ?_
    refine bind_ok.2 ⟨sampleIntent, require_ok.2 rfl, ?_⟩
    refine ensured ⟨rfl, rfl⟩ (bind_ok.2 ⟨none, rfl, ?_⟩)
    refine ensured sample_valid.2.2.2 (bind_ok.2 ⟨(), ?_, rfl⟩)
    exact bind_ok.2 ⟨_, mapError_ok.2 hdrf, ensure_ok.2 ⟨rfl, rfl, rfl⟩⟩
  have hsplit : sampleEvents.zipIdx = sampleEvents.zipIdx.take 4 ++ (sampleRecorded, 4) ::
      ((sampleEvents.zipIdx.drop 5).take 9 ++ (samplePublished, 14) ::
        sampleEvents.zipIdx.drop 15) := rfl
  refine recorded_eq_ok.2 ⟨sampleEvents, {}, sampleReplay [sampleCandidate] 11,
    snapshot_last.2 ⟨by decide, rfl⟩, by decide +kernel, ?_, by decide +kernel⟩
  -- No other event of the session changes the state.
  rw [hsplit]
  refine foldlM_append_ok.2 ⟨{}, by decide +kernel, ?_⟩
  refine foldlM_cons_ok.2 ⟨_, hrec, ?_⟩
  refine foldlM_append_ok.2 ⟨sampleReplay [] 0, by decide +kernel, ?_⟩
  exact foldlM_cons_ok.2 ⟨_, hpub, by decide +kernel⟩

end SummaryProjection
