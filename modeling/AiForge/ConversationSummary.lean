import AiForge.ConversationAdmission

/-! # Conversation summaries

A summary goes through four sealed records: the sources it covers, the intent to produce it,
the candidate texts and the activation of one candidate. Each record repeats the digest of the
one before it. -/
namespace Summary

open Admission Content SafeText Sealing Money Staged

def summaryMaximumGroups : ℕ := 128
def summaryMaximumEntries : ℕ := 4096
def summaryMaximumSourceBytes : ℕ := 16 * 1024 * 1024
def summaryMaximumTextBytes : ℕ := 64 * 1024

structure ConversationSummarySourceGroup where
  runId : RunId
  terminalEventId : EventId
  terminalSequence : ℕ
  entries : List ConversationAdmittedEntry
  deriving DecidableEq

structure ConversationSummarySources where
  (version estimatorVersion : ℕ := 1)
  sessionId : SessionId
  snapshotSequence : ℕ
  groups : List ConversationSummarySourceGroup
  sourceDigest : Option ContentDigest
  deriving DecidableEq

structure ConversationSummaryIntent where
  (version formatVersion : ℕ := 1)
  summaryId : ConversationSummaryId
  sources : ConversationSummarySources
  producingRunId : RunId
  producingInferenceId : InferenceId
  modelId : ModelId
  outputMessageId : MessageId
  runtimeVersion : Bytes
  capacity : ContextCapacity
  estimatedInputTokens : ℕ
  maximumOutputBytes : ℕ := summaryMaximumTextBytes
  intentDigest : Option ContentDigest
  deriving DecidableEq

inductive ConversationSummaryAuthor where
  | model | userEdit
  deriving DecidableEq

structure ConversationSummaryCandidate where
  version : ℕ := 1
  sessionId : SessionId
  summaryId : ConversationSummaryId
  revision : ℕ := 1
  (sourceDigest intentDigest : ContentDigest)
  outputEventId : EventId
  outputSequence : ℕ
  createdEventId : EventId
  createdSequence : ℕ
  author : ConversationSummaryAuthor := .model
  editedFrom : Option ConversationSummaryVersion
  text : Bytes
  candidateDigest : Option ContentDigest
  deriving DecidableEq

structure ConversationSummaryActivation where
  version : ℕ := 1
  sessionId : SessionId
  candidate : ConversationSummaryVersion
  sourceDigest : ContentDigest
  coveredRunIds : List RunId
  sourceAnchorSequence : ℕ
  activationEventId : EventId
  activationSequence : ℕ
  activationDigest : Option ContentDigest
  deriving DecidableEq

inductive ConversationSummaryErrorCode where
  | unsupportedVersion | invalidSource | invalidIntent | invalidCandidate | invalidActivation
  | invalidDigest | foreignScope | staleRevision | overlap | resourceExhausted | tokenOverflow
  | capacityExceeded | internalFailure
  deriving DecidableEq

structure ConversationSummaryError where
  code : ConversationSummaryErrorCode
  message : String
  deriving DecidableEq

abbrev Status := Except ConversationSummaryError

def digestShape (value : ContentDigest) (maximum : ℕ := summaryMaximumManifestBytes) : Bool :=
  validDigest value maximum

def exhausted : ConversationSummaryError :=
  ⟨.resourceExhausted, "conversation summary manifest exceeds its bound"⟩

def checkSeal (actual : Option ContentDigest) (expected : Status ContentDigest) : Status Unit := do
  let expected ← expected
  ensure (actual.any fun digest => digestShape digest && decide (digest = expected))
    ⟨.invalidDigest, "conversation summary integrity check failed"⟩

def validProvenance (value : ContextProvenance) : Bool :=
  validOptionalText value.sourceLocation && validOptionalText value.digest

structure SourceState where
  runs : Finset RunId := ∅
  events : Finset EventId := ∅
  sequences : Finset ℕ := ∅
  entries : Finset ContextEntryId := ∅
  messages : Finset MessageId := ∅
  provenance : Finset ContextSourceId := ∅
  (lastGroup lastOrder sourceBytes tokens count : ℕ := 0)

def SourceState.entry (state : SourceState) (value : ConversationAdmittedEntry)
    (group : ConversationSummarySourceGroup) : Status SourceState := do
  ensure (¬ (value.eventSequence < state.lastGroup ∨ group.terminalSequence ≤ value.eventSequence ∨
      value.order ≤ state.lastOrder ∨ value.estimatedTokens = 0 ∨
      (value.kind ≠ .conversation ∧ value.kind ≠ .toolResult) ∨
      !validProvenance value.provenance))
    ⟨.invalidSource, "summary source entry is invalid"⟩
  ensure (digestShape value.messageDigest summaryMaximumSourceBytes)
    ⟨.invalidDigest, "summary source message digest is invalid"⟩
  ensure (value.messageDigest.byteSize ≤ summaryMaximumSourceBytes - state.sourceBytes)
    ⟨.resourceExhausted, "summary source content exceeds its bound"⟩
  let duplicated : ConversationSummaryError :=
    ⟨.invalidSource, "summary source identities are duplicated"⟩
  let events ← require (insertNew value.completedEventId state.events) duplicated
  let sequences ← require (insertNew value.eventSequence state.sequences) duplicated
  let entries ← require (insertNew value.entryId state.entries) duplicated
  let messages ← require (insertNew value.messageId state.messages) duplicated
  let provenance ← require (insertNew value.provenance.sourceId state.provenance) duplicated
  let tokens ← require (add state.tokens value.estimatedTokens)
    ⟨.tokenOverflow, "summary source estimates overflow"⟩
  return { state with
    events := events, sequences := sequences, entries := entries, messages := messages
    provenance := provenance, tokens := tokens, lastOrder := value.order
    sourceBytes := state.sourceBytes + value.messageDigest.byteSize }

def SourceState.group (state : SourceState) (value : ConversationSummarySourceGroup)
    (snapshot : ℕ) : Status SourceState := do
  let invalid : ConversationSummaryError := ⟨.invalidSource, "summary source run is invalid"⟩
  let first ← require value.entries.head? invalid
  let runs ← require (insertNew value.runId state.runs) invalid
  ensure (first.kind = .conversation ∧ state.lastGroup < first.eventSequence ∧
      first.eventSequence < value.terminalSequence ∧ value.terminalSequence ≤ snapshot) invalid
  let events ← require (insertNew value.terminalEventId state.events) invalid
  let sequences ← require (insertNew value.terminalSequence state.sequences) invalid
  ensure (value.entries.length ≤ summaryMaximumEntries - state.count)
    ⟨.resourceExhausted, "too many summary source entries"⟩
  value.entries.foldlM (fun state item => state.entry item value)
    { state with
      runs := runs, events := events, sequences := sequences
      count := state.count + value.entries.length, lastGroup := first.eventSequence }

def sourceShape (value : ConversationSummarySources) : Status Unit := do
  ensure (value.version = 1 ∧ value.estimatorVersion = 1)
    ⟨.unsupportedVersion, "unsupported summary source version"⟩
  ensure (value.groups ≠ [] ∧ value.snapshotSequence ≠ 0)
    ⟨.invalidSource, "summary source coverage is empty"⟩
  ensure (value.groups.length ≤ summaryMaximumGroups)
    ⟨.resourceExhausted, "too many summary source runs"⟩
  let start : SourceState := {}
  let _ ← value.groups.foldlM (fun state group => state.group group value.snapshotSequence) start

def encodeSourceGroup (writer : Seal) (group : ConversationSummarySourceGroup) : Seal :=
  let writer := writer.text group.runId
  let writer := writer.text group.terminalEventId
  let writer := writer.number group.terminalSequence
  let writer := writer.number group.entries.length
  group.entries.foldl encodeEntry writer

def encodeSources (value : ConversationSummarySources) : Status ContentDigest :=
  let writer : Seal := { maximum := summaryMaximumManifestBytes }
  let writer := writer.text "aiforge.summary-sources.v1"
  let writer := writer.number value.version
  let writer := writer.number value.estimatorVersion
  let writer := writer.text value.sessionId
  let writer := writer.number value.snapshotSequence
  let writer := writer.number value.groups.length
  let writer := value.groups.foldl encodeSourceGroup writer
  writer.finish exhausted

def sealConversationSummarySources (value : ConversationSummarySources) :
    Status ConversationSummarySources := do
  sourceShape value
  let digest ← encodeSources value
  return { value with sourceDigest := some digest }

def validateConversationSummarySources (value : ConversationSummarySources) : Status Unit := do
  sourceShape value
  checkSeal value.sourceDigest (encodeSources value)

def validRuntimeVersion (value : Bytes) : Bool :=
  !value.isEmpty && decide (value.length ≤ 128) &&
    value.all fun ch => decide (0x20 ≤ ch) && decide (ch ≤ 0x7e)

def addSourceTokens (value : ConversationSummaryIntent) (total : ℕ)
    (group : ConversationSummarySourceGroup) : Status ℕ := do
  ensure (group.runId ≠ value.producingRunId)
    ⟨.invalidIntent, "summary cannot be its own source"⟩
  group.entries.foldlM (fun total entry => do
    ensure (entry.messageId ≠ value.outputMessageId)
      ⟨.invalidIntent, "summary output reuses a source identity"⟩
    require (add total entry.estimatedTokens)
      ⟨.tokenOverflow, "summary source estimates overflow"⟩) total

def sourceTokens (value : ConversationSummaryIntent) : Status ℕ :=
  value.sources.groups.foldlM (addSourceTokens value) 0

def intentShape (value : ConversationSummaryIntent) : Status Unit := do
  ensure (value.version = 1 ∧ value.formatVersion = 1)
    ⟨.unsupportedVersion, "unsupported summary intent version"⟩
  validateConversationSummarySources value.sources
  ensure (validRuntimeVersion value.runtimeVersion ∧ value.maximumOutputBytes ≠ 0 ∧
      value.maximumOutputBytes ≤ summaryMaximumTextBytes ∧
      value.capacity.reservedOutputTokens ≠ 0)
    ⟨.invalidIntent, "summary intent bounds or producer are invalid"⟩
  let tokens ← sourceTokens value
  ensure (tokens ≤ value.estimatedInputTokens)
    ⟨.invalidIntent, "summary intent omits source input cost"⟩
  let overflow : ConversationSummaryError :=
    ⟨.tokenOverflow, "summary intent capacity overflows"⟩
  let total ← require (add value.estimatedInputTokens value.capacity.reservedInputTokens) overflow
  let total ← require (add total value.capacity.reservedOutputTokens) overflow
  ensure (value.capacity.contextWindowTokens ≠ 0 ∧ total ≤ value.capacity.contextWindowTokens)
    ⟨.capacityExceeded, "summary source range does not fit"⟩

def encodeIntent (value : ConversationSummaryIntent) : Status ContentDigest := do
  let source ← require value.sources.sourceDigest
    ⟨.invalidDigest, "summary intent source seal is missing"⟩
  let writer : Seal := { maximum := summaryMaximumManifestBytes }
  let writer := writer.text "aiforge.summary-intent.v1"
  let writer := writer.number value.version
  let writer := writer.number value.formatVersion
  let writer := writer.text value.summaryId
  let writer := writer.digest source
  let writer := writer.text value.producingRunId
  let writer := writer.text value.producingInferenceId
  let writer := writer.text value.modelId
  let writer := writer.text value.outputMessageId
  let writer := writer.field value.runtimeVersion
  let writer := writer.number value.capacity.contextWindowTokens
  let writer := writer.number value.capacity.reservedInputTokens
  let writer := writer.number value.capacity.reservedOutputTokens
  let writer := writer.number value.estimatedInputTokens
  let writer := writer.number value.maximumOutputBytes
  writer.finish exhausted

def sealConversationSummaryIntent (value : ConversationSummaryIntent) :
    Status ConversationSummaryIntent := do
  intentShape value
  let digest ← encodeIntent value
  return { value with intentDigest := some digest }

def validateConversationSummaryIntent (value : ConversationSummaryIntent) : Status Unit := do
  intentShape value
  checkSeal value.intentDigest (encodeIntent value)

def versionShape (value : ConversationSummaryVersion) : Bool :=
  decide (0 < value.revision) && digestShape value.candidateDigest

def encodeVersion (writer : Seal) (value : ConversationSummaryVersion) : Seal :=
  let writer := writer.text value.summaryId
  let writer := writer.number value.revision
  writer.digest value.candidateDigest

def sourceEvent (sources : ConversationSummarySources) (event : EventId) : Bool :=
  sources.groups.any fun group => group.terminalEventId == event ||
    group.entries.any fun entry => entry.completedEventId == event

def authorShape (value : ConversationSummaryCandidate) : Status Unit :=
  match value.author with
  | .model =>
    ensure (value.revision = 1 ∧ value.editedFrom.isNone)
      ⟨.invalidCandidate, "model summary must be the initial candidate"⟩
  | .userEdit =>
    ensure (value.editedFrom.any fun previous => versionShape previous &&
        decide (previous.summaryId = value.summaryId) && decide (previous.revision ≠ uint64Max) &&
        decide (value.revision = previous.revision + 1))
      ⟨.staleRevision, "summary edit does not identify its previous version"⟩

def candidateShape (value : ConversationSummaryCandidate) (intent : ConversationSummaryIntent) :
    Status Unit := do
  let missing : ConversationSummaryError :=
    ⟨.invalidDigest, "summary candidate intent seals are missing"⟩
  let source ← require intent.sources.sourceDigest missing
  let intended ← require intent.intentDigest missing
  ensure (value.version = 1) ⟨.unsupportedVersion, "unsupported summary candidate version"⟩
  ensure (value.sessionId = intent.sources.sessionId)
    ⟨.foreignScope, "summary candidate belongs to another session"⟩
  ensure (value.summaryId = intent.summaryId ∧ value.sourceDigest = source ∧
      value.intentDigest = intended ∧ value.revision ≠ 0 ∧
      intent.sources.snapshotSequence < value.outputSequence ∧
      value.outputSequence < value.createdSequence ∧ value.outputEventId ≠ value.createdEventId)
    ⟨.invalidCandidate, "summary candidate source or producer is inconsistent"⟩
  ensure (sourceEvent intent.sources value.outputEventId = false ∧
      sourceEvent intent.sources value.createdEventId = false)
    ⟨.invalidCandidate, "summary candidate reuses a source event identity"⟩
  ensure (value.text.length ≤ intent.maximumOutputBytes)
    ⟨.resourceExhausted, "summary candidate exceeds its output bound"⟩
  ensure (isSafeUtf8Text value.text)
    ⟨.invalidCandidate, "summary candidate text is empty or unsafe"⟩
  authorShape value

def authorCode : ConversationSummaryAuthor → ℕ
  | .model => 0
  | .userEdit => 1

def encodeCandidate (value : ConversationSummaryCandidate) : Status ContentDigest :=
  let writer : Seal := { maximum := summaryMaximumManifestBytes }
  let writer := writer.text "aiforge.summary-candidate.v1"
  let writer := writer.number value.version
  let writer := writer.text value.sessionId
  let writer := writer.text value.summaryId
  let writer := writer.number value.revision
  let writer := writer.digest value.sourceDigest
  let writer := writer.digest value.intentDigest
  let writer := writer.text value.outputEventId
  let writer := writer.number value.outputSequence
  let writer := writer.text value.createdEventId
  let writer := writer.number value.createdSequence
  let writer := writer.number (authorCode value.author)
  let writer := writer.number value.editedFrom.isSome.toNat
  let writer := value.editedFrom.elim writer (encodeVersion writer)
  let writer := writer.field value.text
  writer.finish exhausted

/-- The version that names a sealed candidate. -/
def candidateVersion (value : ConversationSummaryCandidate) (digest : ContentDigest) :
    ConversationSummaryVersion := ⟨value.summaryId, value.revision, digest⟩

/-- The parent of an edit: sealed, of the same intent, and named exactly by the edit. -/
def parentLink (value : ConversationSummaryCandidate) (intent : ConversationSummaryIntent)
    (previous : ConversationSummaryCandidate) : Status Unit := do
  candidateShape previous intent
  checkSeal previous.candidateDigest (encodeCandidate previous)
  ensure (value.editedFrom.isSome ∧
      value.editedFrom = previous.candidateDigest.map (candidateVersion previous) ∧
      previous.createdSequence < value.createdSequence ∧
      value.createdEventId ≠ previous.createdEventId ∧
      value.outputEventId = previous.outputEventId ∧
      value.outputSequence = previous.outputSequence)
    ⟨.staleRevision, "summary edit parent or original provenance changed"⟩

def candidateLink (value : ConversationSummaryCandidate) (intent : ConversationSummaryIntent)
    (previous : Option ConversationSummaryCandidate) : Status Unit := do
  validateConversationSummaryIntent intent
  candidateShape value intent
  match value.author, previous with
  | .model, none => pure ()
  | .model, some _ =>
    throw ⟨.invalidCandidate, "generated summary cannot have an edit parent"⟩
  | .userEdit, none => throw ⟨.staleRevision, "summary edit parent is unavailable"⟩
  | .userEdit, some previous => parentLink value intent previous

def sealConversationSummaryCandidate (value : ConversationSummaryCandidate)
    (intent : ConversationSummaryIntent) (previous : Option ConversationSummaryCandidate) :
    Status ConversationSummaryCandidate := do
  candidateLink value intent previous
  let digest ← encodeCandidate value
  return { value with candidateDigest := some digest }

def validateConversationSummaryCandidate (value : ConversationSummaryCandidate)
    (intent : ConversationSummaryIntent) (previous : Option ConversationSummaryCandidate) :
    Status Unit := do
  candidateLink value intent previous
  checkSeal value.candidateDigest (encodeCandidate value)

def activationShape (value : ConversationSummaryActivation) : Status Unit := do
  ensure (value.version = 1) ⟨.unsupportedVersion, "unsupported summary activation version"⟩
  ensure (versionShape value.candidate ∧ digestShape value.sourceDigest ∧
      value.coveredRunIds ≠ [] ∧ value.sourceAnchorSequence ≠ 0 ∧
      value.sourceAnchorSequence < value.activationSequence)
    ⟨.invalidActivation, "summary activation reference is invalid"⟩
  ensure (value.coveredRunIds.length ≤ summaryMaximumGroups)
    ⟨.resourceExhausted, "summary activation coverage exceeds its bound"⟩
  ensure value.coveredRunIds.Nodup
    ⟨.invalidActivation, "summary activation duplicates source coverage"⟩

def encodeActivation (value : ConversationSummaryActivation) : Status ContentDigest :=
  let writer : Seal := { maximum := summaryMaximumManifestBytes }
  let writer := writer.text "aiforge.summary-activation.v1"
  let writer := writer.number value.version
  let writer := writer.text value.sessionId
  let writer := encodeVersion writer value.candidate
  let writer := writer.digest value.sourceDigest
  let writer := writer.number value.coveredRunIds.length
  let writer := value.coveredRunIds.foldl Seal.text writer
  let writer := writer.number value.sourceAnchorSequence
  let writer := writer.text value.activationEventId
  let writer := writer.number value.activationSequence
  writer.finish exhausted

def activationLink (value : ConversationSummaryActivation)
    (candidate : ConversationSummaryCandidate) (intent : ConversationSummaryIntent)
    (previous : Option ConversationSummaryCandidate) : Status Unit := do
  validateConversationSummaryCandidate candidate intent previous
  activationShape value
  ensure (value.sessionId = candidate.sessionId)
    ⟨.foreignScope, "summary activation belongs to another session"⟩
  let digest ← require candidate.candidateDigest
    ⟨.invalidDigest, "summary activation candidate seal is missing"⟩
  -- The intent has been validated, so its first source run and that run's first entry exist.
  let anchor := (intent.sources.groups.head?.bind fun group => group.entries.head?).map
    ConversationAdmittedEntry.eventSequence
  ensure (value.candidate = candidateVersion candidate digest ∧
      value.sourceDigest = candidate.sourceDigest ∧
      candidate.createdSequence < value.activationSequence ∧
      value.activationEventId ≠ candidate.createdEventId ∧
      value.activationEventId ≠ candidate.outputEventId ∧
      anchor = some value.sourceAnchorSequence ∧
      value.coveredRunIds.length = intent.sources.groups.length)
    ⟨.invalidActivation, "summary activation differs from its candidate coverage"⟩
  ensure (sourceEvent intent.sources value.activationEventId = false)
    ⟨.invalidActivation, "summary activation reuses a source event identity"⟩
  ensure (value.coveredRunIds = intent.sources.groups.map ConversationSummarySourceGroup.runId)
    ⟨.invalidActivation, "summary activation substitutes source coverage"⟩

def sealConversationSummaryActivation (value : ConversationSummaryActivation)
    (candidate : ConversationSummaryCandidate) (intent : ConversationSummaryIntent)
    (previous : Option ConversationSummaryCandidate) : Status ConversationSummaryActivation := do
  activationLink value candidate intent previous
  let digest ← encodeActivation value
  return { value with activationDigest := some digest }

def validateConversationSummaryActivation (value : ConversationSummaryActivation) :
    Status Unit := do
  activationShape value
  checkSeal value.activationDigest (encodeActivation value)

end Summary
