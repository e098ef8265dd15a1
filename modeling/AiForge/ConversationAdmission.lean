import AiForge.Money
import AiForge.Sealing
import AiForge.Sha256Evaluation
import AiForge.Staged

/-! # Conversation admission

An admission records which source messages and summaries a request admits, under which policy
and within which capacity. It is checked for its shape and then sealed: the digest of its
canonical encoding stands in the admission itself. -/
namespace Admission

open Content Framing List Money SafeText Sealing Staged Seal FieldWriter

abbrev ContextEntryId := String
abbrev ContextSourceId := String
abbrev ConversationSummaryId := String

def conversationMaximumGroups : ℕ := 4096
def conversationMaximumEntries : ℕ := 16384
def conversationMaximumPins : ℕ := 4096
def conversationMaximumProvenanceBytes : ℕ := 4096
def conversationMaximumManifestBytes : ℕ := 8 * 1024 * 1024
def conversationMaximumMessageBytes : ℕ := 16 * 1024 * 1024
def summaryMaximumActive : ℕ := 32
def summaryMaximumManifestBytes : ℕ := 2 * 1024 * 1024

inductive ConversationMode where
  | full | rolling
  deriving DecidableEq

inductive ContextContentKind where
  | conversation | evidence | toolResult | unknown
  deriving DecidableEq

structure ContextProvenance where
  sourceId : ContextSourceId
  (sourceLocation digest : Option Bytes)
  deriving DecidableEq

structure ContextCapacity where
  (contextWindowTokens reservedOutputTokens reservedInputTokens : ℕ)
  deriving DecidableEq

structure ConversationSummaryVersion where
  summaryId : ConversationSummaryId
  revision : ℕ
  candidateDigest : ContentDigest
  deriving DecidableEq

structure ConversationAdmittedEntry where
  completedEventId : EventId
  eventSequence : ℕ
  entryId : ContextEntryId
  messageId : MessageId
  provenance : ContextProvenance
  (order estimatedTokens : ℕ)
  kind : ContextContentKind
  messageDigest : ContentDigest
  deriving DecidableEq

structure ConversationAdmittedGroup where
  runId : RunId
  entries : List ConversationAdmittedEntry
  pinned : Bool
  deriving DecidableEq

structure ConversationAdmittedSummary where
  candidate : ConversationSummaryVersion
  activationEventId : EventId
  (activationSequence sourceAnchorSequence : ℕ)
  entryId : ContextEntryId
  messageId : MessageId
  provenance : ContextProvenance
  (order estimatedTokens : ℕ)
  messageDigest : ContentDigest
  deriving DecidableEq

structure ConversationAdmission where
  (version estimatorVersion : ℕ := 1)
  sessionId : SessionId
  modelId : ModelId
  sourceSnapshotSequence : ℕ
  policyEventId : Option EventId
  policyRevision : ℕ
  mode : ConversationMode
  capacity : ContextCapacity
  mandatoryInputTokens : ℕ
  groups : List ConversationAdmittedGroup
  omittedGroupCount : ℕ
  (omittedGroupsDigest admissionDigest : Option ContentDigest)
  summaries : List ConversationAdmittedSummary := []
  deriving DecidableEq

inductive ConversationAdmissionErrorCode where
  | invalidPolicy | invalidAdmission | invalidMessage | unsupportedVersion | foreignScope
  | resourceExhausted | tokenOverflow | capacityExceeded | invalidDigest | internalFailure
  deriving DecidableEq

structure ConversationAdmissionError where
  code : ConversationAdmissionErrorCode
  message : String
  deriving DecidableEq

abbrev Result := Except ConversationAdmissionError

def validDigest (digest : ContentDigest) (maximum : ℕ) : Bool :=
  digest.algorithm == "sha256" && digest.value.utf8ByteSize == 64 &&
    decide (0 < digest.byteSize) && decide (digest.byteSize ≤ maximum) &&
    digest.value.toList.all fun c => ('0' ≤ c && c ≤ '9') || ('a' ≤ c && c ≤ 'f')

def add (total value : ℕ) : Option ℕ :=
  if value > uint64Max - total then none else some (total + value)

/-- `set.insert(value).second`, with the larger set. -/
def insertNew {α : Type} [DecidableEq α] (value : α) (values : Finset α) : Option (Finset α) :=
  if value ∈ values then none else some (insert value values)

def validOptionalText (value : Option Bytes) : Bool :=
  value.all fun text => !text.isEmpty && decide (text.length ≤ conversationMaximumProvenanceBytes)

def headerShape (value : ConversationAdmission) : Result Unit := do
  ensure ((value.version = 1 ∨ value.version = 2) ∧ value.estimatorVersion = 1)
    ⟨.unsupportedVersion, "unsupported conversation admission version"⟩
  ensure (value.policyEventId.isSome = decide (value.policyRevision ≠ 0) ∧
      (value.policyEventId.isSome ∨ value.mode = .full))
    ⟨.invalidPolicy, "conversation admission policy is inconsistent"⟩
  ensure (¬ ((value.version = 1 ∨ value.mode = .full) ∧ value.summaries ≠ []))
    ⟨.invalidAdmission, "legacy or full admission cannot include summaries"⟩
  ensure (value.summaries.length ≤ summaryMaximumActive)
    ⟨.resourceExhausted, "too many admitted summaries"⟩
  ensure (value.groups.length ≤ conversationMaximumGroups)
    ⟨.resourceExhausted, "too many admitted conversation groups"⟩
  ensure (value.omittedGroupsDigest.isSome = decide (value.omittedGroupCount ≠ 0) ∧
      ¬ (value.mode = .full ∧ value.omittedGroupCount ≠ 0) ∧
      value.omittedGroupCount ≤ value.sourceSnapshotSequence)
    ⟨.invalidAdmission, "conversation omission summary is inconsistent"⟩
  ensure (value.omittedGroupsDigest.all fun digest => validDigest digest uint64Max)
    ⟨.invalidDigest, "invalid conversation omission digest"⟩

structure Sources where
  runs : Finset RunId := ∅
  events : Finset EventId := ∅
  sequences : Finset ℕ := ∅
  entries : Finset ContextEntryId := ∅
  messages : Finset MessageId := ∅
  sourceIds : Finset ContextSourceId := ∅
  (previousGroup previousOrder tokens count pins : ℕ := 0)

def Sources.entry (sources : Sources) (value : ConversationAdmittedEntry) (snapshot : ℕ) :
    Result Sources := do
  ensure (¬ (value.eventSequence < sources.previousGroup ∨ value.eventSequence > snapshot ∨
      value.order ≤ sources.previousOrder ∨ value.estimatedTokens = 0 ∨
      (value.kind ≠ .conversation ∧ value.kind ≠ .toolResult)))
    ⟨.invalidAdmission, "conversation entry order or classification is invalid"⟩
  ensure (validOptionalText value.provenance.sourceLocation ∧
      validOptionalText value.provenance.digest)
    ⟨.invalidAdmission, "conversation provenance is invalid or oversized"⟩
  ensure (validDigest value.messageDigest conversationMaximumMessageBytes)
    ⟨.invalidDigest, "conversation message digest is invalid"⟩
  let duplicated : ConversationAdmissionError :=
    ⟨.invalidAdmission, "conversation source identities are duplicated"⟩
  let events ← require (insertNew value.completedEventId sources.events) duplicated
  let sequences ← require (insertNew value.eventSequence sources.sequences) duplicated
  let entries ← require (insertNew value.entryId sources.entries) duplicated
  let messages ← require (insertNew value.messageId sources.messages) duplicated
  let sourceIds ← require (insertNew value.provenance.sourceId sources.sourceIds) duplicated
  let tokens ← require (add sources.tokens value.estimatedTokens)
    ⟨.tokenOverflow, "conversation estimates overflow"⟩
  return { sources with
    events := events, sequences := sequences, entries := entries, messages := messages
    sourceIds := sourceIds, tokens := tokens, previousOrder := value.order }

def Sources.group (sources : Sources) (value : ConversationAdmittedGroup)
    (admission : ConversationAdmission) : Result Sources := do
  let invalid : ConversationAdmissionError :=
    ⟨.invalidAdmission, "conversation group is invalid"⟩
  let first ← require value.entries.head? invalid
  let runs ← require (insertNew value.runId sources.runs) invalid
  ensure (first.kind = .conversation ∧ sources.previousGroup < first.eventSequence ∧
      ¬ (value.pinned ∧ admission.policyEventId.isNone)) invalid
  ensure (value.entries.length ≤ conversationMaximumEntries - sources.count)
    ⟨.resourceExhausted, "too many conversation source entries"⟩
  let pins := if value.pinned then sources.pins + 1 else sources.pins
  ensure (¬ (value.pinned ∧ pins > conversationMaximumPins))
    ⟨.resourceExhausted, "too many conversation pins"⟩
  value.entries.foldlM (fun sources item => sources.entry item admission.sourceSnapshotSequence)
    { sources with
      runs := runs, count := sources.count + value.entries.length, pins := pins
      previousGroup := first.eventSequence }

structure SummarySources where
  summaries : Finset ConversationSummaryId := ∅
  previous : Option (ℕ × ConversationSummaryId) := none
  tokens : ℕ := 0

def positionLe (first second : ℕ × ConversationSummaryId) : Bool :=
  decide (first.1 < second.1) || (first.1 == second.1 && decide (first.2 ≤ second.2))

def SummarySources.entry (summaries : SummarySources) (value : ConversationAdmittedSummary)
    (admission : ConversationAdmission) (sources : Sources) :
    Result (SummarySources × Sources) := do
  let position := (value.sourceAnchorSequence, value.candidate.summaryId)
  ensure (¬ (value.candidate.revision = 0 ∨ value.sourceAnchorSequence = 0 ∨
      value.activationSequence ≤ value.sourceAnchorSequence ∨
      value.activationSequence > admission.sourceSnapshotSequence ∨
      value.order ≤ sources.previousOrder ∨ value.estimatedTokens = 0 ∨
      summaries.previous.any (positionLe position) ∨
      !validOptionalText value.provenance.sourceLocation ∨
      !validOptionalText value.provenance.digest))
    ⟨.invalidAdmission, "admitted summary metadata is invalid"⟩
  ensure (validDigest value.candidate.candidateDigest summaryMaximumManifestBytes ∧
      validDigest value.messageDigest conversationMaximumMessageBytes)
    ⟨.invalidDigest, "admitted summary digest is invalid"⟩
  let duplicated : ConversationAdmissionError :=
    ⟨.invalidAdmission, "admitted summary identities are duplicated"⟩
  let seen ← require (insertNew value.candidate.summaryId summaries.summaries) duplicated
  let events ← require (insertNew value.activationEventId sources.events) duplicated
  let sequences ← require (insertNew value.activationSequence sources.sequences) duplicated
  let entries ← require (insertNew value.entryId sources.entries) duplicated
  let messages ← require (insertNew value.messageId sources.messages) duplicated
  let sourceIds ← require (insertNew value.provenance.sourceId sources.sourceIds) duplicated
  let tokens ← require (add summaries.tokens value.estimatedTokens)
    ⟨.tokenOverflow, "admitted summary estimates overflow"⟩
  return ({ summaries := seen, previous := some position, tokens := tokens },
    { sources with
      events := events, sequences := sequences, entries := entries, messages := messages
      sourceIds := sourceIds, previousOrder := value.order })

def shape (value : ConversationAdmission) : Result Unit := do
  headerShape value
  let start : SummarySources × Sources := ({}, {})
  let (summaries, sources) ← value.summaries.foldlM
    (fun state summary => state.1.entry summary value state.2) start
  ensure (summaries.tokens ≤ value.mandatoryInputTokens)
    ⟨.invalidAdmission, "mandatory input does not include admitted summary estimates"⟩
  let sources ← value.groups.foldlM (fun sources group => sources.group group value) sources
  let overflow : ConversationAdmissionError :=
    ⟨.tokenOverflow, "conversation capacity accounting overflows"⟩
  let total ← require (add value.mandatoryInputTokens sources.tokens) overflow
  let total ← require (add total value.capacity.reservedInputTokens) overflow
  let total ← require (add total value.capacity.reservedOutputTokens) overflow
  ensure (value.capacity.contextWindowTokens ≠ 0 ∧ total ≤ value.capacity.contextWindowTokens)
    ⟨.capacityExceeded, "admitted conversation exceeds context capacity"⟩

def modeCode : ConversationMode → ℕ
  | .full => 0
  | .rolling => 1

def kindCode : ContextContentKind → ℕ
  | .conversation => 0
  | .evidence => 1
  | .toolResult => 2
  | .unknown => 3

def encodeEntry (writer : Seal) (value : ConversationAdmittedEntry) : Seal :=
  let writer := writer.text value.completedEventId
  let writer := writer.number value.eventSequence
  let writer := writer.text value.entryId
  let writer := writer.text value.messageId
  let writer := writer.text value.provenance.sourceId
  let writer := writer.optionalText value.provenance.sourceLocation
  let writer := writer.optionalText value.provenance.digest
  let writer := writer.number value.order
  let writer := writer.number value.estimatedTokens
  let writer := writer.number (kindCode value.kind)
  writer.digest value.messageDigest

def encodeSummary (writer : Seal) (value : ConversationAdmittedSummary) : Seal :=
  let writer := writer.text value.candidate.summaryId
  let writer := writer.number value.candidate.revision
  let writer := writer.digest value.candidate.candidateDigest
  let writer := writer.text value.activationEventId
  let writer := writer.number value.activationSequence
  let writer := writer.number value.sourceAnchorSequence
  let writer := writer.text value.entryId
  let writer := writer.text value.messageId
  let writer := writer.text value.provenance.sourceId
  let writer := writer.optionalText value.provenance.sourceLocation
  let writer := writer.optionalText value.provenance.digest
  let writer := writer.number value.order
  let writer := writer.number value.estimatedTokens
  writer.digest value.messageDigest

def encodeGroup (writer : Seal) (group : ConversationAdmittedGroup) : Seal :=
  let writer := writer.text group.runId
  let writer := writer.number group.pinned.toNat
  let writer := writer.number group.entries.length
  group.entries.foldl encodeEntry writer

def exhausted : ConversationAdmissionError :=
  ⟨.resourceExhausted, "conversation encoding exceeds its bound"⟩

def encodedAdmission (value : ConversationAdmission) : Result ContentDigest :=
  let writer : Seal := { maximum := conversationMaximumManifestBytes }
  let writer := writer.text (if value.version = 1 then "aiforge.conversation-admission.v1"
    else "aiforge.conversation-admission.v2")
  let writer := writer.number value.version
  let writer := writer.number value.estimatorVersion
  let writer := writer.text value.sessionId
  let writer := writer.text value.modelId
  let writer := writer.number value.sourceSnapshotSequence
  let writer := writer.number value.policyEventId.isSome.toNat
  let writer := value.policyEventId.elim writer writer.text
  let writer := writer.number value.policyRevision
  let writer := writer.number (modeCode value.mode)
  let writer := writer.number value.capacity.contextWindowTokens
  let writer := writer.number value.capacity.reservedOutputTokens
  let writer := writer.number value.capacity.reservedInputTokens
  let writer := writer.number value.mandatoryInputTokens
  let writer := writer.number value.groups.length
  let writer := value.groups.foldl encodeGroup writer
  let writer := writer.number value.omittedGroupCount
  let writer := writer.number value.omittedGroupsDigest.isSome.toNat
  let writer := value.omittedGroupsDigest.elim writer writer.digest
  let writer := if value.version = 2 then
      value.summaries.foldl encodeSummary (writer.number value.summaries.length)
    else writer
  writer.finish exhausted

def sealConversationAdmission (admission : ConversationAdmission) :
    Result ConversationAdmission := do
  shape admission
  let digest ← encodedAdmission admission
  return { admission with admissionDigest := some digest }

def validateConversationAdmission (admission : ConversationAdmission) : Result Unit := do
  shape admission
  let missing : ConversationAdmissionError :=
    ⟨.invalidDigest, "conversation admission seal is missing or invalid"⟩
  let recorded ← require admission.admissionDigest missing
  ensure (validDigest recorded conversationMaximumManifestBytes) missing
  let digest ← encodedAdmission admission
  ensure (digest = recorded) ⟨.invalidDigest, "conversation admission integrity check failed"⟩

def entryFields (value : ConversationAdmittedEntry) : List Bytes :=
  [bytesOf value.completedEventId, decimal value.eventSequence, bytesOf value.entryId,
    bytesOf value.messageId, bytesOf value.provenance.sourceId] ++
  optionalTextFields value.provenance.sourceLocation ++
  optionalTextFields value.provenance.digest ++
  [decimal value.order, decimal value.estimatedTokens, decimal (kindCode value.kind)] ++
  digestFields value.messageDigest

def summaryFields (value : ConversationAdmittedSummary) : List Bytes :=
  [bytesOf value.candidate.summaryId, decimal value.candidate.revision] ++
  digestFields value.candidate.candidateDigest ++
  [bytesOf value.activationEventId, decimal value.activationSequence,
    decimal value.sourceAnchorSequence, bytesOf value.entryId, bytesOf value.messageId,
    bytesOf value.provenance.sourceId] ++
  optionalTextFields value.provenance.sourceLocation ++
  optionalTextFields value.provenance.digest ++
  [decimal value.order, decimal value.estimatedTokens] ++ digestFields value.messageDigest

def groupFields (group : ConversationAdmittedGroup) : List Bytes :=
  [bytesOf group.runId, presence group.pinned] ++ counted decimal entryFields group.entries

def admissionFields (value : ConversationAdmission) : List Bytes :=
  [bytesOf (if value.version = 1 then "aiforge.conversation-admission.v1"
      else "aiforge.conversation-admission.v2"),
    decimal value.version, decimal value.estimatorVersion, bytesOf value.sessionId,
    bytesOf value.modelId, decimal value.sourceSnapshotSequence] ++
  tagged presence (fun id => [bytesOf id]) value.policyEventId ++
  [decimal value.policyRevision, decimal (modeCode value.mode),
    decimal value.capacity.contextWindowTokens, decimal value.capacity.reservedOutputTokens,
    decimal value.capacity.reservedInputTokens, decimal value.mandatoryInputTokens] ++
  counted decimal groupFields value.groups ++ [decimal value.omittedGroupCount] ++
  tagged presence digestFields value.omittedGroupsDigest ++
  if value.version = 2 then counted decimal summaryFields value.summaries else []

/-- The bytes that an admission is sealed by. -/
def encoding (value : ConversationAdmission) : Bytes := canonical (admissionFields value)

theorem encodeEntry_fields (writer : Seal) (value : ConversationAdmittedEntry) :
    encodeEntry writer value = fields writer (entryFields value) := by
  simp only [encodeEntry, entryFields, text_fields, number_fields,
    optionalText_fields, digest_fields, fields_append, append_assoc,
    cons_append, nil_append]

theorem encodeSummary_fields (writer : Seal) (value : ConversationAdmittedSummary) :
    encodeSummary writer value = fields writer (summaryFields value) := by
  simp only [encodeSummary, summaryFields, text_fields, number_fields,
    optionalText_fields, digest_fields, fields_append, append_assoc,
    cons_append, nil_append]

theorem encodeGroup_fields (writer : Seal) (group : ConversationAdmittedGroup) :
    encodeGroup writer group = fields writer (groupFields group) := by
  simp only [encodeGroup, groupFields, counted, presence, text_fields, number_fields,
    foldl_fields encodeEntry_fields, fields_append, cons_append, nil_append]

theorem summaries_fields (writer : Seal) (value : ConversationAdmission) :
    (if value.version = 2 then
      value.summaries.foldl encodeSummary (writer.number value.summaries.length) else writer) =
    fields writer (if value.version = 2 then counted decimal summaryFields value.summaries
      else []) := by
  split
  · rw [foldl_fields encodeSummary_fields]
    rfl
  · rfl

theorem encodedAdmission_eq (value : ConversationAdmission) : encodedAdmission value =
    if (encoding value).length ≤ conversationMaximumManifestBytes then
      .ok (contentDigest (encoding value)) else .error exhausted := by
  have h := finish_canonical exhausted conversationMaximumManifestBytes
    (admissionFields value)
  rw [encoding, ← h]
  unfold encodedAdmission admissionFields
  dsimp only
  rw [summaries_fields]
  simp only [tagged, counted, presence, text_fields, number_fields,
    elim_fields (text_fields _), elim_fields (digest_fields _),
    foldl_fields encodeGroup_fields, fields_append, append_assoc,
    cons_append, nil_append]

/-- Everything in an admission except its seal. -/
def unsealed (value : ConversationAdmission) : ConversationAdmission :=
  { value with admissionDigest := none }

theorem modeCode_inj : Function.Injective modeCode := by
  intro first second h
  cases first <;> cases second <;> first | rfl | cases h

theorem kindCode_inj : Function.Injective kindCode := by
  intro first second h
  cases first <;> cases second <;> first | rfl | cases h

theorem entryFields_delimited : SelfDelimiting entryFields := by
  rintro ⟨_, _, _, _, ⟨⟩, _, _, _, _⟩ ⟨_, _, _, _, ⟨⟩, _, _, _, _⟩ _ _ h
  simp only [entryFields, append_assoc, cons_append, nil_append, List.cons.injEq,
    bytesOf_inj, decimal_inj] at h
  obtain ⟨rfl, rfl, rfl, rfl, rfl, h₁⟩ := h
  obtain ⟨rfl, h₂⟩ := optionalTextFields_delimited _ _ _ _ h₁
  obtain ⟨rfl, h₃⟩ := optionalTextFields_delimited _ _ _ _ h₂
  simp only [List.cons.injEq, decimal_inj, kindCode_inj.eq_iff] at h₃
  obtain ⟨rfl, rfl, rfl, h₄⟩ := h₃
  obtain ⟨rfl, hrest⟩ := digestFields_delimited _ _ _ _ h₄
  exact ⟨rfl, hrest⟩

theorem summaryFields_delimited : SelfDelimiting summaryFields := by
  rintro ⟨⟨⟩, _, _, _, _, _, ⟨⟩, _, _, _⟩ ⟨⟨⟩, _, _, _, _, _, ⟨⟩, _, _, _⟩ _ _ h
  simp only [summaryFields, append_assoc, cons_append, nil_append, List.cons.injEq,
    bytesOf_inj, decimal_inj] at h
  obtain ⟨rfl, rfl, h₁⟩ := h
  obtain ⟨rfl, h₂⟩ := digestFields_delimited _ _ _ _ h₁
  simp only [List.cons.injEq, bytesOf_inj, decimal_inj] at h₂
  obtain ⟨rfl, rfl, rfl, rfl, rfl, rfl, h₃⟩ := h₂
  obtain ⟨rfl, h₄⟩ := optionalTextFields_delimited _ _ _ _ h₃
  obtain ⟨rfl, h₅⟩ := optionalTextFields_delimited _ _ _ _ h₄
  simp only [List.cons.injEq, decimal_inj] at h₅
  obtain ⟨rfl, rfl, h₆⟩ := h₅
  obtain ⟨rfl, hrest⟩ := digestFields_delimited _ _ _ _ h₆
  exact ⟨rfl, hrest⟩

theorem groupFields_delimited : SelfDelimiting groupFields := by
  rintro ⟨⟩ ⟨⟩ _ _ h
  simp only [groupFields, cons_append, nil_append, List.cons.injEq, bytesOf_inj,
    presence_inj.eq_iff] at h
  obtain ⟨rfl, rfl, h₁⟩ := h
  obtain ⟨rfl, hrest⟩ :=
    delimited_counted decimal_injective entryFields_delimited _ _ _ _ h₁
  exact ⟨rfl, hrest⟩

variable {value : ConversationAdmission}

/-- Version one admits no summaries, so leaving them out of its encoding loses nothing. -/
theorem headerShape_summaries (h : headerShape value = .ok ()) :
    value.version = 2 ∨ value.summaries = [] := by
  obtain ⟨_, hver, h⟩ := bind_ok.1 h
  replace h := later h
  obtain ⟨_, hsum, -⟩ := bind_ok.1 h
  obtain ⟨hver, -⟩ := ensure_ok.1 hver
  have hsum := ensure_ok.1 hsum
  rcases hver with hone | htwo
  · right
    by_contra hne
    exact hsum ⟨.inl hone, hne⟩
  · exact .inl htwo

theorem shape_header (h : shape value = .ok ()) : headerShape value = .ok () := by
  obtain ⟨_, hh, -⟩ := bind_ok.1 h
  exact hh

theorem admissionFields_inj {first second : ConversationAdmission}
    (hf : headerShape first = .ok ()) (hs : headerShape second = .ok ())
    (h : admissionFields first = admissionFields second) : unsealed first = unsealed second := by
  have hf := headerShape_summaries hf
  have hs := headerShape_summaries hs
  obtain ⟨version, _, _, _, _, _, _, _, ⟨⟩, _, _, _, _, _, summaries⟩ := first
  obtain ⟨_, _, _, _, _, _, _, _, ⟨⟩, _, _, _, _, _, summaries'⟩ := second
  simp only [admissionFields, append_assoc, cons_append, nil_append,
    List.cons.injEq, bytesOf_inj, decimal_inj] at h
  obtain ⟨-, rfl, rfl, rfl, rfl, rfl, h₁⟩ := h
  obtain ⟨rfl, h₂⟩ := delimited_tagged presence_inj
    (delimited_single bytesOf_injective) _ _ _ _ h₁
  simp only [List.cons.injEq, decimal_inj, modeCode_inj.eq_iff] at h₂
  obtain ⟨rfl, rfl, rfl, rfl, rfl, rfl, h₃⟩ := h₂
  obtain ⟨rfl, h₄⟩ :=
    delimited_counted decimal_injective groupFields_delimited _ _ _ _ h₃
  simp only [List.cons.injEq, decimal_inj] at h₄
  obtain ⟨rfl, h₅⟩ := h₄
  obtain ⟨rfl, hrest⟩ :=
    delimited_tagged presence_inj digestFields_delimited _ _ _ _ h₅
  have hsum : summaries = summaries' := by
    dsimp only at hf hs
    by_cases htwo : version = 2
    · rw [if_pos htwo, if_pos htwo] at hrest
      exact (delimited_counted decimal_injective summaryFields_delimited).injective hrest
    · rw [hf.resolve_left htwo, hs.resolve_left htwo]
  rw [hsum]
  rfl

theorem encoding_injective {first second : ConversationAdmission} (hf : shape first = .ok ())
    (hs : shape second = .ok ()) (h : encoding first = encoding second) :
    unsealed first = unsealed second :=
  admissionFields_inj (shape_header hf) (shape_header hs) (canonical_inj h)

theorem encoding_pos (value : ConversationAdmission) : 0 < (encoding value).length :=
  canonical_pos (by simp [admissionFields])

theorem hex_in_range {c : Char} (h : c ∈ Sha256.hexDigits) :
    (('0' ≤ c && c ≤ '9') || ('a' ≤ c && c ≤ 'f')) = true := by
  fin_cases h <;> rfl

theorem validDigest_contentDigest {bytes : Bytes} {maximum : ℕ} (hpos : 0 < bytes.length)
    (hmax : bytes.length ≤ maximum) : validDigest (contentDigest bytes) maximum := by
  obtain ⟨hsize, hhex⟩ := Sha256.digest_shape bytes
  have hall : (Sha256.digest bytes).toList.all
      (fun c => ('0' ≤ c && c ≤ '9') || ('a' ≤ c && c ≤ 'f')) = true := by
    rw [all_eq_true]
    intro c hc
    exact hex_in_range (hhex c hc)
  simp only [validDigest, contentDigest, hsize, hall, hpos, hmax]
  decide

theorem validate_eq_ok : validateConversationAdmission value = .ok () ↔ shape value = .ok () ∧
      (encoding value).length ≤ conversationMaximumManifestBytes ∧
      value.admissionDigest = some (contentDigest (encoding value)) := by
  constructor
  · intro h
    obtain ⟨_, hshp, h⟩ := bind_ok.1 h
    obtain ⟨_, hrec, h⟩ := bind_ok.1 h
    replace h := later h
    obtain ⟨_, hdig, h⟩ := bind_ok.1 h
    obtain rfl := ensure_ok.1 h
    rw [require_ok] at hrec
    rw [encodedAdmission_eq] at hdig
    split at hdig
    · rename_i hle
      cases hdig
      exact ⟨hshp, hle, hrec⟩
    · cases hdig
  · rintro ⟨hshp, hle, hdig⟩
    have hval := validDigest_contentDigest (encoding_pos value) hle
    refine bind_ok.2 ⟨(), hshp, ?_⟩
    refine bind_ok.2 ⟨_, require_ok.2 hdig, ?_⟩
    refine ensured hval ?_
    refine bind_ok.2 ⟨_, by rw [encodedAdmission_eq, if_pos hle], ?_⟩
    exact ensure_ok.2 rfl

theorem validate_sealed {sealed : ConversationAdmission}
    (h : sealConversationAdmission value = .ok sealed) :
    validateConversationAdmission sealed = .ok () := by
  obtain ⟨_, hshp, h⟩ := bind_ok.1 h
  obtain ⟨_, hdig, h⟩ := bind_ok.1 h
  cases h
  rw [encodedAdmission_eq] at hdig
  split at hdig
  · rename_i hle
    cases hdig
    exact validate_eq_ok.2 ⟨hshp, hle, rfl⟩
  · cases hdig

def scheme : Scheme ConversationAdmission where
  shape value := shape value = .ok ()
  fits value := (encoding value).length ≤ conversationMaximumManifestBytes
  encoding := encoding
  digest := ConversationAdmission.admissionDigest
  unsealed := unsealed
  injective := encoding_injective
  encoding_congr {a b} h := by
    have hsame := congrArg encoding h
    exact hsame
  ext {a b} h hd := by
    cases a
    cases b
    cases h
    cases hd
    rfl

/-- The encoding of well-shaped admissions determines them up to the seal, a sealed admission
is valid, and a valid admission in which the seal or anything under it is changed is not, as
long as SHA-256 keeps the two encodings apart. -/
theorem admission_tamper_evident :
    (∀ first second : ConversationAdmission, shape first = .ok () → shape second = .ok () →
      encoding first = encoding second → unsealed first = unsealed second) ∧
    (∀ admission sealed : ConversationAdmission,
      sealConversationAdmission admission = .ok sealed →
      validateConversationAdmission sealed = .ok ()) ∧
    (∀ sealed changed : ConversationAdmission, validateConversationAdmission sealed = .ok () →
      changed ≠ sealed →
      (changed.admissionDigest = sealed.admissionDigest ∨ unsealed changed = unsealed sealed) →
      (Sha256.digest (encoding changed) = Sha256.digest (encoding sealed) →
        encoding changed = encoding sealed) →
      validateConversationAdmission changed ≠ .ok ()) := by
  refine ⟨?_, ?_, ?_⟩
  · intro first second hf hs h
    exact encoding_injective hf hs h
  · intro admission sealed h
    exact validate_sealed h
  · intro sealed changed h hne hkeep hfree
    rw [validate_eq_ok] at h
    rw [ne_eq, validate_eq_ok]
    exact scheme.not_valid_of_changed h hne hkeep hfree

def sampleDigest (bytes : ℕ) : ContentDigest :=
  ⟨"sha256", "00000000000000000000000000000000000000000000000000000000000000ab", bytes⟩

def sampleAdmission : ConversationAdmission where
  version := 2
  sessionId := "session"
  modelId := "model"
  sourceSnapshotSequence := 9
  policyEventId := some "policy"
  policyRevision := 1
  mode := .rolling
  capacity := ⟨1000, 100, 50⟩
  mandatoryInputTokens := 20
  groups := [⟨"run", [⟨"event", 5, "entry", "message", ⟨"source", none, some [1, 2]⟩, 4, 30,
    .conversation, sampleDigest 12⟩], true⟩]
  omittedGroupCount := 0
  omittedGroupsDigest := none
  admissionDigest := none
  summaries := [⟨⟨"summary", 1, sampleDigest 40⟩, "activation", 3, 1, "summary-entry",
    "summary-message", ⟨"summary-source", none, none⟩, 2, 20, sampleDigest 7⟩]

def sampleSealed : ConversationAdmission :=
  { sampleAdmission with admissionDigest := some (contentDigest (encoding sampleAdmission)) }

/-- Unpinning the run of a sealed admission is noticed. -/
theorem unpinned_admission_invalid : validateConversationAdmission sampleSealed = .ok () ∧
    validateConversationAdmission { sampleSealed with
      groups := sampleSealed.groups.map fun group => { group with pinned := false } } ≠ .ok () := by
  have hvalid : validateConversationAdmission sampleSealed = .ok () :=
    validate_eq_ok.2 ⟨by decide +kernel, by decide +kernel, rfl⟩
  have hpinned : Sha256.digest (encoding sampleSealed) =
      "f600584d3f42fbb7d872b284ed33fa9e9713ba12fa44d2aa074eeb751f3193fd" := by
    rw [Sha256Evaluation.digest_eq_digestNat (by decide +kernel)]
    decide +kernel
  have hunpinned : Sha256.digest (encoding { sampleSealed with
      groups := sampleSealed.groups.map fun group => { group with pinned := false } }) =
      "645353578553377595af73592a1f14b83ca1c72c74f12ceebb2912c02ec3385a" := by
    rw [Sha256Evaluation.digest_eq_digestNat (by decide +kernel)]
    decide +kernel
  refine ⟨hvalid, ?_⟩
  refine admission_tamper_evident.2.2 sampleSealed _ hvalid (by decide +kernel) (.inl rfl) ?_
  intro hsame
  exact absurd (hunpinned.symm.trans (hsame.trans hpinned)) (by decide)

end Admission
