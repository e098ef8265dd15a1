import AiForge.ConversationAdmission
import AiForge.JsonShape
import AiForge.NamedMembers

/-! # Conversation admissions as documents

A sealed admission is stored as a document. The decoder bounds the document before it copies
anything out of it, by budgets that know nothing of the seal, and takes only what the encoder
would have written. -/
namespace ConversationDocument

open Admission hiding Result
open Content SafeText
open Json (obj)
open PayloadCodec Staged

def maximumNodes : ℕ :=
  conversationMaximumEntries * 32 + conversationMaximumGroups * 4 + summaryMaximumActive * 32 + 64

def maximumDepth : ℕ := 8

/-- A number that is not an unsigned integer. -/
def isSigned : Json → Bool
  | .number value => decide (value < 0)
  | .float _ => true
  | _ => false

def shapeBounds : Failure := .codec "conversation metadata exceeds shape bounds"

/-- What the node leaves of the budget for text. -/
def checkConversationNode (value : Json) (bytes depth : ℕ) : Result ℕ := do
  ensure (depth ≤ maximumDepth ∧ ¬ isSigned value) shapeBounds
  match value with
  | .text text => do
    ensure (text.length ≤ conversationMaximumProvenanceBytes ∧ text.length ≤ bytes)
      (.codec "conversation metadata exceeds text bounds")
    return bytes - text.length
  | _ => return bytes

def isContainer : Json → Bool
  | .array _ => true
  | .object _ => true
  | _ => false

/-- The values still to be checked with their depths, the next one first. Each value takes one
node of the budget. -/
def checkConversationPending : ℕ → ℕ → List (Json × ℕ) → Result Unit
  | _, _, [] => .ok ()
  | 0, _, _ :: _ => .error shapeBounds
  | nodes + 1, bytes, (item, depth) :: pending => do
    let bytes ← checkConversationNode item bytes depth
    -- The budget must cover every queued child before the children are queued.
    onlyIf (isContainer item)
      (ensure (pending.length ≤ nodes ∧ item.size ≤ nodes - pending.length) shapeBounds)
    checkConversationPending nodes bytes
      ((item.children.map fun child => (child, depth + 1)).reverse ++ pending)

def checkConversationShape (value : Json) : Result Unit :=
  checkConversationPending maximumNodes conversationMaximumManifestBytes [(value, 0)]

/-- `Json::get<std::uint64_t>`, for the numbers that the shape leaves. -/
def getU64 : Json → Result ℕ
  | .number value => .ok (value % 2 ^ 64).toNat
  | _ => .error .json

def numberJson (value : ℕ) : Json := .number value

def optionalBytesJson (value : Option Bytes) : Json := (value.map Json.text).getD .null

def parseOptionalBytes : Json → Result (Option Bytes)
  | .null => .ok none
  | .text value => .ok (some value)
  | _ => .error (.codec "optional text field is invalid")

def digestFieldNames : List String := ["algorithm", "value", "byte_size"]

def digestMembers (digest : ContentDigest) : List (Bytes × Json) := [
  (key "algorithm", .text (bytesOf digest.algorithm)),
  (key "value", .text (bytesOf digest.value)),
  (key "byte_size", numberJson digest.byteSize)]

def digestJson (digest : ContentDigest) : Json := obj (digestMembers digest)

def parseDigest (value : Json) : Result ContentDigest := do
  let algorithm ← field value "algorithm" >>= getText
  let digest ← field value "value" >>= getText
  let byteSize ← field value "byte_size" >>= getU64
  return ⟨algorithm, digest, byteSize⟩

def optionalDigestJson (digest : Option ContentDigest) : Json := (digest.map digestJson).getD .null

def parseOptionalDigest (value : Json) : Result (Option ContentDigest) :=
  if value.isNull then .ok none else (parseDigest value).map some

def conversationModeName : ConversationMode → String
  | .full => "full"
  | .rolling => "rolling"

def parseConversationMode (value : Json) : Result ConversationMode :=
  if value = .text (bytesOf "full") then .ok .full
  else if value = .text (bytesOf "rolling") then .ok .rolling
  else .error (.codec "invalid conversation mode")

def conversationKindName : ContextContentKind → Result String
  | .conversation => .ok "conversation"
  | .toolResult => .ok "tool_result"
  | .evidence => .error (.codec "invalid conversation entry kind")
  | .unknown => .error (.codec "invalid conversation entry kind")

def parseConversationKind (value : Json) : Result ContextContentKind :=
  if value = .text (bytesOf "conversation") then .ok .conversation
  else if value = .text (bytesOf "tool_result") then .ok .toolResult
  else .error (.codec "invalid conversation entry kind")

def provenanceFieldNames : List String := ["source_id", "source_location", "digest"]

def provenanceMembers (value : ContextProvenance) : List (Bytes × Json) := [
  (key "source_id", idText value.sourceId),
  (key "source_location", optionalBytesJson value.sourceLocation),
  (key "digest", optionalBytesJson value.digest)]

def provenanceJson (value : ContextProvenance) : Json := obj (provenanceMembers value)

def parseProvenance (value : Json) : Result ContextProvenance := do
  let sourceId ← field value "source_id" >>= parseId
  let sourceLocation ← field value "source_location" >>= parseOptionalBytes
  let digest ← field value "digest" >>= parseOptionalBytes
  return ⟨sourceId, sourceLocation, digest⟩

def entryFieldNames : List String := ["completed_event_id", "event_sequence", "entry_id",
  "message_id", "provenance", "order", "estimated_tokens", "kind", "message_digest"]

def entryMembers (entry : ConversationAdmittedEntry) (kind : String) : List (Bytes × Json) := [
  (key "completed_event_id", idText entry.completedEventId),
  (key "event_sequence", numberJson entry.eventSequence),
  (key "entry_id", idText entry.entryId),
  (key "message_id", idText entry.messageId),
  (key "provenance", provenanceJson entry.provenance),
  (key "order", numberJson entry.order),
  (key "estimated_tokens", numberJson entry.estimatedTokens),
  (key "kind", .text (bytesOf kind)),
  (key "message_digest", digestJson entry.messageDigest)]

def entryJson (entry : ConversationAdmittedEntry) : Result Json := do
  let kind ← conversationKindName entry.kind
  return obj (entryMembers entry kind)

def parseEntry (value : Json) : Result ConversationAdmittedEntry := do
  let provenance ← field value "provenance"
  let completedEventId ← field value "completed_event_id" >>= parseId
  let eventSequence ← field value "event_sequence" >>= getU64
  let entryId ← field value "entry_id" >>= parseId
  let messageId ← field value "message_id" >>= parseId
  let provenance ← parseProvenance provenance
  let order ← field value "order" >>= getU64
  let estimatedTokens ← field value "estimated_tokens" >>= getU64
  let kind ← field value "kind" >>= parseConversationKind
  let messageDigest ← field value "message_digest" >>= parseDigest
  return { completedEventId, eventSequence, entryId, messageId, provenance, order
           estimatedTokens, kind, messageDigest }

def groupFieldNames : List String := ["run_id", "entries", "pinned"]

def groupMembers (group : ConversationAdmittedGroup) (entries : List Json) :
    List (Bytes × Json) := [
  (key "run_id", idText group.runId),
  (key "entries", .array entries),
  (key "pinned", .boolean group.pinned)]

def groupJson (group : ConversationAdmittedGroup) : Result Json := do
  let entries ← group.entries.mapM entryJson
  return obj (groupMembers group entries)

/-- The loops over the members of a document. -/
def itemsOf : Json → List Json := Json.children

def parseGroup (value : Json) : Result ConversationAdmittedGroup := do
  let runId ← field value "run_id" >>= parseId
  let pinned ← field value "pinned" >>= getBool
  let entries ← field value "entries"
  let entries ← (itemsOf entries).mapM parseEntry
  return { runId, entries, pinned }

def candidateFieldNames : List String := ["summary_id", "revision", "candidate_digest"]

def candidateMembers (value : ConversationSummaryVersion) : List (Bytes × Json) := [
  (key "summary_id", idText value.summaryId),
  (key "revision", numberJson value.revision),
  (key "candidate_digest", digestJson value.candidateDigest)]

def summaryFieldNames : List String := ["candidate", "activation_event_id", "activation_sequence",
  "source_anchor_sequence", "entry_id", "message_id", "provenance", "order", "estimated_tokens",
  "message_digest"]

def summaryMembers (value : ConversationAdmittedSummary) : List (Bytes × Json) := [
  (key "candidate", obj (candidateMembers value.candidate)),
  (key "activation_event_id", idText value.activationEventId),
  (key "activation_sequence", numberJson value.activationSequence),
  (key "source_anchor_sequence", numberJson value.sourceAnchorSequence),
  (key "entry_id", idText value.entryId),
  (key "message_id", idText value.messageId),
  (key "provenance", provenanceJson value.provenance),
  (key "order", numberJson value.order),
  (key "estimated_tokens", numberJson value.estimatedTokens),
  (key "message_digest", digestJson value.messageDigest)]

def admittedSummaryJson (value : ConversationAdmittedSummary) : Json := obj (summaryMembers value)

def checkAdmittedSummaryFields (value : Json) : Result Unit := do
  requireConversationFields value summaryFieldNames
  let candidate ← field value "candidate"
  requireConversationFields candidate candidateFieldNames
  field candidate "candidate_digest" >>= (requireConversationFields · digestFieldNames)
  field value "provenance" >>= (requireConversationFields · provenanceFieldNames)
  field value "message_digest" >>= (requireConversationFields · digestFieldNames)

def parseCandidate (value : Json) : Result ConversationSummaryVersion := do
  let summaryId ← field value "summary_id" >>= parseId
  let revision ← field value "revision" >>= getU64
  let candidateDigest ← field value "candidate_digest" >>= parseDigest
  return ⟨summaryId, revision, candidateDigest⟩

def parseAdmittedSummary (value : Json) : Result ConversationAdmittedSummary := do
  let candidate ← field value "candidate"
  let provenance ← field value "provenance"
  let candidate ← parseCandidate candidate
  let activationEventId ← field value "activation_event_id" >>= parseId
  let activationSequence ← field value "activation_sequence" >>= getU64
  let sourceAnchorSequence ← field value "source_anchor_sequence" >>= getU64
  let entryId ← field value "entry_id" >>= parseId
  let messageId ← field value "message_id" >>= parseId
  let provenance ← parseProvenance provenance
  let order ← field value "order" >>= getU64
  let estimatedTokens ← field value "estimated_tokens" >>= getU64
  let messageDigest ← field value "message_digest" >>= parseDigest
  return { candidate, activationEventId, activationSequence, sourceAnchorSequence, entryId
           messageId, provenance, order, estimatedTokens, messageDigest }

def capacityFieldNames : List String :=
  ["context_window_tokens", "reserved_output_tokens", "reserved_input_tokens"]

def capacityMembers (value : ContextCapacity) : List (Bytes × Json) := [
  (key "context_window_tokens", numberJson value.contextWindowTokens),
  (key "reserved_output_tokens", numberJson value.reservedOutputTokens),
  (key "reserved_input_tokens", numberJson value.reservedInputTokens)]

def parseCapacity (value : Json) : Result ContextCapacity := do
  let contextWindowTokens ← field value "context_window_tokens" >>= getU64
  let reservedOutputTokens ← field value "reserved_output_tokens" >>= getU64
  let reservedInputTokens ← field value "reserved_input_tokens" >>= getU64
  return ⟨contextWindowTokens, reservedOutputTokens, reservedInputTokens⟩

def admissionFieldNames : List String := ["version", "estimator_version", "session_id", "model_id",
  "source_snapshot_sequence", "policy_event_id", "policy_revision", "mode", "capacity",
  "mandatory_input_tokens", "groups", "omitted_group_count", "omitted_groups_digest",
  "admission_digest"]

def admissionMembers (admission : ConversationAdmission) (digest : ContentDigest)
    (groups : List Json) : List (Bytes × Json) := [
  (key "version", numberJson admission.version),
  (key "estimator_version", numberJson admission.estimatorVersion),
  (key "session_id", idText admission.sessionId),
  (key "model_id", idText admission.modelId),
  (key "source_snapshot_sequence", numberJson admission.sourceSnapshotSequence),
  (key "policy_event_id", optionalIdJson admission.policyEventId),
  (key "policy_revision", numberJson admission.policyRevision),
  (key "mode", .text (bytesOf (conversationModeName admission.mode))),
  (key "capacity", obj (capacityMembers admission.capacity)),
  (key "mandatory_input_tokens", numberJson admission.mandatoryInputTokens),
  (key "groups", .array groups),
  (key "omitted_group_count", numberJson admission.omittedGroupCount),
  (key "omitted_groups_digest", optionalDigestJson admission.omittedGroupsDigest),
  (key "admission_digest", digestJson digest)]

def summaryMember (admission : ConversationAdmission) : List (Bytes × Json) :=
  if admission.version = 2 then
    [(key "summaries", .array (admission.summaries.map admittedSummaryJson))]
  else []

def conversationAdmissionJson (admission : ConversationAdmission) : Result Json := do
  let invalid : Failure := .codec "invalid conversation admission"
  ensure (validateConversationAdmission admission = .ok ()) invalid
  let digest ← Staged.require admission.admissionDigest invalid
  let groups ← admission.groups.mapM groupJson
  return obj (admissionMembers admission digest groups ++ summaryMember admission)

def conversationVersion : Json → Result ℕ
  | .number value =>
    if 0 ≤ value ∧ value ≤ 2 ^ 32 - 1 then .ok value.toNat
    else .error (.codec "invalid conversation version")
  | _ => .error (.codec "invalid conversation version")

def isArray : Json → Bool
  | .array _ => true
  | _ => false

def isBoolean : Json → Bool
  | .boolean _ => true
  | _ => false

/-- One group, with the number of entries that the groups before it leave. -/
def checkGroupFields (remaining : ℕ) (group : Json) : Result ℕ := do
  requireConversationFields group groupFieldNames
  let pinned ← field group "pinned"
  ensure (isBoolean pinned) (.codec "conversation pin is not boolean")
  let entries ← field group "entries"
  ensure (isArray entries ∧ entries.size ≤ remaining)
    (.codec "conversation entry count exceeds aggregate limit")
  return remaining - entries.size

def checkEntryFields (entry : Json) : Result Unit := do
  requireConversationFields entry entryFieldNames
  field entry "provenance" >>= (requireConversationFields · provenanceFieldNames)
  field entry "message_digest" >>= (requireConversationFields · digestFieldNames)

def checkConversationGroupFields (groups : Json) : Result Unit := do
  ensure (isArray groups ∧ groups.size ≤ conversationMaximumGroups)
    (.codec "conversation group count exceeds limit")
  let _ ← (itemsOf groups).foldlM checkGroupFields conversationMaximumEntries
  (itemsOf groups).forM fun group => do
    let entries ← field group "entries"
    (itemsOf entries).forM checkEntryFields

/-- The fields of a version; only the second one has summaries. -/
def checkVersionFields (value : Json) (version : ℕ) : Result Unit :=
  if version = 1 then requireConversationFields value admissionFieldNames
  else do
    requireConversationFields value (admissionFieldNames ++ ["summaries"])
    let summaries ← field value "summaries"
    ensure (isArray summaries ∧ summaries.size ≤ summaryMaximumActive)
      (.codec "admitted summary count exceeds limit")
    (itemsOf summaries).forM checkAdmittedSummaryFields

def checkConversationAdmissionFields (value : Json) (version : ℕ) : Result Unit := do
  ensure (version = 1 ∨ version = 2) (.codec "unsupported conversation admission version")
  checkVersionFields value version
  field value "capacity" >>= (requireConversationFields · capacityFieldNames)
  field value "admission_digest" >>= (requireConversationFields · digestFieldNames)
  let omitted ← field value "omitted_groups_digest"
  onlyIf (¬ omitted.isNull) (requireConversationFields omitted digestFieldNames)
  field value "groups" >>= checkConversationGroupFields

def parseSummaries (value : Json) (version : ℕ) : Result (List ConversationAdmittedSummary) :=
  if version = 2 then do
    let summaries ← field value "summaries"
    (itemsOf summaries).mapM parseAdmittedSummary
  else .ok []

def parseConversationAdmission (value : Json) : Result ConversationAdmission := do
  checkConversationShape value
  let version ← field value "version" >>= conversationVersion
  checkConversationAdmissionFields value version
  let groups ← field value "groups"
  let capacity ← field value "capacity"
  let estimatorVersion ← field value "estimator_version" >>= conversationVersion
  let sessionId ← field value "session_id" >>= parseId
  let modelId ← field value "model_id" >>= parseId
  let sourceSnapshotSequence ← field value "source_snapshot_sequence" >>= getU64
  let policyEventId ← field value "policy_event_id" >>= parseOptionalId
  let policyRevision ← field value "policy_revision" >>= getU64
  let mode ← field value "mode" >>= parseConversationMode
  let capacity ← parseCapacity capacity
  let mandatoryInputTokens ← field value "mandatory_input_tokens" >>= getU64
  let omittedGroupCount ← field value "omitted_group_count" >>= getU64
  let omittedGroupsDigest ← field value "omitted_groups_digest" >>= parseOptionalDigest
  let admissionDigest ← field value "admission_digest" >>= parseDigest
  let groups ← (itemsOf groups).mapM parseGroup
  let summaries ← parseSummaries value version
  let result : ConversationAdmission :=
    { version, estimatorVersion, sessionId, modelId, sourceSnapshotSequence, policyEventId
      policyRevision, mode, capacity, mandatoryInputTokens, groups, omittedGroupCount
      omittedGroupsDigest, admissionDigest := some admissionDigest, summaries }
  let written ← conversationAdmissionJson result
  ensure (written = value) (.codec "noncanonical conversation admission")
  return result

/-! ## What the types guarantee

Identifiers are checked when they are made and numbers have 64 bits. -/

structure TypedProvenance (value : ContextProvenance) : Prop where
  sourceId : SessionStore.validId value.sourceId

structure TypedEntry (value : ConversationAdmittedEntry) : Prop where
  completedEventId : SessionStore.validId value.completedEventId
  eventSequence : value.eventSequence < 2 ^ 64
  entryId : SessionStore.validId value.entryId
  messageId : SessionStore.validId value.messageId
  provenance : TypedProvenance value.provenance
  order : value.order < 2 ^ 64
  estimatedTokens : value.estimatedTokens < 2 ^ 64

structure TypedGroup (value : ConversationAdmittedGroup) : Prop where
  runId : SessionStore.validId value.runId
  entries : ∀ entry ∈ value.entries, TypedEntry entry

structure TypedSummary (value : ConversationAdmittedSummary) : Prop where
  summaryId : SessionStore.validId value.candidate.summaryId
  revision : value.candidate.revision < 2 ^ 64
  activationEventId : SessionStore.validId value.activationEventId
  activationSequence : value.activationSequence < 2 ^ 64
  sourceAnchorSequence : value.sourceAnchorSequence < 2 ^ 64
  entryId : SessionStore.validId value.entryId
  messageId : SessionStore.validId value.messageId
  provenance : TypedProvenance value.provenance
  order : value.order < 2 ^ 64
  estimatedTokens : value.estimatedTokens < 2 ^ 64

structure TypedCapacity (value : ContextCapacity) : Prop where
  contextWindowTokens : value.contextWindowTokens < 2 ^ 64
  reservedOutputTokens : value.reservedOutputTokens < 2 ^ 64
  reservedInputTokens : value.reservedInputTokens < 2 ^ 64

structure Typed (value : ConversationAdmission) : Prop where
  sessionId : SessionStore.validId value.sessionId
  modelId : SessionStore.validId value.modelId
  sourceSnapshotSequence : value.sourceSnapshotSequence < 2 ^ 64
  policyEventId : ∀ id ∈ value.policyEventId, SessionStore.validId id
  policyRevision : value.policyRevision < 2 ^ 64
  capacity : TypedCapacity value.capacity
  mandatoryInputTokens : value.mandatoryInputTokens < 2 ^ 64
  groups : ∀ group ∈ value.groups, TypedGroup group
  omittedGroupCount : value.omittedGroupCount < 2 ^ 64
  summaries : ∀ summary ∈ value.summaries, TypedSummary summary

end ConversationDocument
