import AiForge.ConversationAdmission
import AiForge.MemoryProjection
import AiForge.ReviewReceipt

/-! # Evidence admissions

What a run was shown of a repository, of local files and of the saved memory is recorded as
references, never as text, and each record carries a seal over its own fields. -/
namespace EvidenceContext

open Admission Content Framing MemoryProjection SafeText Sealing Events ReviewReceipt Staged

abbrev ProjectInstructionId := String

/-- A seal without a bound. -/
structure Writer where
  hash : Sha256.Hasher := {}
  bytes : ℕ := 0

namespace Writer

def field (writer : Writer) (value : Bytes) : Writer :=
  let length := decimal value.length ++ [58]
  { hash := Sha256.update (Sha256.update writer.hash length) value
    bytes := writer.bytes + (length.length + value.length) }

instance : FieldWriter Writer := ⟨field⟩

abbrev text (writer : Writer) (value : String) : Writer := FieldWriter.text writer value

abbrev number (writer : Writer) (value : ℕ) : Writer := FieldWriter.number writer value

abbrev contentDigest (writer : Writer) (value : ContentDigest) : Writer :=
  FieldWriter.digest writer value

def finish (writer : Writer) : ContentDigest := ⟨"sha256", Sha256.finish writer.hash, writer.bytes⟩

end Writer

def hexByte (c : UInt8) : Bool :=
  ('0'.toUInt8 ≤ c && c ≤ '9'.toUInt8) || ('a'.toUInt8 ≤ c && c ≤ 'f'.toUInt8)

inductive ContextDecision where
  | admitted | omittedBudget | omittedClassBudget
  deriving DecidableEq

def decisionCode : ContextDecision → ℕ
  | .admitted => 0
  | .omittedBudget => 1
  | .omittedClassBudget => 2

/-- The window holds the reserved output and input and leaves room for entries. -/
def validCapacity (capacity : ContextCapacity) : Bool :=
  capacity.contextWindowTokens != 0 &&
    capacity.reservedOutputTokens < capacity.contextWindowTokens &&
    capacity.reservedInputTokens < capacity.contextWindowTokens - capacity.reservedOutputTokens

def repositoryContextMaximumInstructions : ℕ := 128
def repositoryContextMaximumEvidence : ℕ := 64
def repositoryContextMaximumPathBytes : ℕ := 4096
def repositoryContextMaximumInstructionBytes : ℕ := 1024 * 1024
def repositoryContextMaximumInstructionTotalBytes : ℕ := 4 * 1024 * 1024
def repositoryContextMaximumEvidenceBytes : ℕ := 256 * 1024
def repositoryContextMaximumEvidenceTotalBytes : ℕ := 2 * 1024 * 1024

structure RepositoryContextInstruction where
  instructionId : ProjectInstructionId
  source : RepositorySourceIdentity
  applicableSubtree : Bytes
  (specificity order estimatedTokens : ℕ)
  textDigest : ContentDigest
  deriving DecidableEq

structure RepositoryContextEvidence where
  evidenceId : EvidenceId
  entryId : ContextEntryId
  messageId : MessageId
  sourceId : ContextSourceId
  source : RepositorySourceIdentity
  (order estimatedTokens : ℕ)
  decision : ContextDecision
  textDigest : ContentDigest
  deriving DecidableEq

structure RepositoryContextAdmission where
  version : ℕ := 1
  rootBinding : Bytes
  sourceSnapshot : RepositorySnapshotIdentity
  targetSubtree : Bytes
  selectionRevision : ℕ
  capacity : ContextCapacity
  instructions : List RepositoryContextInstruction
  evidence : List RepositoryContextEvidence
  admissionDigest : Option ContentDigest := none
  deriving DecidableEq

/-- The source reports every refusal under the same code, so only the message is kept. -/
structure RepositoryContextError where
  message : String

namespace Repository

def opaqueName (value : Bytes) : Bool :=
  !value.isEmpty && value.length ≤ 128 && value.all fun c =>
    ('a'.toUInt8 ≤ c && c ≤ 'z'.toUInt8) || ('A'.toUInt8 ≤ c && c ≤ 'Z'.toUInt8) ||
      ('0'.toUInt8 ≤ c && c ≤ '9'.toUInt8) || c == ':'.toUInt8 || c == '.'.toUInt8 ||
      c == '_'.toUInt8 || c == '-'.toUInt8

def path (value : Bytes) (empty : Bool) : Bool :=
  if value.isEmpty then empty
  else
    value.length ≤ repositoryContextMaximumPathBytes && isSafeUtf8Text value &&
      value.head? != some '/'.toUInt8 && value.getLast? != some '/'.toUInt8 &&
      (value.all fun c => !(bytesOf "\\:\r\n\t").contains c) &&
      (value.splitOn '/'.toUInt8).all fun part =>
        !part.isEmpty && part != bytesOf "." && part != bytesOf ".."

def digest (value : ContentDigest) : Bool :=
  let length := if value.algorithm == "git-sha1" then 40 else 64
  (value.algorithm == "sha256" || value.algorithm == "git-sha1" ||
      value.algorithm == "git-sha256") &&
    (bytesOf value.value).length == length && (bytesOf value.value).all hexByte

def source (value : RepositorySourceIdentity) (text : ContentDigest)
    (snapshot : RepositorySnapshotIdentity) (maximum : ℕ) : Bool :=
  value.snapshot == snapshot && value.range.isNone && path value.relativePath false &&
    digest value.contentDigest && digest text && text.algorithm == "sha256" &&
    value.contentDigest.byteSize == text.byteSize && text.byteSize ≤ maximum

def applies (subtree target : Bytes) : Bool :=
  subtree.isEmpty || target == subtree ||
    (subtree.isPrefixOf target && subtree.length < target.length &&
      target[subtree.length]? == some '/'.toUInt8)

def instructionShape (ref : RepositoryContextInstruction)
    (admission : RepositoryContextAdmission) : Bool :=
  let expectedPath :=
    if ref.applicableSubtree.isEmpty then bytesOf "AGENTS.md"
    else ref.applicableSubtree ++ bytesOf "/AGENTS.md"
  let specificity :=
    if ref.applicableSubtree.isEmpty then 0
    else ref.applicableSubtree.count '/'.toUInt8 + 1
  source ref.source ref.textDigest admission.sourceSnapshot
      repositoryContextMaximumInstructionBytes &&
    path ref.applicableSubtree true && applies ref.applicableSubtree admission.targetSubtree &&
    ref.source.relativePath == expectedPath && ref.specificity == specificity &&
    ref.order != 0 && ref.estimatedTokens == ref.textDigest.byteSize &&
    ref.estimatedTokens != 0 && isSafeUtf8Text (bytesOf ref.instructionId)

def startsWith (value : String) (lead : String) : Bool :=
  (bytesOf lead).isPrefixOf (bytesOf value)

def evidenceShape (ref : RepositoryContextEvidence)
    (admission : RepositoryContextAdmission) : Bool :=
  source ref.source ref.textDigest admission.sourceSnapshot
      repositoryContextMaximumEvidenceBytes &&
    ref.order != 0 && ref.estimatedTokens == max 1 ref.textDigest.byteSize &&
    isSafeUtf8Text (bytesOf ref.evidenceId) &&
    startsWith ref.entryId "repository-context-entry-" &&
    startsWith ref.messageId "repository-context-message-" &&
    startsWith ref.sourceId "repository-context-source-"

structure Seen where
  identities : Finset String := ∅
  paths : Finset Bytes := ∅
  (bytes order : ℕ := 0)
  specificity : Option ℕ := none
  evidenceIds : Finset EvidenceId := ∅
  messages : Finset MessageId := ∅
  sources : Finset ContextSourceId := ∅

def instructionStep (admission : RepositoryContextAdmission) (seen : Seen)
    (ref : RepositoryContextInstruction) : Except RepositoryContextError Seen := do
  ensure (instructionShape ref admission ∧ seen.order < ref.order ∧
      (seen.specificity.all (· < ref.specificity)) ∧ ref.instructionId ∉ seen.identities ∧
      ref.source.relativePath ∉ seen.paths ∧
      ref.textDigest.byteSize ≤ repositoryContextMaximumInstructionTotalBytes - seen.bytes)
    ⟨"repository instruction references are invalid"⟩
  return { seen with
    identities := insert ref.instructionId seen.identities
    paths := insert ref.source.relativePath seen.paths
    bytes := seen.bytes + ref.textDigest.byteSize
    order := ref.order
    specificity := some ref.specificity }

def evidenceStep (admission : RepositoryContextAdmission) (seen : Seen)
    (ref : RepositoryContextEvidence) : Except RepositoryContextError Seen := do
  ensure (evidenceShape ref admission ∧ seen.order < ref.order ∧
      ref.entryId ∉ seen.identities ∧ ref.evidenceId ∉ seen.evidenceIds ∧
      ref.messageId ∉ seen.messages ∧ ref.sourceId ∉ seen.sources ∧
      ref.source.relativePath ∉ seen.paths ∧
      ref.textDigest.byteSize ≤ repositoryContextMaximumEvidenceTotalBytes - seen.bytes)
    ⟨"repository evidence references are invalid"⟩
  return { seen with
    identities := insert ref.entryId seen.identities
    evidenceIds := insert ref.evidenceId seen.evidenceIds
    messages := insert ref.messageId seen.messages
    sources := insert ref.sourceId seen.sources
    paths := insert ref.source.relativePath seen.paths
    bytes := seen.bytes + ref.textDigest.byteSize
    order := ref.order }

def shape (admission : RepositoryContextAdmission) : Except RepositoryContextError Unit := do
  ensure (admission.version = 1 ∧ opaqueName admission.rootBinding ∧
      path admission.targetSubtree true ∧ admission.selectionRevision ≠ 0 ∧
      digest admission.sourceSnapshot.fingerprint ∧
      isSafeUtf8Text (bytesOf admission.sourceSnapshot.repositoryId) ∧
      admission.instructions.length ≤ repositoryContextMaximumInstructions ∧
      admission.evidence.length ≤ repositoryContextMaximumEvidence ∧
      validCapacity admission.capacity)
    ⟨"repository context admission shape is invalid"⟩
  let seen ← admission.instructions.foldlM (instructionStep admission) {}
  -- The identities of the instructions stay reserved while the evidence is read.
  let _ ← admission.evidence.foldlM (evidenceStep admission)
    { seen with paths := ∅, bytes := 0, order := 0 }

def writeSnapshot (writer : Writer) (value : RepositorySnapshotIdentity) : Writer :=
  (writer.text value.repositoryId).contentDigest value.fingerprint

/-- The range of a source is not written: the shape check refuses sources that have one. -/
def writeSource (writer : Writer) (value : RepositorySourceIdentity) : Writer :=
  ((writeSnapshot writer value.snapshot).field value.relativePath).contentDigest
    value.contentDigest

def writeInstruction (writer : Writer) (ref : RepositoryContextInstruction) : Writer :=
  let writer := writeSource (writer.text ref.instructionId) ref.source
  let writer := (writer.field ref.applicableSubtree).number ref.specificity
  ((writer.number ref.order).number ref.estimatedTokens).contentDigest ref.textDigest

def writeEvidence (writer : Writer) (ref : RepositoryContextEvidence) : Writer :=
  let writer := ((writer.text ref.evidenceId).text ref.entryId).text ref.messageId
  let writer := writeSource (writer.text ref.sourceId) ref.source
  let writer := (writer.number ref.order).number ref.estimatedTokens
  (writer.number (decisionCode ref.decision)).contentDigest ref.textDigest

def sealOf (value : RepositoryContextAdmission) : ContentDigest :=
  let writer := ({} : Writer).text "aiforge.repository-context.v1"
  let writer := (writer.number value.version).field value.rootBinding
  let writer := (writeSnapshot writer value.sourceSnapshot).field value.targetSubtree
  let writer := writer.number value.selectionRevision
  let writer := writer.number value.capacity.contextWindowTokens
  let writer := writer.number value.capacity.reservedOutputTokens
  let writer := writer.number value.capacity.reservedInputTokens
  let writer := value.instructions.foldl writeInstruction (writer.number value.instructions.length)
  let writer := value.evidence.foldl writeEvidence (writer.number value.evidence.length)
  writer.finish

def sealRepositoryContextAdmission (admission : RepositoryContextAdmission) :
    Except RepositoryContextError RepositoryContextAdmission := do
  shape admission
  return { admission with admissionDigest := some (sealOf admission) }

def validateRepositoryContextAdmission (admission : RepositoryContextAdmission) :
    Except RepositoryContextError Unit := do
  shape admission
  ensure (admission.admissionDigest = some (sealOf admission))
    ⟨"repository context admission integrity check failed"⟩

end Repository

structure LocalRootIdentity where
  version : ℕ := 1
  binding : Bytes
  deriving DecidableEq

structure LocalSourceIdentity where
  root : LocalRootIdentity
  relativePath : Bytes
  contentDigest : ContentDigest
  deriving DecidableEq

structure LocalSourceLimits where
  maximumRoots : ℕ := 16
  maximumSelectedFiles : ℕ := 64
  maximumFileBytes : ℕ := 256 * 1024
  maximumTotalBytes : ℕ := 2 * 1024 * 1024
  maximumPathBytes : ℕ := 4096
  maximumDepth : ℕ := 64
  maximumListEntries : ℕ := 256
  maximumScannedEntries : ℕ := 4096
  maximumListingBytes : ℕ := 256 * 1024
  maximumPreviewBytes : ℕ := 64 * 1024
  timeout : ℤ := 30000
  deriving DecidableEq

inductive LocalSourceErrorCode where
  | invalidRequest | unsupportedVersion | unavailable | unsupportedEntry | resourceExhausted

structure LocalSourceError where
  code : LocalSourceErrorCode
  message : String

structure LocalContextEvidence where
  evidenceId : EvidenceId
  entryId : ContextEntryId
  messageId : MessageId
  sourceId : ContextSourceId
  source : LocalSourceIdentity
  (order estimatedTokens : ℕ)
  decision : ContextDecision
  deriving DecidableEq

structure LocalContextAdmission where
  version : ℕ := 1
  sessionId : SessionId
  selectionRevision : ℕ
  capacity : ContextCapacity
  evidence : List LocalContextEvidence
  admissionDigest : Option ContentDigest := none
  deriving DecidableEq

inductive LocalContextErrorCode where
  | invalidAdmission | resourceExhausted

structure LocalContextError where
  code : LocalContextErrorCode
  message : String

def localContextMaximumAdmissionBytes : ℕ := 512 * 1024

namespace Local

def hexDigest (value : Bytes) : Bool := value.length == 64 && value.all hexByte

def rawPath (path : Bytes) (allowRoot : Bool) (limits : LocalSourceLimits) : Bool :=
  if path.isEmpty then allowRoot
  else
    let parts := path.splitOn '/'.toUInt8
    path.length ≤ limits.maximumPathBytes && path.head? != some '/'.toUInt8 &&
      path.getLast? != some '/'.toUInt8 && !path.contains 0 &&
      (parts.all fun part =>
        !part.isEmpty && part != bytesOf "." && part != bytesOf ".." && part.length ≤ 255) &&
      parts.length ≤ limits.maximumDepth

def supportedName (path : Bytes) : Bool :=
  isSafeUtf8Text path && path.all fun c => !(bytesOf "\r\n\t").contains c

def validateLocalSourceLimits (limits : LocalSourceLimits) : Except LocalSourceError Unit := do
  let maximum : LocalSourceLimits := {}
  let bounds := [
    (limits.maximumRoots, maximum.maximumRoots),
    (limits.maximumSelectedFiles, maximum.maximumSelectedFiles),
    (limits.maximumFileBytes, maximum.maximumFileBytes),
    (limits.maximumTotalBytes, maximum.maximumTotalBytes),
    (limits.maximumPathBytes, maximum.maximumPathBytes),
    (limits.maximumDepth, maximum.maximumDepth),
    (limits.maximumListEntries, maximum.maximumListEntries),
    (limits.maximumScannedEntries, maximum.maximumScannedEntries),
    (limits.maximumListingBytes, maximum.maximumListingBytes),
    (limits.maximumPreviewBytes, maximum.maximumFileBytes)]
  ensure (bounds.all fun (value, ceiling) => value != 0 && value ≤ ceiling)
    ⟨.invalidRequest, "local source limits are invalid"⟩
  ensure (limits.maximumPreviewBytes ≤ limits.maximumFileBytes ∧
      limits.maximumFileBytes ≤ limits.maximumTotalBytes ∧
      limits.maximumListEntries ≤ limits.maximumScannedEntries ∧ 0 < limits.timeout ∧
      limits.timeout ≤ maximum.timeout)
    ⟨.invalidRequest, "local source limits are inconsistent"⟩

def validateLocalRootIdentity (root : LocalRootIdentity) : Except LocalSourceError Unit := do
  ensure (root.version = 1) ⟨.unsupportedVersion, "local root version is unsupported"⟩
  ensure (hexDigest root.binding) ⟨.invalidRequest, "local root identity is invalid"⟩

def validateLocalRelativePath (path : Bytes) (allowRoot : Bool) (limits : LocalSourceLimits) :
    Except LocalSourceError Unit := do
  validateLocalSourceLimits limits
  ensure (rawPath path allowRoot limits) ⟨.invalidRequest, "local relative path is invalid"⟩

def validateLocalSourceIdentity (source : LocalSourceIdentity) (limits : LocalSourceLimits) :
    Except LocalSourceError Unit := do
  validateLocalRootIdentity source.root
  validateLocalRelativePath source.relativePath false limits
  ensure (supportedName source.relativePath)
    ⟨.unsupportedEntry, "local source path is unsupported"⟩
  ensure (source.contentDigest.algorithm = "sha256" ∧
      hexDigest (bytesOf source.contentDigest.value) ∧
      source.contentDigest.byteSize ≤ limits.maximumFileBytes)
    ⟨.invalidRequest, "local source digest is invalid"⟩

structure Selected where
  roots : Finset Bytes := ∅
  paths : Finset (Bytes × Bytes) := ∅
  bytes : ℕ := 0

def selectSource (limits : LocalSourceLimits) (seen : Selected) (source : LocalSourceIdentity) :
    Except LocalSourceError Selected := do
  validateLocalSourceIdentity source limits
  ensure (source.contentDigest.byteSize ≠ 0)
    ⟨.unavailable, "empty local source cannot be selected as evidence"⟩
  ensure ((source.root.binding, source.relativePath) ∉ seen.paths)
    ⟨.invalidRequest, "local selection repeats a source"⟩
  let roots := insert source.root.binding seen.roots
  ensure (roots.card ≤ limits.maximumRoots ∧
      source.contentDigest.byteSize ≤ limits.maximumTotalBytes - seen.bytes)
    ⟨.resourceExhausted, "local selection exceeds aggregate limits"⟩
  return {
    roots := roots
    paths := insert (source.root.binding, source.relativePath) seen.paths
    bytes := seen.bytes + source.contentDigest.byteSize }

def validateLocalSourceSelection (sources : List LocalSourceIdentity)
    (limits : LocalSourceLimits) : Except LocalSourceError Unit := do
  validateLocalSourceLimits limits
  ensure (sources.length ≤ limits.maximumSelectedFiles)
    ⟨.resourceExhausted, "local selection exceeds file limit"⟩
  let _ ← sources.foldlM (selectSource limits) {}

def reservedId (value lead : String) : Bool :=
  Repository.startsWith value lead &&
    hexDigest ((bytesOf value).drop (bytesOf lead).length)

def validReference (ref : LocalContextEvidence) : Bool :=
  reservedId ref.evidenceId "local-evidence-" && reservedId ref.entryId "local-context-entry-" &&
    reservedId ref.messageId "local-context-message-" &&
    reservedId ref.sourceId "local-context-source-" &&
    ref.estimatedTokens == ref.source.contentDigest.byteSize && 0 < ref.estimatedTokens

def LocalContextEvidence.ids (ref : LocalContextEvidence) : List String :=
  [ref.evidenceId, ref.entryId, ref.messageId, ref.sourceId]

/-- The four identities of a reference go into one set, with the highest order so far. -/
def referenceStep (seen : Finset String × ℕ) (ref : LocalContextEvidence) :
    Except LocalContextError (Finset String × ℕ) := do
  let ids := LocalContextEvidence.ids ref
  ensure ((validateLocalSourceIdentity ref.source {}).isOk ∧ validReference ref ∧
      seen.2 < ref.order ∧ ids.Nodup ∧ ∀ id ∈ ids, id ∉ seen.1)
    ⟨.invalidAdmission, "local admission references are invalid"⟩
  return (seen.1 ∪ ids.toFinset, ref.order)

def shape (value : LocalContextAdmission) : Except LocalContextError Unit := do
  let maximum : LocalSourceLimits := {}
  ensure (value.version = 1 ∧ value.selectionRevision ≠ 0 ∧
      isSafeUtf8Text (bytesOf value.sessionId) ∧ validCapacity value.capacity ∧
      value.evidence.length ≤ maximum.maximumSelectedFiles)
    ⟨.invalidAdmission, "local admission shape is invalid"⟩
  let _ ← value.evidence.foldlM referenceStep (∅, 0)
  ensure (validateLocalSourceSelection (value.evidence.map (·.source)) {}).isOk
    ⟨.invalidAdmission, "local admission sources exceed bounds or repeat"⟩

/-- Unlike the other two, this seal has a bound, and it is checked piece by piece. -/
structure LocalSeal where
  hash : Sha256.Hasher := {}
  bytes : ℕ := 0
  valid : Bool := true

namespace LocalSeal

def append (writer : LocalSeal) (value : Bytes) : LocalSeal :=
  if !writer.valid ∨ localContextMaximumAdmissionBytes - writer.bytes < value.length then
    { writer with valid := false }
  else { writer with
    hash := Sha256.update writer.hash value
    bytes := writer.bytes + value.length }

def field (writer : LocalSeal) (value : Bytes) : LocalSeal :=
  ((writer.append (decimal value.length)).append [58]).append value

instance : FieldWriter LocalSeal := ⟨field⟩

abbrev text (writer : LocalSeal) (value : String) : LocalSeal := FieldWriter.text writer value

abbrev number (writer : LocalSeal) (value : ℕ) : LocalSeal := FieldWriter.number writer value

def finish (writer : LocalSeal) : Except LocalContextError ContentDigest :=
  if writer.valid then .ok ⟨"sha256", Sha256.finish writer.hash, writer.bytes⟩
  else .error ⟨.resourceExhausted, "local admission metadata exceeds bound"⟩

end LocalSeal

def writeEvidence (writer : LocalSeal) (ref : LocalContextEvidence) : LocalSeal :=
  let writer := ((writer.text ref.evidenceId).text ref.entryId).text ref.messageId
  let writer := (writer.text ref.sourceId).number ref.source.root.version
  let writer := (writer.field ref.source.root.binding).field ref.source.relativePath
  let writer := writer.text ref.source.contentDigest.algorithm
  let writer := writer.text ref.source.contentDigest.value
  let writer := (writer.number ref.source.contentDigest.byteSize).number ref.order
  (writer.number ref.estimatedTokens).number (decisionCode ref.decision)

def sealOf (value : LocalContextAdmission) : Except LocalContextError ContentDigest :=
  let writer := (({} : LocalSeal).text "aiforge.local-context.v1").number value.version
  let writer := (writer.text value.sessionId).number value.selectionRevision
  let writer := writer.number value.capacity.contextWindowTokens
  let writer := writer.number value.capacity.reservedOutputTokens
  let writer := writer.number value.capacity.reservedInputTokens
  let writer := value.evidence.foldl writeEvidence (writer.number value.evidence.length)
  writer.finish

def sealLocalContextAdmission (value : LocalContextAdmission) :
    Except LocalContextError LocalContextAdmission := do
  shape value
  let digest ← sealOf value
  return { value with admissionDigest := some digest }

def validateLocalContextAdmission (value : LocalContextAdmission) :
    Except LocalContextError Unit := do
  shape value
  let recorded ← require value.admissionDigest
    ⟨.invalidAdmission, "local admission seal is missing"⟩
  let digest ← sealOf value
  ensure (digest = recorded) ⟨.invalidAdmission, "local admission seal does not match"⟩

end Local

structure MemorySelectionEntry where
  journalSessionId : SessionId
  recordId : MemoryRecordId
  recordEventId : EventId
  owner : MemoryOwner
  source : MemorySource
  (recordDigest evidenceDigest : ContentDigest)
  (order estimatedTokens : ℕ)
  deriving DecidableEq

/-- Identifiers are never empty, which the seal relies on to tell a missing one. -/
structure MemorySelection where
  version : ℕ := 1
  repositoryId : Option RepositoryId
  personaId : Option PersonaId
  (maximumTokens availableTokens : ℕ)
  entries : List MemorySelectionEntry
  admissionDigest : Option ContentDigest := none
  repository_named : repositoryId ≠ some "" := by decide
  persona_named : personaId ≠ some "" := by decide
  deriving DecidableEq

structure MemorySelectionError where
  message : String
  deriving DecidableEq

namespace Memory

def validateMemoryOwner (owner : MemoryOwner) : Bool :=
  (owner.kind == .global && owner.repositoryId.isNone && owner.personaId.isNone) ||
    (owner.kind == .repository && owner.repositoryId.isSome && owner.personaId.isNone) ||
    (owner.kind == .persona && owner.repositoryId.isNone && owner.personaId.isSome)

def validDigest (value : ContentDigest) : Bool :=
  value.algorithm == "sha256" && (bytesOf value.value).length == 64 && value.byteSize != 0 &&
    (bytesOf value.value).all hexByte

structure Seen where
  records : Finset MemoryRecordId := ∅
  (order tokens sources : ℕ := 0)

def maximumEntries : ℕ := 4096
def maximumSourceReferences : ℕ := 4096

def entryStep (selection : MemorySelection) (seen : Seen) (entry : MemorySelectionEntry) :
    Except MemorySelectionError Seen := do
  ensure (validateMemoryOwner entry.owner ∧
      (entry.owner.kind = .repository → entry.owner.repositoryId = selection.repositoryId) ∧
      (entry.owner.kind = .persona → entry.owner.personaId = selection.personaId) ∧
      entry.recordId ∉ seen.records ∧ seen.order < entry.order ∧ entry.estimatedTokens ≠ 0 ∧
      entry.estimatedTokens = entry.evidenceDigest.byteSize ∧ validDigest entry.recordDigest ∧
      validDigest entry.evidenceDigest ∧ entry.source.eventIds ≠ [] ∧
      entry.source.eventIds.length ≤ 256 ∧
      entry.source.eventIds.length ≤ maximumSourceReferences - seen.sources ∧
      entry.estimatedTokens ≤ min selection.maximumTokens selection.availableTokens - seen.tokens)
    ⟨"saved memory selection metadata is invalid"⟩
  ensure entry.source.eventIds.Nodup
    ⟨"saved memory selection source identities are duplicated"⟩
  return {
    records := insert entry.recordId seen.records
    order := entry.order
    tokens := seen.tokens + entry.estimatedTokens
    sources := seen.sources + entry.source.eventIds.length }

def validateMemorySelectionShape (selection : MemorySelection) :
    Except MemorySelectionError Unit := do
  ensure (selection.version = 1 ∧ selection.entries.length ≤ maximumEntries)
    ⟨"saved memory selection version or size is invalid"⟩
  let _ ← selection.entries.foldlM (entryStep selection) {}

def ownerKindCode : MemoryOwnerKind → ℕ
  | .global => 0
  | .repository => 1
  | .persona => 2
  | .unknown => 3

def writeEntry (writer : Writer) (entry : MemorySelectionEntry) : Writer :=
  let writer := (writer.text entry.journalSessionId).text entry.recordId
  let writer := (writer.text entry.recordEventId).number (ownerKindCode entry.owner.kind)
  let writer := writer.text (entry.owner.repositoryId.getD "")
  let writer := writer.text (entry.owner.personaId.getD "")
  let writer := (writer.text entry.source.sessionId).text entry.source.runId
  let writer := writer.text entry.source.invocationId
  let writer := entry.source.eventIds.foldl Writer.text (writer.number entry.source.eventIds.length)
  let writer := (writer.contentDigest entry.recordDigest).contentDigest entry.evidenceDigest
  (writer.number entry.order).number entry.estimatedTokens

def memorySelectionDigest (selection : MemorySelection) : ContentDigest :=
  let writer := (({} : Writer).text "aiforge.memory-selection.v1").number selection.version
  let writer := writer.text (selection.repositoryId.getD "")
  let writer := writer.text (selection.personaId.getD "")
  let writer := (writer.number selection.maximumTokens).number selection.availableTokens
  let writer := selection.entries.foldl writeEntry (writer.number selection.entries.length)
  writer.finish

def sealMemorySelection (selection : MemorySelection) :
    Except MemorySelectionError MemorySelection := do
  validateMemorySelectionShape selection
  return { selection with admissionDigest := some (memorySelectionDigest selection) }

def validateMemorySelection (selection : MemorySelection) : Except MemorySelectionError Unit := do
  validateMemorySelectionShape selection
  ensure (selection.admissionDigest = some (memorySelectionDigest selection))
    ⟨"saved memory selection integrity check failed"⟩

end Memory

end EvidenceContext
