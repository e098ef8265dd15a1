import AiForge.EventProjection
import AiForge.Events
import AiForge.Revocable
import AiForge.Staged

/-! # Review receipts

A receipt binds one candidate to its evidence and then collects findings, verdicts and
overrides. Nothing is ever removed: a finding is resolved, a verdict or an override revoked. -/
namespace ReviewReceipt

open Content Events SafeText Staged

abbrev ReviewReceiptId := String
abbrev ReviewRequirementId := String
abbrev ReviewFindingId := String
abbrev ReviewOverrideId := String
abbrev VerificationEvidenceId := String

inductive ReviewEvidenceKind where
  | verification | scenario
  deriving DecidableEq

structure ReviewActor where
  (actorId displayName : Bytes)
  deriving DecidableEq

structure ReviewParticipantProvenance where
  actor : ReviewActor
  runId : Option RunId
  (backendId backendVersion : Option Bytes)
  modelId : Option ModelId
  modelVersion : Option Bytes
  deriving DecidableEq

structure ReviewCandidate where
  snapshot : RepositorySnapshotIdentity
  revision : Bytes
  deriving DecidableEq

structure ReviewArtifactDigest where
  artifactId : ArtifactId
  digest : ContentDigest
  deriving DecidableEq

structure ReviewEvidenceBinding where
  requirementId : ReviewRequirementId
  kind : ReviewEvidenceKind
  (producerName producerVersion : Bytes)
  verificationEvidenceId : Option VerificationEvidenceId
  (scenarioId scenarioCorpusVersion scenarioApplicationRevision : Option Bytes)
  (scenarioFakeScriptDigest scenarioTerminalCapabilitiesDigest : Option ContentDigest)
  resultDigest : ContentDigest
  artifacts : List ReviewArtifactDigest
  deriving DecidableEq

structure ReviewReceiptDraft where
  receiptId : ReviewReceiptId
  candidate : ReviewCandidate
  evidence : List ReviewEvidenceBinding
  author : Option ReviewParticipantProvenance
  deriving DecidableEq

inductive ReviewFindingSeverity where
  | low | medium | high | critical
  deriving DecidableEq

structure ReviewFinding where
  findingId : ReviewFindingId
  summary : Bytes
  verificationEvidenceId : Option VerificationEvidenceId
  artifacts : List ArtifactId
  severity : ReviewFindingSeverity
  source : Option RepositorySourceIdentity
  reproductionEvidenceIds : List VerificationEvidenceId
  deriving DecidableEq

inductive ReviewVerdict where
  | approved | changesRequested | rejected
  deriving DecidableEq

structure ReviewOverride where
  overrideId : ReviewOverrideId
  receiptId : ReviewReceiptId
  candidate : ReviewCandidate
  actor : ReviewActor
  reason : Bytes
  deriving DecidableEq

/-- The review payloads of a session log, kept whole; every other payload is `unrelated`. -/
inductive ReviewEventPayload where
  | reviewReceiptDrafted (draft : ReviewReceiptDraft)
  | reviewRequested (receiptId : ReviewReceiptId) (requestedBy : ReviewActor)
  | reviewFindingOpened (receiptId : ReviewReceiptId) (finding : ReviewFinding)
  | reviewFindingResolved (receiptId : ReviewReceiptId) (findingId : ReviewFindingId)
      (resolvedBy : ReviewActor) (reason : Option Bytes)
  | reviewVerdictRecorded (receiptId : ReviewReceiptId) (verdict : ReviewVerdict)
      (reviewer : ReviewActor) (reviewerProvenance : Option ReviewParticipantProvenance)
  | reviewVerdictRevoked (receiptId : ReviewReceiptId) (verdictEventId : EventId)
      (revokedBy : ReviewActor) (reason : Bytes)
  | reviewOverrideRecorded (override : ReviewOverride)
  | reviewOverrideRevoked (receiptId : ReviewReceiptId) (overrideId : ReviewOverrideId)
      (revokedBy : ReviewActor) (reason : Bytes)
  | unrelated (payload : RunEventPayload)
  deriving DecidableEq

structure ReviewEvent where
  metadata : EventMetadata
  payload : ReviewEventPayload
  deriving DecidableEq

structure ReviewReceiptLimits where
  (maximumEvidence maximumArtifactsPerEvidence : ℕ := 128)
  maximumFindings : ℕ := 4096
  maximumFindingArtifacts : ℕ := 64
  maximumTextBytes : ℕ := 16 * 1024
  maximumMetadataBytes : ℕ := 4096
  deriving DecidableEq

inductive ReviewReceiptErrorCode where
  | invalidLimits | invalidReceipt | invalidCandidate | invalidEvidence | invalidActor
  | invalidFinding | duplicateIdentity | wrongReceipt | invalidTransition | unknownFinding
  | unknownVerdict | unknownOverride | invalidEnvelope | nonMonotonicSequence | duplicateEvent
  | resourceExhausted | internalFailure
  deriving DecidableEq

structure ReviewReceiptError where
  code : ReviewReceiptErrorCode
  message : String
  receiptId : Option ReviewReceiptId := none
  deriving DecidableEq

def validLimits (limits : ReviewReceiptLimits) : Bool :=
  let maximums : ReviewReceiptLimits := {}
  decide (0 < limits.maximumEvidence) && decide (limits.maximumEvidence ≤ maximums.maximumEvidence) &&
  decide (0 < limits.maximumArtifactsPerEvidence) &&
  decide (limits.maximumArtifactsPerEvidence ≤ maximums.maximumArtifactsPerEvidence) &&
  decide (0 < limits.maximumFindings) && decide (limits.maximumFindings ≤ maximums.maximumFindings) &&
  decide (0 < limits.maximumFindingArtifacts) &&
  decide (limits.maximumFindingArtifacts ≤ maximums.maximumFindingArtifacts) &&
  decide (0 < limits.maximumTextBytes) &&
  decide (limits.maximumTextBytes ≤ maximums.maximumTextBytes) &&
  decide (0 < limits.maximumMetadataBytes) &&
  decide (limits.maximumMetadataBytes ≤ maximums.maximumMetadataBytes)

/-- The payload bits and the length a first byte announces. -/
def utf8Lead (first : UInt8) : Option Utf8Codepoint :=
  if first ≤ 0x7f then some ⟨first.toNat, 1⟩
  else if first &&& 0xe0 = 0xc0 then
    if first.toNat % 0x20 < 2 then none else some ⟨first.toNat % 0x20, 2⟩
  else if first &&& 0xf0 = 0xe0 then some ⟨first.toNat % 0x10, 3⟩
  else if first &&& 0xf8 = 0xf0 then some ⟨first.toNat % 0x08, 4⟩
  else none

def forbiddenControl (first : UInt8) : Bool :=
  first == 0 || first == 0x7f || (first < 0x20 && first != 0x09 && first != 0x0a && first != 0x0d)

/-- The loop of `valid_utf8_text`; every turn consumes a byte, so the length is enough fuel. -/
def utf8Scan : ℕ → Bytes → Bool
  | _, [] => true
  | 0, _ :: _ => false
  | fuel + 1, first :: rest =>
    if forbiddenControl first then false
    else
      match utf8Lead first with
      | none => false
      | some lead =>
        if lead.bytes > rest.length + 1 then false
        else
          match continuation (rest.take (lead.bytes - 1)) lead.value with
          | none => false
          | some codepoint =>
            if (lead.bytes = 3 ∧ codepoint < 0x800) ∨ (lead.bytes = 4 ∧ codepoint < 0x10000) ∨
                (0xd800 ≤ codepoint ∧ codepoint ≤ 0xdfff) ∨ codepoint > 0x10ffff then false
            else utf8Scan fuel (rest.drop (lead.bytes - 1))

def validUtf8Text (value : Bytes) (allowEmpty : Bool := false) : Bool :=
  (allowEmpty || !value.isEmpty) && utf8Scan value.length value

def boundedText (value : Bytes) (maximum : ℕ) (allowEmpty : Bool := false) : Bool :=
  decide (value.length ≤ maximum) && validUtf8Text value allowEmpty

def boundedIdentity (value : Bytes) (maximum : ℕ) : Bool :=
  boundedText value maximum && value.all fun character => !(character < 0x20 || character == 0x7f)

def isdigit (value : UInt8) : Bool := 0x30 ≤ value && value ≤ 0x39

def isalnum (value : UInt8) : Bool :=
  isdigit value || (0x41 ≤ value && value ≤ 0x5a) || (0x61 ≤ value && value ≤ 0x7a)

def isxdigit (value : UInt8) : Bool :=
  isdigit value || (0x41 ≤ value && value ≤ 0x46) || (0x61 ≤ value && value ≤ 0x66)

def validDigest (digest : ContentDigest) : Bool :=
  boundedText (bytesOf digest.algorithm) 128 && boundedText (bytesOf digest.value) 512 &&
  (bytesOf digest.algorithm).all (fun value =>
    isalnum value || value == 0x2d || value == 0x5f || value == 0x2e) &&
  (bytesOf digest.value).all isxdigit

def validCandidate (candidate : ReviewCandidate) (limits : ReviewReceiptLimits) : Bool :=
  validDigest candidate.snapshot.fingerprint &&
  boundedIdentity candidate.revision limits.maximumMetadataBytes

def validActor (actor : ReviewActor) (limits : ReviewReceiptLimits) : Bool :=
  boundedIdentity actor.actorId limits.maximumMetadataBytes &&
  boundedIdentity actor.displayName limits.maximumMetadataBytes

/-- A model is named together with its run, its backend and its version, or not at all. -/
def validParticipant (participant : ReviewParticipantProvenance) (limits : ReviewReceiptLimits) :
    Bool :=
  let modelAuthored := participant.modelId.isSome
  validActor participant.actor limits &&
  modelAuthored == participant.runId.isSome && modelAuthored == participant.backendId.isSome &&
  modelAuthored == participant.modelVersion.isSome &&
  participant.backendId.all (boundedIdentity · limits.maximumMetadataBytes) &&
  participant.backendVersion.all (boundedIdentity · limits.maximumMetadataBytes) &&
  participant.modelVersion.all (boundedIdentity · limits.maximumMetadataBytes)

/-- The parts of a relative path; what follows a final slash is not looked at. -/
def validPathParts : ℕ → Bytes → Bool
  | _, [] => true
  | 0, _ :: _ => false
  | fuel + 1, first :: rest =>
    let path := first :: rest
    let part := path.takeWhile (· != 0x2f)
    if part = [] ∨ part = [0x2e] ∨ part = [0x2e, 0x2e] then false
    else validPathParts fuel (path.drop (part.length + 1))

def validSource (source : RepositorySourceIdentity) (limits : ReviewReceiptLimits) : Bool :=
  validDigest source.snapshot.fingerprint && validDigest source.contentDigest &&
  boundedIdentity source.relativePath limits.maximumMetadataBytes &&
  source.relativePath.head? != some 0x2f && !source.relativePath.contains 0x5c &&
  validPathParts source.relativePath.length source.relativePath &&
  source.range.all fun range => decide (range.start < range.stop)

abbrev Checked := Except ReviewReceiptError Unit

def limitsError : ReviewReceiptError := ⟨.invalidLimits, "review receipt limits are invalid", none⟩

/-- An error of a part is reported under the receipt it is part of. -/
def underReceipt (receiptId : ReviewReceiptId) (checked : Checked) : Checked :=
  match checked with
  | .ok () => .ok ()
  | .error err => .error { err with receiptId := some receiptId }

/-- The evidence identity belongs to exactly one kind. -/
def identityMatchesKind (binding : ReviewEvidenceBinding) (limits : ReviewReceiptLimits) : Bool :=
  let verification := decide (binding.kind = .verification)
  verification == binding.verificationEvidenceId.isSome &&
  verification != binding.scenarioId.isSome &&
  verification != binding.scenarioCorpusVersion.isSome &&
  verification != binding.scenarioApplicationRevision.isSome &&
  verification != binding.scenarioFakeScriptDigest.isSome &&
  verification != binding.scenarioTerminalCapabilitiesDigest.isSome &&
  binding.scenarioId.all (boundedIdentity · limits.maximumMetadataBytes) &&
  binding.scenarioCorpusVersion.all (boundedIdentity · limits.maximumMetadataBytes) &&
  binding.scenarioApplicationRevision.all (boundedIdentity · limits.maximumMetadataBytes) &&
  binding.scenarioFakeScriptDigest.all validDigest &&
  binding.scenarioTerminalCapabilitiesDigest.all validDigest

def validateReviewEvidenceBinding (binding : ReviewEvidenceBinding)
    (limits : ReviewReceiptLimits := {}) : Checked := do
  ensure (validLimits limits) limitsError
  ensure (boundedIdentity binding.producerName limits.maximumMetadataBytes ∧
      boundedIdentity binding.producerVersion limits.maximumMetadataBytes ∧
      validDigest binding.resultDigest ∧
      binding.artifacts.length ≤ limits.maximumArtifactsPerEvidence)
    { code := .invalidEvidence, message := "review evidence binding is invalid" }
  ensure (identityMatchesKind binding limits)
    { code := .invalidEvidence, message := "review evidence identity does not match its kind" }
  ensure (∀ artifact ∈ binding.artifacts, validDigest artifact.digest)
    { code := .invalidEvidence, message := "review artifact digest is invalid" }
  ensure (binding.artifacts.map ReviewArtifactDigest.artifactId).Nodup
    { code := .duplicateIdentity, message := "review artifact identities must be unique" }

def validateReviewCandidate (candidate : ReviewCandidate) (limits : ReviewReceiptLimits := {}) :
    Checked := do
  ensure (validLimits limits) limitsError
  ensure (validCandidate candidate limits)
    { code := .invalidCandidate, message := "review candidate is invalid" }

def validateReviewActor (actor : ReviewActor) (limits : ReviewReceiptLimits := {}) : Checked := do
  ensure (validLimits limits) limitsError
  ensure (validActor actor limits)
    { code := .invalidActor, message := "review actor is invalid" }

def validateReviewParticipantProvenance (participant : ReviewParticipantProvenance)
    (limits : ReviewReceiptLimits := {}) : Checked := do
  ensure (validLimits limits) limitsError
  ensure (validParticipant participant limits)
    { code := .invalidActor, message := "review participant provenance is invalid" }

def validateReviewFinding (finding : ReviewFinding) (limits : ReviewReceiptLimits := {}) :
    Checked := do
  ensure (validLimits limits) limitsError
  ensure (boundedText finding.summary limits.maximumTextBytes ∧
      finding.artifacts.length ≤ limits.maximumFindingArtifacts ∧ finding.artifacts.Nodup ∧
      finding.source.all (validSource · limits) ∧
      finding.reproductionEvidenceIds.length ≤ limits.maximumEvidence ∧
      finding.reproductionEvidenceIds.Nodup)
    { code := .invalidFinding, message := "review finding is invalid" }

def validateReviewOverride (value : ReviewOverride) (limits : ReviewReceiptLimits := {}) :
    Checked := do
  validateReviewCandidate value.candidate limits
  validateReviewActor value.actor limits
  ensure (boundedText value.reason limits.maximumTextBytes)
    { code := .invalidReceipt, message := "review override reason is invalid"
      receiptId := some value.receiptId }

/-- The bindings of a draft, one after the other; the first bad one decides the error. -/
def validateDraftEvidence (draft : ReviewReceiptDraft) (limits : ReviewReceiptLimits) :
    List ReviewEvidenceBinding → Checked
  | [] => .ok ()
  | binding :: rest => do
    underReceipt draft.receiptId (validateReviewEvidenceBinding binding limits)
    ensure (binding.kind = .scenario →
        binding.scenarioApplicationRevision = some draft.candidate.revision)
      { code := .invalidEvidence
        message := "review scenario was not recorded for the candidate revision"
        receiptId := some draft.receiptId }
    validateDraftEvidence draft limits rest

def validateReviewReceiptDraft (draft : ReviewReceiptDraft) (limits : ReviewReceiptLimits := {}) :
    Checked := do
  ensure (validLimits limits) { limitsError with receiptId := some draft.receiptId }
  underReceipt draft.receiptId (validateReviewCandidate draft.candidate limits)
  underReceipt draft.receiptId
    (draft.author.elim (.ok ()) (validateReviewParticipantProvenance · limits))
  ensure (draft.evidence ≠ [] ∧ draft.evidence.length ≤ limits.maximumEvidence)
    { code := .resourceExhausted, message := "review evidence count is outside its bounds"
      receiptId := some draft.receiptId }
  validateDraftEvidence draft limits draft.evidence
  ensure (draft.evidence.map ReviewEvidenceBinding.requirementId).Nodup
    { code := .duplicateIdentity, message := "review requirement identities must be unique"
      receiptId := some draft.receiptId }

theorem underReceipt_ok {receiptId : ReviewReceiptId} {checked : Checked} :
    underReceipt receiptId checked = .ok () ↔ checked = .ok () := by
  unfold underReceipt
  cases checked <;> simp

variable {limits : ReviewReceiptLimits}

theorem validateReviewEvidenceBinding_artifacts {binding : ReviewEvidenceBinding}
    (h : validateReviewEvidenceBinding binding limits = .ok ()) :
    (binding.artifacts.map ReviewArtifactDigest.artifactId).Nodup := by
  replace h := later h
  replace h := later h
  replace h := later h
  replace h := later h
  exact ensure_ok.1 h

theorem validateDraftEvidence_mem {draft : ReviewReceiptDraft}
    {bindings : List ReviewEvidenceBinding}
    (h : validateDraftEvidence draft limits bindings = .ok ()) :
    ∀ binding ∈ bindings, validateReviewEvidenceBinding binding limits = .ok () := by
  induction bindings with
  | nil => simp
  | cons _ _ ih =>
    obtain ⟨_, hfst, h⟩ := bind_ok.1 h
    replace h := later h
    intro binding hb
    rcases List.mem_cons.1 hb with rfl | hb
    · exact underReceipt_ok.1 hfst
    · exact ih h binding hb

theorem validateReviewReceiptDraft_mem {draft : ReviewReceiptDraft}
    (h : validateReviewReceiptDraft draft limits = .ok ()) :
    ∀ binding ∈ draft.evidence, validateReviewEvidenceBinding binding limits = .ok () := by
  replace h := later h
  replace h := later h
  replace h := later h
  replace h := later h
  obtain ⟨_, hev, h⟩ := bind_ok.1 h
  exact validateDraftEvidence_mem hev

end ReviewReceipt
