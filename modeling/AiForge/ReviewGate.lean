import AiForge.ReviewProjection

/-! # Review merge gate

The gate compares a receipt with the policy and with what is presented now, collects every
reason against it, and issues an authorization when there is none or a trusted human overrides
them. The grounds of an authorization are stated over the event stream of the receipt. -/
namespace ReviewGate

open Content EventProjection KeyedList ReviewProjection ReviewReceipt SafeText Pricing Staged

structure ReviewPolicyRequirement where
  requirementId : ReviewRequirementId
  kind : ReviewEvidenceKind
  (producerName producerVersion : Bytes)
  (scenarioId scenarioCorpusVersion : Option Bytes)
  deriving DecidableEq

structure ReviewAuthorizationPolicy where
  requiredEvidence : List ReviewPolicyRequirement
  allowHumanOverride : Bool := false
  trustedOverrideActorIds : List Bytes := []
  requireHostedCheck : Bool := false
  deriving DecidableEq

structure ReviewGateEnvironment where
  currentCandidate : ReviewCandidate
  currentEvidence : List ReviewEvidenceBinding

inductive ReviewInvalidationTrigger where
  | candidateChanged | requirementMissing | evidenceChanged | verifierVersionChanged
  | scenarioVersionChanged | artifactMissingOrChanged | findingsOpen | verdictMissing
  | verdictConflicted | verdictNotApproved | approvalRevoked | overrideUntrusted
  deriving DecidableEq

inductive ReviewAuthorizationSource where
  | receipt | humanOverride
  deriving DecidableEq

inductive ReviewGateState where
  | denied | invalidated | authorized | overridden

inductive HostedReviewCheckState where
  | success | failure
  deriving DecidableEq

structure HostedReviewCheckUpdate where
  receiptId : ReviewReceiptId
  candidate : ReviewCandidate
  state : HostedReviewCheckState
  decisionDigest : ContentDigest
  summary : String

structure HostedReviewCheckConfirmation where
  candidate : ReviewCandidate
  state : HostedReviewCheckState
  decisionDigest : ContentDigest

inductive HostedReviewCheckErrorCode where
  | unavailable | rejected | mismatchedConfirmation | internalFailure

structure HostedReviewCheckError where
  code : HostedReviewCheckErrorCode
  message : String
  retryable : Bool

/-- What a publication answers; `none` when the port throws. -/
abbrev HostedReviewCheckPort :=
  HostedReviewCheckUpdate → Option (Except HostedReviewCheckError HostedReviewCheckConfirmation)

structure MergeAuthorization where
  receiptId : ReviewReceiptId
  candidate : ReviewCandidate
  source : ReviewAuthorizationSource
  decisionDigest : ContentDigest
  deriving DecidableEq

structure ReviewGateDecision where
  state : ReviewGateState := .denied
  authorization : Option MergeAuthorization := none
  triggers : List ReviewInvalidationTrigger := []
  hostedCheck : Option HostedReviewCheckConfirmation := none
  explanation : String := ""

inductive ReviewGateErrorCode where
  | invalidPolicy | invalidEnvironment | invalidProjection | hostedCheckFailure | internalFailure
  deriving DecidableEq

structure ReviewGateError where
  code : ReviewGateErrorCode
  message : String
  retryable : Bool := false
  deriving DecidableEq

def boundedText (value : Bytes) (maximum : ℕ := 4096) : Bool :=
  !value.isEmpty && decide (value.length ≤ maximum) &&
  value.all fun character => !(character < 0x20 || character == 0x7f)

def validRequirement (requirement : ReviewPolicyRequirement) : Bool :=
  let scenario := decide (requirement.kind = .scenario)
  boundedText requirement.producerName && boundedText requirement.producerVersion &&
  scenario == requirement.scenarioId.isSome &&
  scenario == requirement.scenarioCorpusVersion.isSome &&
  requirement.scenarioId.all (boundedText ·) && requirement.scenarioCorpusVersion.all (boundedText ·)

def checkPolicy (policy : ReviewAuthorizationPolicy) : Except ReviewGateError Unit := do
  ensure (policy.requiredEvidence ≠ [] ∧ policy.requiredEvidence.all validRequirement)
    { code := .invalidPolicy, message := "review authorization policy is invalid" }
  ensure ((policy.requiredEvidence.map ReviewPolicyRequirement.requirementId).Nodup ∧
      policy.trustedOverrideActorIds.Nodup ∧
      policy.trustedOverrideActorIds.all (boundedText ·) ∧
      (policy.allowHumanOverride ∨ policy.trustedOverrideActorIds = []))
    { code := .invalidPolicy, message := "review authorization policy is inconsistent" }

def checkEnvironment (environment : ReviewGateEnvironment) : Except ReviewGateError Unit := do
  ensure (passes (validateReviewCandidate environment.currentCandidate))
    { code := .invalidEnvironment, message := "current review candidate is invalid" }
  ensure (environment.currentEvidence.all fun binding =>
      passes (validateReviewEvidenceBinding binding))
    { code := .invalidEnvironment, message := "current review evidence is invalid" }
  ensure (environment.currentEvidence.map ReviewEvidenceBinding.requirementId).Nodup
    { code := .invalidEnvironment, message := "current review evidence is duplicated" }

def addTrigger (triggers : List ReviewInvalidationTrigger) (trigger : ReviewInvalidationTrigger) :
    List ReviewInvalidationTrigger :=
  if trigger ∈ triggers then triggers else triggers ++ [trigger]

def addTriggerIf (c : Prop) [Decidable c] (triggers : List ReviewInvalidationTrigger)
    (trigger : ReviewInvalidationTrigger) : List ReviewInvalidationTrigger :=
  if c then addTrigger triggers trigger else triggers

def ReviewInvalidationTrigger.invalidatesEvidence : ReviewInvalidationTrigger → Bool
  | .candidateChanged | .requirementMissing | .evidenceChanged | .verifierVersionChanged
  | .scenarioVersionChanged | .artifactMissingOrChanged => true
  | .findingsOpen | .verdictMissing | .verdictConflicted | .verdictNotApproved
  | .approvalRevoked | .overrideUntrusted => false

def evidenceInvalidated (triggers : List ReviewInvalidationTrigger) : Bool :=
  triggers.any ReviewInvalidationTrigger.invalidatesEvidence

def sameArtifacts (left right : List ReviewArtifactDigest) : Bool :=
  decide (left.length = right.length) && left.all fun expected =>
    (lookup ReviewArtifactDigest.artifactId expected.artifactId right).any fun found =>
      found.digest = expected.digest

/-- One turn of the loop over the required evidence. -/
def evidenceTriggers (draft : ReviewReceiptDraft) (environment : ReviewGateEnvironment)
    (triggers : List ReviewInvalidationTrigger) (required : ReviewPolicyRequirement) :
    List ReviewInvalidationTrigger :=
  match lookup ReviewEvidenceBinding.requirementId required.requirementId draft.evidence with
  | none => addTrigger triggers .requirementMissing
  | some recorded =>
    let triggers := addTriggerIf (recorded.producerName ≠ required.producerName ∨
      recorded.producerVersion ≠ required.producerVersion ∨ recorded.kind ≠ required.kind)
      triggers .verifierVersionChanged
    let triggers := addTriggerIf (recorded.scenarioId ≠ required.scenarioId ∨
      recorded.scenarioCorpusVersion ≠ required.scenarioCorpusVersion)
      triggers .scenarioVersionChanged
    match lookup ReviewEvidenceBinding.requirementId required.requirementId
        environment.currentEvidence with
    | none => addTrigger triggers .requirementMissing
    | some current =>
      let triggers := addTriggerIf (current.kind ≠ required.kind ∨
        current.producerName ≠ required.producerName ∨
        current.producerVersion ≠ required.producerVersion) triggers .verifierVersionChanged
      let triggers := addTriggerIf (current.scenarioId ≠ required.scenarioId ∨
        current.scenarioCorpusVersion ≠ required.scenarioCorpusVersion)
        triggers .scenarioVersionChanged
      let triggers := addTriggerIf (current.resultDigest ≠ recorded.resultDigest ∨
        current.verificationEvidenceId ≠ recorded.verificationEvidenceId ∨
        current.scenarioApplicationRevision ≠ recorded.scenarioApplicationRevision ∨
        current.scenarioFakeScriptDigest ≠ recorded.scenarioFakeScriptDigest ∨
        current.scenarioTerminalCapabilitiesDigest ≠ recorded.scenarioTerminalCapabilitiesDigest)
        triggers .evidenceChanged
      addTriggerIf (sameArtifacts recorded.artifacts current.artifacts = false)
        triggers .artifactMissingOrChanged

def stateTriggers (triggers : List ReviewInvalidationTrigger) :
    ReviewReceiptState → List ReviewInvalidationTrigger
  | .approved => triggers
  | .findingsOpen => addTrigger triggers .findingsOpen
  | .conflicted => addTrigger triggers .verdictConflicted
  | .changesRequested | .rejected => addTrigger triggers .verdictNotApproved
  | .revoked => addTrigger triggers .approvalRevoked
  | .notStarted | .draft | .reviewRequested => addTrigger triggers .verdictMissing

def activeOverride (receipt : ReceiptState) (policy : ReviewAuthorizationPolicy) :
    Option ProjectedReviewOverride :=
  receipt.overrides.find? fun override => override.active &&
    policy.trustedOverrideActorIds.contains override.value.actor.actorId

def trustedOverride (receipt : ReceiptState) (policy : ReviewAuthorizationPolicy) : Bool :=
  policy.allowHumanOverride && (activeOverride receipt policy).isSome

def allTriggers (receipt : ReceiptState) (draft : ReviewReceiptDraft)
    (policy : ReviewAuthorizationPolicy) (environment : ReviewGateEnvironment) :
    List ReviewInvalidationTrigger :=
  let triggers := addTriggerIf (environment.currentCandidate ≠ draft.candidate) [] .candidateChanged
  let triggers := policy.requiredEvidence.foldl (evidenceTriggers draft environment) triggers
  let triggers := stateTriggers triggers receipt.state
  addTriggerIf (trustedOverride receipt policy = false ∧
    receipt.overrides.any ProjectedReviewOverride.active) triggers .overrideUntrusted

def digestField (value : String) : Bytes := framed (bytesOf value)
def digestNumber (value : ℕ) : Bytes := framed ((Nat.toDigits 10 value).map Char.toUInt8)

def digestOptional (value : Option Bytes) : Bytes :=
  digestField (if value.isSome then "present" else "absent") ++ value.elim [] framed

def digestContent (digest : ContentDigest) : Bytes :=
  digestField digest.algorithm ++ digestField digest.value ++ digestNumber digest.byteSize

def digestParticipant (participant : ReviewParticipantProvenance) : Bytes :=
  framed participant.actor.actorId ++ framed participant.actor.displayName ++
  digestField (participant.runId.getD "") ++ digestOptional participant.backendId ++
  digestOptional participant.backendVersion ++ digestField (participant.modelId.getD "") ++
  digestOptional participant.modelVersion

def digestRequirement (required : ReviewPolicyRequirement) : Bytes :=
  digestField required.requirementId ++ framed required.producerName ++
  framed required.producerVersion ++ digestOptional required.scenarioId ++
  digestOptional required.scenarioCorpusVersion

def digestBinding (binding : ReviewEvidenceBinding) : Bytes :=
  digestField binding.requirementId ++ framed binding.producerName ++
  framed binding.producerVersion ++ digestOptional binding.scenarioId ++
  digestOptional binding.scenarioCorpusVersion ++
  digestOptional binding.scenarioApplicationRevision ++ digestContent binding.resultDigest ++
  (binding.scenarioFakeScriptDigest.elim (digestField "fake-script-absent") fun digest =>
    digestField "fake-script-present" ++ digestContent digest) ++
  (binding.scenarioTerminalCapabilitiesDigest.elim (digestField "terminal-capabilities-absent")
    fun digest => digestField "terminal-capabilities-present" ++ digestContent digest) ++
  binding.artifacts.flatMap fun artifact =>
    digestField artifact.artifactId ++ digestContent artifact.digest

def severityCode : ReviewFindingSeverity → ℕ
  | .low => 0
  | .medium => 1
  | .high => 2
  | .critical => 3

def verdictCode : ReviewVerdict → ℕ
  | .approved => 0
  | .changesRequested => 1
  | .rejected => 2

def digestFinding (entry : ProjectedReviewFinding) : Bytes :=
  digestField entry.finding.findingId ++ framed entry.finding.summary ++
  digestNumber (severityCode entry.finding.severity) ++
  digestField (if entry.finding.source.isSome then "source-present" else "source-absent") ++
  (entry.finding.source.elim [] fun source =>
    digestField source.snapshot.repositoryId ++ digestContent source.snapshot.fingerprint ++
    framed source.relativePath ++ digestContent source.contentDigest) ++
  entry.finding.artifacts.flatMap digestField ++
  entry.finding.reproductionEvidenceIds.flatMap digestField ++
  digestField (if entry.isOpen then "open" else "resolved")

def digestVerdict (entry : ProjectedReviewVerdict) : Bytes :=
  digestField entry.eventId ++ framed entry.reviewer.actorId ++
  digestField (if entry.active then "active" else "revoked") ++
  digestNumber (verdictCode entry.verdict) ++
  digestField (if entry.reviewerProvenance.isSome then "provenance-present"
    else "provenance-absent") ++ entry.reviewerProvenance.elim [] digestParticipant

def canonicalDecision (draft : ReviewReceiptDraft) (receipt : ReceiptState)
    (policy : ReviewAuthorizationPolicy) (source : ReviewAuthorizationSource)
    (selected : Option ProjectedReviewOverride) : Bytes :=
  digestField draft.receiptId ++ digestField draft.candidate.snapshot.repositoryId ++
  digestContent draft.candidate.snapshot.fingerprint ++ framed draft.candidate.revision ++
  digestField (if draft.author.isSome then "author-present" else "author-absent") ++
  draft.author.elim [] digestParticipant ++
  digestField (if source = .receipt then "receipt" else "override") ++
  policy.requiredEvidence.flatMap digestRequirement ++ draft.evidence.flatMap digestBinding ++
  receipt.findings.flatMap digestFinding ++ receipt.verdicts.flatMap digestVerdict ++
  selected.elim [] fun override =>
    digestField override.value.overrideId ++ framed override.value.actor.actorId ++
    framed override.value.reason

def decisionDigest (draft : ReviewReceiptDraft) (receipt : ReceiptState)
    (policy : ReviewAuthorizationPolicy) (source : ReviewAuthorizationSource)
    (selected : Option ProjectedReviewOverride) : ContentDigest :=
  let canonical := canonicalDecision draft receipt policy source selected
  ⟨"fnv1a64", hexDigits 16 (fnv1a64 canonical), canonical.length⟩

/-- The hosted check must confirm the very candidate and digest that were published. -/
def publishCheck (hostedCheck : Option HostedReviewCheckPort) (update : HostedReviewCheckUpdate) :
    Except ReviewGateError HostedReviewCheckConfirmation :=
  match hostedCheck with
  | none =>
    .error ⟨.hostedCheckFailure, "required hosted review check is unavailable", true⟩
  | some publish =>
    match publish update with
    | none => .error { code := .internalFailure, message := "review merge gate failed internally" }
    | some (.error err) =>
      .error ⟨.hostedCheckFailure, "required hosted review check could not be published",
        err.retryable⟩
    | some (.ok confirmation) =>
      if confirmation.candidate ≠ update.candidate ∨ confirmation.state ≠ .success ∨
          confirmation.decisionDigest ≠ update.decisionDigest then
        .error
          { code := .hostedCheckFailure
            message := "hosted review check confirmation did not match the candidate" }
      else .ok confirmation

def requiredCheck (policy : ReviewAuthorizationPolicy) (hostedCheck : Option HostedReviewCheckPort)
    (update : HostedReviewCheckUpdate) :
    Except ReviewGateError (Option HostedReviewCheckConfirmation) :=
  if policy.requireHostedCheck then
    match publishCheck hostedCheck update with
    | .ok confirmation => .ok (some confirmation)
    | .error err => .error err
  else .ok none

def authorize (receipt : ReceiptState) (draft : ReviewReceiptDraft)
    (policy : ReviewAuthorizationPolicy) (hostedCheck : Option HostedReviewCheckPort)
    (triggers : List ReviewInvalidationTrigger) (source : ReviewAuthorizationSource)
    (selected : Option ProjectedReviewOverride) : Except ReviewGateError ReviewGateDecision := do
  let digest := decisionDigest draft receipt policy source selected
  let overridden := decide (source = .humanOverride)
  let confirmation ← requiredCheck policy hostedCheck
    ⟨draft.receiptId, draft.candidate, .success, digest,
      if overridden then "APPROVED BY EXPLICIT HUMAN OVERRIDE"
      else "review receipt approved for the exact candidate"⟩
  return {
    state := if overridden then .overridden else .authorized
    authorization := some ⟨draft.receiptId, draft.candidate, source, digest⟩
    triggers := triggers
    hostedCheck := confirmation
    explanation :=
      if overridden then "merge authorized by an explicit trusted human override"
      else "merge authorized by the current review receipt" }

def evaluate (receipt : ReceiptState) (policy : ReviewAuthorizationPolicy)
    (environment : ReviewGateEnvironment) (hostedCheck : Option HostedReviewCheckPort) :
    Except ReviewGateError ReviewGateDecision :=
  match receipt.draft, receipt.receiptId with
  | some draft, some _ => do
    checkPolicy policy
    checkEnvironment environment
    let triggers := allTriggers receipt draft policy environment
    if .candidateChanged ∈ triggers then
      return {
        state := .invalidated
        triggers := triggers
        explanation := "merge authorization denied because the candidate changed" }
    else if triggers = [] then authorize receipt draft policy hostedCheck triggers .receipt none
    else if trustedOverride receipt policy then
      authorize receipt draft policy hostedCheck triggers .humanOverride
        (activeOverride receipt policy)
    else
      return {
        state := if evidenceInvalidated triggers then .invalidated else .denied
        triggers := triggers
        explanation :=
          "merge authorization denied because current review policy is not satisfied" }
  | _, _ =>
    .error { code := .invalidProjection, message := "review receipt has not been drafted" }

section Triggers

variable {triggers : List ReviewInvalidationTrigger} {trigger t : ReviewInvalidationTrigger}
  {draft : ReviewReceiptDraft} {environment : ReviewGateEnvironment}

theorem addTrigger_ne_nil : addTrigger triggers trigger ≠ [] := by
  unfold addTrigger
  split
  · rename_i hmem
    exact List.ne_nil_of_mem hmem
  · simp

theorem mem_addTrigger (h : t ∈ triggers) : t ∈ addTrigger triggers trigger := by
  unfold addTrigger
  split
  · exact h
  · exact List.mem_append_left _ h

theorem self_mem_addTrigger : trigger ∈ addTrigger triggers trigger := by
  unfold addTrigger
  split
  · assumption
  · simp

theorem addTriggerIf_eq_nil {c : Prop} [Decidable c] :
    addTriggerIf c triggers trigger = [] ↔ triggers = [] ∧ ¬ c := by
  unfold addTriggerIf
  split
  · rename_i hc
    exact iff_of_false addTrigger_ne_nil fun h => h.2 hc
  · rename_i hc
    simp [hc]

theorem mem_addTriggerIf {c : Prop} [Decidable c] (h : t ∈ triggers) :
    t ∈ addTriggerIf c triggers trigger := by
  unfold addTriggerIf
  split
  · exact mem_addTrigger h
  · exact h

theorem mem_evidenceTriggers {required : ReviewPolicyRequirement} (h : t ∈ triggers) :
    t ∈ evidenceTriggers draft environment triggers required := by
  unfold evidenceTriggers
  split
  · exact mem_addTrigger h
  · split
    · exact mem_addTrigger (mem_addTriggerIf (mem_addTriggerIf h))
    · exact mem_addTriggerIf (mem_addTriggerIf (mem_addTriggerIf (mem_addTriggerIf
        (mem_addTriggerIf (mem_addTriggerIf h)))))

theorem mem_stateTriggers {state : ReviewReceiptState} (h : t ∈ triggers) :
    t ∈ stateTriggers triggers state := by
  cases state <;> first | exact h | exact mem_addTrigger h

theorem stateTriggers_eq_nil {state : ReviewReceiptState} :
    stateTriggers triggers state = [] ↔ triggers = [] ∧ state = .approved := by
  cases state <;> simp [stateTriggers, addTrigger_ne_nil]

end Triggers

/-- The presented binding is the recorded one, up to the order in which artifacts are listed. -/
def SameEvidence (recorded current : ReviewEvidenceBinding) : Prop :=
  current = { recorded with artifacts := current.artifacts } ∧
  current.artifacts.Perm recorded.artifacts

/-- The binding is of the kind, the producer and the scenario that the policy asks for. -/
def Answers (required : ReviewPolicyRequirement) (binding : ReviewEvidenceBinding) : Prop :=
  binding.requirementId = required.requirementId ∧ binding.kind = required.kind ∧
  binding.producerName = required.producerName ∧
  binding.producerVersion = required.producerVersion ∧
  binding.scenarioId = required.scenarioId ∧
  binding.scenarioCorpusVersion = required.scenarioCorpusVersion

/-- The required evidence is recorded in the draft and presented again unchanged. -/
def Held (draft : ReviewReceiptDraft) (environment : ReviewGateEnvironment)
    (required : ReviewPolicyRequirement) : Prop :=
  ∃ recorded ∈ draft.evidence, ∃ current ∈ environment.currentEvidence,
    Answers required recorded ∧ Answers required current ∧ SameEvidence recorded current

theorem sameArtifacts_perm {left right : List ReviewArtifactDigest}
    (hd : (left.map ReviewArtifactDigest.artifactId).Nodup) (h : sameArtifacts left right) :
    right.Perm left := by
  obtain ⟨hlength, hall⟩ := Bool.and_eq_true_iff.1 h
  have hsub : left ⊆ right := by
    intro expected he
    obtain ⟨found, hf, _⟩ := (Option.any_eq_true ..).1 (List.all_eq_true.1 hall expected he)
    have hsame : found = expected := by
      have hid := lookup_key hf
      cases found
      cases expected
      simp_all
    exact hsame ▸ lookup_mem hf
  have hlen : right.length ≤ left.length := (of_decide_eq_true hlength).ge
  exact ((hd.of_map _).subperm hsub |>.perm_of_length_le hlen).symm

section Soundness

variable {draft : ReviewReceiptDraft} {environment : ReviewGateEnvironment}

variable {triggers : List ReviewInvalidationTrigger}

section

variable
  (hd : ∀ binding ∈ draft.evidence, (binding.artifacts.map ReviewArtifactDigest.artifactId).Nodup)

include hd

theorem evidenceTriggers_eq_nil {required : ReviewPolicyRequirement}
    (h : evidenceTriggers draft environment triggers required = []) :
    triggers = [] ∧ Held draft environment required := by
  unfold evidenceTriggers at h
  split at h
  · exact absurd h addTrigger_ne_nil
  rename_i recorded hrec
  split at h
  · exact absurd h addTrigger_ne_nil
  rename_i current hcur
  rw [addTriggerIf_eq_nil, addTriggerIf_eq_nil, addTriggerIf_eq_nil, addTriggerIf_eq_nil,
    addTriggerIf_eq_nil, addTriggerIf_eq_nil] at h
  obtain ⟨⟨⟨⟨⟨⟨hnil, hprod⟩, hscenario⟩, hprod'⟩, hscenario'⟩, hres⟩, hart⟩ := h
  push Not at hprod hscenario hprod' hscenario' hres
  obtain ⟨hname, hver, hkind⟩ := hprod
  obtain ⟨hid, hcorpus⟩ := hscenario
  obtain ⟨hkind', hname', hver'⟩ := hprod'
  obtain ⟨hid', hcorpus'⟩ := hscenario'
  obtain ⟨_, _, _, _, _⟩ := hres
  have hperm := sameArtifacts_perm (hd recorded (lookup_mem hrec)) (by simpa using hart)
  have hkey := lookup_key hrec
  have hkey' := lookup_key hcur
  refine ⟨hnil, recorded, lookup_mem hrec, current, lookup_mem hcur,
    ⟨hkey, hkind, hname, hver, hid, hcorpus⟩,
    ⟨hkey', hkind', hname', hver', hid', hcorpus'⟩, ?_, hperm⟩
  cases recorded
  cases current
  simp_all

theorem foldl_evidenceTriggers_eq_nil {requirements : List ReviewPolicyRequirement}
    (h : requirements.foldl (evidenceTriggers draft environment) triggers = []) :
    triggers = [] ∧ ∀ required ∈ requirements, Held draft environment required := by
  induction requirements generalizing triggers with
  | nil => exact ⟨h, by simp⟩
  | cons _ _ ih =>
    obtain ⟨hfst, hrest⟩ := ih h
    obtain ⟨hnil, hheld⟩ := evidenceTriggers_eq_nil hd hfst
    refine ⟨hnil, ?_⟩
    intro required hr
    rcases List.mem_cons.1 hr with rfl | hr
    · exact hheld
    · exact hrest required hr

end

theorem mem_foldl_evidenceTriggers {requirements : List ReviewPolicyRequirement}
    {t : ReviewInvalidationTrigger}
    (h : t ∈ triggers) : t ∈ requirements.foldl (evidenceTriggers draft environment) triggers := by
  induction requirements generalizing triggers with
  | nil => exact h
  | cons _ _ ih => exact ih (mem_evidenceTriggers h)

variable {receipt : ReceiptState} {policy : ReviewAuthorizationPolicy}
  {hostedCheck : Option HostedReviewCheckPort} {decision : ReviewGateDecision}
  {authorization : MergeAuthorization}

/-- A changed candidate stays among the reasons whatever is added after it. -/
theorem candidateChanged_mem (h : environment.currentCandidate ≠ draft.candidate) :
    .candidateChanged ∈ allTriggers receipt draft policy environment := by
  have hfst : .candidateChanged ∈ addTriggerIf
      (environment.currentCandidate ≠ draft.candidate) [] .candidateChanged := by
    rw [addTriggerIf, if_pos h]
    exact self_mem_addTrigger
  exact mem_addTriggerIf (mem_stateTriggers (mem_foldl_evidenceTriggers hfst))

theorem allTriggers_eq_nil (hd : ∀ binding ∈ draft.evidence,
      (binding.artifacts.map ReviewArtifactDigest.artifactId).Nodup)
    (h : allTriggers receipt draft policy environment = []) :
    (∀ required ∈ policy.requiredEvidence, Held draft environment required) ∧
    receipt.state = .approved ∧ (trustedOverride receipt policy ∨
      ∀ override ∈ receipt.overrides, override.active = false) := by
  obtain ⟨h, hoverride⟩ := addTriggerIf_eq_nil.1 h
  obtain ⟨h, hst⟩ := stateTriggers_eq_nil.1 h
  obtain ⟨-, hheld⟩ := foldl_evidenceTriggers_eq_nil hd h
  refine ⟨hheld, hst, ?_⟩
  by_cases htrust : trustedOverride receipt policy
  · exact .inl htrust
  · refine .inr ?_
    simpa [htrust] using hoverride

/-- The receipt itself carries the authorization. -/
structure ReceiptGrounds (history : List ReviewEvent) (draft : ReviewReceiptDraft)
    (policy : ReviewAuthorizationPolicy) (environment : ReviewGateEnvironment) : Prop where
  findings : ∀ finding, ¬ OpenFinding history finding
  verdict : ∃ event, ActiveVerdict history event .approved ∧
    ∀ other verdict, ActiveVerdict history other verdict → other = event
  evidence : ∀ required ∈ policy.requiredEvidence, Held draft environment required
  overrides : ∀ override, ActiveOverride history override →
    override.actor.actorId ∈ policy.trustedOverrideActorIds

/-- A trusted human recorded an override for the candidate and has not revoked it. -/
def OverrideGrounds (history : List ReviewEvent) (policy : ReviewAuthorizationPolicy)
    (candidate : ReviewCandidate) : Prop :=
  policy.allowHumanOverride ∧ ∃ override, ActiveOverride history override ∧
    override.actor.actorId ∈ policy.trustedOverrideActorIds ∧ override.candidate = candidate

/-- The hosted check was sent the digest of the authorization and confirmed that digest. -/
def HostedConfirmation (hostedCheck : Option HostedReviewCheckPort) (decision : ReviewGateDecision)
    (authorization : MergeAuthorization) : Prop :=
  ∃ publish update confirmation, hostedCheck = some publish ∧
    publish update = some (.ok confirmation) ∧
    update.decisionDigest = authorization.decisionDigest ∧
    confirmation.decisionDigest = authorization.decisionDigest ∧
    confirmation.candidate = authorization.candidate ∧ confirmation.state = .success ∧
    decision.hostedCheck = some confirmation

theorem publishCheck_confirms {update : HostedReviewCheckUpdate}
    {confirmation : HostedReviewCheckConfirmation}
    (h : publishCheck hostedCheck update = .ok confirmation) :
    ∃ publish, hostedCheck = some publish ∧ publish update = some (.ok confirmation) ∧
      confirmation.candidate = update.candidate ∧ confirmation.state = .success ∧
      confirmation.decisionDigest = update.decisionDigest := by
  unfold publishCheck at h
  split at h
  · cases h
  rename_i publish
  split at h
  · cases h
  · cases h
  rename_i answer hans
  split at h
  · cases h
  rename_i hmatch
  cases h
  push Not at hmatch
  exact ⟨publish, rfl, hans, hmatch⟩

theorem requiredCheck_confirms {update : HostedReviewCheckUpdate}
    {confirmation : Option HostedReviewCheckConfirmation} (hr : policy.requireHostedCheck)
    (h : requiredCheck policy hostedCheck update = .ok confirmation) :
    ∃ sent, confirmation = some sent ∧ ∃ publish, hostedCheck = some publish ∧
      publish update = some (.ok sent) ∧ sent.candidate = update.candidate ∧
      sent.state = .success ∧ sent.decisionDigest = update.decisionDigest := by
  unfold requiredCheck at h
  rw [if_pos hr] at h
  split at h
  · rename_i sent hsent
    cases h
    exact ⟨sent, rfl, publishCheck_confirms hsent⟩
  · cases h

theorem authorize_spec
    {source : ReviewAuthorizationSource} {selected : Option ProjectedReviewOverride}
    (h : authorize receipt draft policy hostedCheck triggers source selected = .ok decision)
    (ha : decision.authorization = some authorization) :
    authorization.receiptId = draft.receiptId ∧ authorization.candidate = draft.candidate ∧
    authorization.decisionDigest = decisionDigest draft receipt policy source selected ∧
    (policy.requireHostedCheck →
      HostedConfirmation hostedCheck decision authorization) := by
  obtain ⟨_, hc, h⟩ := bind_ok.1 h
  cases h
  cases ha
  refine ⟨rfl, rfl, rfl, ?_⟩
  intro hreq
  obtain ⟨sent, rfl, publish, hport, hans, hcand, hst, hdig⟩ :=
    requiredCheck_confirms hreq hc
  exact ⟨publish, _, sent, hport, hans, rfl, hdig, hcand, hst, rfl⟩

/-- An authorization is issued for the drafted candidate only while it is the current one. -/
theorem evaluate_cases (h : evaluate receipt policy environment hostedCheck = .ok decision)
    (ha : decision.authorization = some authorization) :
    ∃ draft triggers source selected, receipt.draft = some draft ∧
      environment.currentCandidate = draft.candidate ∧
      authorize receipt draft policy hostedCheck triggers source selected = .ok decision ∧
      (allTriggers receipt draft policy environment = [] ∨ trustedOverride receipt policy) := by
  unfold evaluate at h
  split at h
  · rename_i draft receiptId hdrf hid
    replace h := later h
    replace h := later h
    dsimp only at h
    split at h
    · cases h
      cases ha
    rename_i hkept
    have hcur : environment.currentCandidate = draft.candidate := by
      by_contra hne
      exact hkept (candidateChanged_mem hne)
    split at h
    · rename_i hnil
      exact ⟨draft, _, _, _, hdrf, hcur, h, .inl hnil⟩
    split at h
    · rename_i htrust
      exact ⟨draft, _, _, _, hdrf, hcur, h, .inr htrust⟩
    · cases h
      cases ha
  · cases h

theorem trustedOverride_grounds {history : List ReviewEvent} (hl : Ledger history receipt)
    (hdrf : receipt.draft = some draft) (h : trustedOverride receipt policy) :
    OverrideGrounds history policy draft.candidate := by
  obtain ⟨hallow, hsome⟩ := Bool.and_eq_true_iff.1 h
  obtain ⟨found, hfnd⟩ := Option.isSome_iff_exists.1 hsome
  have hmem := List.mem_of_find?_eq_some hfnd
  have hpick := List.find?_some hfnd
  obtain ⟨hact, htrust⟩ := Bool.and_eq_true_iff.1 hpick
  obtain ⟨_, hd, hcand⟩ := hl.bound.candidate found hmem
  obtain rfl := Option.some.inj (hdrf.symm.trans hd)
  have hent : (⟨found.value, true⟩ : ProjectedReviewOverride) ∈ receipt.overrides := by
    rw [← hact]
    exact hmem
  exact ⟨hallow, found.value, hl.activeOverride_iff.2 hent, List.contains_iff_mem.1 htrust,
    hcand⟩

theorem review_gate_sound {calls : List Call} (haccepted : ReviewReceiptProjection.Accepted
      ReviewReceiptProjection.initial calls receipt)
    (h : evaluate receipt policy environment hostedCheck = .ok decision)
    (ha : decision.authorization = some authorization) :
    ∃ draft, (∃ event ∈ calls.map Prod.fst, event.payload = .reviewReceiptDrafted draft) ∧
      authorization.receiptId = draft.receiptId ∧ authorization.candidate = draft.candidate ∧
      environment.currentCandidate = authorization.candidate ∧
      (ReceiptGrounds (calls.map Prod.fst) draft policy environment ∨
        OverrideGrounds (calls.map Prod.fst) policy authorization.candidate) ∧
      (policy.requireHostedCheck →
        HostedConfirmation hostedCheck decision authorization) := by
  have hl := accepted_ledger haccepted
  obtain ⟨draft, _, _, _, hdraft, hcurrent, hauthorize, hreason⟩ :=
    evaluate_cases h ha
  obtain ⟨hreceipt, hcandidate, -, hhosted⟩ := authorize_spec hauthorize ha
  obtain ⟨hdrafted, hartifacts⟩ := hl.bound.drafted draft hdraft
  refine ⟨draft, hdrafted, hreceipt, hcandidate, hcurrent.trans hcandidate.symm, ?_, hhosted⟩
  rw [hcandidate]
  rcases hreason with hnil | htrusted
  · obtain ⟨hheld, hstate, hoverrides⟩ := allTriggers_eq_nil hartifacts hnil
    rcases hoverrides with htrusted | hnone
    · exact .inr (trustedOverride_grounds hl hdraft htrusted)
    · obtain ⟨hfindings, hverdict⟩ := hl.approved hstate
      refine .inl ⟨hfindings, hverdict, hheld, ?_⟩
      intro override hactive
      have habs := hnone _ (hl.activeOverride_iff.1 hactive)
      cases habs
  · exact .inr (trustedOverride_grounds hl hdraft htrusted)

end Soundness

def sampleCandidate : ReviewCandidate :=
  ⟨⟨"repository", ⟨"sha256", "ab12", 4⟩⟩, bytesOf "revision-1"⟩

def sampleBinding : ReviewEvidenceBinding :=
  { requirementId := "unit-tests", kind := .verification, producerName := bytesOf "ctest"
    producerVersion := bytesOf "3.30", verificationEvidenceId := some "evidence-1"
    scenarioId := none, scenarioCorpusVersion := none, scenarioApplicationRevision := none
    scenarioFakeScriptDigest := none, scenarioTerminalCapabilitiesDigest := none
    resultDigest := ⟨"sha256", "cd34", 9⟩
    artifacts := [⟨"log", ⟨"sha256", "ef56", 7⟩⟩, ⟨"report", ⟨"sha256", "0a1b", 5⟩⟩] }

def sampleActor : ReviewActor := ⟨bytesOf "reviewer", bytesOf "Reviewer"⟩

def sampleEvent (eventId : EventId) (sequence : ℕ) (payload : ReviewEventPayload) : Call :=
  (⟨⟨eventId, "run", sequence, 1, 0, none, none, none⟩, payload⟩, {})

def sampleCalls : List Call :=
  [sampleEvent "e1" 1 (.reviewReceiptDrafted ⟨"receipt", sampleCandidate, [sampleBinding], none⟩),
    sampleEvent "e2" 2 (.reviewRequested "receipt" sampleActor),
    sampleEvent "e3" 3 (.reviewVerdictRecorded "receipt" .changesRequested sampleActor none),
    sampleEvent "e4" 4 (.reviewFindingOpened "receipt"
      ⟨"finding", bytesOf "missing check", none, ["log"], .high, none, []⟩),
    sampleEvent "e5" 5 (.reviewFindingResolved "receipt" "finding" sampleActor none),
    sampleEvent "e6" 6 (.reviewVerdictRevoked "receipt" "e3" sampleActor (bytesOf "fixed")),
    sampleEvent "e7" 7 (.reviewVerdictRecorded "receipt" .approved sampleActor none)]

def samplePolicy : ReviewAuthorizationPolicy :=
  { requiredEvidence := [⟨"unit-tests", .verification, bytesOf "ctest", bytesOf "3.30", none, none⟩]
    requireHostedCheck := true }

def sampleEnvironment : ReviewGateEnvironment :=
  ⟨sampleCandidate, [{ sampleBinding with artifacts := sampleBinding.artifacts.reverse }]⟩

def echoCheck : HostedReviewCheckPort := fun update =>
  some (.ok ⟨update.candidate, update.state, update.decisionDigest⟩)

def sampleReceipt : ReceiptState :=
  ReviewReceiptProjection.feed ReviewReceiptProjection.initial sampleCalls

def issued (result : Except ReviewGateError ReviewGateDecision) : Option MergeAuthorization :=
  match result with
  | .ok decision => decision.authorization
  | .error _ => none

theorem reviewed_candidate_authorized : ∃ decision authorization,
      evaluate sampleReceipt samplePolicy sampleEnvironment (some echoCheck) = .ok decision ∧
      decision.authorization = some authorization ∧
      authorization.candidate = sampleEnvironment.currentCandidate ∧
      HostedConfirmation (some echoCheck) decision authorization := by
  have haccepted : (ReviewReceiptProjection.acceptedEvents ReviewReceiptProjection.initial
      sampleCalls) = sampleCalls := by decide +kernel
  have hissued : (issued (evaluate sampleReceipt samplePolicy sampleEnvironment
      (some echoCheck))).isSome := by decide +kernel
  cases hresult : evaluate sampleReceipt samplePolicy sampleEnvironment (some echoCheck) with
  | error => simp [hresult, issued] at hissued
  | ok decision =>
    obtain ⟨authorization, ha⟩ := Option.isSome_iff_exists.1 (by simpa [hresult, issued] using hissued)
    have hstream := accepted_acceptedEvents reviewReceipt_atomic ReviewReceiptProjection.initial
      sampleCalls
    rw [haccepted] at hstream
    obtain ⟨_, -, -, -, hcurrent, -, hhosted⟩ := review_gate_sound hstream hresult ha
    exact ⟨decision, authorization, rfl, ha, hcurrent.symm, hhosted rfl⟩

end ReviewGate
