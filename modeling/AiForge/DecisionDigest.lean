import AiForge.ReviewGate
import AiForge.Sealing

/-! # Decision digest of the review gate

The digest of a decision is taken over fields in netstrings, but its lists stand one after the
other without their lengths. Where one kind of record ends and the next begins shows in their
fields, with one exception: a finding lists bare identities, and these can be taken for anything
that follows. -/
namespace DecisionDigest

open List

open Content Events Framing ReviewGate ReviewProjection ReviewReceipt SafeText Sealing Pricing Staged

structure DecisionInput where
  draft : ReviewReceiptDraft
  receipt : ReceiptState
  policy : ReviewAuthorizationPolicy
  source : ReviewAuthorizationSource
  selected : Option ProjectedReviewOverride
  deriving DecidableEq

def preImage (input : DecisionInput) : Bytes :=
  canonicalDecision input.draft input.receipt input.policy input.source input.selected

def digest (input : DecisionInput) : ContentDigest :=
  decisionDigest input.draft input.receipt input.policy input.source input.selected

def mark (present absent : String) (value : Bool) : Bytes :=
  bytesOf (if value then present else absent)

def optionalFields (value : Option Bytes) : List Bytes :=
  tagged (mark "present" "absent") (fun v => [v]) value

def participantFields (participant : ReviewParticipantProvenance) : List Bytes :=
  [participant.actor.actorId, participant.actor.displayName,
    bytesOf (participant.runId.getD "")] ++
  optionalFields participant.backendId ++ optionalFields participant.backendVersion ++
  [bytesOf (participant.modelId.getD "")] ++ optionalFields participant.modelVersion

def requirementFields (required : ReviewPolicyRequirement) : List Bytes :=
  [bytesOf required.requirementId, required.producerName, required.producerVersion] ++
  optionalFields required.scenarioId ++ optionalFields required.scenarioCorpusVersion

def artifactFields (artifact : ReviewArtifactDigest) : List Bytes :=
  bytesOf artifact.artifactId :: digestFields artifact.digest

def bindingFields (binding : ReviewEvidenceBinding) : List Bytes :=
  [bytesOf binding.requirementId, binding.producerName, binding.producerVersion] ++
  optionalFields binding.scenarioId ++ optionalFields binding.scenarioCorpusVersion ++
  optionalFields binding.scenarioApplicationRevision ++ digestFields binding.resultDigest ++
  tagged (mark "fake-script-present" "fake-script-absent") digestFields
    binding.scenarioFakeScriptDigest ++
  tagged (mark "terminal-capabilities-present" "terminal-capabilities-absent") digestFields
    binding.scenarioTerminalCapabilitiesDigest ++
  binding.artifacts.flatMap artifactFields

def sourceFields (source : RepositorySourceIdentity) : List Bytes :=
  bytesOf source.snapshot.repositoryId :: digestFields source.snapshot.fingerprint ++
  [source.relativePath] ++ digestFields source.contentDigest

def findingFields (entry : ProjectedReviewFinding) : List Bytes :=
  [bytesOf entry.finding.findingId, entry.finding.summary,
    decimal (severityCode entry.finding.severity)] ++
  tagged (mark "source-present" "source-absent") sourceFields entry.finding.source ++
  entry.finding.artifacts.flatMap (fun id => [bytesOf id]) ++
  entry.finding.reproductionEvidenceIds.flatMap (fun id => [bytesOf id]) ++
  [mark "open" "resolved" entry.isOpen]

def verdictFields (entry : ProjectedReviewVerdict) : List Bytes :=
  [bytesOf entry.eventId, entry.reviewer.actorId, mark "active" "revoked" entry.active,
    decimal (verdictCode entry.verdict)] ++
  tagged (mark "provenance-present" "provenance-absent") participantFields
    entry.reviewerProvenance

def overrideFields (override : ProjectedReviewOverride) : List Bytes :=
  [bytesOf override.value.overrideId, override.value.actor.actorId, override.value.reason]

def headFields (draft : ReviewReceiptDraft) (source : ReviewAuthorizationSource) : List Bytes :=
  [bytesOf draft.receiptId, bytesOf draft.candidate.snapshot.repositoryId] ++
  digestFields draft.candidate.snapshot.fingerprint ++ [draft.candidate.revision] ++
  tagged (mark "author-present" "author-absent") participantFields draft.author ++
  [mark "receipt" "override" (decide (source = .receipt))]

def decisionFields (input : DecisionInput) : List Bytes :=
  headFields input.draft input.source ++
  input.policy.requiredEvidence.flatMap requirementFields ++
  input.draft.evidence.flatMap bindingFields ++
  input.receipt.findings.flatMap findingFields ++
  input.receipt.verdicts.flatMap verdictFields ++ input.selected.elim [] overrideFields

theorem framed_eq (value : Bytes) : framed value = netstring value := by
  simp only [framed, netstring, decimal, map_append, append_assoc]
  rfl

theorem framed_canonical (value : Bytes) : framed value = canonical [value] := by
  rw [framed_eq, canonical, flatMap_singleton]

theorem canonical_append (first second : List Bytes) :
    canonical first ++ canonical second = canonical (first ++ second) := by
  rw [canonical, canonical, canonical, flatMap_append]

theorem canonical_elim {α : Type} {write : α → Bytes} {encode : α → List Bytes}
    (h : ∀ value, write value = canonical (encode value)) (value : Option α) :
    value.elim [] write = canonical (value.elim [] encode) := by
  cases value with
  | none => rfl
  | some value => exact h value

theorem flatMap_canonical {α : Type} {write : α → Bytes} {encode : α → List Bytes}
    (h : ∀ value, write value = canonical (encode value)) (values : List α) :
    values.flatMap write = canonical (values.flatMap encode) := by
  induction values with
  | nil => rfl
  | cons _ _ ih =>
    rw [flatMap_cons, flatMap_cons, h, ih, canonical_append]

theorem digestField_canonical (value : String) : digestField value = canonical [bytesOf value] :=
  framed_canonical _

theorem digestNumber_canonical (value : ℕ) : digestNumber value = canonical [decimal value] :=
  framed_canonical _

theorem digestOptional_canonical (value : Option Bytes) :
    digestOptional value = canonical (optionalFields value) := by
  rw [digestOptional, digestField_canonical, canonical_elim framed_canonical, canonical_append]
  rfl

theorem digestContent_canonical (digest : ContentDigest) :
    digestContent digest = canonical (digestFields digest) := by
  simp only [digestContent, digestFields, digestField_canonical, digestNumber_canonical,
    canonical_append, cons_append, nil_append]

theorem digestParticipant_canonical (participant : ReviewParticipantProvenance) :
    digestParticipant participant = canonical (participantFields participant) := by
  simp only [digestParticipant, participantFields, framed_canonical, digestField_canonical,
    digestOptional_canonical, canonical_append, append_assoc, cons_append,
    nil_append]

theorem digestRequirement_canonical (required : ReviewPolicyRequirement) :
    digestRequirement required = canonical (requirementFields required) := by
  simp only [digestRequirement, requirementFields, framed_canonical, digestField_canonical,
    digestOptional_canonical, canonical_append, cons_append, nil_append]

theorem digestArtifact_canonical (artifact : ReviewArtifactDigest) :
    digestField artifact.artifactId ++ digestContent artifact.digest =
      canonical (artifactFields artifact) := by
  simp only [artifactFields, digestField_canonical, digestContent_canonical, canonical_append,
    cons_append, nil_append]

/-- An optional digest whose two tags are written out in the two branches. -/
theorem digestTagged_canonical (present absent : String) (value : Option ContentDigest) :
    (value.elim (digestField absent) fun digest => digestField present ++ digestContent digest) =
      canonical (tagged (mark present absent) digestFields value) := by
  cases value with
  | none => exact digestField_canonical absent
  | some =>
    rw [Option.elim_some, digestField_canonical, digestContent_canonical, canonical_append]
    rfl

theorem digestBinding_canonical (binding : ReviewEvidenceBinding) :
    digestBinding binding = canonical (bindingFields binding) := by
  unfold digestBinding bindingFields
  rw [digestTagged_canonical, digestTagged_canonical,
    flatMap_canonical digestArtifact_canonical]
  simp only [framed_canonical, digestField_canonical, digestOptional_canonical,
    digestContent_canonical, canonical_append, append_assoc, cons_append,
    nil_append]

theorem digestSource_canonical (source : RepositorySourceIdentity) :
    digestField source.snapshot.repositoryId ++ digestContent source.snapshot.fingerprint ++
      framed source.relativePath ++ digestContent source.contentDigest =
    canonical (sourceFields source) := by
  simp only [sourceFields, framed_canonical, digestField_canonical, digestContent_canonical,
    canonical_append, append_assoc, cons_append, nil_append]

theorem tagged_canonical {α : Type} {write : α → Bytes} {encode : α → List Bytes}
    (h : ∀ value, write value = canonical (encode value)) (present absent : String)
    (value : Option α) :
    digestField (if value.isSome then present else absent) ++ value.elim [] write =
      canonical (tagged (mark present absent) encode value) := by
  rw [canonical_elim h, digestField_canonical, canonical_append]
  rfl

theorem digestFinding_canonical (entry : ProjectedReviewFinding) :
    digestFinding entry = canonical (findingFields entry) := by
  have hsrc := tagged_canonical digestSource_canonical "source-present" "source-absent"
    entry.finding.source
  unfold digestFinding findingFields
  rw [append_assoc (_ ++ _ ++ _) (digestField _), hsrc,
    flatMap_canonical digestField_canonical, flatMap_canonical digestField_canonical]
  simp only [framed_canonical, digestField_canonical, digestNumber_canonical, canonical_append,
    append_assoc, cons_append, nil_append]
  rfl

theorem digestVerdict_canonical (entry : ProjectedReviewVerdict) :
    digestVerdict entry = canonical (verdictFields entry) := by
  have hprov := tagged_canonical digestParticipant_canonical "provenance-present"
    "provenance-absent" entry.reviewerProvenance
  unfold digestVerdict verdictFields
  rw [append_assoc, hprov]
  simp only [framed_canonical, digestField_canonical, digestNumber_canonical, canonical_append,
    cons_append, nil_append]
  rfl

theorem digestOverride_canonical (override : ProjectedReviewOverride) :
    digestField override.value.overrideId ++ framed override.value.actor.actorId ++
      framed override.value.reason = canonical (overrideFields override) := by
  simp only [overrideFields, framed_canonical, digestField_canonical, canonical_append,
    cons_append, nil_append]

theorem preImage_canonical (input : DecisionInput) :
    preImage input = canonical (decisionFields input) := by
  have hauth := tagged_canonical digestParticipant_canonical "author-present"
    "author-absent" input.draft.author
  unfold preImage canonicalDecision decisionFields headFields
  rw [append_assoc _ (digestField (if input.draft.author.isSome then "author-present"
      else "author-absent")), hauth,
    flatMap_canonical digestRequirement_canonical, flatMap_canonical digestBinding_canonical,
    flatMap_canonical digestFinding_canonical, flatMap_canonical digestVerdict_canonical,
    canonical_elim digestOverride_canonical]
  simp only [framed_canonical, digestField_canonical, digestContent_canonical, mark,
    canonical_append, decide_eq_true_eq, append_assoc, cons_append, nil_append]

theorem mark_inj {present absent : String} (h : present ≠ absent) :
    Function.Injective (mark present absent) := by
  intro first second he
  have he := bytesOf_injective he
  cases first <;> cases second <;> simp_all

theorem optionalFields_delimited : SelfDelimiting optionalFields :=
  delimited_tagged (mark_inj (by decide)) (delimited_single Function.injective_id)

/-- An identity is never the empty string, which stands for a missing one. -/
def Identified (participant : ReviewParticipantProvenance) : Prop :=
  participant.runId ≠ some "" ∧ participant.modelId ≠ some ""

theorem getD_inj {first second : Option String} (hf : first ≠ some "") (hs : second ≠ some "")
    (h : first.getD "" = second.getD "") : first = second := by
  cases first <;> cases second <;> simp_all

theorem participantFields_delimited : SelfDelimitingOn Identified participantFields := by
  rintro ⟨⟨_, _⟩, run, _, _, model, _⟩ ⟨⟨_, _⟩, run', _, _, model', _⟩ r s hx hy - h
  simp only [participantFields, append_assoc, cons_append, nil_append,
    List.cons.injEq, bytesOf_inj] at h
  obtain ⟨rfl, rfl, hrun, h₁⟩ := h
  obtain ⟨rfl, h₂⟩ := optionalFields_delimited _ _ _ _ h₁
  obtain ⟨rfl, h₃⟩ := optionalFields_delimited _ _ _ _ h₂
  obtain ⟨hmodel, h₄⟩ := List.cons.inj h₃
  obtain ⟨rfl, hrest⟩ := optionalFields_delimited _ _ _ _ h₄
  obtain rfl : run = run' := getD_inj hx.1 hy.1 hrun
  obtain rfl : model = model' := getD_inj hx.2 hy.2 (bytesOf_injective hmodel)
  exact ⟨rfl, hrest⟩

/-- The kind of a valid requirement shows in whether it names a scenario. -/
theorem requirement_kind {required : ReviewPolicyRequirement}
    (h : validRequirement required) :
    decide (required.kind = .scenario) = required.scenarioId.isSome := by
  simp only [validRequirement, Bool.and_eq_true, beq_iff_eq] at h
  exact h.1.1.1.2

theorem requirementFields_delimited :
    SelfDelimitingOn (fun required => validRequirement required = true) requirementFields := by
  intro x y r s hx hy _ h
  have hx := requirement_kind hx
  have hy := requirement_kind hy
  obtain ⟨_, kind, _, _, _, _⟩ := x
  obtain ⟨_, kind', _, _, _, _⟩ := y
  simp only [requirementFields, append_assoc, cons_append, nil_append,
    List.cons.injEq, bytesOf_inj] at h
  obtain ⟨rfl, rfl, rfl, h₁⟩ := h
  obtain ⟨rfl, h₂⟩ := optionalFields_delimited _ _ _ _ h₁
  obtain ⟨rfl, hrest⟩ := optionalFields_delimited _ _ _ _ h₂
  obtain rfl : kind = kind' := by
    cases kind <;> cases kind' <;> simp_all
  exact ⟨rfl, hrest⟩

theorem artifactFields_delimited : SelfDelimiting artifactFields := by
  rintro ⟨_, _⟩ ⟨_, _⟩ r s h
  obtain ⟨hid, h⟩ := List.cons.inj h
  obtain ⟨rfl, hrest⟩ := digestFields_delimited _ _ _ _ h
  obtain rfl := bytesOf_injective hid
  exact ⟨rfl, hrest⟩

/-- A binding without the identity of its verification, which is not encoded. -/
def encodedBinding (binding : ReviewEvidenceBinding) : ReviewEvidenceBinding :=
  { binding with verificationEvidenceId := none }

/-- What is left of a valid binding: its kind shows in whether it names a scenario, and the
values of its digests are hexadecimal. -/
structure BindingOk (binding : ReviewEvidenceBinding) : Prop where
  kind : decide (binding.kind = .verification) ≠ binding.scenarioId.isSome
  result : (bytesOf binding.resultDigest.value).all isxdigit = true
  artifacts : ∀ artifact ∈ binding.artifacts,
    (bytesOf artifact.digest.value).all isxdigit = true

/-! ### Where a record ends -/

/-- The field at `place` could be the value of a digest and the next one its size. -/
def Sized (place : ℕ) (fields : List Bytes) : Prop :=
  (∃ value ∈ fields[place]?, value.all isxdigit = true) ∧
    ∃ size, fields[place + 1]? = some (decimal size)

/-- No digest stands behind the first or the second field. -/
def Closed (fields : List Bytes) : Prop := ¬ Sized 2 fields ∧ ¬ Sized 3 fields

theorem decimal_isxdigit (value : ℕ) : (decimal value).all isxdigit = true := by
  rw [all_eq_true]
  intro digit hdigit
  obtain ⟨c, hc, rfl⟩ := mem_map.1 hdigit
  obtain ⟨hlow, hhigh⟩ := DecimalDigits.isDigit_toDigits hc
  have hlow : 48 ≤ c.toNat := hlow
  have hhigh : c.val.toNat ≤ 57 := hhigh
  have hbyte : c.toUInt8.toNat = c.toNat := Nat.mod_eq_of_lt (by omega)
  have hhigh : c.toNat ≤ 57 := hhigh
  simp [isxdigit, isdigit, UInt8.le_iff_toNat_le, hbyte, hlow, hhigh]

theorem mark_not_decimal {present absent : String} {value : Bool}
    (h : (mark present absent value).all isxdigit = false) (size : ℕ) :
    mark present absent value ≠ decimal size := by
  intro heq
  rw [heq, decimal_isxdigit] at h
  cases h

/-- A fourth field that is no hexadecimal number rules out both. -/
theorem closed_of_fourth {fields : List Bytes}
    (h : ∀ value ∈ fields[3]?, value.all isxdigit = false) : Closed fields := by
  constructor
  · rintro ⟨-, size, hsize⟩
    have hdigits := h _ hsize
    rw [decimal_isxdigit] at hdigits
    cases hdigits
  · rintro ⟨⟨value, hvalue, hhex⟩, -⟩
    rw [h value hvalue] at hhex
    cases hhex

def StartsEvidence (fields : List Bytes) : Prop :=
  ∃ value, fields[3]? = some (mark "present" "absent" value)

theorem starts_requirement (required : ReviewPolicyRequirement) (rest : List Bytes) :
    StartsEvidence (requirementFields required ++ rest) := ⟨required.scenarioId.isSome, rfl⟩

theorem starts_binding (binding : ReviewEvidenceBinding) (rest : List Bytes) :
    StartsEvidence (bindingFields binding ++ rest) := by
  refine ⟨binding.scenarioId.isSome, ?_⟩
  simp [bindingFields, optionalFields, tagged]

theorem StartsEvidence.closed {fields : List Bytes} (h : StartsEvidence fields) :
    Closed fields := by
  obtain ⟨mark, hmark⟩ := h
  refine closed_of_fourth fun value hvalue => ?_
  obtain rfl := Option.some.inj (hmark.symm.trans hvalue)
  cases mark <;> decide

/-- What follows the evidence: findings, verdicts and the override. -/
structure Follows (fields : List Bytes) : Prop where
  closed : Closed fields
  ended : ¬ StartsEvidence fields

theorem follows_finding (entry : ProjectedReviewFinding) (rest : List Bytes) :
    Follows (findingFields entry ++ rest) := by
  have hfourth : (findingFields entry ++ rest)[3]? =
      some (mark "source-present" "source-absent" entry.finding.source.isSome) := by
    simp [findingFields, tagged]
  constructor
  · refine closed_of_fourth fun value hvalue => ?_
    obtain rfl := Option.some.inj (hfourth.symm.trans hvalue)
    cases entry.finding.source.isSome <;> decide
  · rintro ⟨present, hpresent⟩
    have heq := Option.some.inj (hfourth.symm.trans hpresent)
    revert heq
    cases entry.finding.source.isSome <;> cases present <;> decide

theorem follows_verdict (entry : ProjectedReviewVerdict) (rest : List Bytes) :
    Follows (verdictFields entry ++ rest) := by
  have hthird : (verdictFields entry ++ rest)[2]? =
      some (mark "active" "revoked" entry.active) := by simp [verdictFields]
  have hfourth : (verdictFields entry ++ rest)[3]? = some (decimal (verdictCode entry.verdict)) := by
    simp [verdictFields]
  have hfifth : (verdictFields entry ++ rest)[4]? =
      some (mark "provenance-present" "provenance-absent" entry.reviewerProvenance.isSome) := by
    simp [verdictFields, tagged]
  refine ⟨⟨?_, ?_⟩, ?_⟩
  · rintro ⟨⟨value, hvalue, hhex⟩, -⟩
    obtain rfl := Option.some.inj (hthird.symm.trans hvalue)
    revert hhex
    cases entry.active <;> decide
  · rintro ⟨-, size, hsize⟩
    have heq := Option.some.inj (hfifth.symm.trans hsize)
    refine mark_not_decimal ?_ size heq
    cases entry.reviewerProvenance.isSome <;> decide
  · rintro ⟨present, hpresent⟩
    have heq := Option.some.inj (hfourth.symm.trans hpresent)
    refine mark_not_decimal ?_ _ heq.symm
    cases present <;> decide

theorem follows_override (selected : Option ProjectedReviewOverride) :
    Follows (selected.elim [] overrideFields) := by
  have hshort : (selected.elim [] overrideFields)[3]? = none := by
    cases selected <;> simp [overrideFields]
  constructor
  · refine closed_of_fourth fun value hvalue => ?_
    rw [hshort] at hvalue
    cases hvalue
  · rintro ⟨present, hpresent⟩
    rw [hshort] at hpresent
    cases hpresent

theorem follows_rest (findings : List ProjectedReviewFinding)
    (verdicts : List ProjectedReviewVerdict) (selected : Option ProjectedReviewOverride) :
    Follows (findings.flatMap findingFields ++ (verdicts.flatMap verdictFields ++
      selected.elim [] overrideFields)) := by
  cases findings with
  | cons entry _ =>
    rw [flatMap_cons, append_assoc]
    exact follows_finding entry _
  | nil =>
    cases verdicts with
    | cons entry _ =>
      rw [flatMap_nil, nil_append, flatMap_cons, append_assoc]
      exact follows_verdict entry _
    | nil => exact follows_override selected

/-- The artifacts of a binding end where no further one can be read. -/
theorem artifacts_readBack {artifacts artifacts' : List ReviewArtifactDigest} {r s : List Bytes}
    (hx : ∀ artifact ∈ artifacts, (bytesOf artifact.digest.value).all isxdigit = true)
    (hy : ∀ artifact ∈ artifacts', (bytesOf artifact.digest.value).all isxdigit = true)
    (hr : Closed r) (hs : Closed s)
    (h : artifacts.flatMap artifactFields ++ r = artifacts'.flatMap artifactFields ++ s) :
    artifacts = artifacts' ∧ r = s := by
  have hends {t : List Bytes} (ht : Closed t) (artifact : ReviewArtifactDigest)
      (rest : List Bytes) (hvalue : (bytesOf artifact.digest.value).all isxdigit = true)
      (_ : True) : t ≠ artifactFields artifact ++ rest := by
    rintro rfl
    exact ht.1 ⟨⟨_, rfl, hvalue⟩, artifact.digest.byteSize, rfl⟩
  have hread : ∀ (a b : ReviewArtifactDigest) r s,
      (bytesOf a.digest.value).all isxdigit = true → (bytesOf b.digest.value).all isxdigit = true →
      True → True → artifactFields a ++ r = artifactFields b ++ s → id a = id b ∧ r = s :=
    fun a b r s _ _ _ _ h => artifactFields_delimited a b r s h
  obtain ⟨hsame, hrest⟩ := readBack_until hread (fun _ _ _ => trivial) trivial trivial (hends hr)
    (hends hs) hx hy h
  rw [map_id, map_id] at hsame
  exact ⟨hsame, hrest⟩

theorem bindingFields_read {x y : ReviewEvidenceBinding} {r s : List Bytes} (hx : BindingOk x)
    (hy : BindingOk y) (hr : Closed r) (hs : Closed s)
    (h : bindingFields x ++ r = bindingFields y ++ s) :
    encodedBinding x = encodedBinding y ∧ r = s := by
  obtain ⟨hkind, -, hartifacts⟩ := hx
  obtain ⟨hkind', -, hartifacts'⟩ := hy
  obtain ⟨_, kind, _, _, _, scenario, _, _, _, _, _, artifacts⟩ := x
  obtain ⟨_, kind', _, _, _, _, _, _, _, _, _, artifacts'⟩ := y
  simp only [bindingFields, append_assoc, cons_append, nil_append,
    List.cons.injEq, bytesOf_inj] at h
  obtain ⟨rfl, rfl, rfl, h₁⟩ := h
  obtain ⟨rfl, h₂⟩ := optionalFields_delimited _ _ _ _ h₁
  obtain ⟨rfl, h₃⟩ := optionalFields_delimited _ _ _ _ h₂
  obtain ⟨rfl, h₄⟩ := optionalFields_delimited _ _ _ _ h₃
  obtain ⟨rfl, h₅⟩ := digestFields_delimited _ _ _ _ h₄
  obtain ⟨rfl, h₆⟩ := delimited_tagged (mark_inj (by decide))
    digestFields_delimited _ _ _ _ h₅
  obtain ⟨rfl, h₇⟩ := delimited_tagged (mark_inj (by decide))
    digestFields_delimited _ _ _ _ h₆
  obtain ⟨rfl, hrest⟩ := artifacts_readBack hartifacts hartifacts' hr hs h₇
  obtain rfl : kind = kind' := by
    dsimp only at hkind hkind'
    cases kind <;> cases kind' <;> cases scenario <;> simp_all
  exact ⟨rfl, hrest⟩

/-- A requirement is no beginning of a binding: behind its fields a binding has a digest. -/
theorem requirement_ne_binding (required : ReviewPolicyRequirement)
    {binding : ReviewEvidenceBinding} (hb : BindingOk binding) {rest behind : List Bytes}
    (hrest : Closed rest) : bindingFields binding ++ behind ≠ requirementFields required ++ rest := by
  intro h
  simp only [bindingFields, requirementFields, append_assoc, cons_append, nil_append,
    List.cons.injEq, bytesOf_inj] at h
  obtain ⟨-, -, -, h₁⟩ := h
  obtain ⟨-, h₂⟩ := optionalFields_delimited _ _ _ _ h₁
  obtain ⟨-, rfl⟩ := optionalFields_delimited _ _ _ _ h₂
  cases hrevision : binding.scenarioApplicationRevision with
  | none =>
    rw [hrevision] at hrest
    exact hrest.1 ⟨⟨_, rfl, hb.result⟩, binding.resultDigest.byteSize, rfl⟩
  | some revision =>
    rw [hrevision] at hrest
    exact hrest.2 ⟨⟨_, rfl, hb.result⟩, binding.resultDigest.byteSize, rfl⟩

/-- The evidence that is required and the evidence that is bound are read back from the front. -/
theorem evidence_readBack {requirements requirements' : List ReviewPolicyRequirement}
    {bindings bindings' : List ReviewEvidenceBinding} {r s : List Bytes}
    (hq : ∀ required ∈ requirements, validRequirement required = true)
    (hq' : ∀ required ∈ requirements', validRequirement required = true)
    (hb : ∀ binding ∈ bindings, BindingOk binding)
    (hb' : ∀ binding ∈ bindings', BindingOk binding) (hr : Follows r) (hs : Follows s)
    (h : requirements.flatMap requirementFields ++ (bindings.flatMap bindingFields ++ r) =
      requirements'.flatMap requirementFields ++ (bindings'.flatMap bindingFields ++ s)) :
    requirements = requirements' ∧ bindings.map encodedBinding = bindings'.map encodedBinding ∧
      r = s := by
  have hclosed {bindings : List ReviewEvidenceBinding} {t : List Bytes} (ht : Follows t) :
      Closed (bindings.flatMap bindingFields ++ t) := by
    cases bindings with
    | nil => exact ht.closed
    | cons binding _ =>
      rw [flatMap_cons, append_assoc]
      exact (starts_binding binding _).closed
  have hapart {bindings : List ReviewEvidenceBinding} {t : List Bytes}
      (hb : ∀ binding ∈ bindings, BindingOk binding) (ht : Follows t)
      (required : ReviewPolicyRequirement) (rest : List Bytes)
      (_ : validRequirement required = true) (hrest : Closed rest) :
      bindings.flatMap bindingFields ++ t ≠ requirementFields required ++ rest := by
    cases bindings with
    | nil =>
      intro heq
      rw [flatMap_nil, nil_append] at heq
      exact ht.ended (heq ▸ starts_requirement required rest)
    | cons binding _ =>
      rw [flatMap_cons, append_assoc]
      exact requirement_ne_binding required (hb binding mem_cons_self) hrest
  have hread : ∀ (x y : ReviewPolicyRequirement) r s, validRequirement x = true →
      validRequirement y = true → Closed r → Closed s →
      requirementFields x ++ r = requirementFields y ++ s → id x = id y ∧ r = s :=
    fun x y r s hx hy _ _ h => requirementFields_delimited x y r s hx hy rfl h
  obtain ⟨hrequirements, h⟩ := readBack_until hread
    (fun x rest _ => (starts_requirement x rest).closed) (hclosed hr) (hclosed hs)
    (hapart hb hr) (hapart hb' hs) hq hq' h
  rw [map_id, map_id] at hrequirements
  have hended {t : List Bytes} (ht : Follows t) (binding : ReviewEvidenceBinding)
      (rest : List Bytes) (_ : BindingOk binding) (_ : Closed rest) :
      t ≠ bindingFields binding ++ rest := by
    rintro rfl
    exact ht.ended (starts_binding binding rest)
  obtain ⟨hbindings, hrest⟩ := readBack_until
    (fun x y r s hx hy hr hs h => bindingFields_read hx hy hr hs h)
    (fun x rest _ => (starts_binding x rest).closed) hr.closed hs.closed (hended hr) (hended hs)
    hb hb' h
  exact ⟨hrequirements, hbindings, hrest⟩

/-- A source without the range in its file, which is not encoded. -/
def encodedSource (source : RepositorySourceIdentity) : RepositorySourceIdentity :=
  { source with range := none }

theorem sourceFields_readsBack :
    ReadsBack (fun _ => True) (fun _ => ()) encodedSource sourceFields := by
  rintro ⟨⟨_, _⟩, _, _, _⟩ ⟨⟨_, _⟩, _, _, _⟩ r s - - - h
  simp only [sourceFields, append_assoc, cons_append, nil_append,
    List.cons.injEq, bytesOf_inj] at h
  obtain ⟨rfl, h₁⟩ := h
  obtain ⟨rfl, h₂⟩ := digestFields_delimited _ _ _ _ h₁
  obtain ⟨rfl, h₃⟩ := List.cons.inj h₂
  obtain ⟨rfl, hrest⟩ := digestFields_delimited _ _ _ _ h₃
  exact ⟨rfl, hrest⟩

/-- A finding without the identity of its verification and without the range of its source. -/
def encodedFinding (entry : ProjectedReviewFinding) : ProjectedReviewFinding :=
  { entry with finding := { entry.finding with
      verificationEvidenceId := none
      source := entry.finding.source.map encodedSource } }

/-- How many artifacts and reproductions a finding lists. -/
def findingShape (entry : ProjectedReviewFinding) : ℕ × ℕ :=
  (entry.finding.artifacts.length, entry.finding.reproductionEvidenceIds.length)

theorem severityCode_inj : Function.Injective severityCode := by
  intro first second h
  cases first <;> cases second <;> first | rfl | cases h

theorem verdictCode_inj : Function.Injective verdictCode := by
  intro first second h
  cases first <;> cases second <;> first | rfl | cases h

theorem findingFields_readsBack :
    ReadsBack (fun _ => True) findingShape encodedFinding findingFields := by
  rintro ⟨⟨_, _, _, _, _, _, _⟩, _⟩ ⟨⟨_, _, _, _, _, _, _⟩, _⟩ r s - - hshp h
  obtain ⟨hlen, hlen'⟩ := Prod.mk.inj hshp
  simp only [findingFields, append_assoc, cons_append, nil_append,
    List.cons.injEq, bytesOf_inj, decimal_inj] at h
  obtain ⟨rfl, rfl, hseverity, h₁⟩ := h
  obtain ⟨hsrc, h₂⟩ := readsBack_tagged (mark_inj (by decide)) sourceFields_readsBack
    _ _ _ _ (fun _ _ => trivial) (fun _ _ => trivial) rfl h₁
  have hids := (delimited_single bytesOf_injective).on fun _ => True
  obtain ⟨rfl, h₃⟩ := hids.flatMap (fun _ _ => trivial) (fun _ _ => trivial) hlen h₂
  obtain ⟨rfl, h₄⟩ := hids.flatMap (fun _ _ => trivial) (fun _ _ => trivial) hlen' h₃
  obtain ⟨hopen, hrest⟩ := List.cons.inj h₄
  obtain rfl := severityCode_inj hseverity
  obtain rfl := mark_inj (by decide) hopen
  dsimp only [encodedFinding]
  rw [hsrc]
  exact ⟨rfl, hrest⟩

/-- An identity that is not spelled like the mark at the end of a finding. -/
def PlainId (id : String) : Prop := id ≠ "open" ∧ id ≠ "resolved"

def PlainFinding (entry : ProjectedReviewFinding) : Prop :=
  ∀ id ∈ entry.finding.artifacts ++ entry.finding.reproductionEvidenceIds, PlainId id

/-- A finding whose artifacts and reproductions are one list: where the first end is not
encoded. -/
def joinedFinding (entry : ProjectedReviewFinding) : ProjectedReviewFinding :=
  { encodedFinding entry with finding := { (encodedFinding entry).finding with
      artifacts := entry.finding.artifacts ++ entry.finding.reproductionEvidenceIds
      reproductionEvidenceIds := [] } }

theorem bytesOf_ne_mark {id : String} (h : PlainId id) (value : Bool) :
    bytesOf id ≠ mark "open" "resolved" value := by
  intro heq
  cases value
  · exact h.2 (bytesOf_injective heq)
  · exact h.1 (bytesOf_injective heq)

/-- Identities that are no marks end at the mark. -/
theorem ids_readBack {ids ids' : List String} {r s : List Bytes} {isOpen isOpen' : Bool}
    (hids : ∀ id ∈ ids, PlainId id) (hids' : ∀ id ∈ ids', PlainId id)
    (h : ids.flatMap (fun id => [bytesOf id]) ++ mark "open" "resolved" isOpen :: r =
      ids'.flatMap (fun id => [bytesOf id]) ++ mark "open" "resolved" isOpen' :: s) :
    ids = ids' ∧ isOpen = isOpen' ∧ r = s := by
  have hread : ∀ (a b : String) r s, PlainId a → PlainId b → True → True →
      [bytesOf a] ++ r = [bytesOf b] ++ s → id a = id b ∧ r = s :=
    fun a b r s _ _ _ _ h => delimited_single bytesOf_injective a b r s h
  have hends (value : Bool) (behind : List Bytes) (id : String) (rest : List Bytes)
      (hid : PlainId id) (_ : True) :
      mark "open" "resolved" value :: behind ≠ [bytesOf id] ++ rest :=
    fun heq => bytesOf_ne_mark hid value (List.cons.inj heq).1.symm
  obtain ⟨hsame, hrest⟩ := readBack_until hread (fun _ _ _ => trivial) trivial trivial
    (hends isOpen r) (hends isOpen' s) hids hids' h
  rw [map_id, map_id] at hsame
  obtain ⟨hmark, hrest⟩ := List.cons.inj hrest
  exact ⟨hsame, mark_inj (by decide) hmark, hrest⟩

theorem findingFields_read {x y : ProjectedReviewFinding} {r s : List Bytes}
    (hx : PlainFinding x) (hy : PlainFinding y)
    (h : findingFields x ++ r = findingFields y ++ s) :
    joinedFinding x = joinedFinding y ∧ r = s := by
  obtain ⟨⟨_, _, _, artifacts, _, _, reproductions⟩, _⟩ := x
  obtain ⟨⟨_, _, _, artifacts', _, _, reproductions'⟩, _⟩ := y
  simp only [findingFields, append_assoc, cons_append, nil_append,
    List.cons.injEq, bytesOf_inj, decimal_inj] at h
  obtain ⟨rfl, rfl, hseverity, h₁⟩ := h
  obtain ⟨hsrc, h₂⟩ := readsBack_tagged (mark_inj (by decide)) sourceFields_readsBack
    _ _ _ _ (fun _ _ => trivial) (fun _ _ => trivial) rfl h₁
  rw [← append_assoc, ← append_assoc, ← flatMap_append, ← flatMap_append] at h₂
  obtain ⟨hids, rfl, hrest⟩ := ids_readBack hx hy h₂
  obtain rfl := severityCode_inj hseverity
  dsimp only [joinedFinding, encodedFinding]
  rw [hsrc, hids]
  exact ⟨rfl, hrest⟩

/-- A verdict without the display name of the reviewer. -/
def encodedVerdict (entry : ProjectedReviewVerdict) : ProjectedReviewVerdict :=
  { entry with reviewer := { entry.reviewer with displayName := [] } }

theorem verdictFields_readsBack : ReadsBack
    (fun entry => ∀ participant ∈ entry.reviewerProvenance, Identified participant)
    (fun _ => ()) encodedVerdict verdictFields := by
  rintro ⟨_, _, ⟨_, _⟩, _, _⟩ ⟨_, _, ⟨_, _⟩, _, _⟩ r s hx hy - h
  simp only [verdictFields, cons_append, nil_append, List.cons.injEq, bytesOf_inj,
    decimal_inj] at h
  obtain ⟨rfl, rfl, hact, hverd, h₁⟩ := h
  obtain ⟨hprov, hrest⟩ := readsBack_tagged (mark_inj (by decide))
    participantFields_delimited _ _ _ _ hx hy rfl h₁
  rw [Option.map_id] at hprov
  obtain rfl := mark_inj (by decide) hact
  obtain rfl := verdictCode_inj hverd
  subst hprov
  exact ⟨rfl, hrest⟩

/-- What the gate hands over: valid records, real identities, and an override exactly when the
decision rests on one. -/
structure WellFormed (limits : ReviewReceiptLimits) (input : DecisionInput) : Prop where
  draft : validateReviewReceiptDraft input.draft limits = .ok ()
  policy : checkPolicy input.policy = .ok ()
  findings : ∀ entry ∈ input.receipt.findings, validateReviewFinding entry.finding limits = .ok ()
  author : ∀ participant ∈ input.draft.author, Identified participant
  reviewers : ∀ entry ∈ input.receipt.verdicts,
    ∀ participant ∈ entry.reviewerProvenance, Identified participant
  selected : input.selected.isSome = decide (input.source = .humanOverride)

structure DecisionHead where
  receiptId : ReviewReceiptId
  candidate : ReviewCandidate
  author : Option ReviewParticipantProvenance
  source : ReviewAuthorizationSource

def decisionHead (input : DecisionInput) : DecisionHead :=
  ⟨input.draft.receiptId, input.draft.candidate, input.draft.author, input.source⟩

def selectedFields (input : DecisionInput) : Option (ReviewOverrideId × Bytes × Bytes) :=
  input.selected.map fun override =>
    (override.value.overrideId, override.value.actor.actorId, override.value.reason)

def PlainFindings (input : DecisionInput) : Prop :=
  ∀ entry ∈ input.receipt.findings, PlainFinding entry

/-- What two well-formed decisions with one pre-image have in common. Where the artifacts of a
finding end, and where a finding with an identity that is spelled like a mark ends, the pre-image
does not tell. -/
structure Agree (first second : DecisionInput) : Prop where
  head : decisionHead first = decisionHead second
  requirements : first.policy.requiredEvidence = second.policy.requiredEvidence
  evidence : first.draft.evidence.map encodedBinding = second.draft.evidence.map encodedBinding
  selected : selectedFields first = selectedFields second
  shaped : first.receipt.findings.map findingShape = second.receipt.findings.map findingShape →
    first.receipt.findings.map encodedFinding = second.receipt.findings.map encodedFinding ∧
    first.receipt.verdicts.map encodedVerdict = second.receipt.verdicts.map encodedVerdict
  plain : PlainFindings first → PlainFindings second →
    first.receipt.findings.map joinedFinding = second.receipt.findings.map joinedFinding ∧
    first.receipt.verdicts.map encodedVerdict = second.receipt.verdicts.map encodedVerdict

variable {first second : DecisionInput}

theorem headFields_readsBack {r s : List Bytes}
    (hf : ∀ participant ∈ first.draft.author, Identified participant)
    (hs : ∀ participant ∈ second.draft.author, Identified participant)
    (h : headFields first.draft first.source ++ r = headFields second.draft second.source ++ s) :
    decisionHead first = decisionHead second ∧ r = s := by
  obtain ⟨⟨_, ⟨⟨_, _⟩, _⟩, _, _⟩, _, _, source, _⟩ := first
  obtain ⟨⟨_, ⟨⟨_, _⟩, _⟩, _, _⟩, _, _, source', _⟩ := second
  simp only [headFields, append_assoc, cons_append, nil_append,
    List.cons.injEq, bytesOf_inj] at h
  obtain ⟨rfl, rfl, h₁⟩ := h
  obtain ⟨rfl, h₂⟩ := digestFields_delimited _ _ _ _ h₁
  obtain ⟨rfl, h₃⟩ := List.cons.inj h₂
  obtain ⟨hauth, h₄⟩ := readsBack_tagged (mark_inj (by decide))
    participantFields_delimited _ _ _ _ hf hs rfl h₃
  obtain ⟨hmark, hrest⟩ := List.cons.inj h₄
  rw [Option.map_id] at hauth
  obtain rfl : source = source' := by
    have hd := mark_inj (by decide) hmark
    cases source <;> cases source' <;> simp_all
  subst hauth
  exact ⟨rfl, hrest⟩

variable {limits : ReviewReceiptLimits} {input : DecisionInput}

theorem WellFormed.requirements (h : WellFormed limits input) :
    ∀ required ∈ input.policy.requiredEvidence, validRequirement required := by
  obtain ⟨_, hpol, -⟩ := bind_ok.1 h.policy
  obtain ⟨-, hall⟩ := ensure_ok.1 hpol
  exact all_eq_true.1 hall

theorem WellFormed.bindings (h : WellFormed limits input) :
    ∀ binding ∈ input.draft.evidence, BindingOk binding := by
  intro binding hb
  have hv := validateReviewReceiptDraft_mem h.draft binding hb
  replace hv := later hv
  obtain ⟨⟨-, -, hresult, -⟩, hv⟩ := guarded hv
  obtain ⟨hkind, hv⟩ := guarded hv
  obtain ⟨hartifacts, -⟩ := guarded hv
  simp only [identityMatchesKind, Bool.and_eq_true, bne_iff_ne] at hkind
  have hvalue {digest : ContentDigest} (hd : validDigest digest) :
      (bytesOf digest.value).all isxdigit = true := by
    rw [validDigest, Bool.and_eq_true] at hd
    exact hd.2
  exact ⟨hkind.1.1.1.1.1.1.1.1.1.2, hvalue hresult, fun artifact ha => hvalue (hartifacts artifact ha)⟩

/-- The override is as long as the source says, so that it can be taken off the end. -/
theorem selected_readBack {limits' : ReviewReceiptLimits} {r s : List Bytes}
    (hf : WellFormed limits first) (hs : WellFormed limits' second)
    (hsrc : first.source = second.source)
    (h : r ++ first.selected.elim [] overrideFields = s ++ second.selected.elim [] overrideFields) :
    r = s ∧ selectedFields first = selectedFields second := by
  have hsome : first.selected.isSome = second.selected.isSome := by
    rw [hf.selected, hs.selected, hsrc]
  unfold selectedFields
  cases hfst : first.selected with
  | none =>
    cases hsnd : second.selected with
    | none =>
      rw [hfst, hsnd] at h
      exact ⟨append_cancel_right h, rfl⟩
    | some =>
      rw [hfst, hsnd] at hsome
      cases hsome
  | some =>
    cases hsnd : second.selected with
    | none =>
      rw [hfst, hsnd] at hsome
      cases hsome
    | some =>
      rw [hfst, hsnd] at h
      obtain ⟨hrest, h⟩ := append_inj' h rfl
      simp only [Option.elim_some, overrideFields, List.cons.injEq, and_true] at h
      obtain ⟨hid, hactor, hreason⟩ := h
      refine ⟨hrest, ?_⟩
      rw [Option.map_some, Option.map_some, bytesOf_injective hid, hactor, hreason]

theorem verdicts_readBack {limits' : ReviewReceiptLimits}
    (hf : WellFormed limits first) (hs : WellFormed limits' second)
    (h : first.receipt.verdicts.flatMap verdictFields =
      second.receipt.verdicts.flatMap verdictFields) :
    first.receipt.verdicts.map encodedVerdict = second.receipt.verdicts.map encodedVerdict :=
  verdictFields_readsBack.flatMap_inj (fun _ => by simp [verdictFields]) hf.reviewers
    hs.reviewers h

/-- A finding is told from a verdict by its fourth field. -/
theorem verdicts_ne_finding (verdicts : List ProjectedReviewVerdict)
    (entry : ProjectedReviewFinding) (rest : List Bytes) :
    verdicts.flatMap verdictFields ≠ findingFields entry ++ rest := by
  intro h
  have hfinding : (findingFields entry ++ rest)[3]? =
      some (mark "source-present" "source-absent" entry.finding.source.isSome) := by
    simp [findingFields, tagged]
  rw [← h] at hfinding
  cases verdicts with
  | nil => cases hfinding
  | cons verdict later =>
    have hverdict : ((verdict :: later).flatMap verdictFields)[3]? =
        some (decimal (verdictCode verdict.verdict)) := by
      simp [verdictFields]
    have heq := Option.some.inj (hfinding.symm.trans hverdict)
    refine mark_not_decimal ?_ _ heq
    cases entry.finding.source.isSome <;> decide

theorem findings_readBack {findings findings' : List ProjectedReviewFinding}
    {verdicts verdicts' : List ProjectedReviewVerdict}
    (hf : ∀ entry ∈ findings, PlainFinding entry) (hf' : ∀ entry ∈ findings', PlainFinding entry)
    (h : findings.flatMap findingFields ++ verdicts.flatMap verdictFields =
      findings'.flatMap findingFields ++ verdicts'.flatMap verdictFields) :
    findings.map joinedFinding = findings'.map joinedFinding ∧
      verdicts.flatMap verdictFields = verdicts'.flatMap verdictFields := by
  have hread : ∀ (x y : ProjectedReviewFinding) r s, PlainFinding x → PlainFinding y →
      True → True → findingFields x ++ r = findingFields y ++ s →
      joinedFinding x = joinedFinding y ∧ r = s :=
    fun x y r s hx hy _ _ h => findingFields_read hx hy h
  exact readBack_until hread (fun _ _ _ => trivial) trivial trivial
    (fun entry rest _ _ => verdicts_ne_finding verdicts entry rest)
    (fun entry rest _ _ => verdicts_ne_finding verdicts' entry rest) hf hf' h

/-- Well-formed decisions with one pre-image have the same receipt, candidate, author and source,
the same required and bound evidence and the same override; they have the same findings and
verdicts where the findings list as many identities, and, but for the place where the artifacts
end, wherever no identity is spelled like a mark. -/
theorem decision_digest_determines {limits limits' : ReviewReceiptLimits}
    {first second : DecisionInput} (hf : WellFormed limits first) (hs : WellFormed limits' second)
    (h : preImage first = preImage second) : Agree first second := by
  rw [preImage_canonical, preImage_canonical] at h
  have h := canonical_inj h
  simp only [decisionFields, append_assoc] at h
  obtain ⟨hhead, h⟩ := headFields_readsBack hf.author hs.author h
  obtain ⟨hrequirements, hevidence, h⟩ := evidence_readBack hf.requirements hs.requirements
    hf.bindings hs.bindings (follows_rest _ _ _) (follows_rest _ _ _) h
  have hsrc : first.source = second.source := congrArg DecisionHead.source hhead
  rw [← append_assoc, ← append_assoc] at h
  obtain ⟨h, hselected⟩ := selected_readBack hf hs hsrc h
  refine ⟨hhead, hrequirements, hevidence, hselected, ?_, ?_⟩
  · intro hshape
    obtain ⟨hfindings, hverdicts⟩ := findingFields_readsBack.flatMap (fun _ _ => trivial)
      (fun _ _ => trivial) hshape h
    exact ⟨hfindings, verdicts_readBack hf hs hverdicts⟩
  · intro hplain hplain'
    obtain ⟨hfindings, hverdicts⟩ := findings_readBack hplain hplain' h
    exact ⟨hfindings, verdicts_readBack hf hs hverdicts⟩

def sampleDraft : ReviewReceiptDraft := ⟨"receipt", sampleCandidate, [sampleBinding], none⟩

def sampleInput : DecisionInput := ⟨sampleDraft, sampleReceipt, samplePolicy, .receipt, none⟩

def uncheckedInput : DecisionInput :=
  { sampleInput with policy := { samplePolicy with requireHostedCheck := false } }

def reviewed (calls : List Call) : DecisionInput :=
  { sampleInput with receipt :=
      ReviewReceiptProjection.feed ReviewReceiptProjection.initial calls }

def opened (summary : String) (artifacts reproductions : List String) : Call :=
  sampleEvent "e4" 4 (.reviewFindingOpened "receipt"
    ⟨"finding", bytesOf summary, none, artifacts, .high, none, reproductions⟩)

/-- The same review, but the log of the finding was given as evidence of its reproduction. -/
def movedInput : DecisionInput := reviewed (sampleCalls.set 3 (opened "missing check" [] ["log"]))

/-- Two findings, both resolved. -/
def twiceInput : DecisionInput :=
  reviewed (sampleCalls.set 3 (opened "missing check" [] []) ++
    [sampleEvent "e8" 8 (.reviewFindingOpened "receipt"
        ⟨"second", bytesOf "typo", none, ["log"], .high, none, []⟩),
      sampleEvent "e9" 9 (.reviewFindingResolved "receipt" "second" sampleActor none)])

/-- One finding, whose artifacts spell the end of the first of these and the second. -/
def swallowedInput : DecisionInput :=
  reviewed (sampleCalls.set 3 (opened "missing check"
    ["resolved", "second", "typo", "2", "source-absent", "log"] []))

/-- Two findings that differ in their summaries, which the hash does not keep apart. -/
def hashedInput (summary : String) : DecisionInput :=
  reviewed (sampleCalls.set 3 (opened summary ["log"] []))

def authorized (input : DecisionInput) : Option MergeAuthorization :=
  issued (evaluate input.receipt samplePolicy sampleEnvironment (some echoCheck))

theorem wellFormed_of_unattributed (hdrf : validateReviewReceiptDraft input.draft {} = .ok ())
    (hpol : checkPolicy input.policy = .ok ())
    (hfind : ∀ entry ∈ input.receipt.findings, validateReviewFinding entry.finding {} = .ok ())
    (hauth : input.draft.author = none)
    (hreviewers : ∀ entry ∈ input.receipt.verdicts, entry.reviewerProvenance = none)
    (hsel : input.selected.isSome = decide (input.source = .humanOverride)) :
    WellFormed {} input := by
  refine ⟨hdrf, hpol, hfind, ?_, ?_, hsel⟩
  · rw [hauth]
    exact nofun
  · intro entry hent
    rw [hreviewers entry hent]
    exact nofun

theorem sampleInput_wellFormed : WellFormed {} sampleInput :=
  wellFormed_of_unattributed (by decide +kernel) (by decide +kernel) (by decide +kernel) rfl
    (by decide +kernel) rfl

theorem uncheckedInput_wellFormed : WellFormed {} uncheckedInput :=
  wellFormed_of_unattributed (by decide +kernel) (by decide +kernel) (by decide +kernel) rfl
    (by decide +kernel) rfl

theorem movedInput_wellFormed : WellFormed {} movedInput :=
  wellFormed_of_unattributed (by decide +kernel) (by decide +kernel) (by decide +kernel) rfl
    (by decide +kernel) rfl

theorem swallowed_wellFormed : WellFormed {} twiceInput ∧ WellFormed {} swallowedInput :=
  ⟨wellFormed_of_unattributed (by decide +kernel) (by decide +kernel) (by decide +kernel) rfl
      (by decide +kernel) rfl,
    wellFormed_of_unattributed (by decide +kernel) (by decide +kernel) (by decide +kernel) rfl
      (by decide +kernel) rfl⟩

theorem hashed_wellFormed : WellFormed {} (hashedInput "4psyk1-Z7hm") ∧
    WellFormed {} (hashedInput "SMBpngSlXqh") :=
  ⟨wellFormed_of_unattributed (by decide +kernel) (by decide +kernel) (by decide +kernel) rfl
      (by decide +kernel) rfl,
    wellFormed_of_unattributed (by decide +kernel) (by decide +kernel) (by decide +kernel) rfl
      (by decide +kernel) rfl⟩

/-- The policy's switches are not part of what is encoded. -/
theorem unchecked_decision_agrees : WellFormed {} sampleInput ∧ WellFormed {} uncheckedInput ∧
    preImage sampleInput = preImage uncheckedInput ∧ Agree sampleInput uncheckedInput :=
  ⟨sampleInput_wellFormed, uncheckedInput_wellFormed, rfl,
    decision_digest_determines sampleInput_wellFormed uncheckedInput_wellFormed rfl⟩

/-- Four pairs of well-formed decisions. Those of the first three have one pre-image each: they
differ in a switch of the policy, in the lists of a finding and in the number of findings. The
last two have one digest although their pre-images differ. The gate authorizes both reviews of
each of the last three pairs with one and the same digest. -/
theorem decision_preimages_collide : (WellFormed {} sampleInput ∧ WellFormed {} uncheckedInput ∧
      preImage sampleInput = preImage uncheckedInput ∧ sampleInput ≠ uncheckedInput) ∧
    (WellFormed {} sampleInput ∧ WellFormed {} movedInput ∧
      preImage sampleInput = preImage movedInput ∧
      sampleInput.receipt.findings ≠ movedInput.receipt.findings ∧
      authorized sampleInput = some ⟨"receipt", sampleCandidate, .receipt, digest sampleInput⟩ ∧
      authorized movedInput = some ⟨"receipt", sampleCandidate, .receipt, digest sampleInput⟩) ∧
    (WellFormed {} twiceInput ∧ WellFormed {} swallowedInput ∧
      preImage twiceInput = preImage swallowedInput ∧
      twiceInput.receipt.findings.length = 2 ∧ swallowedInput.receipt.findings.length = 1 ∧
      (authorized twiceInput).isSome ∧ authorized swallowedInput = authorized twiceInput) ∧
    (WellFormed {} (hashedInput "4psyk1-Z7hm") ∧ WellFormed {} (hashedInput "SMBpngSlXqh") ∧
      preImage (hashedInput "4psyk1-Z7hm") ≠ preImage (hashedInput "SMBpngSlXqh") ∧
      digest (hashedInput "4psyk1-Z7hm") = digest (hashedInput "SMBpngSlXqh") ∧
      (authorized (hashedInput "4psyk1-Z7hm")).isSome ∧
      authorized (hashedInput "4psyk1-Z7hm") = authorized (hashedInput "SMBpngSlXqh")) := by
  refine ⟨⟨sampleInput_wellFormed, uncheckedInput_wellFormed, rfl, by decide +kernel⟩,
    ⟨sampleInput_wellFormed, movedInput_wellFormed, by decide +kernel, by decide +kernel,
      by decide +kernel, by decide +kernel⟩,
    ⟨swallowed_wellFormed.1, swallowed_wellFormed.2, by decide +kernel, by decide +kernel,
      by decide +kernel, by decide +kernel, by decide +kernel⟩,
    hashed_wellFormed.1, hashed_wellFormed.2, by decide +kernel, by decide +kernel,
    by decide +kernel, by decide +kernel⟩

end DecisionDigest
