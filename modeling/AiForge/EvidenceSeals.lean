import AiForge.EvidenceContext
import AiForge.Sha256Evaluation

/-! # Seals of evidence admissions

Each seal is the digest of a list of fields. Read from the front, the fields give back the
whole record except its digest, with the help of the shape check where a field is left out or
an identifier may be missing. The three kinds start with different names. -/
namespace EvidenceContext

open Sealing.FieldWriter Writer Repository Memory

open Admission Content Events Framing List MemoryProjection ReviewReceipt SafeText Sealing Staged

namespace Writer

theorem field_fields (writer : Writer) (value : Bytes) :
    writer.field value = fields writer [value] := rfl

/-- The writer has hashed exactly `written`. -/
def Holds (writer : Writer) (written : Bytes) : Prop :=
  writer = ⟨Sha256.update {} written, written.length⟩

theorem field_holds {writer : Writer} {written : Bytes} (value : Bytes)
    (h : writer.Holds written) : (writer.field value).Holds (written ++ netstring value) := by
  subst h
  unfold Holds field
  simp only [Sha256.update_append, netstring, append_assoc, length_append,
    length_cons, length_nil, cons_append, nil_append, mk.injEq, true_and]
  omega

theorem finish_fields (values : List Bytes) :
    (fields ({} : Writer) values).finish = Sealing.contentDigest (canonical values) := by
  have hbeg : Holds {} [] := rfl
  have h := fields_keep field_holds hbeg values
  rw [nil_append] at h
  rw [h]
  rfl

end Writer

namespace Local.LocalSeal

variable {writer : LocalSeal} {written : Bytes}

def exhausted : LocalContextError :=
  ⟨.resourceExhausted, "local admission metadata exceeds bound"⟩

/-- The seal is valid as long as what was written keeps the bound, and then it has hashed it. -/
structure Holds (writer : LocalSeal) (written : Bytes) : Prop where
  valid : writer.valid = decide (written.length ≤ localContextMaximumAdmissionBytes)
  hashed : writer.valid → writer = ⟨Sha256.update {} written, written.length, true⟩

theorem append_holds (h : writer.Holds written) (value : Bytes) :
    (writer.append value).Holds (written ++ value) := by
  obtain ⟨hval, hhash⟩ := h
  by_cases hw : writer.valid
  · have hle : written.length ≤ localContextMaximumAdmissionBytes :=
      of_decide_eq_true (hval.symm.trans hw)
    obtain rfl := hhash hw
    by_cases hfit : (written ++ value).length ≤ localContextMaximumAdmissionBytes
    · have happ : append ⟨Sha256.update {} written, written.length, true⟩ value =
          ⟨Sha256.update {} (written ++ value), (written ++ value).length, true⟩ := by
        rw [length_append] at hfit
        have hroom : ¬ ((!true) = true ∨
            localContextMaximumAdmissionBytes - written.length < value.length) := by
          rintro (h | h)
          · cases h
          · omega
        unfold append
        rw [if_neg hroom, Sha256.update_append, length_append]
      rw [happ]
      exact ⟨(decide_eq_true hfit).symm, fun _ => rfl⟩
    · have happ : (append ⟨Sha256.update {} written, written.length, true⟩ value).valid =
          false := by
        rw [length_append] at hfit
        have hover : (!true) = true ∨
            localContextMaximumAdmissionBytes - written.length < value.length := by
          right
          omega
        unfold append
        rw [if_pos hover]
      exact ⟨happ.trans (decide_eq_false hfit).symm, fun h => absurd (happ.symm.trans h)
        (by decide)⟩
  · have hover : ¬ written.length ≤ localContextMaximumAdmissionBytes := by
      intro hle
      exact hw (hval.trans (decide_eq_true hle))
    have hfit : ¬ (written ++ value).length ≤ localContextMaximumAdmissionBytes := by
      rw [length_append]
      omega
    have hw := Bool.eq_false_iff.2 hw
    have happ : (writer.append value).valid = false := by
      unfold append
      rw [if_pos (.inl (by rw [hw]; rfl))]
    exact ⟨happ.trans (decide_eq_false hfit).symm, fun h => absurd (happ.symm.trans h)
      (by decide)⟩

theorem field_holds (value : Bytes) (h : writer.Holds written) :
    (writer.field value).Holds (written ++ netstring value) := by
  have hparts := append_holds (append_holds (append_holds h (decimal value.length)) [58]) value
  have hjoin : written ++ decimal value.length ++ [58] ++ value = written ++ netstring value := by
    simp [netstring]
  rwa [hjoin] at hparts

theorem field_fields (writer : LocalSeal) (value : Bytes) :
    writer.field value = fields writer [value] := rfl

theorem finish_fields (values : List Bytes) : (fields ({} : LocalSeal) values).finish =
    if (canonical values).length ≤ localContextMaximumAdmissionBytes then
      .ok (contentDigest (canonical values)) else .error exhausted := by
  have hbeg : Holds {} [] := ⟨rfl, fun _ => rfl⟩
  obtain ⟨hval, hhash⟩ := fields_keep field_holds hbeg values
  rw [nil_append] at hval hhash
  by_cases hfit : (canonical values).length ≤ localContextMaximumAdmissionBytes
  · have hw := hval.trans (decide_eq_true hfit)
    rw [if_pos hfit, hhash hw]
    rfl
  · have hw := hval.trans (decide_eq_false hfit)
    rw [if_neg hfit]
    unfold finish
    rw [hw]
    rfl

end Local.LocalSeal

def snapshotFields (value : RepositorySnapshotIdentity) : List Bytes :=
  bytesOf value.repositoryId :: digestFields value.fingerprint

def sourceFields (value : RepositorySourceIdentity) : List Bytes :=
  snapshotFields value.snapshot ++ [value.relativePath] ++ digestFields value.contentDigest

def instructionFields (ref : RepositoryContextInstruction) : List Bytes :=
  [bytesOf ref.instructionId] ++ sourceFields ref.source ++
    [ref.applicableSubtree, decimal ref.specificity, decimal ref.order,
      decimal ref.estimatedTokens] ++ digestFields ref.textDigest

def repositoryEvidenceFields (ref : RepositoryContextEvidence) : List Bytes :=
  [bytesOf ref.evidenceId, bytesOf ref.entryId, bytesOf ref.messageId, bytesOf ref.sourceId] ++
    sourceFields ref.source ++
    [decimal ref.order, decimal ref.estimatedTokens, decimal (decisionCode ref.decision)] ++
    digestFields ref.textDigest

def capacityFields (capacity : ContextCapacity) : List Bytes :=
  [decimal capacity.contextWindowTokens, decimal capacity.reservedOutputTokens,
    decimal capacity.reservedInputTokens]

def repositoryFields (value : RepositoryContextAdmission) : List Bytes :=
  [bytesOf "aiforge.repository-context.v1", decimal value.version, value.rootBinding] ++
    snapshotFields value.sourceSnapshot ++
    [value.targetSubtree, decimal value.selectionRevision] ++ capacityFields value.capacity ++
    counted decimal instructionFields value.instructions ++
    counted decimal repositoryEvidenceFields value.evidence

def localEvidenceFields (ref : LocalContextEvidence) : List Bytes :=
  [bytesOf ref.evidenceId, bytesOf ref.entryId, bytesOf ref.messageId, bytesOf ref.sourceId,
    decimal ref.source.root.version, ref.source.root.binding, ref.source.relativePath] ++
    digestFields ref.source.contentDigest ++
    [decimal ref.order, decimal ref.estimatedTokens, decimal (decisionCode ref.decision)]

def localFields (value : LocalContextAdmission) : List Bytes :=
  [bytesOf "aiforge.local-context.v1", decimal value.version, bytesOf value.sessionId,
    decimal value.selectionRevision] ++ capacityFields value.capacity ++
    counted decimal localEvidenceFields value.evidence

def memoryEntryFields (entry : MemorySelectionEntry) : List Bytes :=
  [bytesOf entry.journalSessionId, bytesOf entry.recordId, bytesOf entry.recordEventId,
    decimal (Memory.ownerKindCode entry.owner.kind), bytesOf (entry.owner.repositoryId.getD ""),
    bytesOf (entry.owner.personaId.getD ""), bytesOf entry.source.sessionId,
    bytesOf entry.source.runId, bytesOf entry.source.invocationId] ++
    counted decimal (fun id => [bytesOf id]) entry.source.eventIds ++
    digestFields entry.recordDigest ++ digestFields entry.evidenceDigest ++
    [decimal entry.order, decimal entry.estimatedTokens]

def memoryFields (selection : MemorySelection) : List Bytes :=
  [bytesOf "aiforge.memory-selection.v1", decimal selection.version,
    bytesOf (selection.repositoryId.getD ""), bytesOf (selection.personaId.getD ""),
    decimal selection.maximumTokens, decimal selection.availableTokens] ++
    counted decimal memoryEntryFields selection.entries

def repositoryPreImage (value : RepositoryContextAdmission) : Bytes :=
  canonical (repositoryFields value)

def localPreImage (value : LocalContextAdmission) : Bytes := canonical (localFields value)

def memoryPreImage (value : MemorySelection) : Bytes := canonical (memoryFields value)

section Seals

variable (writer : Writer)

theorem writeSnapshot_fields (value : RepositorySnapshotIdentity) :
    writeSnapshot writer value = fields writer (snapshotFields value) := by
  simp only [writeSnapshot, snapshotFields, text_fields,
    digest_fields, fields_append, cons_append, nil_append]

theorem writeSource_fields (value : RepositorySourceIdentity) :
    writeSource writer value = fields writer (sourceFields value) := by
  simp only [writeSource, sourceFields, writeSnapshot_fields, field_fields,
    digest_fields, fields_append]

theorem writeInstruction_fields (ref : RepositoryContextInstruction) :
    writeInstruction writer ref = fields writer (instructionFields ref) := by
  simp only [writeInstruction, instructionFields, writeSource_fields,
    field_fields, text_fields, number_fields, digest_fields,
    fields_append, append_assoc, cons_append, nil_append]

theorem writeEvidence_fields (ref : RepositoryContextEvidence) :
    writeEvidence writer ref = fields writer (repositoryEvidenceFields ref) := by
  simp only [writeEvidence, repositoryEvidenceFields, writeSource_fields,
    text_fields, number_fields, digest_fields,
    fields_append, append_assoc, cons_append, nil_append]

theorem writeEntry_fields (entry : MemorySelectionEntry) :
    writeEntry writer entry = fields writer (memoryEntryFields entry) := by
  simp only [writeEntry, memoryEntryFields, counted, text_fields,
    number_fields, digest_fields, foldl_fields text_fields,
    fields_append, append_assoc, cons_append, nil_append]

end Seals

theorem repository_seal (value : RepositoryContextAdmission) :
    sealOf value = contentDigest (repositoryPreImage value) := by
  rw [repositoryPreImage, ← finish_fields]
  simp only [sealOf, repositoryFields, capacityFields, counted, field_fields,
    text_fields, number_fields, writeSnapshot_fields,
    foldl_fields writeInstruction_fields, foldl_fields writeEvidence_fields,
    fields_append, append_assoc, cons_append, nil_append]

theorem localEvidence_fields (writer : Local.LocalSeal) (ref : LocalContextEvidence) :
    Local.writeEvidence writer ref = fields writer (localEvidenceFields ref) := by
  simp only [Local.writeEvidence, localEvidenceFields, digestFields,
    Local.LocalSeal.field_fields, text_fields, number_fields,
    fields_append, cons_append, nil_append]

theorem local_seal (value : LocalContextAdmission) : Local.sealOf value =
    if (localPreImage value).length ≤ localContextMaximumAdmissionBytes then
      .ok (contentDigest (localPreImage value)) else .error Local.LocalSeal.exhausted := by
  rw [localPreImage, ← Local.LocalSeal.finish_fields]
  simp only [Local.sealOf, localFields, capacityFields, counted, text_fields,
    number_fields, foldl_fields localEvidence_fields,
    fields_append, cons_append, nil_append]

theorem memory_seal (value : MemorySelection) :
    memorySelectionDigest value = contentDigest (memoryPreImage value) := by
  rw [memoryPreImage, ← finish_fields]
  simp only [memorySelectionDigest, memoryFields, counted, text_fields,
    number_fields, foldl_fields writeEntry_fields, fields_append,
    cons_append, nil_append]

theorem decisionCode_inj : Function.Injective decisionCode := by
  intro first second h
  cases first <;> cases second <;> first | rfl | cases h

theorem ownerKindCode_inj : Function.Injective ownerKindCode := by
  intro first second h
  cases first <;> cases second <;> first | rfl | cases h

theorem snapshotFields_delimited : SelfDelimiting snapshotFields := by
  rintro ⟨⟩ ⟨⟩ _ _ h
  simp only [snapshotFields, cons_append, List.cons.injEq, bytesOf_inj] at h
  obtain ⟨rfl, h⟩ := h
  obtain ⟨rfl, hr⟩ := digestFields_delimited _ _ _ _ h
  exact ⟨rfl, hr⟩

/-- The range is not written, so only sources without one are read back. -/
theorem sourceFields_delimited :
    SelfDelimitingOn (fun value => value.range = none) sourceFields := by
  rintro ⟨⟩ ⟨⟩ _ _ rfl rfl _ h
  obtain ⟨rfl, h₁⟩ := snapshotFields_delimited _ _ _ _ h
  obtain ⟨rfl, h₂⟩ := List.cons.inj h₁
  obtain ⟨rfl, hr⟩ := digestFields_delimited _ _ _ _ h₂
  exact ⟨rfl, hr⟩

theorem instructionFields_delimited :
    SelfDelimitingOn (fun ref => ref.source.range = none) instructionFields := by
  rintro ⟨⟩ ⟨⟩ _ _ hx hy _ h
  simp only [instructionFields, append_assoc, cons_append, nil_append,
    List.cons.injEq, bytesOf_inj] at h
  obtain ⟨rfl, h₁⟩ := h
  obtain ⟨rfl, h₂⟩ := sourceFields_delimited _ _ _ _ hx hy rfl h₁
  simp only [List.cons.injEq, decimal_inj] at h₂
  obtain ⟨rfl, rfl, rfl, rfl, h₃⟩ := h₂
  obtain ⟨rfl, hr⟩ := digestFields_delimited _ _ _ _ h₃
  exact ⟨rfl, hr⟩

theorem repositoryEvidenceFields_delimited :
    SelfDelimitingOn (fun ref => ref.source.range = none) repositoryEvidenceFields := by
  rintro ⟨⟩ ⟨⟩ _ _ hx hy _ h
  simp only [repositoryEvidenceFields, append_assoc, cons_append, nil_append,
    List.cons.injEq, bytesOf_inj] at h
  obtain ⟨rfl, rfl, rfl, rfl, h₁⟩ := h
  obtain ⟨rfl, h₂⟩ := sourceFields_delimited _ _ _ _ hx hy rfl h₁
  simp only [List.cons.injEq, decimal_inj, decisionCode_inj.eq_iff] at h₂
  obtain ⟨rfl, rfl, rfl, h₃⟩ := h₂
  obtain ⟨rfl, hr⟩ := digestFields_delimited _ _ _ _ h₃
  exact ⟨rfl, hr⟩

theorem localEvidenceFields_delimited : SelfDelimiting localEvidenceFields := by
  rintro ⟨_, _, _, _, ⟨⟨⟩, _, _⟩, _, _, _⟩ ⟨_, _, _, _, ⟨⟨⟩, _, _⟩, _, _, _⟩ _ _ h
  simp only [localEvidenceFields, append_assoc, cons_append, nil_append,
    List.cons.injEq, bytesOf_inj, decimal_inj] at h
  obtain ⟨rfl, rfl, rfl, rfl, rfl, rfl, rfl, h₁⟩ := h
  obtain ⟨rfl, h₂⟩ := digestFields_delimited _ _ _ _ h₁
  simp only [List.cons.injEq, decimal_inj, decisionCode_inj.eq_iff] at h₂
  obtain ⟨rfl, rfl, rfl, hr⟩ := h₂
  exact ⟨rfl, hr⟩

/-- The kind of an owner says which of its identifiers is there. -/
theorem owner_eq {first second : MemoryOwner} (hf : Memory.validateMemoryOwner first)
    (hs : Memory.validateMemoryOwner second) (hkind : first.kind = second.kind)
    (hrepo : first.repositoryId.getD "" = second.repositoryId.getD "")
    (hpers : first.personaId.getD "" = second.personaId.getD "") : first = second := by
  obtain ⟨kind, repository, persona⟩ := first
  obtain ⟨_, repository', persona'⟩ := second
  obtain rfl := hkind
  cases kind <;> cases repository <;> cases persona <;> cases repository' <;> cases persona' <;>
    simp_all [Memory.validateMemoryOwner]

theorem memoryEntryFields_delimited :
    SelfDelimitingOn (fun entry => Memory.validateMemoryOwner entry.owner = true)
      memoryEntryFields := by
  rintro ⟨_, _, _, _, ⟨⟩, _, _, _, _⟩ ⟨_, _, _, _, ⟨⟩, _, _, _, _⟩ _ _ hx hy _ h
  simp only [memoryEntryFields, append_assoc, cons_append, nil_append,
    List.cons.injEq, bytesOf_inj, decimal_inj, ownerKindCode_inj.eq_iff] at h
  obtain ⟨rfl, rfl, rfl, hkind, hrepo, hpers, rfl, rfl, rfl, h₁⟩ := h
  obtain rfl := owner_eq hx hy hkind hrepo hpers
  obtain ⟨rfl, h₂⟩ := delimited_counted decimal_injective
    (delimited_single bytesOf_injective) _ _ _ _ h₁
  obtain ⟨rfl, h₃⟩ := digestFields_delimited _ _ _ _ h₂
  obtain ⟨rfl, h₄⟩ := digestFields_delimited _ _ _ _ h₃
  simp only [List.cons.injEq, decimal_inj] at h₄
  obtain ⟨rfl, rfl, hr⟩ := h₄
  exact ⟨rfl, hr⟩

theorem source_range {value : RepositorySourceIdentity} {text : ContentDigest}
    {snapshot : RepositorySnapshotIdentity} {maximum : ℕ}
    (h : source value text snapshot maximum) : value.range = none := by
  simp only [source, Bool.and_eq_true] at h
  exact Option.isNone_iff_eq_none.1 h.1.1.1.1.1.1.2

variable {value : RepositoryContextAdmission}

theorem repository_shape_ranges (h : shape value = .ok ()) :
    (∀ ref ∈ value.instructions, ref.source.range = none) ∧
      ∀ ref ∈ value.evidence, ref.source.range = none := by
  replace h := later h
  obtain ⟨seen, hinsts, h⟩ := bind_ok.1 h
  obtain ⟨_, hev, -⟩ := bind_ok.1 h
  constructor
  · refine forall_of_foldlM ?_ hinsts
    intro seen ref next hstep
    obtain ⟨_, hchk, -⟩ := bind_ok.1 hstep
    have hshp := (ensure_ok.1 hchk).1
    simp only [instructionShape, Bool.and_eq_true] at hshp
    exact source_range hshp.1.1.1.1.1.1.1.1
  · refine forall_of_foldlM ?_ hev
    intro seen ref next hstep
    obtain ⟨_, hchk, -⟩ := bind_ok.1 hstep
    have hshp := (ensure_ok.1 hchk).1
    simp only [evidenceShape, Bool.and_eq_true] at hshp
    exact source_range hshp.1.1.1.1.1.1

theorem memory_shape_owners {value : MemorySelection}
    (h : Memory.validateMemorySelectionShape value = .ok ()) :
    ∀ entry ∈ value.entries, Memory.validateMemoryOwner entry.owner := by
  replace h := later h
  obtain ⟨_, hents, -⟩ := bind_ok.1 h
  refine forall_of_foldlM ?_ hents
  intro seen entry next hstep
  obtain ⟨_, hchk, -⟩ := bind_ok.1 hstep
  exact (ensure_ok.1 hchk).1

namespace RepositoryContextAdmission

def unsealed (value : RepositoryContextAdmission) : RepositoryContextAdmission :=
  { value with admissionDigest := none }

end RepositoryContextAdmission

namespace LocalContextAdmission

def unsealed (value : LocalContextAdmission) : LocalContextAdmission :=
  { value with admissionDigest := none }

end LocalContextAdmission

namespace MemorySelection

def unsealed (value : MemorySelection) : MemorySelection := { value with admissionDigest := none }

end MemorySelection

theorem repositoryPreImage_injective {first second : RepositoryContextAdmission}
    (hf : shape first = .ok ()) (hs : shape second = .ok ())
    (h : repositoryPreImage first = repositoryPreImage second) :
    first.unsealed = second.unsealed := by
  obtain ⟨hinsts, hev⟩ := repository_shape_ranges hf
  obtain ⟨hinsts', hev'⟩ := repository_shape_ranges hs
  obtain ⟨_, _, _, _, _, ⟨⟩, _, _, _⟩ := first
  obtain ⟨_, _, _, _, _, ⟨⟩, _, _, _⟩ := second
  have h := canonical_inj h
  simp only [repositoryFields, capacityFields, append_assoc, cons_append,
    nil_append, List.cons.injEq, decimal_inj] at h
  obtain ⟨-, rfl, rfl, h₁⟩ := h
  obtain ⟨rfl, h₂⟩ := snapshotFields_delimited _ _ _ _ h₁
  simp only [List.cons.injEq, decimal_inj] at h₂
  obtain ⟨rfl, rfl, rfl, rfl, rfl, h₃⟩ := h₂
  obtain ⟨rfl, h₄⟩ := delimitedOn_counted decimal_injective
    instructionFields_delimited _ _ _ _ hinsts hinsts' rfl h₃
  obtain rfl := (delimitedOn_counted decimal_injective
    repositoryEvidenceFields_delimited).injective hev hev' h₄
  rfl

/-- Every field of a local admission is written out, whatever its shape. -/
theorem localPreImage_injective {first second : LocalContextAdmission}
    (h : localPreImage first = localPreImage second) : first.unsealed = second.unsealed := by
  obtain ⟨_, _, _, ⟨⟩, _, _⟩ := first
  obtain ⟨_, _, _, ⟨⟩, _, _⟩ := second
  replace h := canonical_inj h
  simp only [localFields, capacityFields, cons_append, nil_append, List.cons.injEq,
    decimal_inj, bytesOf_inj] at h
  obtain ⟨-, rfl, rfl, rfl, rfl, rfl, rfl, hrefs⟩ := h
  obtain rfl := (delimited_counted decimal_injective
    localEvidenceFields_delimited).injective hrefs
  rfl

theorem getD_injective {first second : Option String} (hf : first ≠ some "")
    (hs : second ≠ some "") (h : first.getD "" = second.getD "") : first = second := by
  cases first with
  | none =>
    cases second with
    | none => rfl
    | some => exact absurd (congrArg some h.symm) hs
  | some =>
    cases second with
    | none => exact absurd (congrArg some h) hf
    | some => exact congrArg some h

theorem memoryPreImage_injective {first second : MemorySelection}
    (hf : validateMemorySelectionShape first = .ok ())
    (hs : validateMemorySelectionShape second = .ok ())
    (h : memoryPreImage first = memoryPreImage second) : first.unsealed = second.unsealed := by
  have hents := memory_shape_owners hf
  have hents' := memory_shape_owners hs
  have h := canonical_inj h
  simp only [memoryFields, cons_append, nil_append, List.cons.injEq, decimal_inj,
    bytesOf_inj] at h
  obtain ⟨-, hver, hrepo, hpers, hmax, havail, h⟩ := h
  have hrefs := (delimitedOn_counted decimal_injective
    memoryEntryFields_delimited).injective hents hents' h
  have hrepo := getD_injective first.repository_named second.repository_named hrepo
  have hpers := getD_injective first.persona_named second.persona_named hpers
  cases first
  cases second
  subst hver hrepo hpers hmax havail hrefs
  rfl

def repositoryScheme : Scheme RepositoryContextAdmission where
  shape value := Repository.shape value = .ok ()
  fits _ := True
  encoding := repositoryPreImage
  digest := RepositoryContextAdmission.admissionDigest
  unsealed := RepositoryContextAdmission.unsealed
  injective := repositoryPreImage_injective
  encoding_congr {a b} h := by
    have hsame := congrArg repositoryPreImage h
    exact hsame
  ext {a b} h hd := by
    cases a
    cases b
    cases h
    cases hd
    rfl

def localScheme : Scheme LocalContextAdmission where
  shape value := Local.shape value = .ok ()
  fits value := (localPreImage value).length ≤ localContextMaximumAdmissionBytes
  encoding := localPreImage
  digest := LocalContextAdmission.admissionDigest
  unsealed := LocalContextAdmission.unsealed
  injective _ _ h := localPreImage_injective h
  encoding_congr {a b} h := by
    have hsame := congrArg localPreImage h
    exact hsame
  ext {a b} h hd := by
    cases a
    cases b
    cases h
    cases hd
    rfl

def memoryScheme : Scheme MemorySelection where
  shape value := Memory.validateMemorySelectionShape value = .ok ()
  fits _ := True
  encoding := memoryPreImage
  digest := MemorySelection.admissionDigest
  unsealed := MemorySelection.unsealed
  injective := memoryPreImage_injective
  encoding_congr {a b} h := by
    have hsame := congrArg memoryPreImage h
    exact hsame
  ext {a b} h hd := by
    cases a
    cases b
    cases h
    cases hd
    rfl

theorem repository_valid_iff : validateRepositoryContextAdmission value = .ok () ↔
      repositoryScheme.Valid value := by
  unfold validateRepositoryContextAdmission
  rw [bind_ok]
  constructor
  · rintro ⟨_, hshp, h⟩
    exact ⟨hshp, trivial, (ensure_ok.1 h).trans (by rw [repository_seal]; rfl)⟩
  · rintro ⟨hshp, -, h⟩
    exact ⟨(), hshp, ensure_ok.2 (h.trans (by rw [repository_seal]; rfl))⟩

theorem memory_valid_iff {value : MemorySelection} :
    validateMemorySelection value = .ok () ↔ memoryScheme.Valid value := by
  unfold validateMemorySelection
  rw [bind_ok]
  constructor
  · rintro ⟨_, hshp, h⟩
    exact ⟨hshp, trivial, (ensure_ok.1 h).trans (by rw [memory_seal]; rfl)⟩
  · rintro ⟨hshp, -, h⟩
    exact ⟨(), hshp, ensure_ok.2 (h.trans (by rw [memory_seal]; rfl))⟩

theorem local_seal_ok {value : LocalContextAdmission} {digest : ContentDigest} :
    Local.sealOf value = .ok digest ↔ localScheme.fits value ∧
      contentDigest (localPreImage value) = digest := by
  rw [local_seal]
  by_cases hfits : (localPreImage value).length ≤ localContextMaximumAdmissionBytes
  · rw [if_pos hfits]
    constructor
    · intro h
      exact ⟨hfits, Except.ok.inj h⟩
    · rintro ⟨-, rfl⟩
      rfl
  · rw [if_neg hfits]
    constructor
    · intro h
      cases h
    · rintro ⟨h, -⟩
      exact absurd h hfits

theorem local_valid_iff {value : LocalContextAdmission} :
    Local.validateLocalContextAdmission value = .ok () ↔ localScheme.Valid value := by
  unfold Local.validateLocalContextAdmission
  rw [bind_ok]
  constructor
  · rintro ⟨_, hshp, h⟩
    obtain ⟨_, hrec, h⟩ := bind_ok.1 h
    obtain ⟨_, hdig, h⟩ := bind_ok.1 h
    obtain ⟨hfits, rfl⟩ := local_seal_ok.1 hdig
    have hsame := ensure_ok.1 h
    exact ⟨hshp, hfits, (require_ok.1 hrec).trans (congrArg some hsame.symm)⟩
  · rintro ⟨hshp, hfits, hdig⟩
    refine ⟨(), hshp, ?_⟩
    refine bind_ok.2 ⟨_, require_ok.2 hdig, ?_⟩
    refine bind_ok.2 ⟨_, local_seal_ok.2 ⟨hfits, rfl⟩, ?_⟩
    exact ensure_ok.2 rfl

theorem repository_sealed_valid {sealed : RepositoryContextAdmission}
    (h : sealRepositoryContextAdmission value = .ok sealed) :
    repositoryScheme.Valid sealed := by
  obtain ⟨_, hshp, h⟩ := bind_ok.1 h
  cases h
  exact ⟨hshp, trivial, by rw [repository_seal]; rfl⟩

theorem local_sealed_valid {value sealed : LocalContextAdmission}
    (h : Local.sealLocalContextAdmission value = .ok sealed) : localScheme.Valid sealed := by
  obtain ⟨_, hshp, h⟩ := bind_ok.1 h
  obtain ⟨_, hdig, h⟩ := bind_ok.1 h
  obtain ⟨hfits, rfl⟩ := local_seal_ok.1 hdig
  cases h
  exact ⟨hshp, hfits, rfl⟩

theorem memory_sealed_valid {value sealed : MemorySelection}
    (h : sealMemorySelection value = .ok sealed) : memoryScheme.Valid sealed := by
  obtain ⟨_, hshp, h⟩ := bind_ok.1 h
  cases h
  exact ⟨hshp, trivial, by rw [memory_seal]; rfl⟩

/-- Pre-images of well-shaped values determine them up to the digest, sealed values are valid,
and a valid value in which the digest or anything under it is changed is not valid, as long as
SHA-256 keeps the two pre-images apart. -/
structure TamperEvident {ε α : Type} (shape validate : α → Except ε Unit)
    (seals : α → Except ε α) (preImage : α → Bytes) (digest : α → Option ContentDigest)
    (unsealed : α → α) : Prop where
  determined : ∀ first second, shape first = .ok () → shape second = .ok () →
    preImage first = preImage second → unsealed first = unsealed second
  sealed : ∀ value result, seals value = .ok result → validate result = .ok ()
  changed : ∀ value changed, validate value = .ok () → changed ≠ value →
    (digest changed = digest value ∨ unsealed changed = unsealed value) →
    (Sha256.digest (preImage changed) = Sha256.digest (preImage value) →
      preImage changed = preImage value) → validate changed ≠ .ok ()

theorem preImage_ne {first second : List Bytes} {name name' : String} (h : name ≠ name')
    (hf : first.head? = some (bytesOf name)) (hs : second.head? = some (bytesOf name')) :
    canonical first ≠ canonical second := by
  intro he
  have hsame := canonical_inj he
  rw [hsame, hs] at hf
  exact h (bytesOf_injective (Option.some.inj hf)).symm

theorem evidence_seals_tamper_evident :
    TamperEvident Repository.shape Repository.validateRepositoryContextAdmission
      Repository.sealRepositoryContextAdmission repositoryPreImage
      RepositoryContextAdmission.admissionDigest RepositoryContextAdmission.unsealed ∧
    TamperEvident Local.shape Local.validateLocalContextAdmission
      Local.sealLocalContextAdmission localPreImage
      LocalContextAdmission.admissionDigest LocalContextAdmission.unsealed ∧
    TamperEvident Memory.validateMemorySelectionShape Memory.validateMemorySelection
      Memory.sealMemorySelection memoryPreImage
      MemorySelection.admissionDigest MemorySelection.unsealed ∧
    (∀ repository file, repositoryPreImage repository ≠ localPreImage file) ∧
    (∀ repository selection, repositoryPreImage repository ≠ memoryPreImage selection) ∧
    ∀ file selection, localPreImage file ≠ memoryPreImage selection := by
  refine ⟨⟨?_, ?_, ?_⟩, ⟨?_, ?_, ?_⟩, ⟨?_, ?_, ?_⟩, ?_, ?_, ?_⟩
  · intro first second hf hs h
    exact repositoryPreImage_injective hf hs h
  · intro value result h
    exact repository_valid_iff.2 (repository_sealed_valid h)
  · intro value changed h hne hkeep hfree hvalid
    exact repositoryScheme.not_valid_of_changed (repository_valid_iff.1 h) hne hkeep hfree
      (repository_valid_iff.1 hvalid)
  · intro first second _ _ h
    exact localPreImage_injective h
  · intro value result h
    exact local_valid_iff.2 (local_sealed_valid h)
  · intro value changed h hne hkeep hfree hvalid
    exact localScheme.not_valid_of_changed (local_valid_iff.1 h) hne hkeep hfree
      (local_valid_iff.1 hvalid)
  · intro first second hf hs h
    exact memoryPreImage_injective hf hs h
  · intro value result h
    exact memory_valid_iff.2 (memory_sealed_valid h)
  · intro value changed h hne hkeep hfree hvalid
    exact memoryScheme.not_valid_of_changed (memory_valid_iff.1 h) hne hkeep hfree
      (memory_valid_iff.1 hvalid)
  · intro repository file
    have hname : "aiforge.repository-context.v1" ≠ "aiforge.local-context.v1" := by decide
    exact preImage_ne hname rfl rfl
  · intro repository selection
    have hname : "aiforge.repository-context.v1" ≠ "aiforge.memory-selection.v1" := by decide
    exact preImage_ne hname rfl rfl
  · intro file selection
    have hname : "aiforge.local-context.v1" ≠ "aiforge.memory-selection.v1" := by decide
    exact preImage_ne hname rfl rfl

def sampleSelection : MemorySelection where
  repositoryId := none
  personaId := none
  maximumTokens := 100
  availableTokens := 80
  entries := [
    { journalSessionId := "journal"
      recordId := "record"
      recordEventId := "event"
      owner := ⟨.global, none, none⟩
      source := ⟨"session", "run", "invocation", ["proposed"]⟩
      recordDigest := sampleDigest 20
      evidenceDigest := sampleDigest 40
      order := 1
      estimatedTokens := 40 }]

def sampleSealed : MemorySelection :=
  { sampleSelection with
    admissionDigest := some (contentDigest (memoryPreImage sampleSelection)) }

def sampleRenamed : MemorySelection :=
  { sampleSealed with repositoryId := some "repository", repository_named := by decide }

/-- A repository that is named after the fact breaks the seal. -/
theorem renamed_selection_invalid : Memory.validateMemorySelection sampleSealed = .ok () ∧
    Memory.validateMemorySelection sampleRenamed ≠ .ok () := by
  have hshape : Memory.validateMemorySelectionShape sampleSealed = .ok () := by decide +kernel
  have hvalid := memory_valid_iff.2 ⟨hshape, trivial, rfl⟩
  have hfree : Sha256.digest (memoryPreImage sampleRenamed) ≠
      Sha256.digest (memoryPreImage sampleSealed) := by
    rw [Sha256Evaluation.digest_eq_digestNat (by decide +kernel),
      Sha256Evaluation.digest_eq_digestNat (by decide +kernel)]
    decide +kernel
  refine ⟨hvalid, ?_⟩
  exact evidence_seals_tamper_evident.2.2.1.changed sampleSealed sampleRenamed hvalid
    (by decide +kernel) (.inl rfl) fun hsame => absurd hsame hfree

end EvidenceContext
