import AiForge.ConversationSummary

/-! # Seals of summary records

The four kinds of summary records begin their encodings with four different names, and each
encoding determines what it encodes. An intent encodes its sources by their seal alone; the
sources are found again because an intent is only valid together with them. -/
namespace SummarySeals

open Admission Content Framing List SafeText Sealing Staged Summary Seal Option FieldWriter

def versionFields (value : ConversationSummaryVersion) : List Bytes :=
  [bytesOf value.summaryId, decimal value.revision] ++ digestFields value.candidateDigest

def sourceGroupFields (group : ConversationSummarySourceGroup) : List Bytes :=
  [bytesOf group.runId, bytesOf group.terminalEventId, decimal group.terminalSequence] ++
  counted decimal entryFields group.entries

def sourcesFields (value : ConversationSummarySources) : List Bytes :=
  [bytesOf "aiforge.summary-sources.v1", decimal value.version, decimal value.estimatorVersion,
    bytesOf value.sessionId, decimal value.snapshotSequence] ++
  counted decimal sourceGroupFields value.groups

def intentFields (value : ConversationSummaryIntent) (source : ContentDigest) : List Bytes :=
  [bytesOf "aiforge.summary-intent.v1", decimal value.version, decimal value.formatVersion,
    bytesOf value.summaryId] ++ digestFields source ++
  [bytesOf value.producingRunId, bytesOf value.producingInferenceId, bytesOf value.modelId,
    bytesOf value.outputMessageId, value.runtimeVersion,
    decimal value.capacity.contextWindowTokens, decimal value.capacity.reservedInputTokens,
    decimal value.capacity.reservedOutputTokens, decimal value.estimatedInputTokens,
    decimal value.maximumOutputBytes]

def candidateFields (value : ConversationSummaryCandidate) : List Bytes :=
  [bytesOf "aiforge.summary-candidate.v1", decimal value.version, bytesOf value.sessionId,
    bytesOf value.summaryId, decimal value.revision] ++
  digestFields value.sourceDigest ++ digestFields value.intentDigest ++
  [bytesOf value.outputEventId, decimal value.outputSequence, bytesOf value.createdEventId,
    decimal value.createdSequence, decimal (authorCode value.author)] ++
  tagged presence versionFields value.editedFrom ++ [value.text]

def activationFields (value : ConversationSummaryActivation) : List Bytes :=
  [bytesOf "aiforge.summary-activation.v1", decimal value.version, bytesOf value.sessionId] ++
  versionFields value.candidate ++ digestFields value.sourceDigest ++
  counted decimal (fun run => [bytesOf run]) value.coveredRunIds ++
  [decimal value.sourceAnchorSequence, bytesOf value.activationEventId,
    decimal value.activationSequence]

/-- What a seal of the summary records answers. -/
def sealOf (fields : List Bytes) : Status ContentDigest :=
  if (canonical fields).length ≤ summaryMaximumManifestBytes then
    .ok (contentDigest (canonical fields)) else .error exhausted

/-- The seal of written-out fields, computed over natural numbers. -/
theorem sealOf_digestNat {fields : List Bytes}
    (h : (canonical fields).length ≤ summaryMaximumManifestBytes) :
    sealOf fields = .ok
      ⟨"sha256", Sha256Evaluation.digestNat (canonical fields), (canonical fields).length⟩ := by
  have hlt : (canonical fields).length < 2 ^ 61 := Nat.lt_of_le_of_lt h (by decide)
  rw [sealOf, if_pos h, contentDigest, Sha256Evaluation.digest_eq_digestNat hlt]

theorem encodeVersion_fields (writer : Seal) (value : ConversationSummaryVersion) :
    encodeVersion writer value = fields writer (versionFields value) := by
  simp only [encodeVersion, versionFields, text_fields, number_fields,
    digest_fields, fields_append, cons_append, nil_append]

theorem encodeSourceGroup_fields (writer : Seal) (group : ConversationSummarySourceGroup) :
    encodeSourceGroup writer group = fields writer (sourceGroupFields group) := by
  simp only [encodeSourceGroup, sourceGroupFields, counted, text_fields, number_fields,
    foldl_fields encodeEntry_fields, fields_append, cons_append, nil_append]

theorem encodeSources_eq (value : ConversationSummarySources) :
    encodeSources value = sealOf (sourcesFields value) := by
  rw [sealOf, ← finish_canonical]
  simp only [encodeSources, sourcesFields, counted, text_fields, number_fields,
    foldl_fields encodeSourceGroup_fields, fields_append, cons_append,
    nil_append]

theorem encodeIntent_eq {value : ConversationSummaryIntent} {source : ContentDigest}
    (h : value.sources.sourceDigest = some source) :
    encodeIntent value = sealOf (intentFields value source) := by
  have hs : (require value.sources.sourceDigest ⟨.invalidDigest,
      "summary intent source seal is missing"⟩ : Status ContentDigest) = .ok source :=
    require_ok.2 h
  rw [sealOf, ← finish_canonical]
  unfold encodeIntent
  rw [hs]
  rfl

theorem encodeCandidate_eq (value : ConversationSummaryCandidate) :
    encodeCandidate value = sealOf (candidateFields value) := by
  rw [sealOf, ← finish_canonical]
  simp only [encodeCandidate, candidateFields, tagged, presence, text_fields,
    number_fields, digest_fields, field_fields,
    elim_fields (encodeVersion_fields _), fields_append, append_assoc,
    cons_append, nil_append]

theorem encodeActivation_eq (value : ConversationSummaryActivation) :
    encodeActivation value = sealOf (activationFields value) := by
  rw [sealOf, ← finish_canonical]
  simp only [encodeActivation, activationFields, counted, text_fields, number_fields,
    digest_fields, encodeVersion_fields, foldl_fields text_fields,
    fields_append, append_assoc, cons_append, nil_append]

theorem authorCode_inj : Function.Injective authorCode := by
  intro first second h
  cases first <;> cases second <;> first | rfl | cases h

theorem versionFields_delimited : SelfDelimiting versionFields := by
  rintro ⟨⟩ ⟨⟩ _ _ h
  simp only [versionFields, cons_append, nil_append, List.cons.injEq, bytesOf_inj,
    decimal_inj] at h
  obtain ⟨rfl, rfl, h₁⟩ := h
  obtain ⟨rfl, hrest⟩ := digestFields_delimited _ _ _ _ h₁
  exact ⟨rfl, hrest⟩

theorem sourceGroupFields_delimited : SelfDelimiting sourceGroupFields := by
  rintro ⟨⟩ ⟨⟩ _ _ h
  simp only [sourceGroupFields, cons_append, nil_append, List.cons.injEq, bytesOf_inj,
    decimal_inj] at h
  obtain ⟨rfl, rfl, rfl, h₁⟩ := h
  obtain ⟨rfl, hrest⟩ :=
    delimited_counted decimal_injective entryFields_delimited _ _ _ _ h₁
  exact ⟨rfl, hrest⟩

def unsealedSources (value : ConversationSummarySources) : ConversationSummarySources :=
  { value with sourceDigest := none }

theorem sourcesFields_inj {first second : ConversationSummarySources}
    (h : sourcesFields first = sourcesFields second) :
    unsealedSources first = unsealedSources second := by
  obtain ⟨_, _, _, _, _, _⟩ := first
  obtain ⟨_, _, _, _, _, _⟩ := second
  simp only [sourcesFields, cons_append, nil_append, List.cons.injEq, true_and,
    bytesOf_inj, decimal_inj] at h
  obtain ⟨rfl, rfl, rfl, rfl, h⟩ := h
  obtain rfl := (delimited_counted decimal_injective
    sourceGroupFields_delimited).injective h
  rfl

/-- What an intent encodes: everything but its seal, and of its sources only their seal. -/
def encodedIntent (value : ConversationSummaryIntent) : ConversationSummaryIntent :=
  { value with
    sources := { sessionId := "", snapshotSequence := 0, groups := []
                 sourceDigest := value.sources.sourceDigest }
    intentDigest := none }

theorem intentFields_inj {first second : ConversationSummaryIntent}
    {source source' : ContentDigest} (hf : first.sources.sourceDigest = some source)
    (hs : second.sources.sourceDigest = some source')
    (h : intentFields first source = intentFields second source') :
    encodedIntent first = encodedIntent second := by
  obtain ⟨_, _, _, _, _, _, _, _, _, ⟨⟩, _, _, _⟩ := first
  obtain ⟨_, _, _, _, _, _, _, _, _, ⟨⟩, _, _, _⟩ := second
  simp only [intentFields, cons_append, nil_append, List.cons.injEq, true_and,
    bytesOf_inj, decimal_inj] at h
  obtain ⟨rfl, rfl, rfl, h₁⟩ := h
  obtain ⟨rfl, h₂⟩ := digestFields_delimited _ _ _ _ h₁
  simp only [List.cons.injEq, and_true, bytesOf_inj, decimal_inj] at h₂
  obtain ⟨rfl, rfl, rfl, rfl, rfl, rfl, rfl, rfl, rfl, rfl⟩ := h₂
  dsimp only [encodedIntent] at hf hs ⊢
  rw [hf, hs]

def unsealedCandidate (value : ConversationSummaryCandidate) : ConversationSummaryCandidate :=
  { value with candidateDigest := none }

theorem candidateFields_inj {first second : ConversationSummaryCandidate}
    (h : candidateFields first = candidateFields second) :
    unsealedCandidate first = unsealedCandidate second := by
  obtain ⟨_, _, _, _, _, _, _, _, _, _, _, _, _, _⟩ := first
  obtain ⟨_, _, _, _, _, _, _, _, _, _, _, _, _, _⟩ := second
  simp only [candidateFields, append_assoc, cons_append, nil_append,
    List.cons.injEq, true_and, bytesOf_inj, decimal_inj] at h
  obtain ⟨rfl, rfl, rfl, rfl, h₁⟩ := h
  obtain ⟨rfl, h₂⟩ := digestFields_delimited _ _ _ _ h₁
  obtain ⟨rfl, h₃⟩ := digestFields_delimited _ _ _ _ h₂
  simp only [List.cons.injEq, bytesOf_inj, decimal_inj, authorCode_inj.eq_iff] at h₃
  obtain ⟨rfl, rfl, rfl, rfl, rfl, h₄⟩ := h₃
  obtain ⟨rfl, h₅⟩ :=
    delimited_tagged presence_inj versionFields_delimited _ _ _ _ h₄
  obtain ⟨rfl, -⟩ := List.cons.inj h₅
  rfl

def unsealedActivation (value : ConversationSummaryActivation) : ConversationSummaryActivation :=
  { value with activationDigest := none }

theorem activationFields_inj {first second : ConversationSummaryActivation}
    (h : activationFields first = activationFields second) :
    unsealedActivation first = unsealedActivation second := by
  obtain ⟨_, _, _, _, _, _, _, _, _⟩ := first
  obtain ⟨_, _, _, _, _, _, _, _, _⟩ := second
  simp only [activationFields, append_assoc, cons_append, nil_append,
    List.cons.injEq, true_and, bytesOf_inj, decimal_inj] at h
  obtain ⟨rfl, rfl, h₁⟩ := h
  obtain ⟨rfl, h₂⟩ := versionFields_delimited _ _ _ _ h₁
  obtain ⟨rfl, h₃⟩ := digestFields_delimited _ _ _ _ h₂
  obtain ⟨rfl, h₄⟩ := delimited_counted decimal_injective
    (delimited_single bytesOf_injective) _ _ _ _ h₃
  simp only [List.cons.injEq, and_true, bytesOf_inj, decimal_inj] at h₄
  obtain ⟨rfl, rfl, rfl⟩ := h₄
  rfl

inductive SummaryRecord where
  | sources (value : ConversationSummarySources)
  | intent (value : ConversationSummaryIntent)
  | candidate (value : ConversationSummaryCandidate)
  | activation (value : ConversationSummaryActivation)
  deriving DecidableEq

namespace SummaryRecord

/-- The fields of a record; an intent has none as long as its sources are not sealed. -/
def fields : SummaryRecord → Option (List Bytes)
  | .sources value => some (sourcesFields value)
  | .intent value => value.sources.sourceDigest.map (intentFields value)
  | .candidate value => some (candidateFields value)
  | .activation value => some (activationFields value)

def encoding (record : SummaryRecord) : Option Bytes := record.fields.map canonical

/-- The part of a record that its encoding holds. -/
def encoded : SummaryRecord → SummaryRecord
  | .sources value => .sources (unsealedSources value)
  | .intent value => .intent (encodedIntent value)
  | .candidate value => .candidate (unsealedCandidate value)
  | .activation value => .activation (unsealedActivation value)

def recorded : SummaryRecord → Option ContentDigest
  | .sources value => value.sourceDigest
  | .intent value => value.intentDigest
  | .candidate value => value.candidateDigest
  | .activation value => value.activationDigest

/-- The record passes the validation of its kind; a candidate against some intent and parent. -/
def Valid : SummaryRecord → Prop
  | .sources value => validateConversationSummarySources value = .ok ()
  | .intent value => validateConversationSummaryIntent value = .ok ()
  | .candidate value =>
    ∃ intent previous, validateConversationSummaryCandidate value intent previous = .ok ()
  | .activation value => validateConversationSummaryActivation value = .ok ()

/-- The record comes out of the sealing of its kind. -/
def Sealed : SummaryRecord → Prop
  | .sources value => ∃ draft, sealConversationSummarySources draft = .ok value
  | .intent value => ∃ draft, sealConversationSummaryIntent draft = .ok value
  | .candidate value =>
    ∃ draft intent previous, sealConversationSummaryCandidate draft intent previous = .ok value
  | .activation value => ∃ draft candidate intent previous,
      sealConversationSummaryActivation draft candidate intent previous = .ok value

/-- The encodings that the seals within a record stand for. -/
def encodings : SummaryRecord → List Bytes
  | .intent value => (SummaryRecord.intent value).encoding.toList ++
      (SummaryRecord.sources value.sources).encoding.toList
  | record => record.encoding.toList

/-- The name that an encoding begins with. -/
def domain : SummaryRecord → String
  | .sources _ => "aiforge.summary-sources.v1"
  | .intent _ => "aiforge.summary-intent.v1"
  | .candidate _ => "aiforge.summary-candidate.v1"
  | .activation _ => "aiforge.summary-activation.v1"

variable {fields : List Bytes}

theorem fields_head {record : SummaryRecord}
    (h : record.fields = some fields) : fields.head? = some (bytesOf record.domain) := by
  cases record with
  | sources | candidate | activation =>
    cases h
    rfl
  | intent =>
    obtain ⟨_, -, rfl⟩ := map_eq_some_iff.1 h
    rfl

variable {first second : SummaryRecord}

theorem domain_eq (hf : first.fields = some fields) (hs : second.fields = some fields) :
    first.domain = second.domain := by
  have hhead := (fields_head hf).symm.trans (fields_head hs)
  exact bytesOf_injective (some.inj hhead)

theorem fields_inj (hf : first.fields = some fields) (hs : second.fields = some fields) :
    first.encoded = second.encoded := by
  have hdomain := domain_eq hf hs
  cases first with
  | sources =>
    cases second with
    | sources =>
      have h := some.inj (hf.trans hs.symm)
      exact congrArg SummaryRecord.sources (sourcesFields_inj h)
    | intent | candidate | activation => exact absurd hdomain (by simp [domain])
  | intent =>
    cases second with
    | intent =>
      obtain ⟨_, hsrc, rfl⟩ := map_eq_some_iff.1 hf
      obtain ⟨_, hsrc', h⟩ := map_eq_some_iff.1 hs
      exact congrArg SummaryRecord.intent (intentFields_inj hsrc hsrc' h.symm)
    | sources | candidate | activation => exact absurd hdomain (by simp [domain])
  | candidate =>
    cases second with
    | candidate =>
      have h := some.inj (hf.trans hs.symm)
      exact congrArg SummaryRecord.candidate (candidateFields_inj h)
    | sources | intent | activation => exact absurd hdomain (by simp [domain])
  | activation =>
    cases second with
    | activation =>
      have h := some.inj (hf.trans hs.symm)
      exact congrArg SummaryRecord.activation (activationFields_inj h)
    | sources | intent | candidate => exact absurd hdomain (by simp [domain])

theorem encoding_inj {bytes : Bytes}
    (hf : first.encoding = some bytes) (hs : second.encoding = some bytes) :
    first.encoded = second.encoded := by
  obtain ⟨_, hfld, rfl⟩ := map_eq_some_iff.1 hf
  obtain ⟨_, hfld', h⟩ := map_eq_some_iff.1 hs
  obtain rfl := canonical_inj h
  exact fields_inj hfld hfld'

end SummaryRecord

theorem checkSeal_sealOf {actual : Option ContentDigest} {fields : List Bytes}
    (h : checkSeal actual (sealOf fields) = .ok ()) :
    actual = some (contentDigest (canonical fields)) := by
  obtain ⟨_, hexp, h⟩ := bind_ok.1 h
  have h := ensure_ok.1 h
  rw [sealOf] at hexp
  split at hexp
  · cases hexp
    cases actual with
    | none => cases h
    | some =>
      simp only [any_some, Bool.and_eq_true, decide_eq_true_eq] at h
      rw [h.2]
  · cases hexp

theorem valid_sources {value : ConversationSummarySources}
    (h : validateConversationSummarySources value = .ok ()) :
    value.sourceDigest = some (contentDigest (canonical (sourcesFields value))) := by
  replace h := later h
  rw [encodeSources_eq] at h
  exact checkSeal_sealOf h

theorem intentShape_sources {value : ConversationSummaryIntent} (h : intentShape value = .ok ()) :
    validateConversationSummarySources value.sources = .ok () := by
  replace h := later h
  obtain ⟨_, hsrc, -⟩ := bind_ok.1 h
  exact hsrc

namespace SummaryRecord

theorem Valid.recorded {record : SummaryRecord} (h : record.Valid) :
    ∃ bytes, record.encoding = some bytes ∧ record.recorded = some (contentDigest bytes) := by
  cases record with
  | sources => exact ⟨_, rfl, valid_sources h⟩
  | intent =>
    obtain ⟨_, hshp, h⟩ := bind_ok.1 h
    have hsrc := valid_sources (intentShape_sources hshp)
    rw [encodeIntent_eq hsrc] at h
    refine ⟨_, ?_, checkSeal_sealOf h⟩
    rw [encoding, fields, hsrc]
    rfl
  | candidate =>
    obtain ⟨intent, _, h⟩ := h
    replace h := later h
    rw [encodeCandidate_eq] at h
    exact ⟨_, rfl, checkSeal_sealOf h⟩
  | activation =>
    replace h := later h
    rw [encodeActivation_eq] at h
    exact ⟨_, rfl, checkSeal_sealOf h⟩

theorem mem_encodings {record : SummaryRecord} {bytes : Bytes}
    (h : record.encoding = some bytes) : bytes ∈ record.encodings := by
  have hmem : bytes ∈ record.encoding.toList := by
    rw [h]
    exact mem_singleton_self _
  cases record with
  | intent => exact mem_append_left _ hmem
  | sources | candidate | activation => exact hmem

variable {first second : SummaryRecord}

theorem Valid.encoded_eq (hf : first.Valid) (hs : second.Valid)
    (h : first.recorded = second.recorded) (hfree : ∀ x ∈ first.encodings, ∀ y ∈ second.encodings,
      Sha256.digest x = Sha256.digest y → x = y) : first.encoded = second.encoded := by
  obtain ⟨_, hbs, hrec⟩ := hf.recorded
  obtain ⟨_, hbs', hrec'⟩ := hs.recorded
  have hdig := some.inj (hrec.symm.trans (h.trans hrec'))
  have hsame := hfree _ (mem_encodings hbs) _ (mem_encodings hbs')
    (congrArg ContentDigest.value hdig)
  subst hsame
  exact encoding_inj hbs hbs'

/-- The seal and what is encoded are together the whole record, save the sources of an intent. -/
theorem eq_of_encoded (he : first.encoded = second.encoded) (hr : first.recorded = second.recorded)
    (hsrc : ∀ f s, first = .intent f → second = .intent s → f.sources = s.sources) :
    first = second := by
  cases first with
  | sources first =>
    cases second with
    | sources second =>
      have hu := SummaryRecord.sources.inj he
      have hback : ∀ value, value = { unsealedSources value with
        sourceDigest := value.sourceDigest } := fun _ => rfl
      have hd : first.sourceDigest = second.sourceDigest := hr
      rw [hback first, hback second, hu, hd]
    | intent | candidate | activation => cases he
  | intent first =>
    cases second with
    | intent second =>
      have hu := SummaryRecord.intent.inj he
      have hback : ∀ value, value = { encodedIntent value with
        sources := value.sources, intentDigest := value.intentDigest } := fun _ => rfl
      have hd : first.intentDigest = second.intentDigest := hr
      rw [hback first, hback second, hu, hd, hsrc first second rfl rfl]
    | sources | candidate | activation => cases he
  | candidate first =>
    cases second with
    | candidate second =>
      have hu := SummaryRecord.candidate.inj he
      have hback : ∀ value, value = { unsealedCandidate value with
        candidateDigest := value.candidateDigest } := fun _ => rfl
      have hd : first.candidateDigest = second.candidateDigest := hr
      rw [hback first, hback second, hu, hd]
    | sources | intent | activation => cases he
  | activation first =>
    cases second with
    | activation second =>
      have hu := SummaryRecord.activation.inj he
      have hback : ∀ value, value = { unsealedActivation value with
        activationDigest := value.activationDigest } := fun _ => rfl
      have hd : first.activationDigest = second.activationDigest := hr
      rw [hback first, hback second, hu, hd]
    | sources | intent | candidate => cases he

theorem Valid.eq_of_recorded (hf : first.Valid) (hs : second.Valid)
    (h : first.recorded = second.recorded) (hfree : ∀ x ∈ first.encodings, ∀ y ∈ second.encodings,
      Sha256.digest x = Sha256.digest y → x = y) : first = second := by
  have henc := hf.encoded_eq hs h hfree
  refine eq_of_encoded henc h ?_
  rintro f s rfl rfl
  -- Both intents are valid with their sources, whose seals are equal because they are encoded.
  obtain ⟨_, hshp, -⟩ := bind_ok.1 hf
  obtain ⟨_, hshp', -⟩ := bind_ok.1 hs
  have hval : (SummaryRecord.sources f.sources).Valid := intentShape_sources hshp
  have hval' : (SummaryRecord.sources s.sources).Valid := intentShape_sources hshp'
  have hseal : f.sources.sourceDigest = s.sources.sourceDigest := by
    have hi := SummaryRecord.intent.inj henc
    exact congrArg (fun value => value.sources.sourceDigest) hi
  have hsrc : SummaryRecord.sources f.sources = .sources s.sources := by
    refine eq_of_encoded (hval.encoded_eq hval' hseal ?_) hseal nofun
    intro x hx y hy
    exact hfree x (mem_append_right _ hx) y (mem_append_right _ hy)
  exact SummaryRecord.sources.inj hsrc

end SummaryRecord

theorem checkSeal_of_sealOf {fields : List Bytes} {digest : ContentDigest} (hne : fields ≠ [])
    (h : sealOf fields = .ok digest) : checkSeal (some digest) (sealOf fields) = .ok () := by
  refine bind_ok.2 ⟨digest, h, ensure_ok.2 ?_⟩
  rw [sealOf] at h
  split at h
  · rename_i hle
    cases h
    have hval := validDigest_contentDigest (canonical_pos hne) hle
    rw [any_some, digestShape, hval]
    simp
  · cases h

namespace SummaryRecord

theorem Sealed.valid {record : SummaryRecord} (h : record.Sealed) : record.Valid := by
  cases record with
  | sources =>
    obtain ⟨draft, h⟩ := h
    obtain ⟨_, hshp, h⟩ := bind_ok.1 h
    obtain ⟨digest, hdig, h⟩ := bind_ok.1 h
    cases h
    rw [encodeSources_eq] at hdig
    refine bind_ok.2 ⟨(), hshp, ?_⟩
    rw [encodeSources_eq]
    exact checkSeal_of_sealOf (by simp [sourcesFields]) hdig
  | intent =>
    obtain ⟨draft, h⟩ := h
    obtain ⟨_, hshp, h⟩ := bind_ok.1 h
    obtain ⟨digest, hdig, h⟩ := bind_ok.1 h
    cases h
    have hsrc := valid_sources (intentShape_sources hshp)
    rw [encodeIntent_eq hsrc] at hdig
    have henc : encodeIntent { draft with intentDigest := some digest } =
        sealOf (intentFields draft _) := encodeIntent_eq hsrc
    refine bind_ok.2 ⟨(), hshp, ?_⟩
    rw [henc]
    exact checkSeal_of_sealOf (by simp [intentFields]) hdig
  | candidate =>
    obtain ⟨draft, intent, previous, h⟩ := h
    obtain ⟨_, hlink, h⟩ := bind_ok.1 h
    obtain ⟨digest, hdig, h⟩ := bind_ok.1 h
    cases h
    rw [encodeCandidate_eq] at hdig
    refine ⟨intent, previous, bind_ok.2 ⟨(), hlink, ?_⟩⟩
    rw [encodeCandidate_eq]
    exact checkSeal_of_sealOf (by simp [candidateFields]) hdig
  | activation =>
    obtain ⟨draft, candidate, intent, previous, h⟩ := h
    obtain ⟨_, hlink, h⟩ := bind_ok.1 h
    obtain ⟨digest, hdig, h⟩ := bind_ok.1 h
    cases h
    replace hlink := later hlink
    obtain ⟨_, hshp, -⟩ := bind_ok.1 hlink
    rw [encodeActivation_eq] at hdig
    refine bind_ok.2 ⟨(), hshp, ?_⟩
    rw [encodeActivation_eq]
    exact checkSeal_of_sealOf (by simp [activationFields]) hdig

end SummaryRecord

/-- Records of any kinds with the same encoding are of one kind and agree in all that is encoded.
What is sealed is valid, and no other valid record of any kind carries its seal, as long as
SHA-256 keeps the encodings of the two records apart. -/
theorem summary_seals_injective :
    (∀ (first second : SummaryRecord) (bytes : Bytes), first.encoding = some bytes →
      second.encoding = some bytes → first.encoded = second.encoded) ∧
    (∀ record : SummaryRecord, record.Sealed → record.Valid) ∧
    (∀ record other : SummaryRecord, record.Sealed → other.Valid →
      other.recorded = record.recorded → (∀ x ∈ other.encodings, ∀ y ∈ record.encodings,
        Sha256.digest x = Sha256.digest y → x = y) → other = record) := by
  refine ⟨?_, ?_, ?_⟩
  · intro first second bytes hf hs
    exact SummaryRecord.encoding_inj hf hs
  · intro record h
    exact h.valid
  · intro record other h ho hr hfree
    exact ho.eq_of_recorded h.valid hr hfree

def sampleSources : ConversationSummarySources where
  sessionId := "session"
  snapshotSequence := 9
  groups := [⟨"run", "terminal", 8, [⟨"event", 5, "entry", "message", ⟨"source", none, none⟩, 4, 30,
    .conversation, sampleDigest 12⟩]⟩]
  sourceDigest := none

def sealedSources : ConversationSummarySources :=
  { sampleSources with
    sourceDigest := some (contentDigest (canonical (sourcesFields sampleSources))) }

/-- Sealed sources with a later snapshot written into them are not valid. -/
theorem moved_snapshot_invalid : (SummaryRecord.sources sealedSources).Valid ∧
    ¬ (SummaryRecord.sources { sealedSources with snapshotSequence := 10 }).Valid := by
  have hsealed : (SummaryRecord.sources sealedSources).Sealed := by
    refine ⟨sampleSources, bind_ok.2 ⟨(), by decide +kernel, ?_⟩⟩
    refine bind_ok.2 ⟨contentDigest (canonical (sourcesFields sampleSources)), ?_, rfl⟩
    rw [encodeSources_eq, sealOf, if_pos (by decide +kernel)]
  refine ⟨summary_seals_injective.2.1 _ hsealed, ?_⟩
  intro hvalid
  have hsame := summary_seals_injective.2.2 _ _ hsealed hvalid rfl (by decide +kernel)
  exact absurd hsame (by decide)

end SummarySeals
