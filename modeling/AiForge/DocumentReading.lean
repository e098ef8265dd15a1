import AiForge.DocumentShape

/-! # Reading a conversation document back

Each reader returns what its writer was given, as long as the types hold: identifiers are valid
and numbers have 64 bits. With the shape of the document, which the seal guarantees, a sealed
admission is read back as it was. -/
namespace ConversationDocument

open Admission hiding Result
open Content SafeText Json PayloadCodec Staged

@[simp] theorem getText_text (value : String) : getText (.text (bytesOf value)) = .ok value := by
  rw [getText, fromUTF8_bytesOf]

theorem parseId_idText {id : String} (h : SessionStore.validId id) :
    parseId (idText id) = .ok id := by
  simp only [parseId, idText, fromUTF8_bytesOf, h, if_true]

theorem parseOptionalId_json {id : Option String}
    (h : ∀ value ∈ id, SessionStore.validId value) :
    parseOptionalId (optionalIdJson id) = .ok id := by
  cases id with
  | none => rfl
  | some value =>
    have hread := parseId_idText (h value rfl)
    simp only [optionalIdJson, Option.map_some, Option.getD_some, parseOptionalId, hread]
    rfl

theorem getU64_numberJson {value : ℕ} (h : value < 2 ^ 64) :
    getU64 (numberJson value) = .ok value := by
  have hmod : ((value : ℤ) % 2 ^ 64).toNat = value := by omega
  rw [numberJson, getU64, hmod]

theorem parseOptionalBytes_json (value : Option Bytes) :
    parseOptionalBytes (optionalBytesJson value) = .ok value := by
  cases value <;> rfl

theorem parseConversationMode_text (mode : ConversationMode) :
    parseConversationMode (.text (bytesOf (conversationModeName mode))) = .ok mode := by
  cases mode <;> decide +kernel

theorem parseConversationKind_text {kind : ContextContentKind} {name : String}
    (h : conversationKindName kind = .ok name) :
    parseConversationKind (.text (bytesOf name)) = .ok kind := by
  cases kind with
  | conversation | toolResult =>
    cases h
    decide +kernel
  | evidence | unknown => cases h

theorem conversationVersion_numberJson {value : ℕ} (h : value < 2 ^ 32) :
    conversationVersion (numberJson value) = .ok value := by
  have hrange : 0 ≤ (value : ℤ) ∧ (value : ℤ) ≤ 2 ^ 32 - 1 := by omega
  rw [numberJson, conversationVersion, if_pos hrange, Int.toNat_natCast]

theorem require_named {members : List (Bytes × Json)} {names : List String}
    (hn : Named members names) : requireConversationFields (obj members) names = .ok () :=
  (requireConversationFields_obj hn).2 ⟨rfl, fun _ h => h⟩

section Digest

variable (digest : ContentDigest)

theorem digestMembers_named : Named (digestMembers digest) digestFieldNames :=
  ⟨rfl, by decide⟩

theorem require_digest : requireConversationFields (digestJson digest) digestFieldNames = .ok () :=
  require_named (digestMembers_named digest)

variable {digest}

theorem parseDigest_digestJson (h : digest.byteSize < 2 ^ 64) :
    parseDigest (digestJson digest) = .ok digest := by
  have hn := digestMembers_named digest
  have halg := field_obj hn "algorithm" (.text (bytesOf digest.algorithm))
    (by simp [digestMembers])
  have hval := field_obj hn "value" (.text (bytesOf digest.value)) (by simp [digestMembers])
  have hsize := field_obj hn "byte_size" (numberJson digest.byteSize) (by simp [digestMembers])
  simp only [parseDigest, digestJson, halg, hval, hsize, ok_bind, getText_text,
    getU64_numberJson h]
  rfl

end Digest

theorem parseOptionalDigest_json {digest : Option ContentDigest}
    (h : ∀ value ∈ digest, value.byteSize < 2 ^ 64) :
    parseOptionalDigest (optionalDigestJson digest) = .ok digest := by
  cases digest with
  | none => rfl
  | some value =>
    have hread := parseDigest_digestJson (h value rfl)
    have hnull : (digestJson value).isNull = false := rfl
    simp only [optionalDigestJson, Option.map_some, Option.getD_some, parseOptionalDigest, hnull,
      Bool.false_eq_true, if_false, hread]
    rfl

theorem provenanceMembers_named (value : ContextProvenance) :
    Named (provenanceMembers value) provenanceFieldNames := ⟨rfl, by decide⟩

theorem require_provenance (value : ContextProvenance) :
    requireConversationFields (provenanceJson value) provenanceFieldNames = .ok () :=
  require_named (provenanceMembers_named value)

theorem parseProvenance_json {value : ContextProvenance} (h : TypedProvenance value) :
    parseProvenance (provenanceJson value) = .ok value := by
  have hn := provenanceMembers_named value
  have hsrc := field_obj hn "source_id" (idText value.sourceId) (by simp [provenanceMembers])
  have hloc := field_obj hn "source_location" (optionalBytesJson value.sourceLocation)
    (by simp [provenanceMembers])
  have hdig := field_obj hn "digest" (optionalBytesJson value.digest)
    (by simp [provenanceMembers])
  simp only [parseProvenance, provenanceJson, hsrc, hloc, hdig, ok_bind,
    parseId_idText h.sourceId, parseOptionalBytes_json]
  rfl

theorem entryMembers_named (entry : ConversationAdmittedEntry) (kind : String) :
    Named (entryMembers entry kind) entryFieldNames := ⟨rfl, by decide⟩

variable {document : Json}

theorem checkEntryFields_json {entry : ConversationAdmittedEntry}
    (h : entryJson entry = .ok document) : checkEntryFields document = .ok () := by
  obtain ⟨kind, -, h⟩ := bind_ok.1 h
  cases h
  have hn := entryMembers_named entry kind
  have hprov := field_obj hn "provenance" (provenanceJson entry.provenance)
    (by simp [entryMembers])
  have hdig := field_obj hn "message_digest" (digestJson entry.messageDigest)
    (by simp [entryMembers])
  simp only [checkEntryFields, require_named hn, hprov, hdig, ok_bind,
    require_provenance, require_digest]

theorem parseEntry_json {entry : ConversationAdmittedEntry}
    (hgood : GoodEntry entry) (htyp : TypedEntry entry) (h : entryJson entry = .ok document) :
    parseEntry document = .ok entry := by
  obtain ⟨kind, hkind, h⟩ := bind_ok.1 h
  cases h
  have hn := entryMembers_named entry kind
  have hev := field_obj hn "completed_event_id" (idText entry.completedEventId)
    (by simp [entryMembers])
  have hseq := field_obj hn "event_sequence" (numberJson entry.eventSequence)
    (by simp [entryMembers])
  have hent := field_obj hn "entry_id" (idText entry.entryId) (by simp [entryMembers])
  have hmsg := field_obj hn "message_id" (idText entry.messageId) (by simp [entryMembers])
  have hprov := field_obj hn "provenance" (provenanceJson entry.provenance)
    (by simp [entryMembers])
  have hord := field_obj hn "order" (numberJson entry.order) (by simp [entryMembers])
  have htok := field_obj hn "estimated_tokens" (numberJson entry.estimatedTokens)
    (by simp [entryMembers])
  have hname := field_obj hn "kind" (.text (bytesOf kind)) (by simp [entryMembers])
  have hdig := field_obj hn "message_digest" (digestJson entry.messageDigest)
    (by simp [entryMembers])
  simp only [parseEntry, hev, hseq, hent, hmsg, hprov, hord, htok, hname,
    hdig, ok_bind, parseId_idText htyp.completedEventId, parseId_idText htyp.entryId,
    parseId_idText htyp.messageId, getU64_numberJson htyp.eventSequence,
    getU64_numberJson htyp.order, getU64_numberJson htyp.estimatedTokens,
    parseProvenance_json htyp.provenance, parseConversationKind_text hkind,
    parseDigest_digestJson hgood.messageDigest.byteSize]
  rfl

variable {documents : List Json}

theorem mapM_forall {α : Type} {write : α → Result Json} {p : Json → Prop} {xs : List α}
    (h : xs.mapM write = .ok documents)
    (hp : ∀ x document, write x = .ok document → p document) : ∀ document ∈ documents, p document := by
  have hwrit := mapM_eq_ok.1 h
  exact forall_of_forall₂ (hwrit.imp fun x document hx => hp x document hx)

section Group

variable {group : ConversationAdmittedGroup} {document : Json}

theorem groupMembers_named (group : ConversationAdmittedGroup) (entries : List Json) :
    Named (groupMembers group entries) groupFieldNames := ⟨rfl, by decide⟩

theorem checkGroupFields_json (h : groupJson group = .ok document) {remaining : ℕ}
    (hle : group.entries.length ≤ remaining) :
    checkGroupFields remaining document = .ok (remaining - group.entries.length) := by
  obtain ⟨entries, hents, h⟩ := bind_ok.1 h
  cases h
  have hn := groupMembers_named group entries
  have hpin := field_obj hn "pinned" (.boolean group.pinned) (by simp [groupMembers])
  have harray := field_obj hn "entries" (.array entries) (by simp [groupMembers])
  have hlen : (Json.array entries).size = group.entries.length :=
    (mapM_eq_ok.1 hents).length_eq.symm
  simp only [checkGroupFields, require_named hn, hpin, harray, ok_bind, hlen]
  refine ensured rfl ?_
  exact ensured ⟨rfl, hle⟩ rfl

theorem checkEntries_json (h : groupJson group = .ok document) :
    (field document "entries" >>= fun entries => (itemsOf entries).forM checkEntryFields) =
      .ok () := by
  obtain ⟨entries, hents, h⟩ := bind_ok.1 h
  cases h
  have harray := field_obj (groupMembers_named group entries) "entries" (.array entries)
    (by simp [groupMembers])
  rw [harray, ok_bind]
  exact forM_ok.2 (mapM_forall hents fun _ _ hent => checkEntryFields_json hent)

theorem parseGroup_json (hgood : ∀ entry ∈ group.entries, GoodEntry entry)
    (htyp : TypedGroup group) (h : groupJson group = .ok document) :
    parseGroup document = .ok group := by
  obtain ⟨entries, hents, h⟩ := bind_ok.1 h
  cases h
  have hn := groupMembers_named group entries
  have hrun := field_obj hn "run_id" (idText group.runId) (by simp [groupMembers])
  have hpin := field_obj hn "pinned" (.boolean group.pinned) (by simp [groupMembers])
  have harray := field_obj hn "entries" (.array entries) (by simp [groupMembers])
  have hread : (itemsOf (.array entries)).mapM parseEntry = .ok group.entries :=
    mapM_reads hents fun entry hent _ hwrit =>
      parseEntry_json (hgood entry hent) (htyp.entries entry hent) hwrit
  have hbool : getBool (.boolean group.pinned) = .ok group.pinned := rfl
  simp only [parseGroup, hrun, hpin, harray, ok_bind, parseId_idText htyp.runId, hbool, hread]
  rfl

end Group

theorem foldlM_checkGroupFields {groups : List ConversationAdmittedGroup}
    (h : List.Forall₂ (fun group document => groupJson group = .ok document) groups documents)
    {remaining : ℕ}
    (hle : (groups.map fun group => group.entries.length).sum ≤ remaining) :
    ∃ left, documents.foldlM checkGroupFields remaining = .ok left := by
  induction h generalizing remaining with
  | nil => exact ⟨remaining, rfl⟩
  | @cons group document groups documents hfst _ ih =>
    rw [List.map_cons, List.sum_cons] at hle
    have hgrp : group.entries.length ≤ remaining := by omega
    have hchk := checkGroupFields_json hfst hgrp
    have hrest : (groups.map fun group => group.entries.length).sum ≤
        remaining - group.entries.length := by omega
    obtain ⟨left, hrest⟩ := ih hrest
    exact ⟨left, foldlM_cons_ok.2 ⟨_, hchk, hrest⟩⟩

section Summary

variable {summary : ConversationAdmittedSummary}

theorem candidateMembers_named (value : ConversationSummaryVersion) :
    Named (candidateMembers value) candidateFieldNames := ⟨rfl, by decide⟩

theorem summaryMembers_named (summary : ConversationAdmittedSummary) :
    Named (summaryMembers summary) summaryFieldNames := ⟨rfl, by decide⟩

theorem checkAdmittedSummaryFields_json (summary : ConversationAdmittedSummary) :
    checkAdmittedSummaryFields (admittedSummaryJson summary) = .ok () := by
  have hn := summaryMembers_named summary
  have hc := candidateMembers_named summary.candidate
  have hcand := field_obj hn "candidate" (obj (candidateMembers summary.candidate))
    (by simp [summaryMembers])
  have hinner := field_obj hc "candidate_digest" (digestJson summary.candidate.candidateDigest)
    (by simp [candidateMembers])
  have hprov := field_obj hn "provenance" (provenanceJson summary.provenance)
    (by simp [summaryMembers])
  have hdig := field_obj hn "message_digest" (digestJson summary.messageDigest)
    (by simp [summaryMembers])
  simp only [checkAdmittedSummaryFields, admittedSummaryJson, require_named hn, require_named hc,
    hcand, hinner, hprov, hdig, ok_bind, require_provenance, require_digest]

theorem parseAdmittedSummary_json (hgood : GoodSummary summary) (htyp : TypedSummary summary) :
    parseAdmittedSummary (admittedSummaryJson summary) = .ok summary := by
  have hn := summaryMembers_named summary
  have hc := candidateMembers_named summary.candidate
  have hcand := field_obj hn "candidate" (obj (candidateMembers summary.candidate))
    (by simp [summaryMembers])
  have hid := field_obj hc "summary_id" (idText summary.candidate.summaryId)
    (by simp [candidateMembers])
  have hrev := field_obj hc "revision" (numberJson summary.candidate.revision)
    (by simp [candidateMembers])
  have hinner := field_obj hc "candidate_digest" (digestJson summary.candidate.candidateDigest)
    (by simp [candidateMembers])
  have hread : parseCandidate (obj (candidateMembers summary.candidate)) =
      .ok summary.candidate := by
    simp only [parseCandidate, hid, hrev, hinner, ok_bind, parseId_idText htyp.summaryId,
      getU64_numberJson htyp.revision,
      parseDigest_digestJson hgood.candidateDigest.byteSize]
    rfl
  have hev := field_obj hn "activation_event_id" (idText summary.activationEventId)
    (by simp [summaryMembers])
  have hseq := field_obj hn "activation_sequence" (numberJson summary.activationSequence)
    (by simp [summaryMembers])
  have hanchor := field_obj hn "source_anchor_sequence"
    (numberJson summary.sourceAnchorSequence) (by simp [summaryMembers])
  have hent := field_obj hn "entry_id" (idText summary.entryId) (by simp [summaryMembers])
  have hmsg := field_obj hn "message_id" (idText summary.messageId) (by simp [summaryMembers])
  have hprov := field_obj hn "provenance" (provenanceJson summary.provenance)
    (by simp [summaryMembers])
  have hord := field_obj hn "order" (numberJson summary.order) (by simp [summaryMembers])
  have htok := field_obj hn "estimated_tokens" (numberJson summary.estimatedTokens)
    (by simp [summaryMembers])
  have hdig := field_obj hn "message_digest" (digestJson summary.messageDigest)
    (by simp [summaryMembers])
  simp only [parseAdmittedSummary, admittedSummaryJson, hcand, hread, hev, hseq,
    hanchor, hent, hmsg, hprov, hord, htok, hdig, ok_bind,
    parseId_idText htyp.activationEventId, parseId_idText htyp.entryId,
    parseId_idText htyp.messageId, getU64_numberJson htyp.activationSequence,
    getU64_numberJson htyp.sourceAnchorSequence, getU64_numberJson htyp.order,
    getU64_numberJson htyp.estimatedTokens, parseProvenance_json htyp.provenance,
    parseDigest_digestJson hgood.messageDigest.byteSize]
  rfl

end Summary

section Admission

variable {admission : ConversationAdmission} {digest : ContentDigest} {groups : List Json}

def documentNames (admission : ConversationAdmission) : List String :=
  admissionFieldNames ++ if admission.version = 2 then ["summaries"] else []

theorem admissionMembers_named (admission : ConversationAdmission) (digest : ContentDigest)
    (groups : List Json) :
    Named (admissionMembers admission digest groups ++ summaryMember admission)
      (documentNames admission) := by
  unfold summaryMember documentNames
  split
  · exact ⟨rfl, by decide⟩
  · exact ⟨rfl, by decide⟩

theorem capacityMembers_named (capacity : ContextCapacity) :
    Named (capacityMembers capacity) capacityFieldNames := ⟨rfl, by decide⟩

theorem parseCapacity_json {capacity : ContextCapacity} (h : TypedCapacity capacity) :
    parseCapacity (obj (capacityMembers capacity)) = .ok capacity := by
  have hn := capacityMembers_named capacity
  have hwindow := field_obj hn "context_window_tokens" (numberJson capacity.contextWindowTokens)
    (by simp [capacityMembers])
  have hout := field_obj hn "reserved_output_tokens" (numberJson capacity.reservedOutputTokens)
    (by simp [capacityMembers])
  have hinp := field_obj hn "reserved_input_tokens" (numberJson capacity.reservedInputTokens)
    (by simp [capacityMembers])
  simp only [parseCapacity, hwindow, hout, hinp, ok_bind,
    getU64_numberJson h.contextWindowTokens, getU64_numberJson h.reservedOutputTokens,
    getU64_numberJson h.reservedInputTokens]
  rfl

theorem checkConversationGroupFields_json (hgood : GoodAdmission admission)
    (hgrp : admission.groups.mapM groupJson = .ok groups) :
    checkConversationGroupFields (.array groups) = .ok () := by
  have hwrit := mapM_eq_ok.1 hgrp
  have hlen : (Json.array groups).size = admission.groups.length := hwrit.length_eq.symm
  obtain ⟨left, hcnt⟩ := foldlM_checkGroupFields hwrit hgood.entryCount
  refine ensured ⟨rfl, hlen.trans_le hgood.groupCount⟩ ?_
  refine bind_ok.2 ⟨left, hcnt, ?_⟩
  exact forM_ok.2 (mapM_forall hgrp fun _ _ hgroup => checkEntries_json hgroup)

theorem field_summaries (htwo : admission.version = 2) :
    field (obj (admissionMembers admission digest groups ++ summaryMember admission)) "summaries" =
      .ok (.array (admission.summaries.map admittedSummaryJson)) := by
  refine field_obj (admissionMembers_named admission digest groups) "summaries" _ ?_
  rw [summaryMember, if_pos htwo]
  exact List.mem_append_right _ (List.mem_singleton.2 rfl)

theorem checkVersionFields_json (hgood : GoodAdmission admission) :
    checkVersionFields (obj (admissionMembers admission digest groups ++ summaryMember admission))
      admission.version = .ok () := by
  have hn := admissionMembers_named admission digest groups
  unfold checkVersionFields
  rcases hgood.version with ⟨hone, -⟩ | htwo
  · have hnms : documentNames admission = admissionFieldNames := by
      rw [documentNames, if_neg (by omega), List.append_nil]
    rw [if_pos hone, ← hnms]
    exact require_named hn
  · have hnms : documentNames admission = admissionFieldNames ++ ["summaries"] := by
      rw [documentNames, if_pos htwo]
    rw [if_neg (by omega), ← hnms, require_named hn, ok_bind, field_summaries htwo, ok_bind]
    refine ensured ⟨rfl, ?_⟩ ?_
    · exact (List.length_map _).trans_le hgood.summaryCount
    · refine forM_ok.2 ?_
      intro document hdoc
      obtain ⟨summary, -, rfl⟩ := List.mem_map.1 hdoc
      exact checkAdmittedSummaryFields_json summary

theorem checkConversationAdmissionFields_json (hgood : GoodAdmission admission)
    (hgrp : admission.groups.mapM groupJson = .ok groups) : checkConversationAdmissionFields
      (obj (admissionMembers admission digest groups ++ summaryMember admission))
      admission.version = .ok () := by
  have hn := admissionMembers_named admission digest groups
  have hcap := field_obj hn "capacity" (obj (capacityMembers admission.capacity))
    (by simp [admissionMembers])
  have hdig := field_obj hn "admission_digest" (digestJson digest) (by simp [admissionMembers])
  have homit := field_obj hn "omitted_groups_digest"
    (optionalDigestJson admission.omittedGroupsDigest) (by simp [admissionMembers])
  have harray := field_obj hn "groups" (.array groups) (by simp [admissionMembers])
  have hnull : onlyIf (¬ (optionalDigestJson admission.omittedGroupsDigest).isNull)
      (requireConversationFields (optionalDigestJson admission.omittedGroupsDigest)
        digestFieldNames) = .ok () := by
    unfold onlyIf
    cases admission.omittedGroupsDigest with
    | none => rfl
    | some value =>
      have hpresent : ¬ (optionalDigestJson (some value)).isNull := Bool.false_ne_true
      rw [if_pos hpresent]
      exact require_digest value
  have hver : admission.version = 1 ∨ admission.version = 2 :=
    hgood.version.imp And.left id
  refine ensured hver ?_
  rw [checkVersionFields_json hgood, ok_bind, hcap, ok_bind,
    require_named (capacityMembers_named _), ok_bind, hdig, ok_bind,
    require_digest, ok_bind, homit, ok_bind, hnull, ok_bind, harray, ok_bind]
  exact checkConversationGroupFields_json hgood hgrp

theorem parseSummaries_json (hgood : GoodAdmission admission) (htyp : Typed admission) :
    parseSummaries (obj (admissionMembers admission digest groups ++ summaryMember admission))
      admission.version = .ok admission.summaries := by
  unfold parseSummaries
  rcases hgood.version with ⟨_, hnil⟩ | htwo
  · rw [if_neg (by omega), hnil]
  · rw [if_pos htwo, field_summaries htwo, ok_bind, itemsOf, Json.children, mapM_eq_ok,
      List.forall₂_map_left_iff, List.forall₂_same]
    intro summary hsum
    exact parseAdmittedSummary_json (hgood.summaries summary hsum)
      (htyp.summaries summary hsum)

/-- What the writer made of a sealed admission is read as that admission. -/
theorem parse_of_sealed (htyp : Typed admission)
    (h : conversationAdmissionJson admission = .ok document) :
    parseConversationAdmission document = .ok admission := by
  have hshp := shape_of_sealed htyp h
  have hwrit := h
  obtain ⟨hval, h⟩ := guarded h
  obtain ⟨digest, hdig, h⟩ := bind_ok.1 h
  obtain ⟨groups, hgrp, h⟩ := bind_ok.1 h
  cases h
  obtain ⟨hok, hle, hsealed⟩ := validate_eq_ok.1 hval
  have hgood := admission_good hok
  rw [require_ok] at hdig
  have hsh : ShortDigest digest := by
    rw [hsealed] at hdig
    cases hdig
    exact shortDigest_of_valid (validDigest_contentDigest (encoding_pos admission) hle) (by decide)
  have hn := admissionMembers_named admission digest groups
  have hver := field_obj hn "version" (numberJson admission.version)
    (by simp [admissionMembers])
  have hest := field_obj hn "estimator_version" (numberJson admission.estimatorVersion)
    (by simp [admissionMembers])
  have hsess := field_obj hn "session_id" (idText admission.sessionId)
    (by simp [admissionMembers])
  have hmodel := field_obj hn "model_id" (idText admission.modelId) (by simp [admissionMembers])
  have hsnap := field_obj hn "source_snapshot_sequence"
    (numberJson admission.sourceSnapshotSequence) (by simp [admissionMembers])
  have hpol := field_obj hn "policy_event_id" (optionalIdJson admission.policyEventId)
    (by simp [admissionMembers])
  have hrev := field_obj hn "policy_revision" (numberJson admission.policyRevision)
    (by simp [admissionMembers])
  have hmode := field_obj hn "mode" (.text (bytesOf (conversationModeName admission.mode)))
    (by simp [admissionMembers])
  have hcap := field_obj hn "capacity" (obj (capacityMembers admission.capacity))
    (by simp [admissionMembers])
  have hmand := field_obj hn "mandatory_input_tokens"
    (numberJson admission.mandatoryInputTokens) (by simp [admissionMembers])
  have harray := field_obj hn "groups" (.array groups) (by simp [admissionMembers])
  have hcnt := field_obj hn "omitted_group_count" (numberJson admission.omittedGroupCount)
    (by simp [admissionMembers])
  have homit := field_obj hn "omitted_groups_digest"
    (optionalDigestJson admission.omittedGroupsDigest) (by simp [admissionMembers])
  have hseal := field_obj hn "admission_digest" (digestJson digest) (by simp [admissionMembers])
  have hversions : admission.version < 2 ^ 32 ∧ admission.estimatorVersion < 2 ^ 32 := by
    have hone := hgood.estimatorVersion
    rcases hgood.version with ⟨hver, -⟩ | hver <;> omega
  have hread : (itemsOf (.array groups)).mapM parseGroup = .ok admission.groups :=
    mapM_reads hgrp fun group hgroup _ hwrit =>
      parseGroup_json (hgood.entries group hgroup) (htyp.groups group hgroup) hwrit
  have hres : ({ admission with admissionDigest := some digest } : ConversationAdmission) =
      admission := by
    rw [← hdig]
  unfold parseConversationAdmission
  simp only [hshp, hver, hest, hsess, hmodel, hsnap, hpol, hrev, hmode,
    hcap, hmand, harray, hcnt, homit, hseal, ok_bind,
    conversationVersion_numberJson hversions.1, conversationVersion_numberJson hversions.2,
    checkConversationAdmissionFields_json hgood hgrp, parseId_idText htyp.sessionId,
    parseId_idText htyp.modelId, getU64_numberJson htyp.sourceSnapshotSequence,
    parseOptionalId_json htyp.policyEventId, getU64_numberJson htyp.policyRevision,
    parseConversationMode_text, parseCapacity_json htyp.capacity,
    getU64_numberJson htyp.mandatoryInputTokens, getU64_numberJson htyp.omittedGroupCount,
    parseOptionalDigest_json fun value hvalue => (hgood.omittedGroupsDigest value hvalue).byteSize,
    parseDigest_digestJson hsh.byteSize, hread, parseSummaries_json hgood htyp, hres,
    hwrit]
  exact ensured trivial rfl

end Admission

/-- A valid admission can be written: the kinds of its entries have names. -/
theorem written_of_valid {admission : ConversationAdmission}
    (h : validateConversationAdmission admission = .ok ()) :
    ∃ document, conversationAdmissionJson admission = .ok document := by
  obtain ⟨hshp, -, hseal⟩ := validate_eq_ok.1 h
  have hgood := admission_good hshp
  have hent : ∀ entry, GoodEntry entry → ∃ document, entryJson entry = .ok document := by
    intro entry hent
    rcases hent.kind with hkind | hkind
    · exact ⟨_, bind_ok.2 ⟨"conversation", by rw [hkind]; rfl, rfl⟩⟩
    · exact ⟨_, bind_ok.2 ⟨"tool_result", by rw [hkind]; rfl, rfl⟩⟩
  have hgroup : ∀ group ∈ admission.groups, ∃ document, groupJson group = .ok document := by
    intro group hgroup
    obtain ⟨entries, hents⟩ := exists_mapM fun entry hmem =>
      hent entry (hgood.entries group hgroup entry hmem)
    exact ⟨_, bind_ok.2 ⟨entries, hents, rfl⟩⟩
  obtain ⟨groups, hgrp⟩ := exists_mapM hgroup
  refine ⟨obj (admissionMembers admission (Sealing.contentDigest (encoding admission)) groups ++
    summaryMember admission), ensured h ?_⟩
  exact bind_ok.2 ⟨_, require_ok.2 hseal, bind_ok.2 ⟨groups, hgrp, rfl⟩⟩

/-- The reader takes only what the writer makes of the admission that it returns. -/
theorem written_of_parsed {admission : ConversationAdmission}
    (h : parseConversationAdmission document = .ok admission) :
    conversationAdmissionJson admission = .ok document := by
  -- Only the comparison at the end counts.
  iterate 19 obtain ⟨_, -, h⟩ := bind_ok.1 h
  obtain ⟨_, hwrit, h⟩ := bind_ok.1 h
  obtain ⟨hsame, hres⟩ := guarded h
  cases hres
  rw [hwrit, hsame]

/-- Every sealed admission is written to a document within all bounds of the reader, which
returns exactly that admission, and every document that the reader takes is written back as it
was. -/
theorem admission_documents_canonical : (∀ admission : ConversationAdmission, Typed admission →
      validateConversationAdmission admission = .ok () →
      ∃ document, conversationAdmissionJson admission = .ok document ∧
        checkConversationShape document = .ok () ∧
        parseConversationAdmission document = .ok admission) ∧
    (∀ (document : Json) (admission : ConversationAdmission),
      parseConversationAdmission document = .ok admission →
      conversationAdmissionJson admission = .ok document) := by
  constructor
  · intro admission htyped hvalid
    obtain ⟨document, hwritten⟩ := written_of_valid hvalid
    exact ⟨document, hwritten, shape_of_sealed htyped hwritten, parse_of_sealed htyped hwritten⟩
  · intro document admission hparsed
    exact written_of_parsed hparsed

theorem sampleSealed_typed : Typed sampleSealed where
  sessionId := by decide +kernel
  modelId := by decide +kernel
  sourceSnapshotSequence := by decide +kernel
  policyEventId := by decide +kernel
  policyRevision := by decide +kernel
  capacity := ⟨by decide +kernel, by decide +kernel, by decide +kernel⟩
  mandatoryInputTokens := by decide +kernel
  groups := by
    refine List.forall_mem_singleton.2 ⟨by decide +kernel, List.forall_mem_singleton.2 ?_⟩
    exact ⟨by decide +kernel, by decide +kernel, by decide +kernel, by decide +kernel,
      ⟨by decide +kernel⟩, by decide +kernel, by decide +kernel⟩
  omittedGroupCount := by decide +kernel
  summaries := by
    refine List.forall_mem_singleton.2 ?_
    exact ⟨by decide +kernel, by decide +kernel, by decide +kernel, by decide +kernel,
      by decide +kernel, by decide +kernel, by decide +kernel, ⟨by decide +kernel⟩,
      by decide +kernel, by decide +kernel⟩

theorem sample_document_canonical : ∃ document,
    conversationAdmissionJson sampleSealed = .ok document ∧
      checkConversationShape document = .ok () ∧
      parseConversationAdmission document = .ok sampleSealed := by
  have hvalid : validateConversationAdmission sampleSealed = .ok () :=
    validate_eq_ok.2 ⟨by decide +kernel, by decide +kernel, rfl⟩
  obtain ⟨document, -, hshape, hparsed⟩ :=
    admission_documents_canonical.1 sampleSealed sampleSealed_typed hvalid
  exact ⟨document, admission_documents_canonical.2 document sampleSealed hparsed, hshape, hparsed⟩

end ConversationDocument
