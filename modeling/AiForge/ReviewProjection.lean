import AiForge.ReviewReceipt

/-! # Review receipt projection

An accepted stream drafts its receipt once. `Ledger` compares what the projection holds with
the events themselves: a finding is open, a verdict or an override active, exactly when the
stream has the event that recorded it and none that withdrew it. -/
namespace ReviewProjection

open Content EventProjection Events KeyedList List ReviewReceipt Revocable Staged

structure ProjectedReviewFinding where
  finding : ReviewFinding
  isOpen : Bool := true
  deriving DecidableEq

structure ProjectedReviewVerdict where
  eventId : EventId
  verdict : ReviewVerdict
  reviewer : ReviewActor
  reviewerProvenance : Option ReviewParticipantProvenance
  active : Bool := true
  deriving DecidableEq

structure ProjectedReviewOverride where
  value : ReviewOverride
  active : Bool := true
  deriving DecidableEq

def ProjectedReviewFinding.id (f : ProjectedReviewFinding) : ReviewFindingId := f.finding.findingId
def ProjectedReviewFinding.resolve (f : ProjectedReviewFinding) : ProjectedReviewFinding :=
  { f with isOpen := false }
def ProjectedReviewVerdict.revoke (v : ProjectedReviewVerdict) : ProjectedReviewVerdict :=
  { v with active := false }
def ProjectedReviewOverride.id (o : ProjectedReviewOverride) : ReviewOverrideId :=
  o.value.overrideId
def ProjectedReviewOverride.revoke (o : ProjectedReviewOverride) : ProjectedReviewOverride :=
  { o with active := false }

structure ReceiptState where
  receiptId : Option ReviewReceiptId := none
  draft : Option ReviewReceiptDraft := none
  (reviewRequested approvalRevoked : Bool := false)
  findings : List ProjectedReviewFinding := []
  verdicts : List ProjectedReviewVerdict := []
  overrides : List ProjectedReviewOverride := []
  eventIds : List EventId := []
  lastSequence : ℕ := 0
  deriving DecidableEq

inductive ReviewReceiptState where
  | notStarted | draft | reviewRequested | findingsOpen | approved | changesRequested | rejected
  | revoked | conflicted

def ReceiptState.state (s : ReceiptState) : ReviewReceiptState :=
  if s.draft = none then .notStarted
  else if s.verdicts.countP ProjectedReviewVerdict.active > 1 then .conflicted
  else if s.findings.any ProjectedReviewFinding.isOpen then .findingsOpen
  else
    match s.verdicts.find? ProjectedReviewVerdict.active with
    | some verdict =>
      match verdict.verdict with
      | .approved => .approved
      | .changesRequested => .changesRequested
      | .rejected => .rejected
    | none =>
      if s.approvalRevoked then .revoked
      else if s.reviewRequested then .reviewRequested
      else .draft

def reviewReceiptId : ReviewEventPayload → Option ReviewReceiptId
  | .reviewReceiptDrafted draft => some draft.receiptId
  | .reviewRequested receiptId _ => some receiptId
  | .reviewFindingOpened receiptId _ => some receiptId
  | .reviewFindingResolved receiptId _ _ _ => some receiptId
  | .reviewVerdictRecorded receiptId _ _ _ => some receiptId
  | .reviewVerdictRevoked receiptId _ _ _ => some receiptId
  | .reviewOverrideRecorded override => some override.receiptId
  | .reviewOverrideRevoked receiptId _ _ _ => some receiptId
  | .unrelated _ => none

def passes (checked : Checked) : Bool :=
  match checked with
  | .ok () => true
  | .error _ => false

/-- What a fact about a drafted receipt does; a draft is no such fact. -/
def applyFact (s : ReceiptState) (draft : ReviewReceiptDraft) (eventId : EventId)
    (limits : ReviewReceiptLimits) : ReviewEventPayload → Except ReviewReceiptError ReceiptState
  | .reviewRequested _ requestedBy => do
    ensure (s.reviewRequested = false ∧ passes (validateReviewActor requestedBy limits))
      ⟨.invalidTransition, "review request is invalid or duplicated", s.receiptId⟩
    return { s with reviewRequested := true }
  | .reviewFindingOpened _ finding => do
    ensure (s.reviewRequested ∧ passes (validateReviewFinding finding limits) ∧
        s.findings.length < limits.maximumFindings ∧
        lookup ProjectedReviewFinding.id finding.findingId s.findings = none)
      ⟨.invalidFinding, "review finding is invalid or duplicated", s.receiptId⟩
    return { s with findings := s.findings ++ [⟨finding, true⟩] }
  | .reviewFindingResolved _ findingId resolvedBy reason => do
    ensure (validActor resolvedBy limits ∧ reason.all (boundedText · limits.maximumTextBytes))
      ⟨.invalidActor, "review finding resolution is invalid", s.receiptId⟩
    ensure ((lookup ProjectedReviewFinding.id findingId s.findings).any
        ProjectedReviewFinding.isOpen)
      ⟨.unknownFinding, "review finding is unknown or already resolved", s.receiptId⟩
    return { s with
      findings := updateFirst ProjectedReviewFinding.id findingId
        ProjectedReviewFinding.resolve s.findings }
  | .reviewVerdictRecorded _ verdict reviewer provenance => do
    ensure (s.reviewRequested ∧ validActor reviewer limits ∧
        provenance.all fun p => p.actor = reviewer && validParticipant p limits)
      ⟨.invalidTransition, "review verdict is invalid", s.receiptId⟩
    return { s with verdicts := s.verdicts ++ [⟨eventId, verdict, reviewer, provenance, true⟩] }
  | .reviewVerdictRevoked _ verdictEventId revokedBy reason => do
    ensure (validActor revokedBy limits ∧ boundedText reason limits.maximumTextBytes)
      ⟨.invalidActor, "review verdict revocation is invalid", s.receiptId⟩
    match lookup ProjectedReviewVerdict.eventId verdictEventId s.verdicts with
    | some verdict =>
      ensure verdict.active
        ⟨.unknownVerdict, "review verdict is unknown or already revoked", s.receiptId⟩
      return { s with
        approvalRevoked := s.approvalRevoked || decide (verdict.verdict = .approved)
        verdicts := updateFirst ProjectedReviewVerdict.eventId verdictEventId
          ProjectedReviewVerdict.revoke s.verdicts }
    | none =>
      throw ⟨.unknownVerdict, "review verdict is unknown or already revoked", s.receiptId⟩
  | .reviewOverrideRecorded override => do
    ensure (passes (validateReviewOverride override limits) ∧
        override.candidate = draft.candidate ∧
        lookup ProjectedReviewOverride.id override.overrideId s.overrides = none)
      ⟨.invalidTransition, "review override is invalid or duplicated", s.receiptId⟩
    return { s with overrides := s.overrides ++ [⟨override, true⟩] }
  | .reviewOverrideRevoked _ overrideId revokedBy reason => do
    ensure (validActor revokedBy limits ∧ boundedText reason limits.maximumTextBytes)
      ⟨.invalidActor, "review override revocation is invalid", s.receiptId⟩
    ensure ((lookup ProjectedReviewOverride.id overrideId s.overrides).any
        ProjectedReviewOverride.active)
      ⟨.unknownOverride, "review override is unknown or already revoked", s.receiptId⟩
    return { s with
      overrides := updateFirst ProjectedReviewOverride.id overrideId
        ProjectedReviewOverride.revoke s.overrides }
  | .reviewReceiptDrafted _ => return s
  | .unrelated _ => return s

/-- What an event does to the receipt, once its envelope has been accepted. -/
def applyPayload (s : ReceiptState) (eventId : EventId) (payload : ReviewEventPayload)
    (limits : ReviewReceiptLimits) : Except ReviewReceiptError ReceiptState :=
  match payload with
  | .unrelated _ => return s
  | .reviewReceiptDrafted draft => do
    ensure (s.draft = none)
      ⟨.invalidTransition, "review receipt may be drafted only once", s.receiptId⟩
    validateReviewReceiptDraft draft limits
    return { s with receiptId := some draft.receiptId, draft := some draft }
  | fact =>
    match s.draft with
    | none =>
      throw ⟨.invalidTransition, "review facts require a drafted receipt", reviewReceiptId fact⟩
    | some draft => applyFact s draft eventId limits fact

def applyInPlace (s : ReceiptState) (event : ReviewEvent) (limits : ReviewReceiptLimits) :
    Except ReviewReceiptError ReceiptState := do
  ensure (validLimits limits) { limitsError with receiptId := s.receiptId }
  ensure (event.metadata.sequence ≠ 0 ∧ event.metadata.schemaVersion ≠ 0)
    ⟨.invalidEnvelope, "review event envelope is invalid", s.receiptId⟩
  ensure (s.lastSequence < event.metadata.sequence)
    ⟨.nonMonotonicSequence, "review event sequence did not increase", s.receiptId⟩
  ensure (event.metadata.eventId ∉ s.eventIds)
    ⟨.duplicateEvent, "review event identity is duplicated", s.receiptId⟩
  ensure ((reviewReceiptId event.payload).all fun receiptId =>
      s.receiptId.all fun own => receiptId = own)
    ⟨.wrongReceipt, "review event belongs to another receipt", s.receiptId⟩
  let t ← applyPayload s event.metadata.eventId event.payload limits
  return { t with
    eventIds := t.eventIds ++ [event.metadata.eventId]
    lastSequence := event.metadata.sequence }

/-- One call of the projection: an event and the limits it is read with. -/
abbrev Call := ReviewEvent × ReviewReceiptLimits

/-- The event is applied to a copy, and the copy is kept only if all of it was accepted. -/
def commit (s : ReceiptState) (call : Call) : Except ReviewReceiptError Unit × ReceiptState :=
  match applyInPlace s call.1 call.2 with
  | .ok candidate => (.ok (), candidate)
  | .error err => (.error err, s)

def ReviewReceiptProjection : Projection ReceiptState Call ReviewReceiptError := ⟨{}, commit⟩

theorem accepts_iff {s : ReceiptState} {call : Call} :
    ReviewReceiptProjection.Accepts s call ↔ ∃ t, applyInPlace s call.1 call.2 = .ok t := by
  change (commit s call).1 = .ok () ↔ _
  unfold commit
  cases applyInPlace s call.1 call.2 <;> simp

theorem apply_accepted {s t : ReceiptState} {call : Call}
    (h : applyInPlace s call.1 call.2 = .ok t) : (ReviewReceiptProjection.apply s call).2 = t := by
  change (commit s call).2 = t
  unfold commit
  rw [h]

theorem reviewReceipt_atomic : ReviewReceiptProjection.Atomic := by
  intro s call h
  rw [accepts_iff] at h
  change (commit s call).2 = s
  unfold commit
  cases hc : applyInPlace s call.1 call.2 with
  | ok t => exact absurd ⟨t, hc⟩ h
  | error => rfl

/-- What a payload may do to a receipt, with what has been checked before. -/
inductive Applies (s : ReceiptState) (eventId : EventId) (limits : ReviewReceiptLimits) :
    ReviewEventPayload → ReceiptState → Prop where
  | unrelated (payload) : Applies s eventId limits (.unrelated payload) s
  | drafted {draft} : s.draft = none → validateReviewReceiptDraft draft limits = .ok () →
      Applies s eventId limits (.reviewReceiptDrafted draft)
        { s with receiptId := some draft.receiptId, draft := some draft }
  | requested {draft receiptId requestedBy} : s.draft = some draft → s.reviewRequested = false →
      Applies s eventId limits (.reviewRequested receiptId requestedBy)
        { s with reviewRequested := true }
  | opened {draft receiptId finding} : s.draft = some draft → s.reviewRequested →
      s.findings.length < limits.maximumFindings →
      lookup ProjectedReviewFinding.id finding.findingId s.findings = none →
      Applies s eventId limits (.reviewFindingOpened receiptId finding)
        { s with findings := s.findings ++ [⟨finding, true⟩] }
  | resolved {draft receiptId findingId resolvedBy reason found} : s.draft = some draft →
      lookup ProjectedReviewFinding.id findingId s.findings = some found → found.isOpen →
      Applies s eventId limits (.reviewFindingResolved receiptId findingId resolvedBy reason)
        { s with
          findings := updateFirst ProjectedReviewFinding.id findingId
            ProjectedReviewFinding.resolve s.findings }
  | recorded {draft receiptId verdict reviewer provenance} : s.draft = some draft →
      s.reviewRequested →
      Applies s eventId limits (.reviewVerdictRecorded receiptId verdict reviewer provenance)
        { s with verdicts := s.verdicts ++ [⟨eventId, verdict, reviewer, provenance, true⟩] }
  | revoked {draft receiptId verdictEventId revokedBy reason found} : s.draft = some draft →
      lookup ProjectedReviewVerdict.eventId verdictEventId s.verdicts = some found →
      found.active →
      Applies s eventId limits (.reviewVerdictRevoked receiptId verdictEventId revokedBy reason)
        { s with
          approvalRevoked := s.approvalRevoked || decide (found.verdict = .approved)
          verdicts := updateFirst ProjectedReviewVerdict.eventId verdictEventId
            ProjectedReviewVerdict.revoke s.verdicts }
  | overridden {draft override} : s.draft = some draft → override.candidate = draft.candidate →
      lookup ProjectedReviewOverride.id override.overrideId s.overrides = none →
      Applies s eventId limits (.reviewOverrideRecorded override)
        { s with overrides := s.overrides ++ [⟨override, true⟩] }
  | overrideRevoked {draft receiptId overrideId revokedBy reason found} : s.draft = some draft →
      lookup ProjectedReviewOverride.id overrideId s.overrides = some found →
      found.active →
      Applies s eventId limits (.reviewOverrideRevoked receiptId overrideId revokedBy reason)
        { s with
          overrides := updateFirst ProjectedReviewOverride.id overrideId
            ProjectedReviewOverride.revoke s.overrides }

variable {s t : ReceiptState} {eventId : EventId} {limits : ReviewReceiptLimits}

variable {payload : ReviewEventPayload}

theorem applyFact_applies {draft : ReviewReceiptDraft}
    (hd : s.draft = some draft) (hp : ∀ d, payload ≠ .reviewReceiptDrafted d)
    (h : applyFact s draft eventId limits payload = .ok t) :
    Applies s eventId limits payload t := by
  cases payload with
  | reviewReceiptDrafted d => exact absurd rfl (hp d)
  | unrelated payload =>
    cases h
    exact .unrelated payload
  | reviewRequested =>
    obtain ⟨_, hc, h⟩ := bind_ok.1 h
    cases h
    exact .requested hd (ensure_ok.1 hc).1
  | reviewFindingOpened =>
    obtain ⟨_, hc, h⟩ := bind_ok.1 h
    cases h
    obtain ⟨hr, -, hl, hn⟩ := ensure_ok.1 hc
    exact .opened hd hr hl hn
  | reviewFindingResolved =>
    replace h := later h
    obtain ⟨_, hc, h⟩ := bind_ok.1 h
    cases h
    obtain ⟨found, hf, ho⟩ := (Option.any_eq_true ..).1 (ensure_ok.1 hc)
    exact .resolved hd hf ho
  | reviewVerdictRecorded =>
    obtain ⟨_, hc, h⟩ := bind_ok.1 h
    cases h
    exact .recorded hd (ensure_ok.1 hc).1
  | reviewVerdictRevoked =>
    replace h := later h
    split at h
    · rename_i found hf
      obtain ⟨_, hc, h⟩ := bind_ok.1 h
      cases h
      exact .revoked hd hf (ensure_ok.1 hc)
    · cases h
  | reviewOverrideRecorded =>
    obtain ⟨_, hc, h⟩ := bind_ok.1 h
    cases h
    obtain ⟨-, he, hn⟩ := ensure_ok.1 hc
    exact .overridden hd he hn
  | reviewOverrideRevoked =>
    replace h := later h
    obtain ⟨hc, h⟩ := guarded h
    cases h
    obtain ⟨found, hf, ho⟩ := (Option.any_eq_true ..).1 hc
    exact .overrideRevoked hd hf ho

theorem applyPayload_applies
    (h : applyPayload s eventId payload limits = .ok t) : Applies s eventId limits payload t := by
  unfold applyPayload at h
  split at h
  · cases h
    exact .unrelated _
  · obtain ⟨hc, h⟩ := guarded h
    obtain ⟨_, hv, h⟩ := bind_ok.1 h
    cases h
    exact .drafted hc hv
  · rename_i hn
    split at h
    · cases h
    · rename_i draft hd
      exact applyFact_applies hd hn h

variable {event : ReviewEvent}

/-- An accepted event is new, names the receipt if it names one, and applies its payload. -/
theorem applyInPlace_cases (h : applyInPlace s event limits = .ok t) :
    event.metadata.eventId ∉ s.eventIds ∧
    (∀ receiptId own, reviewReceiptId event.payload = some receiptId → s.receiptId = some own →
      receiptId = own) ∧
    ∃ u, Applies s event.metadata.eventId limits event.payload u ∧
      t = { u with
        eventIds := u.eventIds ++ [event.metadata.eventId]
        lastSequence := event.metadata.sequence } := by
  replace h := later h
  replace h := later h
  replace h := later h
  obtain ⟨hid, h⟩ := guarded h
  obtain ⟨hrcpt, h⟩ := guarded h
  obtain ⟨u, hu, h⟩ := bind_ok.1 h
  cases h
  refine ⟨hid, ?_, u, applyPayload_applies hu, rfl⟩
  intro receiptId own hr ho
  have hc := hrcpt
  simpa [hr, ho] using hc

def openedFinding (event : ReviewEvent) : Option ProjectedReviewFinding :=
  match event.payload with
  | .reviewFindingOpened _ finding => some ⟨finding, true⟩
  | _ => none

def resolvedFinding (event : ReviewEvent) : Option ReviewFindingId :=
  match event.payload with
  | .reviewFindingResolved _ findingId _ _ => some findingId
  | _ => none

def recordedVerdict (event : ReviewEvent) : Option ProjectedReviewVerdict :=
  match event.payload with
  | .reviewVerdictRecorded _ verdict reviewer provenance =>
    some ⟨event.metadata.eventId, verdict, reviewer, provenance, true⟩
  | _ => none

def revokedVerdict (event : ReviewEvent) : Option EventId :=
  match event.payload with
  | .reviewVerdictRevoked _ verdictEventId _ _ => some verdictEventId
  | _ => none

def recordedOverride (event : ReviewEvent) : Option ProjectedReviewOverride :=
  match event.payload with
  | .reviewOverrideRecorded override => some ⟨override, true⟩
  | _ => none

def revokedOverride (event : ReviewEvent) : Option ReviewOverrideId :=
  match event.payload with
  | .reviewOverrideRevoked _ overrideId _ _ => some overrideId
  | _ => none

/-- What the receipt says of its candidate and of itself, against the events accepted so far. -/
structure Bound (history : List ReviewEvent) (s : ReceiptState) : Prop where
  own : s.receiptId = s.draft.map ReviewReceiptDraft.receiptId
  receipt : ∀ event ∈ history, ∀ receiptId, reviewReceiptId event.payload = some receiptId →
    s.receiptId = some receiptId
  drafted : ∀ draft, s.draft = some draft →
    (∃ event ∈ history, event.payload = .reviewReceiptDrafted draft) ∧
    ∀ binding ∈ draft.evidence, (binding.artifacts.map ReviewArtifactDigest.artifactId).Nodup
  candidate : ∀ override ∈ s.overrides, ∃ draft, s.draft = some draft ∧
    override.value.candidate = draft.candidate

structure Ledger (history : List ReviewEvent) (s : ReceiptState) : Prop where
  eventIds : s.eventIds = history.map fun event => event.metadata.eventId
  distinct : (history.map fun event => event.metadata.eventId).Nodup
  findings : Tracks ProjectedReviewFinding.id ProjectedReviewFinding.resolve
    (history.filterMap openedFinding) (history.filterMap resolvedFinding) s.findings
  verdicts : Tracks ProjectedReviewVerdict.eventId ProjectedReviewVerdict.revoke
    (history.filterMap recordedVerdict) (history.filterMap revokedVerdict) s.verdicts
  overrides : Tracks ProjectedReviewOverride.id ProjectedReviewOverride.revoke
    (history.filterMap recordedOverride) (history.filterMap revokedOverride) s.overrides
  bound : Bound history s

theorem ledger_initial : Ledger [] {} := by
  refine ⟨rfl, nodup_nil, tracks_nil, tracks_nil, tracks_nil, ?_⟩
  constructor <;> simp

theorem finding_key (f : ProjectedReviewFinding) : f.resolve.id = f.id := rfl
theorem finding_idem (f : ProjectedReviewFinding) : f.resolve.resolve = f.resolve := rfl
theorem verdict_key (v : ProjectedReviewVerdict) : v.revoke.eventId = v.eventId := rfl
theorem verdict_idem (v : ProjectedReviewVerdict) : v.revoke.revoke = v.revoke := rfl
theorem override_key (o : ProjectedReviewOverride) : o.revoke.id = o.id := rfl
theorem override_idem (o : ProjectedReviewOverride) : o.revoke.revoke = o.revoke := rfl

variable {history : List ReviewEvent}

/-- A verdict is recorded under the identity of its event, so a new event has a new one. -/
theorem Ledger.verdict_fresh (h : Ledger history s) (hid : eventId ∉ s.eventIds) :
    lookup ProjectedReviewVerdict.eventId eventId s.verdicts = none := by
  refine lookup_none.2 ?_
  intro verdict hv he
  have hkey : verdict.eventId ∈ s.verdicts.map ProjectedReviewVerdict.eventId :=
    mem_map_of_mem hv
  rw [h.verdicts.map_key verdict_key] at hkey
  obtain ⟨recorded, hr, hrv⟩ := mem_map.1 hkey
  obtain ⟨event, hevent, hread⟩ := mem_filterMap.1 hr
  have hev : recorded.eventId = event.metadata.eventId := by
    unfold recordedVerdict at hread
    split at hread
    · cases hread
      rfl
    · cases hread
  refine hid ?_
  rw [h.eventIds, ← he, ← hrv, hev]
  exact mem_map_of_mem hevent

/-- Only a draft changes what the receipt is about, and no fact comes before it. -/
theorem Applies.draft_cases (h : Applies s eventId limits payload t) :
    (∃ draft, payload = .reviewReceiptDrafted draft ∧ s.draft = none ∧
      validateReviewReceiptDraft draft limits = .ok () ∧
      t = { s with receiptId := some draft.receiptId, draft := some draft }) ∨
    (t.draft = s.draft ∧ t.receiptId = s.receiptId ∧
      (reviewReceiptId payload ≠ none → s.draft ≠ none)) := by
  cases h with
  | drafted hn hv => exact .inl ⟨_, rfl, hn, hv, rfl⟩
  | unrelated => exact .inr ⟨rfl, rfl, fun hp => absurd rfl hp⟩
  | requested hd | opened hd | resolved hd | recorded hd | revoked hd | overridden hd
  | overrideRevoked hd => exact .inr ⟨rfl, rfl, by simp [hd]⟩

/-- Every override is an earlier one or was just recorded for the drafted candidate. -/
theorem Applies.override_cases (h : Applies s eventId limits payload t) :
    ∀ override ∈ t.overrides, (∃ earlier ∈ s.overrides, earlier.value = override.value) ∨
      ∃ draft, s.draft = some draft ∧ override.value.candidate = draft.candidate := by
  have hsame : ∀ override ∈ s.overrides,
      (∃ earlier ∈ s.overrides, earlier.value = override.value) ∨
      ∃ draft, s.draft = some draft ∧ override.value.candidate = draft.candidate :=
    fun override ho => .inl ⟨override, ho, rfl⟩
  cases h with
  | overridden hd he =>
    intro override ho
    rcases mem_append.1 ho with ho | ho
    · exact hsame override ho
    · obtain rfl := mem_singleton.1 ho
      exact .inr ⟨_, hd, he⟩
  | overrideRevoked => exact forall_update hsame fun _ _ hq => hq
  | _ => exact hsame

theorem bound_step (h : Bound history s)
    (hrcpt : ∀ receiptId own, reviewReceiptId event.payload = some receiptId →
      s.receiptId = some own → receiptId = own)
    (ha : Applies s event.metadata.eventId limits event.payload t) :
    Bound (history ++ [event]) t := by
  rcases ha.draft_cases with ⟨draft, hp, hn, hv, rfl⟩ | ⟨hd, hr, hfact⟩
  · -- before the draft there was no receipt, hence no review event and no override
    have hnone : s.receiptId = none := by rw [h.own, hn]; rfl
    refine ⟨rfl, ?_, ?_, ?_⟩
    · intro earlier he receiptId hid
      rcases mem_append.1 he with he | he
      · have habs := h.receipt earlier he receiptId hid
        rw [hnone] at habs
        cases habs
      · obtain rfl := mem_singleton.1 he
        rw [hp] at hid
        exact hid
    · intro d hd
      cases hd
      refine ⟨⟨event, by simp, hp⟩, ?_⟩
      intro binding hb
      exact validateReviewEvidenceBinding_artifacts (validateReviewReceiptDraft_mem hv binding hb)
    · intro override ho
      obtain ⟨d, hd, -⟩ := h.candidate override ho
      rw [hn] at hd
      cases hd
  · refine ⟨by rw [hr, hd, h.own], ?_, ?_, ?_⟩
    · intro earlier he receiptId hid
      rw [hr]
      rcases mem_append.1 he with he | he
      · exact h.receipt earlier he receiptId hid
      · obtain rfl := mem_singleton.1 he
        obtain ⟨draft, hdrf⟩ := Option.ne_none_iff_exists'.1 (hfact (by simp [hid]))
        have hown : s.receiptId = some draft.receiptId := by rw [h.own, hdrf]; rfl
        rw [hown, hrcpt receiptId _ hid hown]
    · intro draft hdrf
      rw [hd] at hdrf
      obtain ⟨⟨earlier, he, hp⟩, hart⟩ := h.drafted draft hdrf
      exact ⟨⟨earlier, mem_append_left _ he, hp⟩, hart⟩
    · intro override ho
      rw [hd]
      rcases ha.override_cases override ho with ⟨earlier, he, hval⟩ | hnew
      · rw [← hval]
        exact h.candidate earlier he
      · exact hnew

theorem filterMap_snoc {α β : Type*} (f : α → Option β) (xs : List α) (x : α) :
    (xs ++ [x]).filterMap f = xs.filterMap f ++ (f x).toList := by
  rw [filterMap_append]
  cases hx : f x <;> simp [hx]

section Step

variable {history : List ReviewEvent} {metadata : EventMetadata} {payload : ReviewEventPayload}

theorem findings_step (h : Ledger history s) (ha : Applies s metadata.eventId limits payload t) :
    Tracks ProjectedReviewFinding.id ProjectedReviewFinding.resolve
      ((history ++ [ReviewEvent.mk metadata payload]).filterMap openedFinding)
      ((history ++ [ReviewEvent.mk metadata payload]).filterMap resolvedFinding) t.findings := by
  rw [filterMap_snoc, filterMap_snoc]
  cases ha <;> simp only [openedFinding, resolvedFinding, Option.toList, append_nil]
  case opened hn => exact h.findings.record finding_key hn
  case resolved hf _ => exact h.findings.withdraw finding_key finding_idem hf
  all_goals exact h.findings

theorem verdicts_step (h : Ledger history s) (hid : metadata.eventId ∉ s.eventIds)
    (ha : Applies s metadata.eventId limits payload t) :
    Tracks ProjectedReviewVerdict.eventId ProjectedReviewVerdict.revoke
      ((history ++ [ReviewEvent.mk metadata payload]).filterMap recordedVerdict)
      ((history ++ [ReviewEvent.mk metadata payload]).filterMap revokedVerdict) t.verdicts := by
  rw [filterMap_snoc, filterMap_snoc]
  cases ha <;> simp only [recordedVerdict, revokedVerdict, Option.toList, append_nil]
  case recorded => exact h.verdicts.record verdict_key (h.verdict_fresh hid)
  case revoked hf _ => exact h.verdicts.withdraw verdict_key verdict_idem hf
  all_goals exact h.verdicts

theorem overrides_step (h : Ledger history s) (ha : Applies s metadata.eventId limits payload t) :
    Tracks ProjectedReviewOverride.id ProjectedReviewOverride.revoke
      ((history ++ [ReviewEvent.mk metadata payload]).filterMap recordedOverride)
      ((history ++ [ReviewEvent.mk metadata payload]).filterMap revokedOverride) t.overrides := by
  rw [filterMap_snoc, filterMap_snoc]
  cases ha <;> simp only [recordedOverride, revokedOverride, Option.toList, append_nil]
  case overridden hn => exact h.overrides.record override_key hn
  case overrideRevoked hf _ => exact h.overrides.withdraw override_key override_idem hf
  all_goals exact h.overrides

theorem eventIds_step (ha : Applies s eventId limits payload t) : t.eventIds = s.eventIds := by
  cases ha <;> rfl

end Step

theorem ledger_step (h : Ledger history s)
    (hok : applyInPlace s event limits = .ok t) : Ledger (history ++ [event]) t := by
  obtain ⟨hid, hrcpt, _, ha, rfl⟩ := applyInPlace_cases hok
  have hbd := bound_step h.bound hrcpt ha
  have hfind := findings_step h ha
  have hverd := verdicts_step h hid ha
  have hoverrides := overrides_step h ha
  refine ⟨?_, ?_, hfind, hverd, hoverrides,
    ⟨hbd.own, hbd.receipt, hbd.drafted, hbd.candidate⟩⟩
  · simp [eventIds_step ha, h.eventIds]
  · rw [map_append, nodup_append]
    refine ⟨h.distinct, by simp, ?_⟩
    rintro _ hmem _ hb rfl
    obtain rfl := mem_singleton.1 hb
    exact hid (h.eventIds ▸ hmem)

/-- The receipt an accepted stream leads to is the ledger of its events. -/
theorem accepted_ledger {calls : List Call} (h : ReviewReceiptProjection.Accepted
    ReviewReceiptProjection.initial calls s) : Ledger (calls.map Prod.fst) s := by
  refine accepted_history (J := fun past s => Ledger (past.map Prod.fst) s) ?_ [] h ledger_initial
  intro past s call hc hl
  obtain ⟨_, ht⟩ := accepts_iff.1 hc
  rw [apply_accepted ht, map_append]
  exact ledger_step hl ht

/-- The finding was opened and no event of the stream resolves it. -/
def OpenFinding (history : List ReviewEvent) (finding : ReviewFinding) : Prop :=
  (∃ event ∈ history, ∃ receiptId, event.payload = .reviewFindingOpened receiptId finding) ∧
  ∀ event ∈ history, ∀ receiptId resolvedBy reason,
    event.payload ≠ .reviewFindingResolved receiptId finding.findingId resolvedBy reason

/-- The event recorded the verdict and no event of the stream revokes it. -/
def ActiveVerdict (history : List ReviewEvent) (event : ReviewEvent) (verdict : ReviewVerdict) :
    Prop :=
  event ∈ history ∧
  (∃ receiptId reviewer provenance,
    event.payload = .reviewVerdictRecorded receiptId verdict reviewer provenance) ∧
  ∀ later ∈ history, ∀ receiptId revokedBy reason,
    later.payload ≠ .reviewVerdictRevoked receiptId event.metadata.eventId revokedBy reason

/-- The override was recorded and no event of the stream revokes it. -/
def ActiveOverride (history : List ReviewEvent) (override : ReviewOverride) : Prop :=
  (∃ event ∈ history, event.payload = .reviewOverrideRecorded override) ∧
  ∀ event ∈ history, ∀ receiptId revokedBy reason,
    event.payload ≠ .reviewOverrideRevoked receiptId override.overrideId revokedBy reason

section Reading

variable {history : List ReviewEvent}

theorem mem_openedFinding {entry : ProjectedReviewFinding} :
    entry ∈ history.filterMap openedFinding ↔ ∃ event ∈ history, ∃ receiptId,
      event.payload = .reviewFindingOpened receiptId entry.finding ∧ entry.isOpen := by
  rw [mem_filterMap]
  refine exists_congr fun event => and_congr_right fun _ => ?_
  obtain ⟨_, payload⟩ := event
  obtain ⟨finding, isOpen⟩ := entry
  cases payload <;> simp [openedFinding, eq_comm]

theorem mem_resolvedFinding {findingId : ReviewFindingId} :
    findingId ∈ history.filterMap resolvedFinding ↔ ∃ event ∈ history,
      ∃ receiptId resolvedBy reason,
        event.payload = .reviewFindingResolved receiptId findingId resolvedBy reason := by
  rw [mem_filterMap]
  refine exists_congr fun event => and_congr_right fun _ => ?_
  obtain ⟨_, payload⟩ := event
  cases payload <;> simp [resolvedFinding, eq_comm]

theorem mem_recordedVerdict {entry : ProjectedReviewVerdict} :
    entry ∈ history.filterMap recordedVerdict ↔ ∃ event ∈ history, ∃ receiptId,
      event.payload = .reviewVerdictRecorded receiptId entry.verdict entry.reviewer
        entry.reviewerProvenance ∧
      event.metadata.eventId = entry.eventId ∧ entry.active := by
  rw [mem_filterMap]
  refine exists_congr fun event => and_congr_right fun _ => ?_
  obtain ⟨metadata, payload⟩ := event
  obtain ⟨eventId, verdict, reviewer, _, active⟩ := entry
  cases payload <;> simp [recordedVerdict, and_assoc, and_left_comm, eq_comm]

theorem mem_revokedVerdict {verdictEventId : EventId} :
    verdictEventId ∈ history.filterMap revokedVerdict ↔ ∃ event ∈ history,
      ∃ receiptId revokedBy reason,
        event.payload = .reviewVerdictRevoked receiptId verdictEventId revokedBy reason := by
  rw [mem_filterMap]
  refine exists_congr fun event => and_congr_right fun _ => ?_
  obtain ⟨_, payload⟩ := event
  cases payload <;> simp [revokedVerdict, eq_comm]

theorem mem_recordedOverride {entry : ProjectedReviewOverride} :
    entry ∈ history.filterMap recordedOverride ↔ ∃ event ∈ history,
      event.payload = .reviewOverrideRecorded entry.value ∧ entry.active := by
  rw [mem_filterMap]
  refine exists_congr fun event => and_congr_right fun _ => ?_
  obtain ⟨_, payload⟩ := event
  obtain ⟨value, active⟩ := entry
  cases payload <;> simp [recordedOverride, eq_comm]

theorem mem_revokedOverride {overrideId : ReviewOverrideId} :
    overrideId ∈ history.filterMap revokedOverride ↔ ∃ event ∈ history,
      ∃ receiptId revokedBy reason,
        event.payload = .reviewOverrideRevoked receiptId overrideId revokedBy reason := by
  rw [mem_filterMap]
  refine exists_congr fun event => and_congr_right fun _ => ?_
  obtain ⟨_, payload⟩ := event
  cases payload <;> simp [revokedOverride, eq_comm]

section

variable (h : Ledger history s)

include h

theorem Ledger.openFinding_iff {finding : ReviewFinding} :
    OpenFinding history finding ↔ ⟨finding, true⟩ ∈ s.findings := by
  have hfilter := h.findings.filter_open (p := ProjectedReviewFinding.isOpen) ?_ fun _ => rfl
  · have hmem : ⟨finding, true⟩ ∈ s.findings ↔
        ⟨finding, true⟩ ∈ s.findings.filter ProjectedReviewFinding.isOpen := by simp
    rw [hmem, hfilter, mem_filter, decide_eq_true_eq, mem_openedFinding, mem_resolvedFinding]
    simp [OpenFinding, ProjectedReviewFinding.id]
  · intro entry he
    obtain ⟨_, _, _, _, hopen⟩ := mem_openedFinding.1 he
    exact hopen

theorem Ledger.activeOverride_iff {override : ReviewOverride} :
    ActiveOverride history override ↔ ⟨override, true⟩ ∈ s.overrides := by
  have hfilter := h.overrides.filter_open (p := ProjectedReviewOverride.active) ?_
    fun _ => rfl
  · have hmem : ⟨override, true⟩ ∈ s.overrides ↔
        ⟨override, true⟩ ∈ s.overrides.filter ProjectedReviewOverride.active := by simp
    rw [hmem, hfilter, mem_filter, decide_eq_true_eq, mem_recordedOverride,
      mem_revokedOverride]
    simp [ActiveOverride, ProjectedReviewOverride.id]
  · intro entry he
    obtain ⟨_, _, _, hact⟩ := mem_recordedOverride.1 he
    exact hact

theorem Ledger.event_unique {e₁ e₂ : ReviewEvent} (h₁ : e₁ ∈ history)
    (h₂ : e₂ ∈ history) (he : e₁.metadata.eventId = e₂.metadata.eventId) : e₁ = e₂ :=
  inj_on_of_nodup_map h.distinct h₁ h₂ he

theorem Ledger.mem_active_verdicts {entry : ProjectedReviewVerdict} :
    entry ∈ s.verdicts.filter ProjectedReviewVerdict.active ↔
      entry ∈ history.filterMap recordedVerdict ∧
      entry.eventId ∉ history.filterMap revokedVerdict := by
  rw [h.verdicts.filter_open (p := ProjectedReviewVerdict.active) ?_ fun _ => rfl,
    mem_filter, decide_eq_true_eq]
  intro entry he
  obtain ⟨_, _, _, _, _, hact⟩ := mem_recordedVerdict.1 he
  exact hact

theorem Ledger.activeVerdict_iff
    {verdict : ReviewVerdict} (he : event ∈ history) : ActiveVerdict history event verdict ↔
      ∃ entry ∈ s.verdicts.filter ProjectedReviewVerdict.active,
        entry.eventId = event.metadata.eventId ∧ entry.verdict = verdict := by
  constructor
  · rintro ⟨-, ⟨receiptId, reviewer, provenance, hp⟩, hlat⟩
    refine ⟨⟨event.metadata.eventId, verdict, reviewer, provenance, true⟩, ?_, rfl, rfl⟩
    refine h.mem_active_verdicts.2 ⟨mem_recordedVerdict.2 ⟨event, he, receiptId, hp, rfl, rfl⟩, ?_⟩
    intro hrev
    obtain ⟨later, hl, receiptId, revokedBy, reason, hr⟩ := mem_revokedVerdict.1 hrev
    exact hlat later hl receiptId revokedBy reason hr
  · rintro ⟨entry, hent, hid, rfl⟩
    obtain ⟨hrec, hkept⟩ := h.mem_active_verdicts.1 hent
    obtain ⟨_, hs, receiptId, hp, hsid, -⟩ := mem_recordedVerdict.1 hrec
    obtain rfl := h.event_unique hs he (hsid.trans hid)
    refine ⟨he, ⟨receiptId, entry.reviewer, entry.reviewerProvenance, hp⟩, ?_⟩
    intro later hl receiptId revokedBy reason hr
    rw [← hid] at hr
    exact hkept (mem_revokedVerdict.2 ⟨later, hl, receiptId, revokedBy, reason, hr⟩)

end

/-- An approved receipt has no open finding and one active verdict, an approval. -/
theorem state_approved (h : s.state = .approved) : (∀ entry ∈ s.findings, entry.isOpen = false) ∧
    ∃ entry, s.verdicts.filter ProjectedReviewVerdict.active = [entry] ∧
      entry.verdict = .approved := by
  unfold ReceiptState.state at h
  split at h
  · cases h
  split at h
  · cases h
  split at h
  · cases h
  rename_i hcnt hfindings
  split at h
  · rename_i entry hfind
    have hmem : entry ∈ s.verdicts.filter ProjectedReviewVerdict.active :=
      mem_filter.2 ⟨mem_of_find?_eq_some hfind, List.find?_some hfind⟩
    rw [countP_eq_length_filter] at hcnt
    have hone : s.verdicts.filter ProjectedReviewVerdict.active = [entry] := by
      obtain ⟨_, hx⟩ := length_eq_one_iff.1
        (le_antisymm (not_lt.1 hcnt) (length_pos_of_mem hmem))
      rw [hx] at hmem ⊢
      rw [mem_singleton.1 hmem]
    have happr : entry.verdict = .approved := by
      split at h
      · assumption
      · cases h
      · cases h
    exact ⟨by simpa using hfindings, entry, hone, happr⟩
  · split at h
    · cases h
    · split at h <;> cases h

theorem Ledger.approved (h : Ledger history s) (ha : s.state = .approved) :
    (∀ finding, ¬ OpenFinding history finding) ∧ ∃ event, ActiveVerdict history event .approved ∧
      ∀ other verdict, ActiveVerdict history other verdict → other = event := by
  obtain ⟨hfind, entry, hone, hent⟩ := state_approved ha
  refine ⟨?_, ?_⟩
  · intro finding hopen
    have hshut := hfind _ (h.openFinding_iff.1 hopen)
    cases hshut
  · have hmem : entry ∈ s.verdicts.filter ProjectedReviewVerdict.active := by simp [hone]
    obtain ⟨hrec, -⟩ := h.mem_active_verdicts.1 hmem
    obtain ⟨event, he, -, -, hid, -⟩ := mem_recordedVerdict.1 hrec
    refine ⟨event, (h.activeVerdict_iff he).2 ⟨entry, hmem, hid.symm, hent⟩, ?_⟩
    intro other verdict hoth
    obtain ⟨_, hfnd, hfid, -⟩ := (h.activeVerdict_iff hoth.1).1 hoth
    rw [hone] at hfnd
    obtain rfl := mem_singleton.1 hfnd
    exact h.event_unique hoth.1 he (hfid.symm.trans hid.symm)

end Reading

end ReviewProjection
