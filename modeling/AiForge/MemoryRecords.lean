import AiForge.MemoryProjection
import AiForge.Trails

/-! # Memory records

The table of records beside the table of proposals: which records there are, how they leave
the current state, and where their replacement links lead. -/
namespace MemoryRecords

open EventProjection Events KeyedList List MemoryProjection SafeText Trails

variable {limits : MemoryLimits} {s t : MemoryState} {event : MemoryEvent}
  {id : MemoryRecordId} {r : ProjectedMemoryRecord}

theorem findRecord_kept (ht : t.records = s.records) (id : MemoryRecordId) :
    t.findRecord id = s.findRecord id := by
  unfold MemoryState.findRecord
  rw [ht]

variable {f : ProjectedMemoryRecord → ProjectedMemoryRecord}

theorem findRecord_changed (ht : t.records = (s.changeRecord id f).records)
    (hf : ∀ x : ProjectedMemoryRecord, x.id = id → (f x).id = id) :
    t.findRecord id = (s.findRecord id).map f := by
  unfold MemoryState.findRecord
  rw [ht]
  exact lookup_update_self hf

variable {id' : MemoryRecordId}

theorem findRecord_changed_ne (ht : t.records = (s.changeRecord id' f).records)
    (hf : ∀ x : ProjectedMemoryRecord, x.id = id' → (f x).id = id') (hne : id ≠ id') :
    t.findRecord id = s.findRecord id := by
  unfold MemoryState.findRecord
  rw [ht]
  exact lookup_update_ne hf hne

variable {record : MemoryRecord} {metadata : EventMetadata}

theorem findRecord_pushed (ht : t.records = (s.pushRecord record metadata).records)
    (hnew : s.findRecord record.recordId = none) : t.findRecord record.recordId = some
      { record := record, recordEventId := metadata.eventId,
        acceptedAt := metadata.timestamp } := by
  unfold MemoryState.findRecord at hnew ⊢
  rw [ht]
  exact (lookup_snoc hnew).trans (if_pos rfl)

theorem findRecord_pushed_ne
    (ht : t.records = (s.pushRecord record metadata).records) (hne : id ≠ record.recordId) :
    t.findRecord id = s.findRecord id := by
  unfold MemoryState.findRecord
  rw [ht]
  cases hl : lookup ProjectedMemoryRecord.id id s.records with
  | none => exact (lookup_snoc hl).trans (if_neg hne.symm)
  | some => exact lookup_snoc_of_some hl

/-- From `s` to `t` no record changes that had been superseded or had expired. -/
def Retired (s t : MemoryState) : Prop :=
  ∀ id r, s.findRecord id = some r → r.state ≠ .current → t.findRecord id = some r

theorem retired_kept (ht : t.records = s.records) : Retired s t := by
  intro id r hr _
  rw [findRecord_kept ht, hr]

theorem retired_trans {u : MemoryState} (h : Retired s t) (h' : Retired t u) : Retired s u :=
  fun id r hr hs => h' id r (h id r hr hs) hs

variable {found : ProjectedMemoryRecord}

theorem retired_changed (ht : t.records = (s.changeRecord id f).records)
    (hf : ∀ x : ProjectedMemoryRecord, x.id = id → (f x).id = id)
    (hfnd : s.findRecord id = some found) (hcur : found.state = .current) : Retired s t := by
  intro id' r hr hs
  have hne : id' ≠ id := by
    rintro rfl
    obtain rfl := Option.some.inj (hfnd.symm.trans hr)
    exact hs hcur
  rw [findRecord_changed_ne ht hf hne, hr]

theorem retired_pushed (ht : t.records = (s.pushRecord record metadata).records)
    (hnew : s.findRecord record.recordId = none) : Retired s t := by
  intro id r hr _
  have hne : id ≠ record.recordId := by
    rintro rfl
    rw [hnew] at hr
    cases hr
  rw [findRecord_pushed_ne ht hne, hr]

/-- A record that is replaced by an edited one is another than the edited one. -/
theorem edited_fresh {edited : MemoryEditedAcceptance} {replaced : ProjectedMemoryRecord}
    (hnew : s.findRecord edited.acceptance.record.recordId = none)
    (htgt : s.findRecord edited.replacedRecordId = some replaced) :
    edited.acceptance.record.recordId ≠ edited.replacedRecordId := by
  intro he
  rw [he, htgt] at hnew
  cases hnew

theorem fresh_changed {edited : MemoryEditedAcceptance} {replaced : ProjectedMemoryRecord}
    (e : MemoryEvent) (hnew : s.findRecord edited.acceptance.record.recordId = none)
    (htgt : s.findRecord edited.replacedRecordId = some replaced) :
    (s.changeRecord edited.replacedRecordId fun r =>
      r.supersede edited.acceptance.record.recordId e.metadata).findRecord
        edited.acceptance.record.recordId = none := by
  refine (findRecord_changed_ne (s := s) rfl ?_ (edited_fresh hnew htgt)).trans hnew
  intro x hx
  exact hx

theorem transition_retired (h : Transition s event t) : Retired s t := by
  cases h with
  | proposed _ _ _ _ hr | evaluated _ _ _ _ _ _ hr | rejected _ _ _ _ _ _ hr | unrelated _ _ _ hr =>
    exact retired_kept hr
  | accepted _ _ _ _ _ _ hnew _ hr => exact retired_pushed hr hnew
  | superseded _ _ _ htgt hcur _ _ hr | expired _ _ _ htgt hcur _ hr =>
    exact retired_changed hr (fun _ hx => hx) htgt hcur
  | edited edited _ _ _ _ _ _ hnew htgt hcur _ hr =>
    -- The old record is changed first and the new one joins the changed table.
    have hchg := retired_changed
      (f := fun r => r.supersede edited.acceptance.record.recordId event.metadata) rfl
      (fun _ hx => hx) htgt hcur
    exact retired_trans hchg (retired_pushed hr (fresh_changed event hnew htgt))

theorem feed_retired (s : MemoryState) (later : List MemoryEvent) :
    Retired s ((MemoryProjectionOf limits).feed s later) := by
  have hstep : ∀ u event, (MemoryProjectionOf limits).Accepts u event → Retired s u →
      Retired s ((MemoryProjectionOf limits).apply u event).2 := by
    intro u event hu hs
    exact retired_trans hs (transition_retired (accepts_transition hu))
  exact feed_invariant (atomic_step (apply_atomic limits) hstep) (retired_kept rfl) later

def RecordOf (p : ProjectedMemoryProposal) (r : ProjectedMemoryRecord) : Prop :=
  p.state = .accepted ∧ r.record.proposalId = p.id ∧ r.id = p.proposal.recordId

def granted (p : ProjectedMemoryProposal) : List (MemoryProposalId × MemoryRecordId) :=
  if p.state = .accepted then [(p.id, p.proposal.recordId)] else []

def held (r : ProjectedMemoryRecord) : MemoryProposalId × MemoryRecordId :=
  (r.record.proposalId, r.id)

/-- Both tables have distinct keys and name the same pairs of a proposal and a record. -/
structure Registered (s : MemoryState) : Prop where
  proposals : Distinct ProjectedMemoryProposal.id s.proposals
  records : Distinct ProjectedMemoryRecord.id s.records
  pairs : (s.proposals.flatMap granted).Perm (s.records.map held)

theorem Registered.proposal_exists (h : Registered s) (hr : r ∈ s.records) :
    ∃! p, p ∈ s.proposals ∧ RecordOf p r := by
  have hpair := h.pairs.mem_iff.2 (mem_map_of_mem (f := held) hr)
  obtain ⟨p, hp, hpr⟩ := mem_flatMap.1 hpair
  unfold granted at hpr
  split at hpr
  · rename_i hst
    obtain ⟨hid, hrec⟩ := Prod.mk.inj (mem_singleton.1 hpr)
    refine ⟨p, ⟨hp, hst, hid, hrec⟩, ?_⟩
    rintro _ ⟨hq, -, hqid, -⟩
    exact inj_on_of_nodup_map h.proposals hq hp (hqid.symm.trans hid)
  · cases hpr

theorem Registered.record_exists (h : Registered s) {p : ProjectedMemoryProposal}
    (hp : p ∈ s.proposals) (hst : p.state = .accepted) : ∃! r, r ∈ s.records ∧ RecordOf p r := by
  have hgranted : (p.id, p.proposal.recordId) ∈ s.proposals.flatMap granted := by
    refine mem_flatMap.2 ⟨p, hp, ?_⟩
    unfold granted
    rw [if_pos hst]
    exact mem_singleton_self _
  obtain ⟨r, hr, hheld⟩ := mem_map.1 (h.pairs.mem_iff.1 hgranted)
  obtain ⟨hprop, hid⟩ := Prod.mk.inj hheld
  refine ⟨r, ⟨hr, hst, hprop, hid⟩, ?_⟩
  rintro _ ⟨hq, -, -, hqid⟩
  exact inj_on_of_nodup_map h.records hq hr (hqid.trans hid.symm)

/-- A change of a proposal that keeps whether it was accepted. -/
theorem granted_changed {pid : MemoryProposalId} {found : ProjectedMemoryProposal}
    {f : ProjectedMemoryProposal → ProjectedMemoryProposal}
    (ht : t.proposals = (s.changeProposal pid f).proposals)
    (hfnd : s.findProposal pid = some found) (hf : granted (f found) = granted found) :
    (t.proposals.flatMap granted).Perm (s.proposals.flatMap granted) := by
  rw [ht]
  have hsame : (granted (f found)).Perm (granted found ++ []) := by rw [hf, append_nil]
  have hperm := flatMap_update_perm hfnd hsame
  rwa [append_nil] at hperm

theorem granted_accepted {found : ProjectedMemoryProposal}
    (ht : t.proposals = (s.changeProposal record.proposalId fun p =>
      p.settle .accepted metadata).proposals)
    (hfnd : s.findProposal record.proposalId = some found) (hpend : found.state = .pending)
    (hmatch : record.recordId = found.proposal.recordId) : (t.proposals.flatMap granted).Perm
      (s.proposals.flatMap granted ++ [(record.proposalId, record.recordId)]) := by
  rw [ht]
  refine flatMap_update_perm hfnd ?_
  have hid : found.id = record.proposalId := lookup_key hfnd
  have hpre : granted found = [] := by
    unfold granted
    rw [hpend]
    rfl
  rw [hpre, hmatch, ← hid]
  rfl

theorem held_pushed (ht : t.records = (s.pushRecord record metadata).records) :
    t.records.map held = s.records.map held ++ [(record.proposalId, record.recordId)] := by
  rw [ht]
  exact map_append

theorem held_superseded {replacement : MemoryRecordId} :
    (s.changeRecord id fun r => r.supersede replacement metadata).records.map held =
      s.records.map held :=
  map_update fun _ => rfl

variable {reason : Bytes}

theorem held_expired : (s.changeRecord id fun r => r.expire reason metadata).records.map held =
      s.records.map held :=
  map_update fun _ => rfl

theorem distinct_proposals {pid : MemoryProposalId}
    {f : ProjectedMemoryProposal → ProjectedMemoryProposal}
    (h : Distinct ProjectedMemoryProposal.id s.proposals)
    (ht : t.proposals = (s.changeProposal pid f).proposals)
    (hf : ∀ x : ProjectedMemoryProposal, x.id = pid → (f x).id = pid) :
    Distinct ProjectedMemoryProposal.id t.proposals := by
  rw [ht]
  exact distinct_update hf h

theorem distinct_pushed (h : Distinct ProjectedMemoryRecord.id s.records)
    (ht : t.records = (s.pushRecord record metadata).records)
    (hnew : s.findRecord record.recordId = none) :
    Distinct ProjectedMemoryRecord.id t.records := by
  rw [ht]
  exact distinct_snoc h hnew

theorem distinct_changed (h : Distinct ProjectedMemoryRecord.id s.records)
    (hf : ∀ x : ProjectedMemoryRecord, x.id = id → (f x).id = id) :
    Distinct ProjectedMemoryRecord.id (s.changeRecord id f).records :=
  distinct_update hf h

theorem transition_registered (h : Transition s event t) (hs : Registered s) : Registered t := by
  obtain ⟨hp, hr, hpairs⟩ := hs
  cases h with
  | proposed _ _ hnew hprop hrec =>
    refine ⟨?_, hrec ▸ hr, ?_⟩
    · rw [hprop]
      exact distinct_snoc hp hnew
    · rw [hprop, hrec, flatMap_append]
      simpa [granted] using hpairs
  | evaluated _ _ _ hknw _ hprop hrec =>
    refine ⟨distinct_proposals hp hprop fun _ hx => hx, hrec ▸ hr, ?_⟩
    rw [hrec]
    exact (granted_changed hprop hknw rfl).trans hpairs
  | rejected _ _ _ hknw hpend hprop hrec =>
    refine ⟨distinct_proposals hp hprop fun _ hx => hx, hrec ▸ hr, ?_⟩
    rw [hrec]
    refine (granted_changed hprop hknw ?_).trans hpairs
    simp [granted, hpend, ProjectedMemoryProposal.settle]
  | accepted _ _ _ hknw hpend hmatch hnew hprop hrec =>
    refine ⟨distinct_proposals hp hprop fun _ hx => hx,
      distinct_pushed hr hrec hnew, ?_⟩
    rw [held_pushed hrec]
    exact (granted_accepted hprop hknw hpend hmatch).trans (hpairs.append_right _)
  | edited edited _ _ _ hknw hpend hmatch hnew htgt _ hprop hrec =>
    refine ⟨distinct_proposals hp hprop fun _ hx => hx, ?_, ?_⟩
    · have hchg : Distinct ProjectedMemoryRecord.id
          (s.changeRecord edited.replacedRecordId fun r =>
            r.supersede edited.acceptance.record.recordId event.metadata).records :=
        distinct_changed hr fun _ hx => hx
      exact distinct_pushed hchg hrec (fresh_changed event hnew htgt)
    · rw [held_pushed hrec, held_superseded]
      exact (granted_accepted hprop hknw hpend hmatch).trans (hpairs.append_right _)
  | superseded _ _ _ _ _ _ hprop hrec =>
    refine ⟨hprop ▸ hp, hrec ▸ distinct_changed hr fun _ hx => hx, ?_⟩
    rw [hprop, hrec, held_superseded]
    exact hpairs
  | expired _ _ _ _ _ hprop hrec =>
    refine ⟨hprop ▸ hp, hrec ▸ distinct_changed hr fun _ hx => hx, ?_⟩
    rw [hprop, hrec, held_expired]
    exact hpairs
  | unrelated _ _ hprop hrec =>
    exact ⟨hprop ▸ hp, hrec ▸ hr, by rw [hprop, hrec]; exact hpairs⟩

theorem reachable_registered (h : (MemoryProjectionOf limits).Reachable s) : Registered s := by
  refine reachable_inv (apply_atomic limits) ?_ ?_ h
  · exact ⟨nodup_nil, nodup_nil, List.Perm.nil⟩
  · intro s event ha hs
    exact transition_registered (accepts_transition ha) hs

/-- Whatever is fed to the projection: identities are unique, records and accepted proposals
correspond one to one, a record that is no longer current keeps its entry from then on, and a
rejected event changes nothing. -/
theorem memory_records_invariant (limits : MemoryLimits) (events : List MemoryEvent) :
    let s := (MemoryProjectionOf limits).feed (MemoryProjectionOf limits).initial events
    Distinct ProjectedMemoryRecord.id s.records ∧
    Distinct ProjectedMemoryProposal.id s.proposals ∧
    (∀ r ∈ s.records, ∃! p, p ∈ s.proposals ∧ RecordOf p r) ∧
    (∀ p ∈ s.proposals, p.state = .accepted → ∃! r, r ∈ s.records ∧ RecordOf p r) ∧
    (∀ later id r, s.findRecord id = some r → r.state ≠ .current →
      ((MemoryProjectionOf limits).feed s later).findRecord id = some r) ∧
    ∀ event, ¬ (MemoryProjectionOf limits).Accepts s event →
      ((MemoryProjectionOf limits).apply s event).2 = s := by
  intro s
  have hreach : (MemoryProjectionOf limits).Reachable s := ⟨events, rfl⟩
  have hs : Registered s := reachable_registered hreach
  refine ⟨hs.records, hs.proposals, ?_, ?_, ?_, apply_atomic limits s⟩
  · intro r hr
    exact hs.proposal_exists hr
  · intro p hp hstate
    exact hs.record_exists hp hstate
  · intro later id r hr hstate
    exact feed_retired s later id r hr hstate

/-- Where the link of a record leads, if it has one. -/
def replacement (s : MemoryState) (id : MemoryRecordId) : Option MemoryRecordId :=
  (s.findRecord id).bind (·.replacementRecordId)

/-- Following the links from a record passes no record twice and ends in one that has not been
superseded. -/
def Resolves (s : MemoryState) (id : MemoryRecordId) : Prop :=
  ∃ path last q, Trail (replacement s) id path ∧ path.Nodup ∧ path.getLast? = some last ∧
    s.findRecord last = some q ∧ q.state ≠ .superseded

def SupersessionWellFounded (s : MemoryState) : Prop :=
  ∀ id r, s.findRecord id = some r → r.state = .superseded → Resolves s id

def supersessionOf : MemoryEventPayload → Option MemorySupersession
  | .memorySuperseded supersession => some supersession
  | _ => none

/-- The replacement named by a supersession is not the record itself and does not lead back to
it. -/
def ReplacementApart (s : MemoryState) (event : MemoryEvent) : Prop :=
  ∀ supersession ∈ supersessionOf event.payload,
    ¬ Leads (replacement s) supersession.replacementRecordId supersession.recordId

/-- A link goes from a superseded record, and only from such a record, into `known`. -/
def LinksInto (known : MemoryRecordId → Prop) (s : MemoryState) : Prop :=
  ∀ id r, s.findRecord id = some r →
    (r.state ≠ .superseded → r.replacementRecordId = none) ∧
    (r.state = .superseded → ∃ b ∈ r.replacementRecordId, known b)

def Known (s : MemoryState) (id : MemoryRecordId) : Prop := (s.findRecord id).isSome

def LinksKnown (s : MemoryState) : Prop := LinksInto (Known s) s

theorem known_changed (ht : t.records = (s.changeRecord id' f).records)
    (hf : ∀ x : ProjectedMemoryRecord, x.id = id' → (f x).id = id') (h : Known s id) :
    Known t id := by
  unfold Known at h ⊢
  by_cases hid : id = id'
  · subst hid
    rw [findRecord_changed ht hf, Option.isSome_map]
    exact h
  · rw [findRecord_changed_ne ht hf hid]
    exact h

theorem known_pushed (ht : t.records = (s.pushRecord record metadata).records)
    (hnew : s.findRecord record.recordId = none) (h : Known s id) : Known t id := by
  unfold Known at h ⊢
  by_cases hid : id = record.recordId
  · rw [hid, hnew] at h
    cases h
  · rw [findRecord_pushed_ne ht hid]
    exact h

section LinksInto

variable {known : MemoryRecordId → Prop} {metadata : EventMetadata}

theorem linksInto_mono {known' : MemoryRecordId → Prop} (h : LinksInto known s)
    (hk : ∀ b, known b → known' b) : LinksInto known' s := by
  intro id r hr
  refine ⟨(h id r hr).1, fun hs => ?_⟩
  obtain ⟨b, hb, hknw⟩ := (h id r hr).2 hs
  exact ⟨b, hb, hk b hknw⟩

theorem linksInto_kept (ht : t.records = s.records) (h : LinksInto known s) :
    LinksInto known t := by
  intro id r hr
  rw [findRecord_kept ht] at hr
  exact h id r hr

theorem linksInto_pushed (ht : t.records = (s.pushRecord record metadata).records)
    (hnew : s.findRecord record.recordId = none) (h : LinksInto known s) : LinksInto known t := by
  intro id r hr
  by_cases hid : id = record.recordId
  · rw [hid, findRecord_pushed ht hnew] at hr
    cases hr
    exact ⟨fun _ => rfl, nofun⟩
  · rw [findRecord_pushed_ne ht hid] at hr
    exact h id r hr

/-- The changed record has to be looked at, the others are as they were. -/
theorem linksInto_changed (ht : t.records = (s.changeRecord id' f).records)
    (hf : ∀ x : ProjectedMemoryRecord, x.id = id' → (f x).id = id')
    (htgt : s.findRecord id' = some found) (h : LinksInto known s)
    (hnone : (f found).state ≠ .superseded → (f found).replacementRecordId = none)
    (hsome : (f found).state = .superseded → ∃ b ∈ (f found).replacementRecordId, known b) :
    LinksInto known t := by
  intro id r hr
  by_cases hid : id = id'
  · rw [hid, findRecord_changed ht hf, htgt] at hr
    cases hr
    exact ⟨hnone, hsome⟩
  · rw [findRecord_changed_ne ht hf hid] at hr
    exact h id r hr

theorem linksInto_superseded {b : MemoryRecordId}
    (ht : t.records = (s.changeRecord id fun r => r.supersede b metadata).records)
    (htgt : s.findRecord id = some found) (hb : known b) (h : LinksInto known s) :
    LinksInto known t := by
  refine linksInto_changed ht (fun _ hx => hx) htgt h ?_ ?_
  · intro hs
    exact absurd rfl hs
  · intro _
    exact ⟨b, rfl, hb⟩

theorem linksInto_expired
    (ht : t.records = (s.changeRecord id fun r => r.expire reason metadata).records)
    (htgt : s.findRecord id = some found) (hcur : found.state = .current)
    (h : LinksInto known s) : LinksInto known t := by
  refine linksInto_changed ht (fun _ hx => hx) htgt h ?_ nofun
  intro _
  exact (h id found htgt).1 (by rw [hcur]; nofun)

end LinksInto

theorem transition_linksKnown (h : Transition s event t) (hs : LinksKnown s) : LinksKnown t := by
  have hkept : t.records = s.records → LinksKnown t := by
    intro hr
    refine linksInto_mono (linksInto_kept hr hs) fun b hb => ?_
    unfold Known at hb ⊢
    rw [findRecord_kept hr]
    exact hb
  cases h with
  | proposed _ _ _ _ hr | evaluated _ _ _ _ _ _ hr | rejected _ _ _ _ _ _ hr | unrelated _ _ _ hr =>
    exact hkept hr
  | accepted _ _ _ _ _ _ hfresh _ hr =>
    exact linksInto_mono (linksInto_pushed hr hfresh hs) fun b hb => known_pushed hr hfresh hb
  | expired _ _ _ htgt hcur _ hr =>
    exact linksInto_mono (linksInto_expired hr htgt hcur hs) fun b hb =>
      known_changed hr (fun _ hx => hx) hb
  | superseded _ _ _ htgt _ hrepl _ hr =>
    exact linksInto_mono (linksInto_superseded hr htgt hrepl hs) fun b hb =>
      known_changed hr (fun _ hx => hx) hb
  | edited edited _ _ _ _ _ _ hfresh htgt _ _ hr =>
    -- The link of the old record is set before the new record, its target, is there.
    have hfresh' := fresh_changed event hfresh htgt
    have hnew : Known t edited.acceptance.record.recordId := by
      unfold Known
      rw [findRecord_pushed hr hfresh']
      rfl
    have hgrow : ∀ b, Known s b → Known t b := by
      intro b hb
      refine known_pushed hr hfresh' (known_changed rfl ?_ hb)
      intro x hx
      exact hx
    have hlinked := linksInto_superseded
      (t := s.changeRecord edited.replacedRecordId fun r =>
        r.supersede edited.acceptance.record.recordId event.metadata)
      rfl htgt hnew (linksInto_mono hs hgrow)
    exact linksInto_pushed hr hfresh' hlinked

theorem replacement_congr (h : ∀ id, t.findRecord id = s.findRecord id) :
    replacement t = replacement s := by
  funext id
  unfold replacement
  rw [h]

theorem replacement_current (hs : LinksKnown s) (hr : s.findRecord id = some r)
    (hcur : r.state = .current) : replacement s id = none := by
  have hnone := (hs id r hr).1 (by rw [hcur]; nofun)
  unfold replacement
  rw [hr]
  exact hnone

theorem replacement_some (hs : LinksKnown s) {b : MemoryRecordId} (h : replacement s id = some b) :
    ∃ r, s.findRecord id = some r ∧ r.state = .superseded ∧ r.replacementRecordId = some b := by
  obtain ⟨r, hr, hb⟩ := Option.bind_eq_some_iff.1 h
  refine ⟨r, hr, ?_, hb⟩
  by_contra hne
  rw [(hs id r hr).1 hne] at hb
  cases hb

/-- What an accepted event does to the links: nothing, or one more, from a current record to a
new one or to the one that a supersession names. -/
inductive Linked (s : MemoryState) (event : MemoryEvent) (t : MemoryState) : Prop where
  | kept (apart : supersessionOf event.payload = none) (same : replacement t = replacement s)
  | linked (a b : MemoryRecordId) (before : replacement s a = none)
      (after : replacement t a = some b) (others : ∀ y, y ≠ a → replacement t y = replacement s y)
      (source : s.findRecord b = none ∧ Known s a ∧ supersessionOf event.payload = none ∨
        ∃ supersession, supersessionOf event.payload = some supersession ∧
          supersession.recordId = a ∧ supersession.replacementRecordId = b)

theorem replacement_superseded {b : MemoryRecordId}
    (ht : t.records = (s.changeRecord id fun r => r.supersede b metadata).records)
    (htgt : s.findRecord id = some found) :
    replacement t id = some b ∧ ∀ y, y ≠ id → replacement t y = replacement s y := by
  constructor
  · unfold replacement
    rw [findRecord_changed ht fun _ hx => hx, htgt]
    rfl
  · intro y hy
    unfold replacement
    rw [findRecord_changed_ne ht (fun _ hx => hx) hy]

theorem replacement_pushed (ht : t.records = (s.pushRecord record metadata).records)
    (hnew : s.findRecord record.recordId = none) : replacement t = replacement s := by
  funext id
  unfold replacement
  by_cases hid : id = record.recordId
  · subst hid
    rw [findRecord_pushed ht hnew, hnew]
    rfl
  · rw [findRecord_pushed_ne ht hid]

theorem replacement_expired
    (ht : t.records = (s.changeRecord id fun r => r.expire reason metadata).records)
    (htgt : s.findRecord id = some found) : replacement t = replacement s := by
  funext y
  unfold replacement
  by_cases hy : y = id
  · subst hy
    rw [findRecord_changed ht fun _ hx => hx, htgt]
    rfl
  · rw [findRecord_changed_ne ht (fun _ hx => hx) hy]

theorem transition_linked (h : Transition s event t) (hs : LinksKnown s) : Linked s event t := by
  cases h with
  | proposed _ hp _ _ hr | evaluated _ _ hp _ _ _ hr | rejected _ _ hp _ _ _ hr
  | unrelated _ hp _ hr =>
    exact .kept (by rw [hp]; rfl) (replacement_congr (findRecord_kept hr))
  | accepted _ _ hp _ _ _ hnew _ hr =>
    exact .kept (by rw [hp]; rfl) (replacement_pushed hr hnew)
  | expired _ _ hp htgt _ _ hr =>
    exact .kept (by rw [hp]; rfl) (replacement_expired hr htgt)
  | superseded supersession _ hp htgt hcur _ _ hr =>
    obtain ⟨haft, hoth⟩ := replacement_superseded hr htgt
    refine .linked _ _ (replacement_current hs htgt hcur) haft hoth (.inr ?_)
    exact ⟨supersession, by rw [hp]; rfl, rfl, rfl⟩
  | edited edited _ _ hp _ _ _ hnew htgt hcur _ hr =>
    have hpushed := replacement_pushed hr (fresh_changed event hnew htgt)
    obtain ⟨haft, hoth⟩ := replacement_superseded
      (t := s.changeRecord edited.replacedRecordId fun r =>
        r.supersede edited.acceptance.record.recordId event.metadata) rfl htgt
    refine .linked edited.replacedRecordId edited.acceptance.record.recordId
      (replacement_current hs htgt hcur) ?_ ?_ (.inl ⟨hnew, ?_, by rw [hp]; rfl⟩)
    · rw [hpushed]
      exact haft
    · rw [hpushed]
      exact hoth
    · unfold Known
      rw [htgt]
      rfl

theorem trail_known (hs : LinksKnown s) {path : List MemoryRecordId}
    (h : Trail (replacement s) id path) (hid : Known s id) : ∀ b ∈ path, Known s b := by
  induction h with
  | @stop x _ =>
    intro b hb
    obtain rfl := mem_singleton.1 hb
    exact hid
  | @step x y path hx _ ih =>
    obtain ⟨r, hr, hst, hy⟩ := replacement_some hs hx
    obtain ⟨b, hb, hknw⟩ := (hs x r hr).2 hst
    obtain rfl := Option.some.inj (hb.symm.trans hy)
    exact forall_mem_cons.2 ⟨hid, ih hknw⟩

/-- With links as they are kept, a state is well founded if every trail of links ends. -/
theorem wellFounded_iff_trails (hs : LinksKnown s) :
    SupersessionWellFounded s ↔ ∀ id, ∃ path, Trail (replacement s) id path := by
  constructor
  · intro h id
    cases hn : replacement s id with
    | none => exact ⟨[id], .stop hn⟩
    | some =>
      obtain ⟨r, hr, hst, -⟩ := replacement_some hs hn
      obtain ⟨path, -, -, htrail, -⟩ := h id r hr hst
      exact ⟨path, htrail⟩
  · intro h id r hr _
    obtain ⟨path, htrail⟩ := h id
    obtain ⟨last, hlast, hend⟩ := htrail.last
    have hknw : Known s last := trail_known hs htrail (by unfold Known; rw [hr]; rfl)
      last (mem_of_getLast? hlast)
    obtain ⟨q, hq⟩ := Option.isSome_iff_exists.1 hknw
    refine ⟨path, last, q, htrail, htrail.nodup, hlast, hq, ?_⟩
    intro hst
    obtain ⟨b, hb, -⟩ := (hs last q hq).2 hst
    unfold replacement at hend
    rw [hq] at hend
    cases (hend.symm.trans hb : none = some b)

theorem linked_trails (h : Linked s event t) (hs : ∀ id, ∃ path, Trail (replacement s) id path)
    (hapart : ReplacementApart s event) (id : MemoryRecordId) :
    ∃ path, Trail (replacement t) id path := by
  cases h with
  | kept _ hsame =>
    rw [hsame]
    exact hs id
  | linked _ b hpre haft hoth hsrc =>
    obtain ⟨path, hpath⟩ := hs id
    obtain ⟨_, hpath'⟩ := hs b
    refine hpath.link hoth hpre haft hpath' ?_
    rcases hsrc with ⟨hnew, hknw, -⟩ | ⟨supersession, hp, rfl, rfl⟩
    · intro hlead
      rcases Relation.ReflTransGen.cases_head hlead with rfl | ⟨_, hc, -⟩
      · unfold Known at hknw
        rw [hnew] at hknw
        cases hknw
      · unfold replacement at hc
        rw [hnew] at hc
        cases hc
    · exact hapart supersession hp

theorem linked_apart (h : Linked s event t)
    (ht : ∀ id, ∃ path, Trail (replacement t) id path) : ReplacementApart s event := by
  intro supersession hp hlead
  cases h with
  | kept hnone =>
    rw [hnone] at hp
    cases hp
  | linked _ _ hpre haft hoth hsrc =>
    rcases hsrc with ⟨-, -, hnone⟩ | ⟨other, hp', rfl, rfl⟩
    · rw [hnone] at hp
      cases hp
    · obtain rfl : other = supersession := Option.some.inj (hp'.symm.trans hp)
      obtain ⟨path, hpath⟩ := ht other.recordId
      refine hpath.no_return haft (hlead.mono fun y z hyz => ?_)
      have hy : y ≠ other.recordId := by
        rintro rfl
        rw [hpre] at hyz
        cases hyz
      rw [hoth y hy]
      exact hyz

theorem accepted_linksKnown {events : List MemoryEvent}
    (h : (MemoryProjectionOf limits).Accepted (MemoryProjectionOf limits).initial events s) :
    LinksKnown s := by
  refine accepted_invariant (fun u event hu hs => ?_) h ?_
  · exact transition_linksKnown (accepts_transition hu) hs
  · intro id r hr
    cases hr

/-- Along an accepted stream every state is well founded exactly if no supersession names a
replacement that is, or leads to, the record it supersedes. -/
theorem supersession_wellFounded_iff {limits : MemoryLimits} {events : List MemoryEvent}
    {t : MemoryState}
    (h : (MemoryProjectionOf limits).Accepted (MemoryProjectionOf limits).initial events t) :
    (∀ past s, past <+: events →
      (MemoryProjectionOf limits).Accepted (MemoryProjectionOf limits).initial past s →
      SupersessionWellFounded s) ↔
    ∀ past event s, past ++ [event] <+: events →
      (MemoryProjectionOf limits).Accepted (MemoryProjectionOf limits).initial past s →
      ReplacementApart s event := by
  constructor
  · rintro hall past event s ⟨_, rfl⟩ hs
    obtain ⟨u, hu, -⟩ := accepted_append.1 h
    obtain ⟨s', hs', hstep⟩ := accepted_append.1 hu
    obtain rfl : s' = s := (accepted_feed hs').symm.trans (accepted_feed hs)
    have htrails := (wellFounded_iff_trails (accepted_linksKnown hu)).1
      (hall (past ++ [event]) u (prefix_append _ _) hu)
    rcases hstep with _ | ⟨hx, ⟨⟩⟩
    exact linked_apart (transition_linked (accepts_transition hx) (accepted_linksKnown hs)) htrails
  · intro hcond past s hpre hs
    refine (wellFounded_iff_trails (accepted_linksKnown hs)).2 ?_
    induction past using List.reverseRecOn generalizing s with
    | nil =>
      cases hs
      intro id
      exact ⟨[id], .stop rfl⟩
    | append_singleton past event ih =>
      obtain ⟨u, hu, hstep⟩ := accepted_append.1 hs
      have hbefore := ih u ((prefix_append _ _).trans hpre) hu
      rcases hstep with _ | ⟨hx, ⟨⟩⟩
      exact linked_trails (transition_linked (accepts_transition hx) (accepted_linksKnown hu))
        hbefore (hcond past event u hpre hu)

/-- The only record there is, superseded by itself. -/
def tabsSelfSuperseded : MemoryEvent :=
  memoryEvent "superseded" 3 (.memorySuperseded ⟨"record", "record", .user, "accepted"⟩)

theorem self_supersession_cycle : ¬ ∀ limits events t,
      (MemoryProjectionOf limits).Accepted (MemoryProjectionOf limits).initial events t →
      SupersessionWellFounded t := by
  intro h
  have hwf := h {} [tabsProposed, tabsAccepted, tabsSelfSuperseded] _
    (accepted_of_isOk (by decide))
  have hrecord : ∃ r, ((MemoryProjectionOf {}).feed (MemoryProjectionOf {}).initial
      [tabsProposed, tabsAccepted, tabsSelfSuperseded]).findRecord "record" = some r ∧
      r.state = .superseded ∧ r.replacementRecordId = some "record" :=
    ⟨⟨⟨"record", "proposal", tabsProposal.owner, tabsProposal.kind, tabsProposal.content,
      tabsProposal.rationale, tabsProposal.source, tabsProposal.producer⟩, "superseded", 0,
      .superseded, some 0, some "record", none⟩, by decide, rfl, rfl⟩
  obtain ⟨r, hr, hstate, hlink⟩ := hrecord
  obtain ⟨_, -, -, htrail, -⟩ := hwf "record" r hr hstate
  refine htrail.no_return (y := "record") ?_ .refl
  unfold replacement
  rw [hr]
  exact hlink

def spacesProposal : MemoryProposal :=
  { tabsProposal with
    proposalId := "proposal-2", recordId := "record-2", content := bytesOf "spaces",
    source := ⟨"session", "run", "call-2", ["message"]⟩ }

def spacesInstead : List MemoryEvent :=
  [tabsProposed, tabsAccepted, memoryEvent "proposed-2" 3 (.memoryProposed spacesProposal),
    memoryEvent "accepted-2" 4 (.memoryAccepted
      ⟨⟨"record-2", "proposal-2", spacesProposal.owner, spacesProposal.kind,
        spacesProposal.content, spacesProposal.rationale, spacesProposal.source,
        spacesProposal.producer⟩, .user, "proposed-2"⟩),
    memoryEvent "superseded" 5 (.memorySuperseded ⟨"record", "record-2", .user, "accepted"⟩)]

theorem spaces_supersession_wellFounded :
    (∃ t, (MemoryProjectionOf {}).Accepted (MemoryProjectionOf {}).initial spacesInstead t) ∧
    ∀ past s, past <+: spacesInstead →
      (MemoryProjectionOf {}).Accepted (MemoryProjectionOf {}).initial past s →
      SupersessionWellFounded s := by
  have hs : (MemoryProjectionOf {}).Accepted (MemoryProjectionOf {}).initial spacesInstead _ :=
    accepted_of_isOk (by decide)
  refine ⟨⟨_, hs⟩, (supersession_wellFounded_iff hs).2 ?_⟩
  -- No replacement has a link of its own, so it leads nowhere else.
  have hplain : ∀ past event s, past ++ [event] <+: spacesInstead →
      (MemoryProjectionOf {}).Accepted (MemoryProjectionOf {}).initial past s →
      ∀ supersession ∈ supersessionOf event.payload,
        supersession.replacementRecordId ≠ supersession.recordId ∧
        replacement s supersession.replacementRecordId = none :=
    forall_steps (Q := fun s (event : MemoryEvent) => ∀ supersession ∈
        supersessionOf event.payload,
        supersession.replacementRecordId ≠ supersession.recordId ∧
        replacement s supersession.replacementRecordId = none) (by decide)
  intro past event s hpre hs supersession hp hlead
  obtain ⟨hne, hnone⟩ := hplain past event s hpre hs supersession hp
  rcases Relation.ReflTransGen.cases_head hlead with he | ⟨_, hc, -⟩
  · exact hne he
  · rw [hnone] at hc
    cases hc

end MemoryRecords
