import AiForge.SummaryInvariant

/-! # Previewed transitions

A transition that passes its preview can be written, and replaying the longer log gives the
previewed snapshot. The replay of the longer log goes through the same catalogs as the one of
the log; only the work it accounts for depends on the number of events. -/
namespace SummaryPreview

open Admission List SourceRecovery Summary SummaryDraft SummaryInvariant SummaryLog
  SummaryProjection SummaryReplacement
open Money Staged Option

structure Envelope (log : SessionLog) (before current after : SummaryEvent) : Prop where
  room : log.events.length + 3 ≤ maximumEvents
  control : controlRun before current after
  first : before.sequence = log.lastSequence + 1
  second : current.sequence = log.lastSequence + 2
  third : after.sequence = log.lastSequence + 3
  distinct : before.eventId ≠ current.eventId ∧ before.eventId ≠ after.eventId ∧
    current.eventId ≠ after.eventId
  freshRun : ∀ event ∈ log.events, event.metadata.runId ≠ before.metadata.runId
  freshEvents : ∀ event ∈ log.events, ∀ appended ∈ [before, current, after],
    appended.eventId ≠ event.eventId
  work : log.events.countP isIntentRecorded * (log.events.length + 3) ≤ maximumWork

variable {before : SummaryEvent} {suffix : List SummaryEvent}

theorem countIntents_ok {events : List SummaryEvent}
    {start intents : ℕ} (h : events.foldlM (countIntents before suffix) start = .ok intents) :
    (∀ event ∈ events, event.metadata.runId ≠ before.metadata.runId ∧
      ∀ appended ∈ suffix, appended.eventId ≠ event.eventId) ∧
    intents = start + events.countP isIntentRecorded := by
  induction events generalizing start with
  | nil =>
    cases h
    refine ⟨forall_mem_nil _, ?_⟩
    rw [countP_nil, Nat.add_zero]
  | cons _ _ ih =>
    obtain ⟨_, hstep, hrest⟩ := foldlM_cons_ok.1 h
    obtain ⟨hnew, hstep⟩ := guarded hstep
    cases hstep
    obtain ⟨hall, hcnt⟩ := ih hrest
    refine ⟨forall_mem_cons.2 ⟨hnew, hall⟩, ?_⟩
    rw [countP_cons, hcnt]
    split <;> omega

variable {log : SessionLog} {current after : SummaryEvent}

theorem transitionEnvelope_ok
    (h : transitionEnvelope log suffix = .ok (before, current, after)) :
    suffix = [before, current, after] ∧ Envelope log before current after := by
  unfold transitionEnvelope at h
  split at h
  · rename_i first second third
    obtain ⟨hroom, h⟩ := guarded h
    obtain ⟨hctrl, h⟩ := guarded h
    obtain ⟨_, hmeta, h⟩ := bind_ok.1 h
    obtain ⟨_, hint, h⟩ := bind_ok.1 h
    obtain ⟨hwork, h⟩ := guarded h
    cases h
    obtain ⟨_, hfst, hmeta⟩ := bind_ok.1 hmeta
    obtain ⟨_, hsnd, hmeta⟩ := bind_ok.1 hmeta
    obtain ⟨_, hthird, -⟩ := bind_ok.1 hmeta
    obtain ⟨_, hfst, -⟩ := bind_ok.1 hfst
    obtain ⟨hsnd, hsecs⟩ := guarded hsnd
    obtain ⟨hthird, hthirds⟩ := guarded hthird
    have hsecs := ensure_ok.1 hsecs
    have hthirds := ensure_ok.1 hthirds
    obtain ⟨hnew, rfl⟩ := countIntents_ok hint
    rw [Nat.zero_add] at hwork
    refine ⟨rfl, ?_, hctrl.2, (ensure_ok.1 hfst).1,
      hsnd.1, hthird.1,
      ⟨hsecs before mem_cons_self, hthirds before mem_cons_self,
        hthirds current (mem_cons_of_mem _ mem_cons_self)⟩,
      fun event he => (hnew event he).1, fun event he => (hnew event he).2, ?_⟩
    · simp only [length_cons, length_nil, maximumEvents] at hroom ⊢
      omega
    · exact (Nat.le_div_iff_mul_le (by simp)).1 hwork
  · cases h

theorem Envelope.append (h : Envelope log before current after) :
    ∃ longer, [before, current, after].foldlM SessionLog.append log = some longer := by
  obtain ⟨-, -, _, _, _⟩ := controlRun_started h.control
  have hnew : ∀ appended ∈ [before, current, after],
      appended.eventId ∉ log.events.map SummaryEvent.eventId := by
    intro appended happended hmem
    obtain ⟨event, he, heq⟩ := mem_map.1 hmem
    exact h.freshEvents event he appended happended heq.symm
  obtain ⟨hbc, hba, hca⟩ := h.distinct
  have hpre : log.Takes before := by
    refine ⟨?_, by omega, hnew before (by simp), ?_⟩
    · rw [h.first]
      omega
    · rw [h.first]
      omega
  have hcur : (log.push before hpre).Takes current := by
    refine ⟨?_, by omega, ?_, ?_⟩
    · rw [h.second]
      omega
    · simp only [SessionLog.push, map_append, map_singleton, mem_append,
        mem_singleton, not_or]
      exact ⟨hnew current (by simp), Ne.symm hbc⟩
    · rw [SessionLog.push_lastSequence, h.first, h.second]
      omega
  have haft : ((log.push before hpre).push current hcur).Takes after := by
    refine ⟨?_, by omega, ?_, ?_⟩
    · rw [h.third]
      omega
    · simp only [SessionLog.push, map_append, map_singleton, mem_append,
        mem_singleton, not_or]
      exact ⟨⟨hnew after (by simp), Ne.symm hba⟩, Ne.symm hca⟩
    · rw [SessionLog.push_lastSequence, h.second, h.third]
      omega
  refine ⟨((log.push before hpre).push current hcur).push after haft, ?_⟩
  simp only [foldlM_cons, foldlM_nil, append_some.2 ⟨hpre, rfl⟩,
    append_some.2 ⟨hcur, rfl⟩, append_some.2 ⟨haft, rfl⟩, Option.bind_eq_bind,
    Option.bind_some, Option.pure_def]

/-- The state with the work accounted for as if the log had this many events. -/
def atLength (length : ℕ) (state : Replay) : Replay :=
  { state with budget := { state.budget with
      resolutionEvents := length * state.catalog.intents.length } }

variable {intent : ConversationSummaryIntent}

theorem reserve_work {budget result : CatalogBudget}
    {events : ℕ} (length work : ℕ) (h : budget.reserve intent events = some result)
    (hwork : work + length ≤ maximumWork) :
    ({ budget with resolutionEvents := work } : CatalogBudget).reserve intent length =
      some { result with resolutionEvents := work + length } := by
  obtain ⟨_, -, h⟩ := bind_eq_some_iff.1 h
  obtain ⟨manifest, hmanifest, h⟩ := bind_eq_some_iff.1 h
  cases h
  refine bind_eq_some_iff.2 ⟨(), ?_, bind_eq_some_iff.2
    ⟨manifest, hmanifest, rfl⟩⟩
  rw [guard_eq_some']
  show length ≤ maximumWork - work
  omega

section Longer

variable {history : History} {log longer : SessionLog} {suffix : List SummaryEvent}
  {state next : Replay} {event : SummaryEvent} {index : ℕ}

section

variable (hlog : log.ExtendedBy suffix longer)

include hlog

theorem addIntent_extended
    (hwork : longer.events.length * (state.catalog.intents.length + 1) ≤ maximumWork)
    (h : addIntent history log log.events state index intent = .ok next) :
    addIntent history longer longer.events (atLength longer.events.length state) index intent =
      .ok (atLength longer.events.length next) := by
  obtain ⟨_, hcnt, h⟩ := bind_ok.1 h
  obtain ⟨hcons, h⟩ := guarded h
  obtain ⟨_, hbud, h⟩ := bind_ok.1 h
  obtain ⟨resolved, hrslv, h⟩ := bind_ok.1 h
  obtain ⟨_, htok, h⟩ := bind_ok.1 h
  cases h
  obtain ⟨hval, hsess, htx, hnew⟩ := hcons
  rw [Nat.mul_add, Nat.mul_one] at hwork
  have hbud := reserve_work longer.events.length
    (longer.events.length * state.catalog.intents.length) (require_ok.1 hbud) hwork
  have htx : intentTransaction longer.events index intent := by
    rw [hlog.events]
    exact intentTransaction_append suffix htx
  refine bind_ok.2 ⟨_, hcnt, ?_⟩
  refine ensured ⟨hval, ?_, htx, hnew⟩ ?_
  · rw [hlog.session]
    exact hsess
  refine bind_ok.2 ⟨_, require_ok.2 hbud, ?_⟩
  refine bind_ok.2 ⟨resolved, mapError_ok.2
    (resolve_extended hlog (mapError_ok.1 hrslv)), ?_⟩
  refine bind_ok.2 ⟨_, htok, ?_⟩
  simp [atLength, Nat.mul_add, pure, Except.pure]

theorem checkDraft_extended {candidate : ConversationSummaryCandidate} {sequence : ℕ}
    (h : checkDraft log intent candidate sequence = .ok ()) :
    checkDraft longer intent candidate sequence = .ok () := by
  unfold checkDraft at h ⊢
  split at h
  · rfl
  · obtain ⟨draft, hdrf, h⟩ := bind_ok.1 h
    exact bind_ok.2
      ⟨draft, mapError_ok.2 (recover_extended hlog (mapError_ok.1 hdrf)), h⟩

theorem addCandidate_extended (length : ℕ)
    {candidate : ConversationSummaryCandidate}
    (h : addCandidate log state event candidate = .ok next) :
    addCandidate longer (atLength length state) event candidate = .ok (atLength length next) := by
  obtain ⟨_, hroom, h⟩ := bind_ok.1 h
  obtain ⟨intent, hint, h⟩ := bind_ok.1 h
  obtain ⟨_, henv, h⟩ := bind_ok.1 h
  obtain ⟨parent, hpar, h⟩ := bind_ok.1 h
  obtain ⟨_, hval, h⟩ := bind_ok.1 h
  obtain ⟨_, hdrf, h⟩ := bind_ok.1 h
  cases h
  refine bind_ok.2 ⟨_, hroom, bind_ok.2 ⟨intent, hint, ?_⟩⟩
  refine bind_ok.2 ⟨_, henv, bind_ok.2 ⟨parent, hpar, ?_⟩⟩
  exact bind_ok.2 ⟨_, hval, bind_ok.2 ⟨_, checkDraft_extended hlog hdrf, rfl⟩⟩

theorem ensureControl_extended
    (h : ensureControl log.events index = .ok ()) : ensureControl longer.events index = .ok () := by
  refine ensure_ok.2 ?_
  rw [hlog.events]
  exact controlTransaction_append suffix (ensure_ok.1 h)

end

/-- What an activation or a disabling does to the catalog leaves the intents as they are. -/
theorem activate_intents {catalog result : Catalog} {action : ConversationSummaryActivated}
    (h : activate catalog action event = .ok result) : result.intents = catalog.intents := by
  obtain ⟨-, -, rfl⟩ := activate_ok h
  rfl

theorem disable_intents {catalog result : Catalog} {action : ConversationSummaryDisabled}
    (h : disable catalog action = .ok result) : result.intents = catalog.intents := by
  replace h := later h
  cases h
  rfl

/-- A step of the replay of a log is also one of the replay of the longer log, as long as the
longer log leaves room for the intents that are still to come. -/
theorem summaryStep_extended (hlog : log.ExtendedBy suffix longer) {item : SummaryEvent × ℕ}
    (hwork : isIntentRecorded item.1 →
      longer.events.length * (state.catalog.intents.length + 1) ≤ maximumWork)
    (h : summaryStep history log log.events state item = .ok next) :
    summaryStep history longer longer.events (atLength longer.events.length state) item =
      .ok (atLength longer.events.length next) ∧
    next.catalog.intents.length = state.catalog.intents.length +
      if isIntentRecorded item.1 then 1 else 0 := by
  obtain ⟨_, hsupp, h⟩ := bind_ok.1 h
  unfold isIntentRecorded at hwork ⊢
  cases hpay : item.1.payload with
  | conversationSummaryGenerationIntentRecorded =>
    rw [hpay] at hwork
    simp only [applySummaryEvent, hpay] at h
    refine ⟨bind_ok.2 ⟨_, hsupp, ?_⟩, ?_⟩
    · simp only [applySummaryEvent, hpay]
      exact addIntent_extended hlog (hwork rfl) h
    · rw [addIntent_catalog h, length_append]
      rfl
  | conversationSummaryCandidatePublished =>
    simp only [applySummaryEvent, hpay] at h
    obtain ⟨_, hctrl, h⟩ := bind_ok.1 h
    refine ⟨bind_ok.2 ⟨_, hsupp, ?_⟩, ?_⟩
    · simp only [applySummaryEvent, hpay]
      exact bind_ok.2
        ⟨_, ensureControl_extended hlog hctrl, addCandidate_extended hlog _ h⟩
    · obtain ⟨-, -, -, -, -, -, -, -, hnext⟩ := addCandidate_ok h
      rw [hnext]
      rfl
  | conversationSummaryActivated =>
    simp only [applySummaryEvent, hpay] at h
    obtain ⟨_, hctrl, h⟩ := bind_ok.1 h
    obtain ⟨catalog, hcat, h⟩ := bind_ok.1 h
    cases h
    have hint := activate_intents hcat
    refine ⟨bind_ok.2 ⟨_, hsupp, ?_⟩, by rw [hint]; rfl⟩
    simp only [applySummaryEvent, hpay]
    refine bind_ok.2 ⟨_, ensureControl_extended hlog hctrl,
      bind_ok.2 ⟨catalog, hcat, ?_⟩⟩
    simp only [atLength, hint]
    rfl
  | conversationSummaryDisabled =>
    simp only [applySummaryEvent, hpay] at h
    obtain ⟨_, hctrl, h⟩ := bind_ok.1 h
    obtain ⟨catalog, hcat, h⟩ := bind_ok.1 h
    cases h
    have hint := disable_intents hcat
    refine ⟨bind_ok.2 ⟨_, hsupp, ?_⟩, by rw [hint]; rfl⟩
    simp only [applySummaryEvent, hpay]
    refine bind_ok.2 ⟨_, ensureControl_extended hlog hctrl,
      bind_ok.2 ⟨catalog, hcat, ?_⟩⟩
    simp only [atLength, hint]
    rfl
  | conversationPolicySet | run =>
    simp only [applySummaryEvent, hpay] at h
    cases h
    refine ⟨bind_ok.2 ⟨_, hsupp, ?_⟩, rfl⟩
    simp only [applySummaryEvent, hpay]
    rfl

end Longer

/-- The intents among the events still to come. -/
def intentsIn (items : List (SummaryEvent × ℕ)) : ℕ :=
  items.countP fun item => isIntentRecorded item.1

theorem intentsIn_cons (item : SummaryEvent × ℕ) (items : List (SummaryEvent × ℕ)) :
    intentsIn (item :: items) = intentsIn items + if isIntentRecorded item.1 then 1 else 0 :=
  countP_cons

theorem intentsIn_zipIdx (events : List SummaryEvent) (start : ℕ) :
    intentsIn (events.zipIdx start) = events.countP isIntentRecorded := by
  induction events generalizing start with
  | nil => rfl
  | cons _ _ ih => rw [zipIdx_cons, intentsIn_cons, ih, countP_cons]

/-- The replay of the longer log is where the replay of the log is, and the intents that are in
the catalog or still to come are those of the log. -/
structure Follows (length total : ℕ) (items : List (SummaryEvent × ℕ)) (state longer : Replay) :
    Prop where
  same : longer = atLength length state
  intents : state.catalog.intents.length + intentsIn items = total

variable {history : History} {longer : SessionLog}

theorem replay_extended {next : Replay} (hlog : log.ExtendedBy suffix longer)
    (hwork : longer.events.length * log.events.countP isIntentRecorded ≤ maximumWork)
    (h : log.events.zipIdx.foldlM (summaryStep history log log.events) {} = .ok next) :
    log.events.zipIdx.foldlM (summaryStep history longer longer.events) {} =
      .ok (atLength longer.events.length next) := by
  have hbeg : Follows longer.events.length (log.events.countP isIntentRecorded)
      log.events.zipIdx {} {} := ⟨rfl, by rw [intentsIn_zipIdx]; exact Nat.zero_add _⟩
  obtain ⟨_, hfin, hfoll⟩ := Staged.foldlM_simulates
    (g := summaryStep history longer longer.events) (by
      rintro _ _ _ _ _ ⟨rfl, hcnt⟩ hstep
      rw [intentsIn_cons] at hcnt
      obtain ⟨hlonger, _⟩ := summaryStep_extended hlog (fun hrec => by
        rw [if_pos hrec] at hcnt
        exact (Nat.mul_le_mul_left _ (by omega)).trans hwork) hstep
      exact ⟨_, hlonger, rfl, by omega⟩) hbeg h
  rw [hfin, hfoll.same]

theorem positionLe_trans {first second third : ℕ × ConversationSummaryId}
    (h : positionLe first second) (h' : positionLe second third) :
    positionLe first third := by
  simp only [positionLe, Bool.or_eq_true, Bool.and_eq_true, decide_eq_true_eq, beq_iff_eq] at *
  rcases h with h | ⟨h, hle⟩
  · rcases h' with h' | ⟨h', -⟩
    · exact .inl (h.trans h')
    · exact .inl (h' ▸ h)
  · rcases h' with h' | ⟨h', hle'⟩
    · exact .inl (h ▸ h')
    · exact .inr ⟨h.trans h', hle.trans hle'⟩

theorem positionLe_total (first second : ℕ × ConversationSummaryId) :
    (positionLe first second || positionLe second first) = true := by
  simp only [positionLe, Bool.or_eq_true, Bool.and_eq_true, decide_eq_true_eq, beq_iff_eq]
  rcases Nat.lt_trichotomy first.1 second.1 with h | h | h
  · exact .inl (.inl h)
  · rcases le_total first.2 second.2 with hle | hle
    · exact .inl (.inr ⟨h, hle⟩)
    · exact .inr (.inr ⟨h.symm, hle⟩)
  · exact .inr (.inl h)

theorem positionLe_antisymm {first second : ℕ × ConversationSummaryId}
    (h : positionLe first second) (h' : positionLe second first) :
    first.2 = second.2 := by
  simp only [positionLe, Bool.or_eq_true, Bool.and_eq_true, decide_eq_true_eq, beq_iff_eq] at h h'
  rcases h with h | ⟨h, hle⟩
  · omega
  · rcases h' with h' | ⟨h', hle'⟩
    · omega
    · exact le_antisymm hle hle'

theorem sortActive_sorted (active : List Activation) :
    (sortActive active).Pairwise fun first second =>
      positionLe (position first) (position second) = true := by
  apply pairwise_mergeSort
  · exact fun a b c h h' => positionLe_trans h h'
  · exact fun a b => positionLe_total (position a) (position b)

/-- Sorting forgets the order the activations stood in: no two are of the same summary. -/
theorem sortActive_eq_of_perm {first second : List Activation} (hp : first.Perm second)
    (hn : (first.map summaryOf).Nodup) : sortActive first = sortActive second := by
  refine List.Perm.eq_of_pairwise ?_ (sortActive_sorted first) (sortActive_sorted second)
    ((sortActive_perm first).trans (hp.trans (sortActive_perm second).symm))
  intro a b ha hb hab hba
  have ha := (sortActive_perm first).mem_iff.1 ha
  have hb := hp.mem_iff.2 ((sortActive_perm second).mem_iff.1 hb)
  exact inj_on_of_nodup_map hn ha hb (positionLe_antisymm hab hba)

/-- An activation does the same whatever order the active summaries stand in. -/
theorem activate_perm {catalog result : Catalog} {action : ConversationSummaryActivated}
    {event : SummaryEvent} {active : List Activation}
    (h : activate { catalog with active := active } action event = .ok result)
    (hp : active.Perm catalog.active) :
    ∃ same, activate catalog action event = .ok same ∧ same.intents = result.intents ∧
      same.candidates = result.candidates ∧ sortActive same.active = sortActive result.active := by
  obtain ⟨-, hrepl, hres⟩ := activate_ok h
  have hoth := hrepl.perm hp
  obtain ⟨candidate, hcand, h⟩ := bind_ok.1 h
  obtain ⟨_, henv, h⟩ := bind_ok.1 h
  obtain ⟨_, hlast, h⟩ := bind_ok.1 h
  obtain ⟨intent, hint, h⟩ := bind_ok.1 h
  obtain ⟨hcov, h⟩ := guarded h
  have hseal := hcov.1
  have hact : activate catalog action event = .ok { catalog with
      active := remaining catalog.active action.replacedVersions ++ [action.activation] } := by
    refine bind_ok.2 ⟨candidate, hcand, bind_ok.2 ⟨_, henv, ?_⟩⟩
    refine bind_ok.2 ⟨_, hlast, bind_ok.2 ⟨intent, hint, ?_⟩⟩
    refine ensured ⟨hseal, replacement_ok.2 hoth⟩ ?_
    rw [hoth.erase_eq]
    rfl
  refine ⟨_, hact, ?_, ?_, ?_⟩
  · rw [hres]
  · rw [hres]
  · rw [hres]
    exact sortActive_eq_of_perm ((hp.symm.filter _).append_right _) hoth.result.summaries

theorem preview_eq_ok {snapshot : ConversationSummarySnapshot}
    (h : previewConversationSummaryTransition history log suffix = .ok snapshot) :
    ∃ before current after action state catalog, suffix = [before, current, after] ∧
      Envelope log before current after ∧ current.payload = .conversationSummaryActivated action ∧
      recordedConversationSummaries history log none = .ok state ∧
      state.policyRevision ≠ uint64Max ∧ action.previousPolicyRevision = state.policyRevision ∧
      activate state.toCatalog action current = .ok catalog ∧
      snapshot = {
        snapshotSequence := after.sequence
        policyRevision := state.policyRevision + 1
        intents := catalog.intents
        candidates := catalog.candidates
        active := sortActive catalog.active } := by
  obtain ⟨⟨before, current, after⟩, henv, h⟩ := bind_ok.1 h
  obtain ⟨hsuf, henv⟩ := transitionEnvelope_ok henv
  simp only at h
  split at h
  · rename_i action hact
    replace h := later h
    obtain ⟨state, hst, h⟩ := bind_ok.1 h
    obtain ⟨hrev, h⟩ := guarded h
    obtain ⟨catalog, hcat, h⟩ := bind_ok.1 h
    cases h
    obtain ⟨hmax, hprev⟩ := hrev
    exact ⟨before, current, after, action, state, catalog, hsuf, henv, hact, hst,
      hmax, hprev, hcat, rfl⟩
  · cases h

theorem Envelope.longer_length (h : log.ExtendedBy [before, current, after] longer) :
    longer.events.length = log.events.length + 3 := by
  rw [h.events, length_append]
  rfl

/-- The three events of an activation, replayed after the log. -/
theorem replay_activated {action : ConversationSummaryActivated}
    {state : Replay} {catalog : Catalog} (hlog : log.ExtendedBy [before, current, after] longer)
    (hctrl : controlRun before current after)
    (hact : current.payload = .conversationSummaryActivated action)
    (hactivated : activate state.catalog action current = .ok catalog) :
    ([before, current, after].zipIdx log.events.length).foldlM
      (summaryStep history longer longer.events) state = .ok { state with catalog := catalog } := by
  obtain ⟨⟨_, hbeg⟩, hdone, -⟩ := controlRun_started hctrl
  refine foldlM_cons_ok.2 ⟨state, ?_, foldlM_cons_ok.2 ⟨{ state with catalog := catalog }, ?_,
    foldlM_cons_ok.2 ⟨{ state with catalog := catalog }, ?_, rfl⟩⟩⟩
  · simp only [summaryStep, supportedSummaryEvent, applySummaryEvent, hbeg]
    rfl
  · simp only [summaryStep, supportedSummaryEvent, applySummaryEvent, hact]
    refine bind_ok.2 ⟨(), rfl, bind_ok.2 ⟨(), ?_, bind_ok.2
      ⟨catalog, hactivated, rfl⟩⟩⟩
    exact ensure_ok.2 (controlTransaction_appended hlog hctrl)
  · simp only [summaryStep, supportedSummaryEvent, applySummaryEvent, hdone]
    rfl

/-- The summaries that a preview shows are those of the log with the transition behind it. -/
theorem recorded_longer {history : History} {log longer : SessionLog}
    {suffix : List SummaryEvent} {snapshot : ConversationSummarySnapshot}
    (h : previewConversationSummaryTransition history log suffix = .ok snapshot)
    (hlonger : suffix.foldlM SessionLog.append log = some longer) :
    recordedConversationSummaries history longer none = .ok snapshot := by
  obtain ⟨_, current, after, action, _, catalog, rfl, henvelope, haction, hstate, hmax,
    hprevious, hcatalog, rfl⟩ := preview_eq_ok h
  have hlog := append_extends hlonger
  have hlength := Envelope.longer_length hlog
  obtain ⟨events, _, replay, hevents, hpolicy, hreplay, rfl⟩ := recorded_eq_ok.1 hstate
  obtain ⟨-, rfl⟩ := snapshot_last.1 hevents
  have hroom : longer.events.length ≤ maximumEvents := hlength ▸ henvelope.room
  have hpolicy := recordedConversationPolicy_activated hlog hroom henvelope.control
    henvelope.freshRun haction hpolicy hmax hprevious
  have hreplay := replay_extended hlog (by
    rw [hlength, Nat.mul_comm]
    exact henvelope.work) hreplay
  have hsorted : activate { replay.catalog with active := sortActive replay.catalog.active } action
      current = .ok catalog := hcatalog
  obtain ⟨same, hsame, hintents, hcandidates, hactive⟩ :=
    activate_perm hsorted (sortActive_perm _)
  refine recorded_eq_ok.2 ⟨longer.events, _,
    { atLength longer.events.length replay with catalog := same },
    snapshot_last.2 ⟨hroom, rfl⟩, hpolicy, ?_, ?_⟩
  · rw [zipIdx_extended hlog, foldlM_append_ok]
    exact ⟨_, hreplay, replay_activated hlog henvelope.control haction hsame⟩
  · have hlast : longer.lastSequence = after.sequence := by
      simp [SessionLog.lastSequence, hlog.events]
    simp only [Option.getD_none, hlast, hintents, hcandidates, hactive]

/-- A previewed transition can be written, and the longer log then has the previewed summaries. -/
theorem preview_agrees_with_replay (history : History) (log : SessionLog)
    (suffix : List SummaryEvent) (snapshot : ConversationSummarySnapshot)
    (h : previewConversationSummaryTransition history log suffix = .ok snapshot) :
    ∃ longer, suffix.foldlM SessionLog.append log = some longer ∧
      recordedConversationSummaries history longer none = .ok snapshot := by
  obtain ⟨_, _, _, _, _, _, rfl, henvelope, -⟩ := preview_eq_ok h
  obtain ⟨longer, hlonger⟩ := henvelope.append
  exact ⟨longer, hlonger, recorded_longer h hlonger⟩

/-! The published summary of the sample session is activated. -/

def sampleActivation : ConversationSummaryActivation where
  sessionId := "session"
  candidate := ⟨"summary", 1,
    sampleDigest "af4572211edd1adcdc4c64379fba3fe28ad3c07c1d3baff1c955cd0dbc98eeca" 263⟩
  sourceDigest :=
    sampleDigest "52195acb6a4890b4d776336cf375747718fa2e81c3b7f87c9267f8062c1af1e3" 266
  coveredRunIds := ["talk"]
  sourceAnchorSequence := 2
  activationEventId := "event-18"
  activationSequence := 18
  activationDigest :=
    some (sampleDigest "b5a3a054b7c45e16a13c0daf456bd4e1e740d75907881fbea26347484efd9850" 242)

def sampleActivated : SummaryEvent :=
  sampleEvent "activate" "event-18" 18 (.conversationSummaryActivated ⟨0, sampleActivation, []⟩)

def sampleSuffix : List SummaryEvent := [
  sampleEvent "activate" "event-17" 17 (sampleStart .control), sampleActivated,
  sampleEvent "activate" "event-19" 19 (.run .runCompleted)]

theorem sampleSuffix_previewed :
    previewConversationSummaryTransition sampleHistory sampleLog sampleSuffix =
      .ok { sampleSnapshot with
        snapshotSequence := 19, policyRevision := 1, active := [sampleActivation] } := by
  have henc : encodeActivation sampleActivation = .ok (sampleDigest
      "b5a3a054b7c45e16a13c0daf456bd4e1e740d75907881fbea26347484efd9850" 242) := by
    decide +kernel
  have hval : validateConversationSummaryActivation sampleActivation = .ok () := by
    refine bind_ok.2 ⟨(), by decide +kernel, ?_⟩
    rw [henc]
    decide +kernel
  have hrepl : ReplacementOk [] [] sampleActivation := by
    refine ⟨by decide, by decide, ?_, forall_mem_nil _, forall_mem_nil _,
      forall_mem_nil _, nodup_nil, by decide, ?_, by decide, by decide, by decide⟩
    · exact ⟨forall_mem_nil _, nodup_nil, nodup_nil, nodup_nil⟩
    · intro value hvalue
      rw [mem_singleton.1 hvalue]
      exact ⟨hval, rfl⟩
  have hact : activate sampleSnapshot.toCatalog ⟨0, sampleActivation, []⟩ sampleActivated =
      .ok { sampleSnapshot.toCatalog with active := [sampleActivation] } := by
    refine bind_ok.2 ⟨sampleCandidate, by decide +kernel, ?_⟩
    refine ensured ⟨rfl, rfl⟩ ?_
    refine ensured (by decide) ?_
    refine bind_ok.2 ⟨sampleIntent, require_ok.2 rfl, ?_⟩
    refine ensured ⟨?_, replacement_ok.2 hrepl⟩ rfl
    refine bind_ok.2 ⟨(), ?_, bind_ok.2 ⟨_, henc, rfl⟩⟩
    exact bind_ok.2 ⟨(), sample_valid.2.2.2, by decide +kernel⟩
  refine bind_ok.2 ⟨(sampleEvent "activate" "event-17" 17 (sampleStart .control),
    sampleActivated, sampleEvent "activate" "event-19" 19 (.run .runCompleted)),
    by decide +kernel, ?_⟩
  refine bind_ok.2 ⟨(), ?_, bind_ok.2 ⟨_, sampleLog_recorded, ?_⟩⟩
  · exact ensured (by decide) (bind_ok.2
      ⟨(), hval, ensure_ok.2 (forall_mem_nil _)⟩)
  · refine ensured (by decide) (bind_ok.2 ⟨_, hact, ?_⟩)
    rw [show sortActive [sampleActivation] = [sampleActivation] from mergeSort_singleton _]
    rfl

def activatedSnapshot : ConversationSummarySnapshot :=
  { sampleSnapshot with snapshotSequence := 19, policyRevision := 1, active := [sampleActivation] }

theorem sample_preview_replayed : ∃ longer, sampleSuffix.foldlM SessionLog.append sampleLog =
    some longer ∧ recordedConversationSummaries sampleHistory longer none =
      .ok activatedSnapshot :=
  preview_agrees_with_replay sampleHistory sampleLog sampleSuffix _ sampleSuffix_previewed

/-- The summary is active then, and its snapshot keeps the invariant of the recorded ones. -/
theorem activated_snapshot_sound : ∃ longer, sampleSuffix.foldlM SessionLog.append sampleLog =
    some longer ∧ recordedConversationSummaries sampleHistory longer none =
      .ok activatedSnapshot ∧ SnapshotInvariant longer activatedSnapshot := by
  obtain ⟨longer, hlonger⟩ : ∃ longer,
      sampleSuffix.foldlM SessionLog.append sampleLog = some longer :=
    Option.isSome_iff_exists.1 (by decide +kernel)
  have hrecorded : recordedConversationSummaries sampleHistory longer none =
      .ok activatedSnapshot := recorded_longer sampleSuffix_previewed hlonger
  exact ⟨longer, hlonger, hrecorded, recorded_summaries_invariant sampleHistory longer none
    activatedSnapshot hrecorded⟩

end SummaryPreview
