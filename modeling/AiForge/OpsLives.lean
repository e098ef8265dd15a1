import AiForge.OpsContent
import AiForge.OpsLog

/-! # Lives of observed invocations

Every observed invocation of an accepted log has one life: its proposal under a registered tool,
then the moves of its lifecycle, in their order and nothing else. -/
namespace OpsHistory

open Capability Content Events LaunchPolicy List OpsEvidence OpsTarget SafeText Staged Bool

variable {format : OpsObservation → Option (List ContentBlock)} {session : SessionId}
  {s s' : Validator} {e : Event} {v : InvocationId} {state state' : InvocationState}
  {record record' : RecordedOpsInvocation} {events : List Event}

/-- A manual run waits for a proposal whose identity is already taken: the log can go on, but
never to an accepted end. -/
def Doomed (s : Validator) : Prop :=
  ∃ r intent, (s.run r).manual ∧ (s.run r).nextProposal ∧
    (s.run r).intent = some intent ∧ intent.invocationId ∈ s.proposed

theorem Transition.doomed (h : Transition format s e s') (hd : Doomed s) : Doomed s' := by
  obtain ⟨r, intent, hm, hn, hi, hv⟩ := hd
  refine ⟨r, intent, ?_⟩
  rw [h.run_next r]
  split_ifs with hr
  · subst hr
    cases h with
    | unknown hp =>
      simp only [RunState.next, hp]
      exact ⟨hm, hn, hi, hv⟩
    | started _ _ hs =>
      obtain ⟨start, hbeg, -⟩ := manual_start hm
      cases hs.symm.trans hbeg
    | selected _ _ _ hsel =>
      simp only [selectingRun, hi, and_eq_true] at hsel
      simp at hsel
    | intended _ _ _ _ hnone => cases hi.symm.trans hnone
    | otherProposed _ _ _ _ hno => cases hm.symm.trans hno
    | proposed _ _ start _ _ _ hf _ hs _ _ _ _ hb =>
      have hman : start.started.manualObservationRequired := by
        rw [← manual_of_start hs, hm]
      obtain rfl := Option.some.inj (hi.symm.trans (boundTool_manual hb hman).2)
      exact absurd hv hf
    | routed _ _ _ _ _ hc | passed hc => cases hn.symm.trans hc.proposal
  · exact ⟨hm, hn, hi, h.proposed_kept hv⟩

variable {snapshot : OpsHistorySnapshot}

section

variable (h : finish s = .ok snapshot)

include h

/-- Every run that has an entry passed the checks at the end of the log. -/
theorem finish_run {r : RunId} : runFinished s (s.run r) := by
  obtain ⟨hruns, -⟩ := require_bind.1 h
  cases hr : s.runs[r]? with
  | none => simp [Validator.run, hr, runFinished]
  | some run =>
    have hmem : (r, run) ∈ s.runs.toList := Std.ExtTreeMap.mem_toList_iff_getElem?_eq_some.2 hr
    have hrun : s.run r = run := by rw [Validator.run, hr, Option.getD_some]
    rw [hrun]
    exact all_eq_true.1 hruns (r, run) hmem

theorem finish_invocation
    (hv : s.invocations[v]? = some state) : invocationFinished s state := by
  obtain ⟨-, h⟩ := require_bind.1 h
  obtain ⟨hall, -⟩ := require_bind.1 h
  exact all_eq_true.1 hall (v, state) (Std.ExtTreeMap.mem_toList_iff_getElem?_eq_some.2 hv)

theorem finish_records : snapshot.invocations = s.snapshot.invocations := by
  obtain ⟨-, h⟩ := require_bind.1 h
  obtain ⟨-, h⟩ := require_bind.1 h
  cases h
  rfl

theorem finish_waiting (r : RunId) :
    (s.run r).nextMarker = false ∧ (s.run r).nextProposal = false := by
  have hrun := finish_run (r := r) h
  simp only [runFinished, and_eq_true, not_eq_true'] at hrun
  exact hrun.1.1

theorem not_doomed : ¬ Doomed s := by
  rintro ⟨r, -, -, hn, -⟩
  cases hn.symm.trans (finish_waiting h r).2

end

/-- Where the tool and the policy of a proposal were recorded: in the intent of a manual run,
or in the provenance of a conversation. -/
inductive Registered (before : List Event) (e : Event) (p : ToolProposed)
    (request : OpsObservationRequest) (tool : ToolProvenanceEntry) (policy : PolicyProvenance) :
    Prop where
  | intent (x : Event) (hx : x ∈ before) (hr : x.runId = e.runId)
      (hp : x.payload = .humanObservationRequested ⟨p.invocationId, request, tool, policy⟩)
  | provenance (x : Event) (hx : x ∈ before) (hr : x.runId = e.runId)
      (provenance : RunProvenance) (hp : x.payload = .runProvenanceRecorded provenance)
      (ht : tool ∈ provenance.tools) (hpolicy : provenance.toolPolicy = some policy)

/-- A proposal under a registered tool and within the ceilings of its policy. -/
structure WithinCeilings (start : RunStarted) (tool : ToolProvenanceEntry)
    (policy : PolicyProvenance) (p : ToolProposed) : Prop where
  name : tool.toolName = p.toolName
  digest : tool.registrationDigest.isSome
  profile : policy.permissionProfileId = start.permissionProfileId
  toolEffects : ∀ effect ∈ p.declaredEffects, effect ∈ tool.declaredEffects
  policyEffects : ∀ effect ∈ p.declaredEffects, effect ∈ policy.effectCeiling
  toolScopes : scopesCover tool.capabilityScopes p.requestedScopes
  policyScopes : scopesCover policy.capabilityCeiling p.requestedScopes

def Admitted (before : List Event) (e : Event) (p : ToolProposed)
    (request : OpsObservationRequest) : Prop :=
  ∃ started tool policy, (∃ x ∈ before, x.runId = e.runId ∧ x.payload = .runStarted started) ∧
    Registered before e p request tool policy ∧ WithinCeilings started tool policy p

variable {p : ToolProposed}

theorem withinCeilings_spec {start : Start} {tool : ToolProvenanceEntry} {policy : PolicyProvenance}
    (h : withinCeilings start tool policy p) :
    WithinCeilings start.started tool policy p := by
  simp only [withinCeilings, and_eq_true, beq_iff_eq, all_eq_true,
    contains_iff_mem] at h
  obtain ⟨⟨⟨⟨⟨⟨⟨⟨hname, -⟩, hdig⟩, -⟩, -⟩, hprof⟩, heff⟩, htool⟩, hpol⟩ := h
  exact ⟨hname, hdig, hprof, fun effect he => (heff effect he).1,
    fun effect he => (heff effect he).2, htool, hpol⟩

theorem Proposal.admitted {request : OpsObservationRequest} {start : Start}
    (h : Proposal s e p request start) (hs : Sourced events s) : Admitted events e p request := by
  obtain ⟨tool, policy, hb, hw⟩ := h.bound
  refine ⟨start.started, tool, policy, hs.start _ start h.started, ?_, withinCeilings_spec hw⟩
  cases hm : start.started.manualObservationRequired with
  | true =>
    obtain ⟨x, hx, hr, hp⟩ := hs.intent _ _ (boundTool_manual hb hm).2
    exact .intent x hx hr hp
  | false =>
    obtain ⟨provenance, hprov, htool, hpol⟩ := boundTool_conversation hb hm
    obtain ⟨x, hx, hr, hp⟩ := hs.provenance _ _ hprov
    exact .provenance x hx hr provenance hp htool hpol

/-- The log from the proposal of an invocation on: the events routed to it form its course. -/
structure Life (format : OpsObservation → Option (List ContentBlock)) (s : Validator)
    (v : InvocationId) (state : InvocationState) (record : RecordedOpsInvocation)
    (before : List Event) (e : Event) (after : List Event) (stage : Stage) : Prop where
  proposal : e.payload = .toolProposed state.proposal
  run : e.runId = record.runId
  admitted : Admitted before e state.proposal record.request
  unobserved : ∀ x ∈ before, ∀ observation, x.payload ≠ .opsObservationRecorded v observation
  course : Course format v state.proposal (after.filter (routesTo v)) stage
  stands : stage.At state record.phase
  named : (∀ x ∈ after, x.payload.invocationId = some v → routesTo v x) ∨ Doomed s

def Lived (format : OpsObservation → Option (List ContentBlock)) (events : List Event)
    (s : Validator) : Prop :=
  ∀ v state record, s.Tracks v state record →
    ∃ before e after stage, events = before ++ e :: after ∧
      Life format s v state record before e after stage

theorem InnerChecks.routes (h : InnerChecks s e (s.run e.runId)) (ht : s.Tracks v state record)
    (hn : e.payload.invocationId = some v) : routesTo v e := by
  have hmeta := h.named
  simp only [namedInMetadata, Validator.found, hn, Option.bind_some, ht.1, Option.isNone_some,
    Bool.false_or, beq_iff_eq] at hmeta
  simp [routesTo, hmeta, h.inner]

/-- An event that carries the identity of a tracked invocation is routed to it; the exception,
another intent, leaves a run that cannot go on. -/
theorem Transition.names (h : Transition format s e s') (hi : Indexed s)
    (ht : s.Tracks v state record) (hn : e.payload.invocationId = some v) :
    routesTo v e ∨ Doomed s' := by
  have hclaim := hi.claimed v state ht.1
  cases h with
  | unknown hp | started _ hp | selected _ _ hp =>
    rw [hp] at hn
    cases hn
  | otherProposed p hp hf | proposed p _ _ _ _ hp hf =>
    rw [hp] at hn
    cases hn
    exact absurd hclaim hf
  | intended intent hp hm =>
    rw [hp] at hn
    cases hn
    right
    refine ⟨e.runId, intent, ?_⟩
    rw [run_setRun_self]
    exact ⟨hm, rfl, rfl, hclaim⟩
  | routed _ _ _ _ _ hc | passed hc => exact .inl (hc.routes ht hn)

theorem Transition.lived (h : Transition format s e s') (hi : Indexed s) (hs : Sourced events s)
    (hl : Lived format events s) : Lived format (events ++ [e]) s' := by
  intro v state' record' ht'
  cases hst : s.invocations[v]? with
  | none =>
    obtain ⟨_, request, _, hp, hid, rfl, rfl⟩ := h.origin hst ht'
    refine ⟨events, e, [], .proposed, rfl, hp.payload, rfl, hp.admitted hs, ?_, .proposed, ?_, ?_⟩
    · intro x hx observation hx'
      subst hid
      exact hp.fresh (hs.observed x hx _ observation hx')
    · exact ⟨rfl, rfl, rfl, rfl, rfl⟩
    · left
      intro x hx
      cases hx
  | some state =>
    obtain ⟨record, ht, -⟩ := hi.tracked v state hst
    obtain ⟨before, x, after, stage, hsplit, hlife⟩ := hl v state record ht
    have hnamed : (∀ y ∈ after ++ [e], y.payload.invocationId = some v → routesTo v y) ∨
        Doomed s' := by
      rcases hlife.named with hnamed | hdoomed
      · by_cases hn : e.payload.invocationId = some v
        · rcases h.names hi ht hn with hroute | hdoomed
          · left
            intro y hy hv
            rcases mem_append.1 hy with hy | hy
            · exact hnamed y hy hv
            · obtain rfl := mem_singleton.1 hy
              exact hroute
          · exact .inr hdoomed
        · left
          intro y hy hv
          rcases mem_append.1 hy with hy | hy
          · exact hnamed y hy hv
          · obtain rfl := mem_singleton.1 hy
            exact absurd hv hn
      · exact .inr (h.doomed hdoomed)
    have hsplit' : events ++ [e] = before ++ x :: (after ++ [e]) := by
      rw [hsplit, append_assoc, cons_append]
    obtain ⟨hid, _, hreq⟩ := hi.described ht
    rcases h.keeps hi ht with ⟨hroute, hsame⟩ | ⟨_, _, hroute, -, hadv, hsame⟩
    · obtain ⟨rfl, rfl⟩ := tracks_unique hsame ht'
      refine ⟨before, x, after ++ [e], stage, hsplit', hlife.proposal, hlife.run,
        hlife.admitted, hlife.unobserved, ?_, hlife.stands, hnamed⟩
      rw [filter_append, filter_cons_of_neg (by simp [hroute]), filter_nil,
        append_nil]
      exact hlife.course
    · obtain ⟨rfl, rfl⟩ := tracks_unique hsame ht'
      obtain ⟨stage', hmove, hstands⟩ := hadv.moves hreq hlife.stands
      have hsame := hadv.same
      rw [hid] at hmove
      refine ⟨before, x, after ++ [e], stage', hsplit', ?_, ?_, ?_, hlife.unobserved, ?_, hstands,
        hnamed⟩
      · rw [hsame.proposal]
        exact hlife.proposal
      · rw [hsame.run]
        exact hlife.run
      · rw [hsame.proposal, hsame.request]
        exact hlife.admitted
      · rw [hsame.proposal, filter_append, filter_cons_of_pos (by simp [hroute]),
          filter_nil]
        exact .move hlife.course hmove

/-- Everything the replay knows about a log. -/
structure Accounted (format : OpsObservation → Option (List ContentBlock)) (events : List Event)
    (s : Validator) : Prop where
  indexed : Indexed s
  sourced : Sourced events s
  manual : ManualRuns events s
  lived : Lived format events s

theorem replay_accounted (h : replay format session events = .ok s) :
    Accounted format events s := by
  refine replay_induction (motive := Accounted format) ?_ ?_ h
  · refine ⟨⟨?_, ?_, ?_⟩, ⟨?_, ?_, ?_, ?_, ?_, ?_⟩, ⟨?_, ?_, ?_, ?_, ?_⟩, ?_⟩
    all_goals simp [Validator.run, RunState.manual, Lived, Validator.Tracks]
  · intro events e s s' hacc ht
    exact ⟨ht.indexed hacc.indexed, ht.sourced hacc.indexed hacc.sourced,
      ht.manualRuns hacc.indexed hacc.sourced hacc.manual,
      ht.lived hacc.indexed hacc.sourced hacc.lived⟩

theorem polled_replay {stop : ℕ → Bool} {t : Validator} {n : ℕ}
    (h : (events.zipIdx n).foldlM (polledApply format session stop) s = .ok t) :
    events.foldlM (apply format session) s = .ok t := by
  induction events generalizing s n with
  | nil => exact h
  | cons _ _ ih =>
    rw [zipIdx_cons] at h
    obtain ⟨d, hd, hrest⟩ := foldlM_cons_ok.1 h
    refine foldlM_cons_ok.2 ⟨d, ?_, ih hrest⟩
    cases hs : stop n with
    | true => simp [polledApply, hs] at hd
    | false => simpa [polledApply, hs] using hd

theorem recorded_replay {log suffix : List Event} {stop : ℕ → Bool}
    (h : recordedOpsObservations format session log suffix stop = .ok snapshot) :
    ∃ s, replay format session (log ++ suffix) = .ok s ∧ finish s = .ok snapshot := by
  unfold recordedOpsObservations at h
  split_ifs at h
  obtain ⟨s, hs, hf⟩ := bind_ok.1 h
  exact ⟨s, polled_replay hs, hf⟩

/-- Whether an event belongs to an invocation: its payload carries the identity, or its metadata
does and it is of a kind that the replay routes by its metadata. -/
def concerns (v : InvocationId) (e : Event) : Bool :=
  e.payload.invocationId == some v || routesTo v e

def observes (v : InvocationId) (e : Event) : Bool :=
  e.payload.isObservation && e.payload.invocationId == some v

def endsLife (v : InvocationId) (e : Event) : Bool :=
  e.payload.endsInvocation && concerns v e

/-- The life of an observed invocation in an accepted log. The events that concern it after its
proposal stop at the one that ends it; if it succeeded they are a grant, a start, one
observation and the result, and nothing else. -/
structure ObservedLife (format : OpsObservation → Option (List ContentBlock))
    (events : List Event) (record : RecordedOpsInvocation) (before : List Event) (e : Event)
    (after : List Event) (p : ToolProposed) : Prop where
  split : events = before ++ e :: after
  proposal : e.payload = .toolProposed p
  run : e.runId = record.runId
  invocation : p.invocationId = record.invocationId
  request : p.observationRequest = some record.request
  admitted : Admitted before e p record.request
  ended : ∀ xs t ys, after = xs ++ t :: ys → endsLife record.invocationId t →
    ∀ y ∈ ys, concerns record.invocationId y = false
  succeeded : record.phase = .succeeded →
    SucceededCourse format record.invocationId p
        (after.filter (concerns record.invocationId)) ∧
      (events.filter (observes record.invocationId)).length = 1

variable {xs : List Event}

theorem filter_concerns (h : ∀ x ∈ xs, x.payload.invocationId = some v → routesTo v x) :
    xs.filter (concerns v) = xs.filter (routesTo v) := by
  apply filter_congr
  intro x hx
  by_cases hv : x.payload.invocationId = some v
  · simp [concerns, hv, h x hx hv]
  · simp [concerns, hv]

theorem observes_concerns (h : observes v e) : concerns v e := by
  simp only [observes, and_eq_true] at h
  simp [concerns, h.2]

theorem Granted.unobserved (h : Granted v p xs) : xs.filter (observes v) = [] := by
  cases h with
  | policy _ _ hp => simp [observes, hp, Payload.isObservation]
  | approval _ _ _ _ _ hd _ _ ha hg =>
    simp [observes, hd, ha, hg, Payload.isObservation]

theorem SucceededCourse.once
    (h : SucceededCourse format v p xs) : (xs.filter (observes v)).length = 1 := by
  obtain ⟨_, _, _, _, _, _, rfl, hg, hs, ho, -, hr, -⟩ :=
    h.shape
  rw [filter_append, hg.unobserved]
  simp [observes, hs, ho, hr, Payload.isObservation, Payload.invocationId]

/-- Nothing that concerns an invocation follows the event that ends it. -/
theorem Course.nothing_after {after ys : List Event} {t : Event}
    {stage : Stage} (h : Course format v p (after.filter (concerns v)) stage)
    (hsplit : after = xs ++ t :: ys) (hend : endsLife v t) :
    ∀ y ∈ ys, concerns v y = false := by
  simp only [endsLife, and_eq_true] at hend
  rw [hsplit, filter_append, filter_cons_of_pos hend.2] at h
  intro y hy
  have hnil := filter_eq_nil_iff.1 (h.last hend.1) y hy
  simpa using hnil

theorem unobserved_before {before : List Event}
    (h : ∀ x ∈ before, ∀ observation, x.payload ≠ .opsObservationRecorded v observation) :
    before.filter (observes v) = [] := by
  rw [filter_eq_nil_iff]
  intro y hy hobs
  rcases y with ⟨_, payload⟩
  cases payload with
  | opsObservationRecorded _ observation =>
    simp only [observes, Payload.isObservation, Payload.invocationId, Bool.true_and,
      beq_iff_eq, Option.some.injEq] at hobs
    subst hobs
    exact h _ hy observation rfl
  | _ => simp [observes, Payload.isObservation] at hobs

theorem filter_observes (xs : List Event) :
    (xs.filter (concerns v)).filter (observes v) = xs.filter (observes v) := by
  rw [filter_filter]
  apply filter_congr
  intro y _
  cases hy : observes v y with
  | true => rw [observes_concerns hy, Bool.and_self]
  | false => rw [Bool.false_and]

theorem Accounted.observedLife (h : Accounted format events s)
    (hf : finish s = .ok snapshot) (hr : record ∈ snapshot.invocations) :
    ∃ before e after p, ObservedLife format events record before e after p := by
  rw [finish_records hf] at hr
  obtain ⟨k, hk⟩ := mem_iff_getElem?.1 hr
  obtain ⟨state, hst, rfl⟩ := h.indexed.recorded k record hk
  have ht : s.Tracks record.invocationId state record := ⟨hst, hk⟩
  obtain ⟨-, hid, hreq⟩ := h.indexed.described ht
  obtain ⟨before, x, after, stage, hsplit, hlife⟩ := h.lived _ state record ht
  have hcourse := hlife.course
  rw [← filter_concerns (hlife.named.resolve_right (not_doomed hf))] at hcourse
  refine ⟨before, x, after, state.proposal, hsplit, hlife.proposal, hlife.run, hid, hreq,
    hlife.admitted, ?_, ?_⟩
  · intro xs t ys haft hend
    exact hcourse.nothing_after haft hend
  · intro hp
    have hstg : stage = .succeeded := by
      have hat := hlife.stands
      rw [hp] at hat
      cases stage <;> simp_all [Stage.At]
    subst hstg
    refine ⟨hcourse.succeeded, ?_⟩
    have hself : observes record.invocationId x = false := by
      simp [observes, hlife.proposal, Payload.isObservation]
    rw [hsplit, filter_append, unobserved_before hlife.unobserved, nil_append,
      filter_cons_of_neg (by simp [hself]), ← filter_observes after]
    exact hcourse.succeeded.once

def AllRecorded (events : List Event) (s : Validator) : Prop :=
  ∀ e ∈ events, ∀ p request, e.payload = .toolProposed p → p.observationRequest = some request →
    ∃ record ∈ s.snapshot.invocations, record.invocationId = p.invocationId ∧
      record.runId = e.runId ∧ record.request = request

theorem Transition.allRecorded (h : Transition format s e s') (hi : Indexed s)
    (ha : AllRecorded events s) : AllRecorded (events ++ [e]) s' := by
  intro x hx p request hp hq
  rcases mem_append.1 hx with hx | hx
  · obtain ⟨record, hr, hid, hrun, hreq⟩ := ha x hx p request hp hq
    obtain ⟨k, hk⟩ := mem_iff_getElem?.1 hr
    obtain ⟨_, hst, rfl⟩ := hi.recorded k record hk
    rcases h.keeps hi ⟨hst, hk⟩ with ⟨-, ht⟩ | ⟨_, record', -, -, hadv, ht⟩
    · exact ⟨record, mem_of_getElem? ht.2, hid, hrun, hreq⟩
    · have hsame := hadv.same
      exact ⟨record', mem_of_getElem? ht.2, hsame.invocation.trans hid,
        hsame.run.trans hrun, hsame.request.trans hreq⟩
  · obtain rfl := mem_singleton.1 hx
    obtain ⟨_, _, hprop, hrec⟩ := h.proposal hp (by rw [hq]; rfl)
    obtain rfl := Option.some.inj (hprop.asks.symm.trans hq)
    exact ⟨_, mem_of_getElem? hrec, rfl, rfl, rfl⟩

theorem replay_allRecorded (h : replay format session events = .ok s) : AllRecorded events s := by
  have hboth : Indexed s ∧ AllRecorded events s := by
    refine replay_induction (motive := fun events s => Indexed s ∧ AllRecorded events s) ?_ ?_ h
    · refine ⟨⟨?_, ?_, ?_⟩, ?_⟩
      all_goals simp [AllRecorded]
    · intro events e s s' hi ht
      exact ⟨ht.indexed hi.1, ht.allRecorded hi.1 hi.2⟩
  exact hboth.2

theorem Accounted.closed_terminal (h : Accounted format events s)
    (hf : finish s = .ok snapshot) (hr : record ∈ snapshot.invocations)
    (hc : ∃ e ∈ events, e.runId = record.runId ∧ e.payload.closesRun) :
    record.phase.terminal := by
  rw [finish_records hf] at hr
  obtain ⟨k, hk⟩ := mem_iff_getElem?.1 hr
  obtain ⟨_, hst, rfl⟩ := h.indexed.recorded k record hk
  have hfin := finish_invocation hf hst
  have hshut := (h.sourced.closed record.runId).2 hc
  simp only [invocationFinished, hk, Option.any_some, hshut, Bool.not_true, Bool.false_or,
    Bool.and_eq_true] at hfin
  exact hfin.2.2

theorem endsAs_iff {payload : Payload} {phase : OpsInvocationPhase}
    (h : endsAs payload phase) : payload = .runCompleted ↔ phase = .succeeded := by
  unfold endsAs at h
  split_ifs at h with hp
  · exact iff_of_true hp (by simpa using h)
  · refine iff_of_false hp ?_
    rw [beq_iff_eq] at h
    rw [h]
    decide

/-- A manual run of an accepted log has exactly one observation, and it ends as the observation
does. -/
theorem Accounted.manual_agrees {started : RunStarted}
    (h : Accounted format events s) (hf : finish s = .ok snapshot) (hx : e ∈ events)
    (hp : e.payload = .runStarted started) (hm : started.manualObservationRequired) :
    ∃ record ∈ snapshot.invocations, record.runId = e.runId ∧
      (∀ other ∈ snapshot.invocations, other.runId = e.runId → other = record) ∧
      ∀ x ∈ events, x.runId = e.runId → x.payload.closesRun →
        (x.payload = .runCompleted ↔ record.phase = .succeeded) := by
  rw [finish_records hf]
  obtain ⟨_, hbeg, rfl⟩ := h.sourced.started e hx started hp
  have hman : (s.run e.runId).manual := by rw [manual_of_start hbeg, hm]
  obtain ⟨hmarker, hprop⟩ := finish_waiting hf e.runId
  cases hk : (s.run e.runId).manualIndex with
  | none =>
    rcases h.manual.waiting e.runId hman hk with hw | hw
    · cases hmarker.symm.trans hw
    · cases hprop.symm.trans hw
  | some k =>
    obtain ⟨-, record, hrec, hrun⟩ := h.manual.index e.runId k hk
    refine ⟨record, mem_of_getElem? hrec, hrun, ?_, ?_⟩
    · intro other hoth hsame
      obtain ⟨j, hj⟩ := mem_iff_getElem?.1 hoth
      have hjk := h.manual.own j other hj (by rw [hsame, hman])
      rw [hsame, hk] at hjk
      cases hjk
      exact Option.some.inj (hj.symm.trans hrec)
    · intro x hx' hrun' hclose
      obtain ⟨_, hrec', hend⟩ := h.manual.ended e.runId k hk x hx' hrun' hclose
      obtain rfl := Option.some.inj (hrec.symm.trans hrec')
      exact endsAs_iff hend

theorem ops_history_lifecycle {log suffix : List Event} {stop : ℕ → Bool}
    {snapshot : OpsHistorySnapshot}
    (h : recordedOpsObservations format session log suffix stop = .ok snapshot) :
    (∀ record ∈ snapshot.invocations, ∃ before e after p,
      ObservedLife format (log ++ suffix) record before e after p) ∧
    (∀ e ∈ log ++ suffix, ∀ p request, e.payload = .toolProposed p →
      p.observationRequest = some request →
      ∃ record ∈ snapshot.invocations, record.invocationId = p.invocationId ∧
        record.runId = e.runId ∧ record.request = request) ∧
    (∀ record ∈ snapshot.invocations,
      (∃ e ∈ log ++ suffix, e.runId = record.runId ∧ e.payload.closesRun) →
      record.phase.terminal) ∧
    ∀ e ∈ log ++ suffix, ∀ started, e.payload = .runStarted started →
      started.manualObservationRequired →
      ∃ record ∈ snapshot.invocations, record.runId = e.runId ∧
        (∀ other ∈ snapshot.invocations, other.runId = e.runId → other = record) ∧
        ∀ x ∈ log ++ suffix, x.runId = e.runId → x.payload.closesRun →
          (x.payload = .runCompleted ↔ record.phase = .succeeded) := by
  obtain ⟨_, hs, hf⟩ := recorded_replay h
  have hacc := replay_accounted hs
  refine ⟨?_, ?_, ?_, ?_⟩
  · intro record hr
    exact hacc.observedLife hf hr
  · rw [finish_records hf]
    exact replay_allRecorded hs
  · intro record hr hc
    exact hacc.closed_terminal hf hr hc
  · intro e he started hp hm
    exact hacc.manual_agrees hf he hp hm

def sampleTarget : OpsTargetBinding :=
  ⟨"host", "1", .linux ⟨.host, bytesOf "0f0e0d0c-0b0a-0908-0706-050403020100", 1, 1⟩⟩

def sampleRequest : OpsObservationRequest :=
  ⟨"owner", "session", "request", sampleTarget, 1, .linuxHealth, .none, 1, {}⟩

def sampleScope : CapabilityScope := ⟨.read, "ops.target", "host"⟩

def sampleTool : ToolProvenanceEntry :=
  ⟨"observe", [.read], [sampleScope], some ("sha256:" ++ String.ofList (List.replicate 64 '0'))⟩

def samplePolicy : PolicyProvenance :=
  { identity := "aiforge.tool-launch-policy.v2"
    permissionProfileId := "ask"
    restrictionLevel := .high
    approvalMode := .prompt
    effectCeiling := [.read]
    capabilityCeiling := [sampleScope]
    restrictionUnavailableReason := some .mechanismAbsent
    mechanismIdentity := "mechanism"
    mechanismVersion := "1" }

def sampleProposal : ToolProposed :=
  { invocationId := "observation"
    toolName := "observe"
    arguments := ⟨"application/json", bytesOf "1"⟩
    declaredEffects := [.read]
    parentInvocationId := none
    argumentsReplayable := true
    validatedRequiredScopes := []
    requestedScopes := [sampleScope]
    resultMessageId := some "message"
    spendQuote := none
    validatedArguments := some ⟨"application/json", bytesOf "1"⟩
    observationRequest := some sampleRequest }

def sampleObservation : OpsObservation :=
  ⟨sampleRequest, 1000, 2000, .complete, some 0, 0, none,
    .linuxHealth ⟨.healthy, some 3600, none, some 12, some 0⟩⟩

def sampleStart (purpose : Events.RunPurpose) (manual : Bool) : RunStarted :=
  ⟨"cli", "workspace", "ask", none, none, purpose, none, false, manual⟩

def sampleDecision (decision : Events.PolicyDecision) (scopes : List CapabilityScope) :
    ToolPolicyDecided :=
  ⟨"observation", decision, scopes, none, .fallback, none⟩

def sampleEvents (lines : List (RunId × ℕ × Option InvocationId × Payload)) : List Event :=
  lines.zipIdx.map fun ((run, schema, invocation, payload), i) =>
    ⟨⟨String.ofList (List.replicate (i + 1) 'e'), run, i + 1, schema, 0, none, none, invocation⟩,
      payload⟩

def sampleLog : List Event := sampleEvents [
  ("first", 3, none, .runStarted (sampleStart .control false)),
  ("first", 1, none, .opsTargetSelected sampleTarget 1),
  ("first", 1, none, .runCompleted),
  ("manual", 6, none, .runStarted (sampleStart .control true)),
  ("manual", 1, some "observation",
    .humanObservationRequested ⟨"observation", sampleRequest, sampleTool, samplePolicy⟩),
  ("manual", 3, some "observation", .toolProposed sampleProposal),
  ("manual", 1, some "observation", .toolPolicyDecided (sampleDecision .allow [sampleScope])),
  ("manual", 1, some "observation", .toolStarted "observation"),
  ("manual", 1, some "observation", .opsObservationRecorded "observation" sampleObservation),
  ("manual", 1, some "observation", .toolResultRecorded "observation"
    ((OpsContent.formatOpsObservationContent sampleObservation).getD []) (some "message")),
  ("manual", 1, none, .runCompleted),
  ("second", 3, none, .runStarted (sampleStart .control false)),
  ("second", 1, none, .opsTargetSelected sampleTarget 2),
  ("second", 1, none, .runCompleted)]

theorem sampleLog_accepted : (recordedOpsObservations OpsContent.formatOpsObservationContent
    "session" sampleLog [] fun _ => false).isOk = true := by
  decide +kernel

theorem sampleLog_lives : ∃ snapshot,
    recordedOpsObservations OpsContent.formatOpsObservationContent "session" sampleLog []
      (fun _ => false) = .ok snapshot ∧
    ∀ record ∈ snapshot.invocations, ∃ before e after p,
      ObservedLife OpsContent.formatOpsObservationContent sampleLog record before e after p := by
  obtain ⟨snapshot, h⟩ := isOk_iff.1 sampleLog_accepted
  exact ⟨snapshot, h, (ops_history_lifecycle h).1⟩

/-- A conversation whose log names the invocation before it is proposed and after it failed. -/
def strayLog : List Event := sampleEvents [
  ("talk", 3, none, .runStarted (sampleStart .conversation false)),
  ("talk", 1, none, .runProvenanceRecorded ⟨[sampleTool], some samplePolicy⟩),
  ("talk", 1, some "observation", .toolErrored "observation" none),
  ("talk", 3, some "observation", .toolProposed sampleProposal),
  ("talk", 1, some "observation", .toolPolicyDecided (sampleDecision .deny [])),
  ("talk", 1, some "observation", .toolErrored "observation" (some "message")),
  ("talk", 1, some "observation", .unknown)]

theorem stray_events_accepted :
    (recordedOpsObservations OpsContent.formatOpsObservationContent "session" strayLog []
      fun _ => false).isOk = true ∧
    (strayLog.filter (endsLife "observation")).length = 2 ∧
    (strayLog.getLast?.any fun e => e.metadata.invocationId == some "observation") = true := by
  decide +kernel

end OpsHistory
