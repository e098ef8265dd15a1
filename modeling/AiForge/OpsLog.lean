import AiForge.OpsLifecycle

/-! # Accepted Ops logs

Ties the state of the replay to the events read so far: every tracked invocation has a proposal
in the log and a course through its lifecycle made of the events routed to it since. -/
namespace OpsHistory

open Content Events LaunchPolicy List OpsEvidence OpsTarget Validator Option

variable {format : OpsObservation → Option (List ContentBlock)} {session : SessionId}
  {s s' : Validator} {e : Event} {v : InvocationId} {state state' : InvocationState}
  {record record' : RecordedOpsInvocation} {events : List Event}

/-- Invocations and records describe each other. -/
structure Indexed (s : Validator) : Prop where
  tracked : ∀ v state, s.invocations[v]? = some state → ∃ record, s.Tracks v state record ∧
    record.invocationId = v ∧ state.proposal.invocationId = v ∧
    state.proposal.observationRequest = some record.request
  recorded : ∀ (k : ℕ) (record : RecordedOpsInvocation),
    s.snapshot.invocations[k]? = some record →
    ∃ state : InvocationState, s.invocations[record.invocationId]? = some state ∧ state.index = k
  claimed : ∀ v state, s.invocations[v]? = some state → v ∈ s.proposed

theorem Indexed.of_eq (h : Indexed s) (hi : s'.invocations = s.invocations)
    (hr : s'.snapshot.invocations = s.snapshot.invocations)
    (hp : ∀ v ∈ s.proposed, v ∈ s'.proposed) : Indexed s' := by
  constructor
  · intro v state hv
    rw [hi] at hv
    obtain ⟨record, ⟨hs, hrec⟩, hrest⟩ := h.tracked v state hv
    refine ⟨record, ⟨?_, ?_⟩, hrest⟩
    · rw [hi]
      exact hs
    · rw [hr]
      exact hrec
  · intro k record hk
    rw [hr] at hk
    rw [hi]
    exact h.recorded k record hk
  · intro v state hv
    rw [hi] at hv
    exact hp v (h.claimed v state hv)

theorem Indexed.fresh (h : Indexed s) (hv : v ∉ s.proposed) : s.invocations[v]? = none := by
  cases hs : s.invocations[v]? with
  | none => rfl
  | some state => exact absurd (h.claimed v state hs) hv

theorem Indexed.described (h : Indexed s) (ht : s.Tracks v state record) :
    record.invocationId = v ∧ state.proposal.invocationId = v ∧
      state.proposal.observationRequest = some record.request := by
  obtain ⟨_, ht', hrest⟩ := h.tracked v state ht.1
  obtain rfl := some.inj (ht.2.symm.trans ht'.2)
  exact hrest

theorem tracks_unique (h : s.Tracks v state record) (h' : s.Tracks v state' record') :
    state' = state ∧ record' = record := by
  obtain rfl := some.inj (h.1.symm.trans h'.1)
  exact ⟨rfl, some.inj (h'.2.symm.trans h.2)⟩

theorem Indexed.index_ne (h : Indexed s) {w : InvocationId} {other : InvocationState}
    (hv : s.invocations[v]? = some state) (hw : s.invocations[w]? = some other) (hne : v ≠ w) :
    state.index ≠ other.index := by
  intro heq
  obtain ⟨_, ht, hid, -⟩ := h.tracked v state hv
  obtain ⟨_, ht', hid', -⟩ := h.tracked w other hw
  have hrec := ht.2
  rw [heq, ht'.2] at hrec
  cases hrec
  exact hne (hid.symm.trans hid')

theorem tracks_setInvocation (ht : s.Tracks v state record)
    (hsame : SameInvocation state state' record record') :
    (s.setInvocation v state' record').Tracks v state' record' := by
  refine ⟨by simp [setInvocation], ?_⟩
  have hlen : state.index < s.snapshot.invocations.length :=
    (List.getElem?_eq_some_iff.1 ht.2).1
  simp [setInvocation, setRecords, hsame.index, List.getElem?_set_self hlen]

section Replaced

variable (h : Indexed s) (ht : s.Tracks v state record)
  (hsame : SameInvocation state state' record record')

include h ht hsame

theorem tracks_setInvocation_ne {w : InvocationId} {other : InvocationState}
    {its : RecordedOpsInvocation} (hw : s.Tracks w other its) (hne : w ≠ v) :
    (s.setInvocation v state' record').Tracks w other its := by
  have hidx : state.index ≠ other.index := h.index_ne ht.1 hw.1 hne.symm
  refine ⟨?_, ?_⟩
  · simp [setInvocation, Std.ExtTreeMap.getElem?_insert, hne.symm, hw.1]
  · simp [setInvocation, setRecords, hsame.index,
      List.getElem?_set_ne hidx, hw.2]

theorem Indexed.setInvocation : Indexed (s.setInvocation v state' record') := by
  obtain ⟨hid, hpid, hreq⟩ := h.described ht
  have hown := tracks_setInvocation ht hsame
  constructor
  · intro w other hw
    by_cases hne : w = v
    · subst hne
      obtain rfl := some.inj (hown.1.symm.trans hw)
      refine ⟨record', hown, ?_, ?_, ?_⟩
      · rw [hsame.invocation, hid]
      · rw [hsame.proposal, hpid]
      · rw [hsame.proposal, hsame.request, hreq]
    · have hold : s.invocations[w]? = some other := by
        simpa [Validator.setInvocation, Std.ExtTreeMap.getElem?_insert, Ne.symm hne] using hw
      obtain ⟨its, hits, hrest⟩ := h.tracked w other hold
      exact ⟨its, tracks_setInvocation_ne h ht hsame hits hne, hrest⟩
  · intro k its hk
    by_cases hidx : k = state.index
    · subst hidx
      have hrec := hown.2
      rw [hsame.index] at hrec
      obtain rfl := some.inj (hrec.symm.trans hk)
      rw [hsame.invocation, hid]
      exact ⟨state', hown.1, hsame.index⟩
    · have hold : s.snapshot.invocations[k]? = some its := by
        simpa [Validator.setInvocation, Validator.setRecords, hsame.index,
          List.getElem?_set_ne (Ne.symm hidx)] using hk
      obtain ⟨other, hoth, hk'⟩ := h.recorded k its hold
      have hne : its.invocationId ≠ v := by
        intro heq
        rw [heq, ht.1] at hoth
        cases hoth
        exact hidx hk'.symm
      refine ⟨other, ?_, hk'⟩
      simpa [Validator.setInvocation, Std.ExtTreeMap.getElem?_insert, hne.symm] using hoth
  · intro w other hw
    by_cases hne : w = v
    · subst hne
      exact h.claimed w state ht.1
    · refine h.claimed w other ?_
      simpa [Validator.setInvocation, Std.ExtTreeMap.getElem?_insert, Ne.symm hne] using hw

end Replaced

section Admitted

variable {start : Start} {p : ToolProposed} {request : OpsObservationRequest}

theorem tracks_admitted_self (s : Validator) (e : Event) (start : Start) (p : ToolProposed)
    (request : OpsObservationRequest) : (s.admitted e start p request).Tracks p.invocationId
      { index := s.snapshot.invocations.length, proposal := p }
      (proposedRecord e start p request) := by
  constructor
  · simp [admitted]
  · simp [admitted]

theorem tracks_admitted (ht : s.Tracks v state record) (hne : p.invocationId ≠ v) :
    (s.admitted e start p request).Tracks v state record := by
  constructor
  · simp [admitted, Std.ExtTreeMap.getElem?_insert, hne, ht.1]
  · have hlt := (List.getElem?_eq_some_iff.1 ht.2).1
    simp only [admitted]
    rw [List.getElem?_append_left hlt, ht.2]

theorem Indexed.admitted (h : Indexed s) (e : Event) (start : Start)
    (hnone : s.invocations[p.invocationId]? = none) (hp : p.invocationId ∈ s.proposed)
    (hq : p.observationRequest = some request) : Indexed (s.admitted e start p request) := by
  have hoth (w : InvocationId) (hne : p.invocationId ≠ w) :
      (s.admitted e start p request).invocations[w]? = s.invocations[w]? := by
    simp [Validator.admitted, Std.ExtTreeMap.getElem?_insert, hne]
  constructor
  · intro w other hw
    by_cases hne : p.invocationId = w
    · subst hne
      have hown := tracks_admitted_self s e start p request
      obtain rfl := some.inj (hown.1.symm.trans hw)
      exact ⟨_, hown, rfl, rfl, hq⟩
    · rw [hoth w hne] at hw
      obtain ⟨its, hits, hrest⟩ := h.tracked w other hw
      exact ⟨its, tracks_admitted hits hne, hrest⟩
  · intro k its hk
    rcases Nat.lt_or_ge k s.snapshot.invocations.length with hlt | hge
    · have hold : s.snapshot.invocations[k]? = some its := by
        simp only [Validator.admitted] at hk
        rwa [List.getElem?_append_left hlt] at hk
      obtain ⟨other, hits, hidx⟩ := h.recorded k its hold
      have hne : p.invocationId ≠ its.invocationId := by
        intro heq
        rw [← heq, hnone] at hits
        cases hits
      exact ⟨other, (hoth _ hne).trans hits, hidx⟩
    · simp only [Validator.admitted] at hk
      rw [List.getElem?_append_right hge] at hk
      obtain ⟨hlt, hk⟩ := List.getElem?_eq_some_iff.1 hk
      have hkeq : k = s.snapshot.invocations.length := by
        simp only [length_singleton] at hlt
        omega
      rw [getElem_singleton] at hk
      subst hk
      exact ⟨_, (tracks_admitted_self s e start p request).1, hkeq.symm⟩
  · intro w other hw
    by_cases hne : p.invocationId = w
    · exact hne ▸ hp
    · exact h.claimed w other ((hoth w hne).symm.trans hw)

end Admitted

/-- Whether the replay hands an event to the invocation its metadata names. -/
def routesTo (v : InvocationId) (e : Event) : Bool :=
  e.metadata.invocationId == some v && e.payload.inner

theorem routesTo_of_not_inner (h : e.payload.inner = false) : routesTo v e = false := by
  simp [routesTo, h]

theorem Transition.indexed (h : Transition format s e s') (hi : Indexed s) : Indexed s' := by
  cases h with
  | unknown | started | selected | intended | passed => exact hi.of_eq rfl rfl fun _ hv => hv
  | otherProposed => exact hi.of_eq rfl rfl fun _ hv => mem_cons_of_mem _ hv
  | routed _ _ _ _ _ _ _ ht _ ha =>
    have hset := Indexed.setInvocation (s := s.noted e) (hi.of_eq rfl rfl fun _ hv => hv) ht
      (advance_cases ha).same
    exact hset.of_eq rfl rfl fun _ hv => hv
  | proposed p _ start _ _ _ hf hq =>
    have hcopy : Indexed { s.noted e with proposed := p.invocationId :: s.proposed } :=
      hi.of_eq rfl rfl fun _ hv => mem_cons_of_mem _ hv
    have hset := hcopy.admitted e start (hi.fresh hf) mem_cons_self hq
    exact hset.of_eq rfl rfl fun _ hv => hv

/-- An event leaves a tracked invocation alone, or it is routed to it and advances it. -/
theorem Transition.keeps (h : Transition format s e s') (hi : Indexed s)
    (ht : s.Tracks v state record) : (routesTo v e = false ∧ s'.Tracks v state record) ∨
      ∃ state' record', routesTo v e ∧ (s.run e.runId).closed = false ∧
        Advance format (s.noted e) e state record state' record' ∧ s'.Tracks v state' record' := by
  cases h with
  | unknown hp | started _ hp | selected _ _ hp | intended _ hp | otherProposed _ hp =>
    exact .inl ⟨routesTo_of_not_inner (by rw [hp]; rfl), ht⟩
  | proposed p _ _ _ _ hp hf =>
    have hne : p.invocationId ≠ v := by
      rintro rfl
      exact hf (hi.claimed _ _ ht.1)
    refine .inl ⟨routesTo_of_not_inner (by rw [hp]; rfl), ?_⟩
    exact tracks_admitted (s := { s.noted e with proposed := p.invocationId :: s.proposed }) ht hne
  | passed _ hv =>
    refine .inl ⟨?_, ht⟩
    by_contra hrouted
    simp only [routesTo, Bool.not_eq_false, Bool.and_eq_true, beq_iff_eq] at hrouted
    have hnone := hv v hrouted.1
    rw [ht.1] at hnone
    cases hnone
  | routed w _ own' _ its' hinner hw hown hc ha =>
    have hadv := advance_cases ha
    have hnoted : Indexed (s.noted e) := hi.of_eq rfl rfl fun _ hv => hv
    by_cases hne : v = w
    · subst hne
      obtain ⟨rfl, rfl⟩ := tracks_unique hown ht
      refine .inr ⟨own', its', ?_, hc, hadv, ?_⟩
      · simp [routesTo, hw, hinner.inner]
      · exact tracks_setInvocation (s := s.noted e) hown hadv.same
    · refine .inl ⟨?_, ?_⟩
      · simp [routesTo, hw, Ne.symm hne]
      · exact tracks_setInvocation_ne (s := s.noted e) hnoted hown hadv.same ht hne

/-- The checks an accepted observation proposal passed. -/
structure Proposal (s : Validator) (e : Event) (p : ToolProposed)
    (request : OpsObservationRequest) (start : Start) : Prop where
  payload : e.payload = .toolProposed p
  fresh : p.invocationId ∉ s.proposed
  asks : p.observationRequest = some request
  started : (s.run e.runId).start = some start
  running : (s.run e.runId).closed = false
  bound : ∃ tool policy, boundTool (s.run e.runId) start p request = .ok (tool, policy) ∧
    withinCeilings start tool policy p

/-- A tracked invocation that was not tracked before was proposed by this event. -/
theorem Transition.origin (h : Transition format s e s') (hnone : s.invocations[v]? = none)
    (ht : s'.Tracks v state record) :
    ∃ p request start, Proposal s e p request start ∧ p.invocationId = v ∧
      state = { index := s.snapshot.invocations.length, proposal := p } ∧
      record = proposedRecord e start p request := by
  have untouched (hs : s.invocations[v]? = some state) : False := by
    rw [hnone] at hs
    cases hs
  cases h with
  | unknown | started | selected | intended | otherProposed | passed => exact (untouched ht.1).elim
  | routed w _ _ _ _ _ _ hown =>
    by_cases hne : w = v
    · subst hne
      cases hnone.symm.trans hown.1
    · refine (untouched ?_).elim
      have hs := ht.1
      simpa [setRun, setInvocation, Std.ExtTreeMap.getElem?_insert, hne,
        setRecords, noted] using hs
  | proposed p request start tool policy hp hf hq hs _ hc _ _ hb hw =>
    by_cases hne : p.invocationId = v
    · subst hne
      have hown := tracks_admitted_self
        { s.noted e with proposed := p.invocationId :: s.proposed } e start p request
      obtain ⟨rfl, rfl⟩ := tracks_unique hown ht
      exact ⟨p, request, start, ⟨hp, hf, hq, hs, hc, tool, policy, hb, hw⟩, rfl, rfl, rfl⟩
    · refine (untouched ?_).elim
      have hs := ht.1
      simpa [setRun, admitted, Std.ExtTreeMap.getElem?_insert, hne,
        noted] using hs

/-- The state of a run after an accepted event of it; `index` is the next free record. -/
def RunState.next (run : RunState) (e : Event) (index : ℕ) : RunState :=
  match e.payload with
  | .unknown => { run with unknownContent := true }
  | .runStarted started =>
    { run with
      nextMarker := run.nextMarker || started.manualObservationRequired
      start := some ⟨started, e.metadata⟩ }
  | .opsTargetSelected _ _ => { run with selection := true, contentSeen := true }
  | .humanObservationRequested intent =>
    { run with intent := some intent, nextMarker := false, nextProposal := true }
  | .toolProposed p =>
    if p.observationRequest.isSome then
      { run with
        manualIndex := if run.manual then some index else run.manualIndex
        nextProposal := false }
    else run
  | _ => run.afterInner e

theorem next_of_inner {run : RunState} {index : ℕ} (h : e.payload.inner) :
    run.next e index = run.afterInner e := by
  unfold RunState.next
  split <;> simp_all [Payload.inner]

theorem Transition.run_next (h : Transition format s e s') (r : RunId) :
    s'.run r = if r = e.runId then (s.run e.runId).next e s.snapshot.invocations.length
      else s.run r := by
  cases h with
  | unknown hp | started _ hp | intended _ hp =>
    rw [run_setRun, run_noted]
    simp only [RunState.next, hp]
  | selected _ _ hp =>
    refine (run_setRun (s := s.noted e)).trans ?_
    rw [run_noted]
    simp only [RunState.next, hp]
  | otherProposed p hp _ hn =>
    refine (run_setRun (s := { s.noted e with proposed := p.invocationId :: s.proposed })).trans ?_
    simp only [RunState.next, hp, hn]
    rfl
  | proposed p request start _ _ hp _ hq hs =>
    refine (run_setRun (s := { s.noted e with
      proposed := p.invocationId :: s.proposed }.admitted e start p request)).trans ?_
    have hman : (s.run e.runId).manual = start.started.manualObservationRequired := by
      rw [RunState.manual, hs, any_some]
    simp only [RunState.next, hp, hq, hman]
    rfl
  | routed v _ state' _ record' hi =>
    refine (run_setRun (s := (s.noted e).setInvocation v state' record')).trans ?_
    rw [next_of_inner hi.inner]
    rfl
  | passed hi =>
    rw [run_setRun, next_of_inner hi.inner, run_noted]

/-- Every fact that the replay keeps about a run is the payload of one of its events. -/
structure Sourced (events : List Event) (s : Validator) : Prop where
  start : ∀ r start, (s.run r).start = some start →
    ∃ e ∈ events, e.runId = r ∧ e.payload = .runStarted start.started
  started : ∀ e ∈ events, ∀ started, e.payload = .runStarted started →
    ∃ start, (s.run e.runId).start = some start ∧ start.started = started
  intent : ∀ r intent, (s.run r).intent = some intent →
    ∃ e ∈ events, e.runId = r ∧ e.payload = .humanObservationRequested intent
  provenance : ∀ r provenance, (s.run r).provenance = some provenance →
    ∃ e ∈ events, e.runId = r ∧ e.payload = .runProvenanceRecorded provenance
  closed : ∀ r, (s.run r).closed ↔ ∃ e ∈ events, e.runId = r ∧ e.payload.closesRun
  observed : ∀ e ∈ events, ∀ v observation, e.payload = .opsObservationRecorded v observation →
    v ∈ s.proposed

section Next

variable {run : RunState} {index : ℕ}

theorem next_start : (run.next e index).start =
    match e.payload with
    | .runStarted started => some ⟨started, e.metadata⟩
    | _ => run.start := by
  rcases e with ⟨metadata, payload⟩
  cases payload with
  | toolProposed p => cases hp : p.observationRequest <;> simp [RunState.next, hp]
  | _ => simp [RunState.next, RunState.afterInner]

theorem next_intent : (run.next e index).intent =
    match e.payload with
    | .humanObservationRequested intent => some intent
    | _ => run.intent := by
  rcases e with ⟨_, payload⟩
  cases payload with
  | toolProposed p => cases hp : p.observationRequest <;> simp [RunState.next, hp]
  | _ => simp [RunState.next, RunState.afterInner]

theorem next_provenance : (run.next e index).provenance =
    match e.payload with
    | .runProvenanceRecorded provenance => some provenance
    | _ => run.provenance := by
  rcases e with ⟨_, payload⟩
  cases payload with
  | toolProposed p => cases hp : p.observationRequest <;> simp [RunState.next, hp]
  | _ => simp [RunState.next, RunState.afterInner]

theorem next_closed : (run.next e index).closed = (run.closed || e.payload.closesRun) := by
  rcases e with ⟨_, payload⟩
  cases payload with
  | toolProposed p =>
    cases hp : p.observationRequest <;> simp [RunState.next, hp, Payload.closesRun]
  | _ => simp [RunState.next, RunState.afterInner, Payload.closesRun]

end Next

section

variable (h : Transition format s e s')

include h

theorem Transition.started_once {started : RunStarted}
    (hp : e.payload = .runStarted started) : (s.run e.runId).start = none := by
  cases h with
  | started _ _ hnone => exact hnone
  | unknown hp' | selected _ _ hp' | intended _ hp' | otherProposed _ hp' | proposed _ _ _ _ _ hp' =>
    cases hp.symm.trans hp'
  | routed _ _ _ _ _ hi | passed hi =>
    have hinner := hi.inner
    rw [hp] at hinner
    cases hinner

theorem Transition.proposed_kept (hv : v ∈ s.proposed) : v ∈ s'.proposed := by
  cases h with
  | otherProposed | proposed => exact mem_cons_of_mem _ hv
  | _ => exact hv

/-- An observation is only recorded for an invocation that was proposed before. -/
theorem Transition.observes {observation : OpsObservation}
    (hi : Indexed s) (hp : e.payload = .opsObservationRecorded v observation) : v ∈ s.proposed := by
  cases h with
  | routed _ _ _ _ _ _ _ ht _ ha =>
    have hid := (advance_cases ha).payload
    rw [hp, (hi.described ht).1] at hid
    cases hid
    exact hi.claimed _ _ ht.1
  | passed _ _ ho =>
    rw [hp] at ho
    cases ho
  | unknown hp' | started _ hp' | selected _ _ hp' | intended _ hp' | otherProposed _ hp'
  | proposed _ _ _ _ _ hp' => cases hp.symm.trans hp'

theorem Transition.sourced (hi : Indexed s)
    (hs : Sourced events s) : Sourced (events ++ [e]) s' := by
  -- a fact about a run is older than this event, or this event states it
  have older {Q : Event → Prop} (hq : ∃ x ∈ events, Q x) : ∃ x ∈ events ++ [e], Q x := by
    obtain ⟨x, hx, hq⟩ := hq
    exact ⟨x, mem_append_left _ hx, hq⟩
  have now {Q : Event → Prop} (hq : Q e) : ∃ x ∈ events ++ [e], Q x := ⟨e, by simp, hq⟩
  constructor
  · intro r start hr
    rw [h.run_next r] at hr
    split_ifs at hr with hre
    · rw [next_start] at hr
      split at hr
      · rename_i started hp
        cases hr
        exact now ⟨hre.symm, hp⟩
      · exact older (hre ▸ hs.start _ start hr)
    · exact older (hs.start r start hr)
  · intro x hx started hp
    rw [h.run_next x.runId]
    rcases mem_append.1 hx with hx | hx
    · obtain ⟨start, hbeg, hst⟩ := hs.started x hx started hp
      split_ifs with hre
      · rw [hre] at hbeg
        rw [next_start]
        split
        · -- a second start is not accepted
          rename_i again hagain
          cases hbeg.symm.trans (h.started_once hagain)
        · exact ⟨start, hbeg, hst⟩
      · exact ⟨start, hbeg, hst⟩
    · obtain rfl := mem_singleton.1 hx
      rw [if_pos rfl, next_start, hp]
      exact ⟨_, rfl, rfl⟩
  · intro r intent hr
    rw [h.run_next r] at hr
    split_ifs at hr with hre
    · rw [next_intent] at hr
      split at hr
      · rename_i other hp
        cases hr
        exact now ⟨hre.symm, hp⟩
      · exact older (hre ▸ hs.intent _ intent hr)
    · exact older (hs.intent r intent hr)
  · intro r provenance hr
    rw [h.run_next r] at hr
    split_ifs at hr with hre
    · rw [next_provenance] at hr
      split at hr
      · rename_i other hp
        cases hr
        exact now ⟨hre.symm, hp⟩
      · exact older (hre ▸ hs.provenance _ provenance hr)
    · exact older (hs.provenance r provenance hr)
  · intro r
    rw [h.run_next r]
    split_ifs with hre
    · subst hre
      rw [next_closed, Bool.or_eq_true, hs.closed e.runId]
      simp [or_and_right, exists_or]
    · rw [hs.closed r]
      simp [or_and_right, exists_or, Ne.symm hre]
  · intro x hx v observation hp
    rcases mem_append.1 hx with hx | hx
    · exact h.proposed_kept (hs.observed x hx v observation hp)
    · obtain rfl := mem_singleton.1 hx
      exact h.proposed_kept (h.observes hi hp)

end

theorem Advance.not_closing (h : Advance format s e state record state' record') :
    e.payload.closesRun = false := by
  cases h with
  | observed _ hp | denied _ hp | allowed _ hp | deferred _ hp | policyFailed _ hp | asked _ hp
  | approved _ _ hp | refused _ _ hp | started _ hp | result _ _ _ hp | errored _ hp =>
    rw [hp]
    rfl

/-- A record stays as it is, or an event of its own open run changes it. -/
def KeptRecord (s : Validator) (e : Event) (record record' : RecordedOpsInvocation) : Prop :=
  record' = record ∨
    record'.runId = record.runId ∧ record.runId = e.runId ∧ (s.run e.runId).closed = false ∧
      e.payload.closesRun = false

theorem KeptRecord.run (h : KeptRecord s e record record') : record'.runId = record.runId := by
  rcases h with rfl | h
  · rfl
  · exact h.1

variable {k : ℕ}

theorem Transition.record_kept (h : Transition format s e s') (hi : Indexed s)
    (hk : s.snapshot.invocations[k]? = some record) :
    ∃ record', s'.snapshot.invocations[k]? = some record' ∧ KeptRecord s e record record' := by
  obtain ⟨_, hst, rfl⟩ := hi.recorded k record hk
  rcases h.keeps hi ⟨hst, hk⟩ with ⟨-, ht⟩ | ⟨_, record', -, hopen, hadv, ht⟩
  · exact ⟨record, ht.2, .inl rfl⟩
  · have hrec := ht.2
    rw [hadv.same.index] at hrec
    exact ⟨record', hrec, .inr ⟨hadv.same.run, hadv.run, hopen, hadv.not_closing⟩⟩

/-- Every record is new, with the proposal that this event makes, or it was there before. -/
theorem Transition.record_cases (h : Transition format s e s') (hi : Indexed s)
    (hk : s'.snapshot.invocations[k]? = some record') :
    (∃ p request start, Proposal s e p request start ∧ k = s.snapshot.invocations.length ∧
      record' = proposedRecord e start p request) ∨
      ∃ record, s.snapshot.invocations[k]? = some record ∧ KeptRecord s e record record' := by
  obtain ⟨state', hst', hidx⟩ := (h.indexed hi).recorded k record' hk
  have ht' : s'.Tracks record'.invocationId state' record' := ⟨hst', by rw [hidx]; exact hk⟩
  cases hst : s.invocations[record'.invocationId]? with
  | none =>
    obtain ⟨p, request, start, hp, -, rfl, hrec⟩ := h.origin hst ht'
    exact .inl ⟨p, request, start, hp, hidx.symm, hrec⟩
  | some state =>
    obtain ⟨record, ht, -⟩ := hi.tracked _ state hst
    rcases h.keeps hi ht with ⟨-, hsame⟩ | ⟨_, _, -, hopen, hadv, hsame⟩
    · obtain ⟨rfl, rfl⟩ := tracks_unique hsame ht'
      exact .inr ⟨record', hidx ▸ ht.2, .inl rfl⟩
    · obtain ⟨rfl, rfl⟩ := tracks_unique hsame ht'
      rw [hadv.same.index] at hidx
      exact .inr ⟨record, hidx ▸ ht.2,
        .inr ⟨hadv.same.run, hadv.run, hopen, hadv.not_closing⟩⟩

variable {start : Start} {p : ToolProposed}

theorem boundTool_manual {run : RunState}
    {request : OpsObservationRequest} {tool : ToolProvenanceEntry} {policy : PolicyProvenance}
    (h : boundTool run start p request = .ok (tool, policy))
    (hm : start.started.manualObservationRequired) :
    run.manualIndex = none ∧ run.intent = some ⟨p.invocationId, request, tool, policy⟩ := by
  unfold boundTool at h
  rw [if_pos hm] at h
  split at h
  · rename_i intent hint
    split_ifs at h with hc
    simp only [Bool.and_eq_true, beq_iff_eq, isNone_iff_eq_none] at hc
    cases h
    refine ⟨hc.1.1.2, ?_⟩
    rw [hint, ← hc.1.2, ← hc.2]
  · cases h

theorem boundTool_conversation {run : RunState}
    {request : OpsObservationRequest} {tool : ToolProvenanceEntry} {policy : PolicyProvenance}
    (h : boundTool run start p request = .ok (tool, policy))
    (hm : start.started.manualObservationRequired = false) :
    ∃ provenance, run.provenance = some provenance ∧ tool ∈ provenance.tools ∧
      provenance.toolPolicy = some policy := by
  unfold boundTool at h
  rw [if_neg (by simp [hm])] at h
  split at h
  · rename_i provenance hprov
    split at h
    · rename_i tool' policy' htool hpol
      split_ifs at h
      cases h
      exact ⟨provenance, hprov, mem_of_find?_eq_some htool, hpol⟩
    · cases h
  · cases h

theorem manual_start {run : RunState} (h : run.manual) :
    ∃ start, run.start = some start ∧ start.started.manualObservationRequired := by
  obtain ⟨start, hs, hm⟩ := (any_eq_true _ _).1 h
  exact ⟨start, hs, hm⟩

theorem manual_of_start {run : RunState} (h : run.start = some start) :
    run.manual = start.started.manualObservationRequired := by
  rw [RunState.manual, h, any_some]

variable {r : RunId}

/-- Once a run has started, no event changes whether it is manual. -/
theorem Transition.manual_next (h : Transition format s e s')
    (hs : (s.run r).start.isSome) : (s'.run r).manual = (s.run r).manual := by
  rw [h.run_next r]
  split_ifs with hr
  · subst hr
    rw [RunState.manual, next_start]
    split
    · rename_i started hp
      rw [h.started_once hp] at hs
      cases hs
    · rfl
  · rfl

/-- A manual run has at most one observation, and its end agrees with it. -/
structure ManualRuns (events : List Event) (s : Validator) : Prop where
  waiting : ∀ r, (s.run r).manual → (s.run r).manualIndex = none →
    (s.run r).nextMarker ∨ (s.run r).nextProposal
  index : ∀ r k, (s.run r).manualIndex = some k → (s.run r).manual ∧
    ∃ record, s.snapshot.invocations[k]? = some record ∧ record.runId = r
  begun : ∀ (k : ℕ) (record : RecordedOpsInvocation), s.snapshot.invocations[k]? = some record →
    (s.run record.runId).start.isSome
  own : ∀ (k : ℕ) (record : RecordedOpsInvocation), s.snapshot.invocations[k]? = some record →
    (s.run record.runId).manual → (s.run record.runId).manualIndex = some k
  ended : ∀ r k, (s.run r).manualIndex = some k → ∀ e ∈ events, e.runId = r →
    e.payload.closesRun → ∃ record, s.snapshot.invocations[k]? = some record ∧
      endsAs e.payload record.phase

theorem Transition.start_kept (h : Transition format s e s')
    (hs : (s.run r).start = some start) : (s'.run r).start = some start := by
  rw [h.run_next r]
  split_ifs with hr
  · subst hr
    rw [next_start]
    split
    · rename_i started hp
      cases hs.symm.trans (h.started_once hp)
    · exact hs
  · exact hs

/-- The proposal event of an observation, with the checks it passed and the record it leaves. -/
theorem Transition.proposal (h : Transition format s e s')
    (hp : e.payload = .toolProposed p) (hq : p.observationRequest.isSome) :
    ∃ request start, Proposal s e p request start ∧
      s'.snapshot.invocations[s.snapshot.invocations.length]? =
        some (proposedRecord e start p request) := by
  cases h with
  | proposed _ request start tool policy hp' hf hq' hs _ hc _ _ hb hw =>
    cases hp.symm.trans hp'
    refine ⟨request, start, ⟨hp, hf, hq', hs, hc, tool, policy, hb, hw⟩, ?_⟩
    simp [setRun, admitted, noted]
  | otherProposed _ hp' _ hn =>
    cases hp.symm.trans hp'
    rw [hn] at hq
    cases hq
  | unknown hp' | started _ hp' | selected _ _ hp' | intended _ hp' => cases hp.symm.trans hp'
  | routed _ _ _ _ _ hi | passed hi =>
    have hinner := hi.inner
    rw [hp] at hinner
    cases hinner

theorem next_manualIndex {run : RunState} {index : ℕ} : (run.next e index).manualIndex =
    match e.payload with
    | .toolProposed p =>
      if p.observationRequest.isSome && run.manual then some index else run.manualIndex
    | _ => run.manualIndex := by
  rcases e with ⟨_, payload⟩
  cases payload with
  | toolProposed p => cases hp : p.observationRequest <;> simp [RunState.next, hp]
  | _ => simp [RunState.next, RunState.afterInner]

section

variable (h : Transition format s e s')

include h

theorem Transition.manualIndex_next
    (hk : (s'.run r).manualIndex = some k) : (s.run r).manualIndex = some k ∨
      r = e.runId ∧ (s.run r).manual ∧ (s.run r).closed = false ∧
        e.payload.closesRun = false ∧
        ∃ record, s'.snapshot.invocations[k]? = some record ∧ record.runId = r := by
  rw [h.run_next r] at hk
  split_ifs at hk with hr
  · subst hr
    rw [next_manualIndex] at hk
    split at hk
    · rename_i p hp
      split_ifs at hk with hc
      · rw [Bool.and_eq_true] at hc
        obtain ⟨_, _, hprop, hrec⟩ := h.proposal hp hc.1
        cases hk
        exact .inr ⟨rfl, hc.2, hprop.running, by rw [hp]; rfl, _, hrec, rfl⟩
      · exact .inl hk
    · exact .inl hk
  · exact .inl hk

theorem Transition.manualIndex_kept
    (hk : (s.run r).manualIndex = some k) : (s'.run r).manualIndex = some k := by
  rw [h.run_next r]
  split_ifs with hr
  · subst hr
    rw [next_manualIndex]
    split
    · rename_i p hp
      split_ifs with hc
      · rw [Bool.and_eq_true] at hc
        obtain ⟨_, start, hprop, -⟩ := h.proposal hp hc.1
        obtain ⟨_, _, hb, -⟩ := hprop.bound
        have hm : start.started.manualObservationRequired := by
          rw [← manual_of_start hprop.started, hc.2]
        cases hk.symm.trans (boundTool_manual hb hm).1
      · exact hk
    · exact hk
  · exact hk

theorem Transition.waiting_next (hw : (s.run r).manual → (s.run r).manualIndex = none →
      (s.run r).nextMarker ∨ (s.run r).nextProposal)
    (hm : (s'.run r).manual) (hn : (s'.run r).manualIndex = none) :
    (s'.run r).nextMarker ∨ (s'.run r).nextProposal := by
  have hrun := h.run_next r
  rw [hrun] at hm hn ⊢
  split_ifs at hm hn ⊢ with hr
  · subst hr
    cases h with
    | unknown hp | selected _ _ hp =>
      simp only [RunState.next, hp] at hm hn ⊢
      exact hw hm hn
    | started _ hp =>
      simp only [RunState.next, hp, RunState.manual, any_some] at hm hn ⊢
      exact .inl (by rw [hm, Bool.or_true])
    | intended _ hp =>
      right
      simp only [RunState.next, hp]
    | otherProposed _ hp _ hnone hno =>
      simp only [RunState.next, hp, hnone] at hm
      cases hno.symm.trans hm
    | proposed _ _ _ _ _ hp _ hq =>
      simp only [RunState.next, hp, hq, isSome_some, if_true] at hm hn
      change (s.run e.runId).manual = true at hm
      rw [if_pos hm] at hn
      cases hn
    | routed _ _ _ _ _ hi | passed hi =>
      rw [next_of_inner hi.inner] at hm hn ⊢
      exact hw hm hn
  · exact hw hm hn

theorem Transition.manualRuns (hi : Indexed s)
    (hs : Sourced events s) (hm : ManualRuns events s) : ManualRuns (events ++ [e]) s' := by
  constructor
  · intro r
    exact h.waiting_next (hm.waiting r)
  · intro r k hk
    rcases h.manualIndex_next hk with hold | ⟨rfl, hman, -, -, hrec⟩
    · obtain ⟨hman, record, hrec, hrun⟩ := hm.index r k hold
      obtain ⟨start, hbeg, -⟩ := manual_start hman
      obtain ⟨record', hrec', hkept⟩ := h.record_kept hi hrec
      refine ⟨?_, record', hrec', hkept.run.trans hrun⟩
      rw [h.manual_next (by rw [hbeg]; rfl), hman]
    · obtain ⟨start, hbeg, -⟩ := manual_start hman
      exact ⟨by rw [h.manual_next (by rw [hbeg]; rfl), hman], hrec⟩
  · intro k record' hk
    rcases h.record_cases hi hk with ⟨_, _, start, hp, -, rfl⟩ | ⟨record, hrec, hkept⟩
    · exact isSome_iff_exists.2 ⟨start, h.start_kept hp.started⟩
    · obtain ⟨start, hbeg⟩ := isSome_iff_exists.1 (hm.begun k record hrec)
      rw [hkept.run]
      exact isSome_iff_exists.2 ⟨start, h.start_kept hbeg⟩
  · intro k record' hk hman
    rcases h.record_cases hi hk with ⟨_, _, start, hp, rfl, rfl⟩ | ⟨record, hrec, hkept⟩
    · have hold : (s.run e.runId).manual := by
        rw [← h.manual_next (by rw [hp.started]; rfl)]
        exact hman
      change (s'.run e.runId).manualIndex = _
      rw [h.run_next e.runId, if_pos rfl, next_manualIndex, hp.payload]
      simp [hp.asks, hold]
    · rw [hkept.run] at hman ⊢
      rw [h.manual_next (hm.begun k record hrec)] at hman
      exact h.manualIndex_kept (hm.own k record hrec hman)
  · intro r k hk x hx hxr hclose
    rcases h.manualIndex_next hk with hold | ⟨rfl, -, hopen, hquiet, -⟩
    · rcases mem_append.1 hx with hx | hx
      · obtain ⟨record, hrec, hend⟩ := hm.ended r k hold x hx hxr hclose
        obtain ⟨record', hrec', rfl | ⟨-, hown, hopen, -⟩⟩ := h.record_kept hi hrec
        · exact ⟨record', hrec', hend⟩
        · -- the run of the record had ended, so no event can have changed it
          obtain ⟨-, _, hits, hrun⟩ := hm.index r k hold
          obtain rfl := some.inj (hrec.symm.trans hits)
          have hshut := (hs.closed r).2 ⟨x, hx, hxr, hclose⟩
          rw [← hrun, hown, hopen] at hshut
          cases hshut
      · obtain rfl := mem_singleton.1 hx
        subst hxr
        have hend : ∃ record, s.snapshot.invocations[k]? = some record ∧
            endsAs x.payload record.phase := by
          cases h with
          | passed hc => exact hc.ending hclose k hold
          | routed _ _ _ _ _ hc => exact hc.ending hclose k hold
          | unknown hp | started _ hp | selected _ _ hp | intended _ hp | otherProposed _ hp
          | proposed _ _ _ _ _ hp =>
            rw [hp] at hclose
            cases hclose
        obtain ⟨record, hrec, hend⟩ := hend
        obtain ⟨record', hrec', rfl | ⟨-, -, -, hquiet⟩⟩ := h.record_kept hi hrec
        · exact ⟨record', hrec', hend⟩
        · cases hclose.symm.trans hquiet
    · rcases mem_append.1 hx with hx | hx
      · have hshut := (hs.closed e.runId).2 ⟨x, hx, hxr, hclose⟩
        cases hopen.symm.trans hshut
      · obtain rfl := mem_singleton.1 hx
        cases hclose.symm.trans hquiet

end

end OpsHistory
