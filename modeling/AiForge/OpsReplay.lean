import AiForge.OpsHistory

/-! # Replay of an Ops history

Says once what an accepted event does to the state of the replay. Everything that is proved
about whole logs comes from this case list. -/
namespace OpsHistory

open Content LaunchPolicy OpsEvidence OpsTarget Events Staged Bool

theorem require_ok {condition : Bool} {u : PUnit} :
    require condition = .ok u ↔ condition := ensure_ok

theorem require_bind {α : Type} {condition : Bool} {f : PUnit → Check α} {a : α} :
    (require condition >>= f) = .ok a ↔ condition ∧ f ⟨⟩ = .ok a := by
  rw [bind_ok]
  constructor
  · rintro ⟨_, hu, hf⟩
    exact ⟨require_ok.1 hu, hf⟩
  · rintro ⟨hc, hf⟩
    exact ⟨⟨⟩, require_ok.2 hc, hf⟩

@[simp] theorem run_noted {s : Validator} {e : Event} {r : RunId} :
    (s.noted e).run r = s.run r := rfl

@[simp] theorem run_setRun_self {s : Validator} {r : RunId} {run : RunState} :
    (s.setRun r run).run r = run := by
  simp [Validator.run, Validator.setRun]

variable {run : RunState}

theorem run_setRun_ne {s : Validator} {r r' : RunId} (h : r' ≠ r) :
    (s.setRun r run).run r' = s.run r' := by
  simp [Validator.run, Validator.setRun, Std.ExtTreeMap.getElem?_insert, h.symm]

theorem run_setRun {s : Validator} {r r' : RunId} :
    (s.setRun r run).run r' = if r' = r then run else s.run r' := by
  split_ifs with h
  · rw [h, run_setRun_self]
  · exact run_setRun_ne h

/-- The state of an observed invocation and the record that the snapshot keeps of it. -/
def Validator.Tracks (s : Validator) (v : InvocationId) (state : InvocationState)
    (record : RecordedOpsInvocation) : Prop :=
  s.invocations[v]? = some state ∧ s.snapshot.invocations[state.index]? = some record

/-- Payloads that are routed to the invocation their metadata names. -/
def Payload.inner : Payload → Bool
  | .unknown | .runStarted _ | .opsTargetSelected _ _ | .humanObservationRequested _ |
    .toolProposed _ => false
  | _ => true

def RunState.afterInner (run : RunState) (e : Event) : RunState :=
  { run with
    provenance :=
      match e.payload with
      | .runProvenanceRecorded provenance => some provenance
      | _ => run.provenance
    cancelRequested := run.cancelRequested || (run.manual && e.payload == .runCancelRequested)
    closed := run.closed || e.payload.closesRun
    contentSeen := true }

/-- What the checks of an inner event leave behind for its run. -/
structure InnerChecks (s : Validator) (e : Event) (run : RunState) : Prop where
  inner : e.payload.inner
  named : namedInMetadata s e
  marker : run.nextMarker = false
  proposal : run.nextProposal = false
  selecting : run.selection → afterSelection e run
  manual : run.manual → run.closed = false ∧ run.manualIndex.isSome
  ending : e.payload.closesRun → ∀ index, run.manualIndex = some index →
    ∃ record, s.snapshot.invocations[index]? = some record ∧
      endsAs e.payload record.phase

section Transitions

variable (format : OpsObservation → Option (List ContentBlock)) (session : SessionId)

inductive Transition (s : Validator) (e : Event) : Validator → Prop where
  | unknown (hp : e.payload = .unknown) :
      Transition s e ((s.noted e).setRun e.runId { s.run e.runId with unknownContent := true })
  | started (started : RunStarted) (hp : e.payload = .runStarted started)
      (hs : (s.run e.runId).start = none) :
      Transition s e ((s.noted e).setRun e.runId
        { s.run e.runId with
          nextMarker := (s.run e.runId).nextMarker || started.manualObservationRequired
          start := some ⟨started, e.metadata⟩ })
  | selected (target : OpsTargetBinding) (generation : ℕ)
      (hp : e.payload = .opsTargetSelected target generation)
      (hr : selectingRun (s.run e.runId)) (hg : generation ≠ 0)
      (hm : s.snapshot.maximumSelectionGeneration = 0 ∨
        generation = s.snapshot.maximumSelectionGeneration + 1)
      (ho : s.othersClosed e.runId) :
      Transition s e
        { (s.noted e).setRun e.runId
            { s.run e.runId with selection := true, contentSeen := true } with
          snapshot := { (s.noted e).snapshot with
            maximumSelectionGeneration := generation
            latestSelection := some ⟨e.runId, e.metadata.eventId, target, generation⟩ } }
  | intended (intent : HumanObservationRequested)
      (hp : e.payload = .humanObservationRequested intent)
      (hm : (s.run e.runId).manual) (hk : (s.run e.runId).nextMarker)
      (hi : (s.run e.runId).intent = none) (hc : (s.run e.runId).closed = false) :
      Transition s e ((s.noted e).setRun e.runId
        { s.run e.runId with intent := some intent, nextMarker := false, nextProposal := true })
  | otherProposed (p : ToolProposed) (hp : e.payload = .toolProposed p)
      (hf : p.invocationId ∉ s.proposed) (hn : p.observationRequest = none)
      (hm : (s.run e.runId).manual = false) :
      Transition s e
        ({ s.noted e with proposed := p.invocationId :: s.proposed }.setRun e.runId
          (s.run e.runId))
  | proposed (p : ToolProposed) (request : OpsObservationRequest) (start : Start)
      (tool : ToolProvenanceEntry) (policy : PolicyProvenance)
      (hp : e.payload = .toolProposed p) (hf : p.invocationId ∉ s.proposed)
      (hq : p.observationRequest = some request) (hs : (s.run e.runId).start = some start)
      (hk : (s.run e.runId).nextMarker = false) (hc : (s.run e.runId).closed = false)
      (hv : (validateRecordedOpsRequest request).isOk)
      (hsel : s.currentSelectionMatches request)
      (hb : boundTool (s.run e.runId) start p request = .ok (tool, policy))
      (hw : withinCeilings start tool policy p) :
      Transition s e
        (({ s.noted e with proposed := p.invocationId :: s.proposed }.admitted e start p
            request).setRun e.runId
          ((s.run e.runId).afterProposal start s.snapshot.invocations.length))
  | routed (v : InvocationId) (state state' : InvocationState)
      (record record' : RecordedOpsInvocation) (hi : InnerChecks s e (s.run e.runId))
      (hv : e.metadata.invocationId = some v) (ht : s.Tracks v state record)
      (hc : (s.run e.runId).closed = false)
      (ha : advance format (s.noted e) e state record = .ok (state', record')) :
      Transition s e (((s.noted e).setInvocation v state' record').setRun e.runId
        ((s.run e.runId).afterInner e))
  | passed (hi : InnerChecks s e (s.run e.runId))
      (hv : ∀ v, e.metadata.invocationId = some v → s.invocations[v]? = none)
      (ho : e.payload.isObservation = false) :
      Transition s e ((s.noted e).setRun e.runId ((s.run e.runId).afterInner e))

variable {format session} {s s' : Validator} {e : Event} {run' : RunState}

theorem noteProvenance_ok (h : noteProvenance e run = .ok run') : run' = { run with
      provenance :=
        match e.payload with
        | .runProvenanceRecorded provenance => some provenance
        | _ => run.provenance } := by
  rcases e with ⟨_, payload⟩
  cases payload with
  | runProvenanceRecorded =>
    obtain ⟨-, hrun⟩ := require_bind.1 h
    exact (Except.ok.inj hrun).symm
  | _ => exact (Except.ok.inj h).symm

theorem guardManualEvent_ok (h : guardManualEvent e run = .ok run') :
    (run.manual → run.closed = false ∧ run.manualIndex.isSome) ∧
      run' = { run with
        cancelRequested :=
          run.cancelRequested || (run.manual && e.payload == .runCancelRequested) } := by
  obtain ⟨hc, hrun⟩ := require_bind.1 h
  refine ⟨?_, (Except.ok.inj hrun).symm⟩
  intro hm
  simp only [hm, Bool.not_true, Bool.false_or, Bool.and_eq_true, Bool.not_eq_true'] at hc
  exact ⟨hc.1.1.1.1, hc.1.1.1.2⟩

theorem finishRunEvent_ok (h : finishRunEvent s e run = .ok run') :
    (e.payload.closesRun → ∀ index, run.manualIndex = some index →
      ∃ record, s.snapshot.invocations[index]? = some record ∧
        endsAs e.payload record.phase) ∧
      run' = { run with closed := run.closed || e.payload.closesRun } := by
  obtain ⟨hc, hrun⟩ := require_bind.1 h
  refine ⟨?_, (Except.ok.inj hrun).symm⟩
  intro hclose index hidx
  simpa [hclose, hidx, Option.any_eq_true] using hc

/-- Only tool events of the lifecycle advance an invocation; in particular no event that ends
a run does. -/
theorem advance_inner {state : InvocationState} {record : RecordedOpsInvocation} {t : Tracked}
    (h : advance format s e state record = .ok t) : e.payload.closesRun = false := by
  rcases e with ⟨_, payload⟩
  cases payload with
  | runCompleted | runFailed | runCancelled =>
    simp [advance, invocationEvent, step, bind_ok] at h
  | _ => rfl

theorem innerEvent_transition (h : innerEvent format (s.noted e) e (s.run e.runId) = .ok s')
    (hi : e.payload.inner) (hk : (s.run e.runId).nextMarker = false)
    (hp : (s.run e.runId).nextProposal = false)
    (hs : (s.run e.runId).selection → afterSelection e (s.run e.runId)) :
    Transition format s e s' := by
  obtain ⟨_, h₁, h⟩ := bind_ok.1 h
  obtain ⟨_, h₂, h⟩ := bind_ok.1 h
  obtain ⟨_, h₃, h⟩ := bind_ok.1 h
  obtain ⟨run₄, h₄, h⟩ := bind_ok.1 h
  cases h
  have hrun₁ := noteProvenance_ok h₁
  obtain ⟨hman, hrun₂⟩ := guardManualEvent_ok h₂
  obtain ⟨hend, hrun₄⟩ := finishRunEvent_ok h₄
  subst hrun₁
  subst hrun₂
  obtain ⟨hnamed, h₃⟩ := require_bind.1 h₃
  -- the run keeps its start and its index through the first two checks
  have hrun : { run₄ with contentSeen := true } = (s.run e.runId).afterInner e := by
    rw [hrun₄]
    rfl
  rw [hrun]
  split at h₃
  · rename_i v state hv hfnd
    split at h₃
    · rename_i record hrec
      obtain ⟨hshut, h₃⟩ := require_bind.1 h₃
      obtain ⟨⟨state', record'⟩, hadv, h₃⟩ := bind_ok.1 h₃
      cases h₃
      have hquiet : e.payload.closesRun = false := advance_inner hadv
      have hst : s.invocations[v]? = some state := by
        simpa [Validator.found, hv, Validator.noted] using hfnd
      refine .routed v state state' record record' ⟨hi, hnamed, hk, hp, hs, hman, ?_⟩ hv
        ⟨hst, hrec⟩ (by simpa using hshut) hadv
      intro hclose
      rw [hquiet] at hclose
      cases hclose
    · cases h₃
  · rename_i hnot
    obtain ⟨hobs, h₃⟩ := require_bind.1 h₃
    obtain ⟨-, h₃⟩ := require_bind.1 h₃
    cases h₃
    refine .passed ⟨hi, hnamed, hk, hp, hs, hman, hend⟩ ?_ (by simpa using hobs)
    intro v hv
    cases hfnd : s.invocations[v]? with
    | none => rfl
    | some state =>
      refine absurd ?_ (hnot v state hv)
      simpa [Validator.found, hv, Validator.noted] using hfnd

theorem selectionEvent_transition {target : OpsTargetBinding} {generation : ℕ}
    (h : selectionEvent (s.noted e) e (s.run e.runId) target generation = .ok s')
    (hp : e.payload = .opsTargetSelected target generation) : Transition format s e s' := by
  obtain ⟨hc, h⟩ := require_bind.1 h
  obtain ⟨ho, h⟩ := require_bind.1 h
  cases h
  simp only [and_eq_true, or_eq_true, bne_iff_ne, beq_iff_eq] at hc
  exact .selected target generation hp hc.1.1.1.1.1.1 hc.1.1.2 hc.2 ho

theorem intentEvent_transition {intent : HumanObservationRequested}
    (h : intentEvent session (s.noted e) e (s.run e.runId) intent = .ok s')
    (hp : e.payload = .humanObservationRequested intent) : Transition format s e s' := by
  obtain ⟨hc, h⟩ := require_bind.1 h
  obtain ⟨-, h⟩ := require_bind.1 h
  obtain ⟨-, h⟩ := require_bind.1 h
  obtain ⟨-, h⟩ := require_bind.1 h
  obtain ⟨-, h⟩ := require_bind.1 h
  cases h
  simp only [and_eq_true, not_eq_true', Option.isNone_iff_eq_none] at hc
  exact .intended intent hp hc.1.1.1.1.1.1 hc.1.1.1.1.1.2 hc.1.1.1.1.2 hc.1.1.1.2

theorem proposalEvent_transition {p : ToolProposed}
    (h : proposalEvent session (s.noted e) e (s.run e.runId) p = .ok s')
    (hp : e.payload = .toolProposed p) (hk : (s.run e.runId).nextMarker = false) :
    Transition format s e s' := by
  obtain ⟨hf, h⟩ := require_bind.1 h
  have hnew : p.invocationId ∉ s.proposed := of_decide_eq_true hf
  obtain ⟨-, h⟩ := require_bind.1 h
  split at h
  · rename_i request start hreq hbeg
    obtain ⟨hc, h⟩ := require_bind.1 h
    obtain ⟨hv, h⟩ := require_bind.1 h
    obtain ⟨hsel, h⟩ := require_bind.1 h
    obtain ⟨-, h⟩ := require_bind.1 h
    obtain ⟨-, h⟩ := require_bind.1 h
    obtain ⟨-, h⟩ := require_bind.1 h
    obtain ⟨⟨tool, policy⟩, hb, h⟩ := bind_ok.1 h
    obtain ⟨hw, h⟩ := require_bind.1 h
    obtain ⟨-, -, h⟩ := bind_ok.1 h
    cases h
    simp only [and_eq_true, not_eq_true'] at hc hv
    exact .proposed p request start tool policy hp hnew hreq hbeg hk hc.1 hv.1.1.1 hsel
      hb hw
  · cases h
  · rename_i hreq
    obtain ⟨hm, h⟩ := require_bind.1 h
    cases h
    exact .otherProposed p hp hnew hreq (by simpa using hm)

theorem runEvent_transition (h : runEvent format session (s.noted e) e (s.run e.runId) = .ok s')
    (hu : e.payload ≠ .unknown) (hst : ∀ started, e.payload ≠ .runStarted started) :
    Transition format s e s' := by
  obtain ⟨hmarker, h⟩ := require_bind.1 h
  obtain ⟨hprop, h⟩ := require_bind.1 h
  have hk : e.payload.isIntent = false → (s.run e.runId).nextMarker = false := by
    intro hi
    simpa [hi] using hmarker
  have hn : e.payload.isProposal = false → (s.run e.runId).nextProposal = false := by
    intro hi
    simpa [hi] using hprop
  split at h
  · rename_i target generation hp
    exact selectionEvent_transition h hp
  · rename_i hnsel
    obtain ⟨hs, h⟩ := require_bind.1 h
    split at h
    · rename_i intent hp
      exact intentEvent_transition h hp
    · rename_i p hp
      exact proposalEvent_transition h hp (hk (by rw [hp]; rfl))
    · rename_i hnint hnprop
      have hinner : e.payload.inner := by
        cases hpay : e.payload with
        | unknown => exact absurd hpay hu
        | runStarted started => exact absurd hpay (hst started)
        | opsTargetSelected target generation => exact absurd hpay (hnsel target generation)
        | humanObservationRequested intent => exact absurd hpay (hnint intent)
        | toolProposed p => exact absurd hpay (hnprop p)
        | _ => rfl
      refine innerEvent_transition h hinner (hk ?_) (hn ?_) ?_
      · cases hpay : e.payload with
        | humanObservationRequested intent => exact absurd hpay (hnint intent)
        | _ => rfl
      · cases hpay : e.payload with
        | toolProposed p => exact absurd hpay (hnprop p)
        | _ => rfl
      · intro hsel
        simpa [hsel] using hs

theorem startEvent_transition {started : RunStarted}
    (h : startEvent (s.noted e) e (s.run e.runId) started = .ok s')
    (hp : e.payload = .runStarted started) : Transition format s e s' := by
  obtain ⟨hs, h⟩ := require_bind.1 h
  obtain ⟨-, h⟩ := require_bind.1 h
  obtain ⟨-, h⟩ := require_bind.1 h
  cases h
  exact .started started hp (Option.isNone_iff_eq_none.1 hs)

theorem unknownEvent_transition (h : unknownEvent (s.noted e) e (s.run e.runId) = .ok s')
    (hp : e.payload = .unknown) : Transition format s e s' := by
  obtain ⟨-, h⟩ := require_bind.1 h
  cases h
  exact .unknown hp

theorem apply_transition (h : apply format session s e = .ok s') : Transition format s e s' := by
  obtain ⟨-, h⟩ := require_bind.1 h
  obtain ⟨-, h⟩ := require_bind.1 h
  split at h
  · rename_i hp
    exact unknownEvent_transition h hp
  · rename_i started hp
    exact startEvent_transition h hp
  · rename_i hu hst
    exact runEvent_transition h hu hst

theorem replay_snoc {events : List Event} : replay format session (events ++ [e]) = .ok s' ↔
      ∃ s, replay format session events = .ok s ∧ apply format session s e = .ok s' := by
  rw [replay, foldlM_append_ok]
  constructor
  · rintro ⟨s, hs, h⟩
    obtain ⟨_, ht, h⟩ := Staged.foldlM_cons_ok.1 h
    cases h
    exact ⟨s, hs, ht⟩
  · rintro ⟨s, hs, h⟩
    exact ⟨s, hs, Staged.foldlM_cons_ok.2 ⟨s', h, rfl⟩⟩

/-- What holds of the empty log and survives every accepted event holds of every replayed log. -/
theorem replay_induction {motive : List Event → Validator → Prop} (nil : motive [] {})
    (snoc : ∀ events e s s', motive events s → Transition format s e s' →
      motive (events ++ [e]) s') {events : List Event}
    (h : replay format session events = .ok s) : motive events s := by
  induction events using List.reverseRecOn generalizing s with
  | nil =>
    cases h
    exact nil
  | append_singleton events e ih =>
    obtain ⟨t, ht, he⟩ := replay_snoc.1 h
    exact snoc events e t s (ih ht) (apply_transition he)

end Transitions

end OpsHistory
