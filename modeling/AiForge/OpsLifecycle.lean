import AiForge.OpsReplay

/-! # Lifecycle of an observed invocation

The replay keeps flags for each invocation. Here the lifecycle is a machine of its own, with
one stage for every combination of flags that can occur, and the replay is shown to move each
invocation along it. -/
namespace OpsHistory

open Capability Content LaunchPolicy OpsEvidence Events Option Bool

section Advances

variable (format : OpsObservation → Option (List ContentBlock))

/-- The checks every event of an invocation passes, an observation apart. -/
structure Ready (e : Event) (state : InvocationState) (record : RecordedOpsInvocation) : Prop where
  run : record.runId = e.runId
  unfinished : record.phase.terminal = false
  pending : state.pendingResult → e.payload.isResult
  mustError : state.mustError → e.payload.isError
  names : e.payload.invocationId.all (· == record.invocationId) = true

inductive Advance (s : Validator) (e : Event) (state : InvocationState)
    (record : RecordedOpsInvocation) : InvocationState → RecordedOpsInvocation → Prop where
  | observed (observation : OpsObservation)
      (hp : e.payload = .opsObservationRecorded record.invocationId observation)
      (hr : record.runId = e.runId) (hph : record.phase = .running)
      (ho : state.observation = none)
      (hv : (validateRecordedOpsObservation observation).isOk)
      (hq : observation.request = record.request)
      (hs : s.currentSelectionMatches record.request) :
      Advance s e state record
        { state with observation := some observation, pendingResult := true }
        { record with observationEventId := some e.metadata.eventId }
  | denied (decided : ToolPolicyDecided) (hp : e.payload = .toolPolicyDecided decided)
      (hd : decided.decision = .deny) (hr : Ready e state record)
      (hph : record.phase = .proposed) (hn : state.decision = none) :
      Advance s e state record { state with decision := some .deny, mustError := true } record
  | allowed (decided : ToolPolicyDecided) (hp : e.payload = .toolPolicyDecided decided)
      (hd : decided.decision = .allow) (hr : Ready e state record)
      (hph : record.phase = .proposed) (hn : state.decision = none)
      (hm : matchingScopes decided.scopes state.proposal.requestedScopes) :
      Advance s e state record { state with decision := some .allow }
        { record with phase := .allowed }
  | deferred (decided : ToolPolicyDecided) (hp : e.payload = .toolPolicyDecided decided)
      (hd : decided.decision = .requireApproval) (hr : Ready e state record)
      (hph : record.phase = .proposed) (hn : state.decision = none)
      (hm : matchingScopes decided.scopes state.proposal.requestedScopes) :
      Advance s e state record { state with decision := some .requireApproval } record
  | policyFailed (v : InvocationId) (hp : e.payload = .toolPolicyFailed v)
      (hr : Ready e state record)
      (hph : (record.phase = .proposed ∧ state.decision = none) ∨
        record.phase = .awaitingApproval) :
      Advance s e state record { state with policyFailed := true, mustError := true } record
  | asked (v : InvocationId) (hp : e.payload = .toolApprovalRequested v
        state.proposal.requestedScopes) (hr : Ready e state record)
      (hph : record.phase = .proposed) (hd : state.decision = some .requireApproval) :
      Advance s e state record state { record with phase := .awaitingApproval }
  | approved (v : InvocationId) (scopes : List CapabilityScope)
      (hp : e.payload = .toolApprovalDecided v .approved scopes) (hr : Ready e state record)
      (hph : record.phase = .awaitingApproval)
      (hm : matchingScopes scopes state.proposal.requestedScopes) :
      Advance s e state record state { record with phase := .allowed }
  | refused (v : InvocationId) (decision : ApprovalDecision)
      (hp : e.payload = .toolApprovalDecided v decision []) (hd : decision ≠ .approved)
      (hr : Ready e state record) (hph : record.phase = .awaitingApproval) :
      Advance s e state record { state with mustError := true } { record with phase := .proposed }
  | started (v : InvocationId) (hp : e.payload = .toolStarted v) (hr : Ready e state record)
      (hph : record.phase = .allowed) (ho : state.observation = none) :
      Advance s e state record state { record with phase := .running }
  | result (v : InvocationId) (content : List ContentBlock) (observation : OpsObservation)
      (hp : e.payload = .toolResultRecorded v content state.proposal.resultMessageId)
      (hr : Ready e state record) (hph : record.phase = .running)
      (ho : state.observation = some observation) (hf : format observation = some content)
      (hs : s.currentSelectionMatches record.request) :
      Advance s e state record { state with pendingResult := false }
        { record with phase := .succeeded, resultEventId := some e.metadata.eventId }
  | errored (v : InvocationId)
      (hp : e.payload = .toolErrored v state.proposal.resultMessageId)
      (hr : Ready e state record) (ho : state.observation = none) :
      Advance s e state record { state with mustError := false }
        { record with phase := .failed, resultEventId := some e.metadata.eventId }

variable {format} {s : Validator} {e : Event} {state state' : InvocationState}
  {record record' : RecordedOpsInvocation}

theorem step_advance (h : step format s e state record = .ok (state', record'))
    (hr : Ready e state record) : Advance format s e state record state' record' := by
  unfold step at h
  split at h
  · rename_i decided hp
    obtain ⟨hc, h⟩ := require_bind.1 h
    simp only [and_eq_true, beq_iff_eq, isNone_iff_eq_none] at hc
    split at h
    · rename_i hd
      obtain ⟨-, h⟩ := require_bind.1 h
      cases h
      exact .denied decided hp hd hr hc.1.1 hc.1.2
    · rename_i hd
      obtain ⟨hm, h⟩ := require_bind.1 h
      cases h
      exact .allowed decided hp hd hr hc.1.1 hc.1.2 hm
    · rename_i hd
      obtain ⟨hm, h⟩ := require_bind.1 h
      cases h
      exact .deferred decided hp hd hr hc.1.1 hc.1.2 hm
  · rename_i v hp
    obtain ⟨hc, h⟩ := require_bind.1 h
    cases h
    simp only [and_eq_true, or_eq_true, beq_iff_eq, isNone_iff_eq_none] at hc
    refine .policyFailed v hp hr ?_
    rcases hc.1 with hc | hc
    · exact .inl hc
    · exact .inr hc.1
  · rename_i v scopes hp
    obtain ⟨hc, h⟩ := require_bind.1 h
    cases h
    simp only [and_eq_true, beq_iff_eq] at hc
    rw [hc.2] at hp
    exact .asked v hp hr hc.1.1 hc.1.2
  · rename_i v decision scopes hp
    obtain ⟨hc, h⟩ := require_bind.1 h
    simp only [beq_iff_eq] at hc
    split at h
    · obtain ⟨hm, h⟩ := require_bind.1 h
      cases h
      exact .approved v scopes hp hr hc hm
    · obtain ⟨hm, h⟩ := require_bind.1 h
      cases h
      rw [List.isEmpty_iff.1 hm] at hp
      exact .refused v .denied hp (by decide) hr hc
    · obtain ⟨hm, h⟩ := require_bind.1 h
      cases h
      rw [List.isEmpty_iff.1 hm] at hp
      exact .refused v .cancelled hp (by decide) hr hc
  · rename_i v hp
    obtain ⟨hc, h⟩ := require_bind.1 h
    cases h
    simp only [and_eq_true, beq_iff_eq, isNone_iff_eq_none] at hc
    exact .started v hp hr hc.1 hc.2
  · rename_i v content message hp
    obtain ⟨hc, h⟩ := require_bind.1 h
    obtain ⟨hf, h⟩ := require_bind.1 h
    cases h
    simp only [and_eq_true, beq_iff_eq] at hc
    obtain ⟨observation, ho, hf⟩ := (any_eq_true _ _).1 hf
    rw [hc.1.2] at hp
    exact .result v content observation hp hr hc.1.1.1.1 ho (by simpa using hf) hc.2
  · rename_i v message hp
    obtain ⟨hc, h⟩ := require_bind.1 h
    cases h
    simp only [and_eq_true, beq_iff_eq, isNone_iff_eq_none] at hc
    rw [hc.2] at hp
    exact .errored v hp hr hc.1
  · cases h

theorem invocationEvent_advance
    (h : invocationEvent format s e state record = .ok (state', record')) :
    Advance format s e state record state' record' := by
  obtain ⟨-, h⟩ := require_bind.1 h
  obtain ⟨hrun, h⟩ := require_bind.1 h
  obtain ⟨hpend, h⟩ := require_bind.1 h
  obtain ⟨hmust, h⟩ := require_bind.1 h
  obtain ⟨hnms, h⟩ := require_bind.1 h
  simp only [and_eq_true, beq_iff_eq, not_eq_true'] at hrun
  refine step_advance h ⟨hrun.1, hrun.2, ?_, ?_, hnms⟩
  · intro hp
    simpa [hp] using hpend
  · intro hp
    simpa [hp] using hmust

theorem advance_cases (h : advance format s e state record = .ok (state', record')) :
    Advance format s e state record state' record' := by
  unfold advance at h
  split at h
  · rename_i v observation hp
    obtain ⟨-, h⟩ := require_bind.1 h
    obtain ⟨hc, h⟩ := require_bind.1 h
    cases h
    simp only [and_eq_true, beq_iff_eq, isNone_iff_eq_none] at hc
    rw [hc.1.1.1.1.1.2] at hp
    exact .observed observation hp hc.1.1.1.1.1.1 hc.1.1.1.1.2 hc.1.1.1.2 hc.1.1.2 hc.1.2 hc.2
  · exact invocationEvent_advance h

/-- An event of an invocation changes neither what was proposed nor which record describes it. -/
structure SameInvocation (state state' : InvocationState)
    (record record' : RecordedOpsInvocation) : Prop where
  index : state'.index = state.index
  proposal : state'.proposal = state.proposal
  run : record'.runId = record.runId
  invocation : record'.invocationId = record.invocationId
  request : record'.request = record.request
  origin : record'.humanOrigin = record.humanOrigin

section

variable (h : Advance format s e state record state' record')

include h

theorem Advance.same : SameInvocation state state' record record' := by
  cases h <;> exact ⟨rfl, rfl, rfl, rfl, rfl, rfl⟩

theorem Advance.run : record.runId = e.runId := by
  cases h with
  | observed _ _ hr => exact hr
  | denied _ _ _ hr | allowed _ _ _ hr | deferred _ _ _ hr | policyFailed _ _ hr | asked _ _ hr
  | approved _ _ _ hr | refused _ _ _ _ hr | started _ _ hr | result _ _ _ _ hr | errored _ _ hr =>
    exact hr.run

theorem Advance.payload : e.payload.invocationId = some record.invocationId := by
  have names (v : InvocationId) (hv : e.payload.invocationId = some v)
      (hr : Ready e state record) : e.payload.invocationId = some record.invocationId := by
    have hn := hr.names
    rw [hv, all_some, beq_iff_eq] at hn
    rw [hv, hn]
  cases h with
  | observed _ hp => rw [hp]; rfl
  | denied _ hp _ hr | allowed _ hp _ hr | deferred _ hp _ hr | policyFailed _ hp hr
  | asked _ hp hr | approved _ _ hp hr | refused _ _ hp _ hr | started _ hp hr
  | result _ _ _ hp hr | errored _ hp hr => exact names _ (by rw [hp]; rfl) hr

end

end Advances

/-- Where an invocation stands. A refused one was denied, or its policy failed, and can only
report an error. -/
inductive Stage where
  | proposed | deferred | awaiting | refused | allowed | running
  | observed (observation : OpsObservation)
  | succeeded | failed

def Stage.terminal : Stage → Bool
  | .succeeded | .failed => true
  | _ => false

/-- An error ends every stage in which no observation was recorded. -/
def Stage.mayFail : Stage → Bool
  | .observed _ | .succeeded | .failed => false
  | _ => true

section Machine

variable (format : OpsObservation → Option (List ContentBlock)) (v : InvocationId)
  (p : ToolProposed)

/-- The moves of the invocation `v`, proposed as `p`. -/
inductive Moves : Stage → Event → Stage → Prop where
  | deny (e : Event) (decided : ToolPolicyDecided) (hp : e.payload = .toolPolicyDecided decided)
      (hv : decided.invocationId = v) (hd : decided.decision = .deny) : Moves .proposed e .refused
  | allow (e : Event) (decided : ToolPolicyDecided) (hp : e.payload = .toolPolicyDecided decided)
      (hv : decided.invocationId = v) (hd : decided.decision = .allow)
      (hs : matchingScopes decided.scopes p.requestedScopes) : Moves .proposed e .allowed
  | defer (e : Event) (decided : ToolPolicyDecided) (hp : e.payload = .toolPolicyDecided decided)
      (hv : decided.invocationId = v) (hd : decided.decision = .requireApproval)
      (hs : matchingScopes decided.scopes p.requestedScopes) : Moves .proposed e .deferred
  | policyFails (stage : Stage) (e : Event) (hp : e.payload = .toolPolicyFailed v)
      (hs : stage = .proposed ∨ stage = .awaiting) : Moves stage e .refused
  | ask (e : Event) (hp : e.payload = .toolApprovalRequested v p.requestedScopes) :
      Moves .deferred e .awaiting
  | approve (e : Event) (scopes : List CapabilityScope)
      (hp : e.payload = .toolApprovalDecided v .approved scopes)
      (hs : matchingScopes scopes p.requestedScopes) : Moves .awaiting e .allowed
  | refuse (e : Event) (decision : ApprovalDecision)
      (hp : e.payload = .toolApprovalDecided v decision []) (hd : decision ≠ .approved) :
      Moves .awaiting e .refused
  | start (e : Event) (hp : e.payload = .toolStarted v) : Moves .allowed e .running
  | observe (e : Event) (observation : OpsObservation)
      (hp : e.payload = .opsObservationRecorded v observation)
      (hv : (validateRecordedOpsObservation observation).isOk)
      (hq : p.observationRequest = some observation.request) :
      Moves .running e (.observed observation)
  | result (e : Event) (observation : OpsObservation) (content : List ContentBlock)
      (hp : e.payload = .toolResultRecorded v content p.resultMessageId)
      (hf : format observation = some content) : Moves (.observed observation) e .succeeded
  | error (stage : Stage) (e : Event) (hp : e.payload = .toolErrored v p.resultMessageId)
      (hs : stage.mayFail) : Moves stage e .failed

/-- The events that brought an invocation from its proposal to a stage, in their order. -/
inductive Course : List Event → Stage → Prop where
  | proposed : Course [] .proposed
  | move {events : List Event} {e : Event} {stage stage' : Stage} :
      Course events stage → Moves format v p stage e stage' → Course (events ++ [e]) stage'

end Machine

/-- The flags of an invocation as its stage fixes them. -/
def Stage.At : Stage → InvocationState → OpsInvocationPhase → Prop
  | .proposed, state, phase => phase = .proposed ∧ state.decision = none ∧
      state.mustError = false ∧ state.pendingResult = false ∧ state.observation = none
  | .deferred, state, phase => phase = .proposed ∧ state.decision = some .requireApproval ∧
      state.mustError = false ∧ state.pendingResult = false ∧ state.observation = none
  | .awaiting, state, phase => phase = .awaitingApproval ∧ state.mustError = false ∧
      state.pendingResult = false ∧ state.observation = none
  | .refused, state, phase => (phase = .proposed ∨ phase = .awaitingApproval) ∧
      state.mustError ∧ state.pendingResult = false ∧ state.observation = none
  | .allowed, state, phase => phase = .allowed ∧ state.mustError = false ∧
      state.pendingResult = false ∧ state.observation = none
  | .running, state, phase => phase = .running ∧ state.mustError = false ∧
      state.pendingResult = false ∧ state.observation = none
  | .observed observation, state, phase => phase = .running ∧ state.mustError = false ∧
      state.pendingResult ∧ state.observation = some observation
  | .succeeded, state, phase => phase = .succeeded ∧ state.mustError = false ∧
      state.pendingResult = false ∧ state.observation.isSome
  | .failed, state, phase => phase = .failed ∧ state.mustError = false ∧
      state.pendingResult = false

section Refinement

variable {format : OpsObservation → Option (List ContentBlock)} {s : Validator} {e : Event}
  {state state' : InvocationState} {record record' : RecordedOpsInvocation} {stage : Stage}
  {phase : OpsInvocationPhase}

section

variable (h : stage.At state phase)

include h

theorem Stage.At.of_proposed (hp : phase = .proposed)
    (hm : state.mustError = false) : (stage = .proposed ∧ state.decision = none) ∨
      (stage = .deferred ∧ state.decision = some .requireApproval) := by
  cases stage <;> simp_all [Stage.At]

theorem Stage.At.of_awaiting (hp : phase = .awaitingApproval)
    (hm : state.mustError = false) : stage = .awaiting := by
  cases stage <;> simp_all [Stage.At]

theorem Stage.At.of_allowed (hp : phase = .allowed) : stage = .allowed := by
  cases stage <;> simp_all [Stage.At]

theorem Stage.At.of_running (hp : phase = .running) :
    (stage = .running ∧ state.observation = none) ∨
      ∃ observation, stage = .observed observation ∧ state.observation = some observation := by
  cases stage <;> simp_all [Stage.At]

theorem Stage.At.terminal : phase.terminal = stage.terminal := by
  cases stage with
  | refused => rcases h with ⟨hp | hp, -⟩ <;> rw [hp] <;> rfl
  | _ => rw [h.1]; rfl

theorem Stage.At.mayFail (ho : state.observation = none)
    (ht : phase.terminal = false) : stage.mayFail := by
  have hs := h.terminal.symm.trans ht
  cases stage <;> simp_all [Stage.At, Stage.terminal, Stage.mayFail]

end

/-- One accepted event of an invocation is one move of its lifecycle. -/
theorem Advance.moves (h : Advance format s e state record state' record')
    (hq : state.proposal.observationRequest = some record.request)
    (hat : stage.At state record.phase) :
    ∃ stage', Moves format record.invocationId state.proposal stage e stage' ∧
      stage'.At state' record'.phase := by
  have hv := h.payload
  have quiet (hr : Ready e state record) (hn : e.payload.isError = false) :
      state.mustError = false := by
    by_contra hm
    rw [hr.mustError (by simpa using hm)] at hn
    cases hn
  cases h with
  | observed observation hp _ hph ho hval hreq =>
    rcases hat.of_running hph with ⟨rfl, -⟩ | ⟨_, -, hsome⟩
    · refine ⟨.observed observation, .observe e observation hp hval (by rw [hq, hreq]), ?_⟩
      exact ⟨hph, hat.2.1, rfl, rfl⟩
    · rw [ho] at hsome
      cases hsome
  | denied decided hp hd hr hph hn =>
    rcases hat.of_proposed hph (quiet hr (by rw [hp]; rfl)) with ⟨rfl, -⟩ | ⟨-, hsome⟩
    · rw [hp] at hv
      refine ⟨.refused, .deny e decided hp (some.inj hv) hd, ?_⟩
      exact ⟨.inl hph, rfl, hat.2.2.2.1, hat.2.2.2.2⟩
    · rw [hn] at hsome
      cases hsome
  | allowed decided hp hd hr hph hn hm =>
    rcases hat.of_proposed hph (quiet hr (by rw [hp]; rfl)) with ⟨rfl, -⟩ | ⟨-, hsome⟩
    · rw [hp] at hv
      refine ⟨.allowed, .allow e decided hp (some.inj hv) hd hm, ?_⟩
      exact ⟨rfl, hat.2.2.1, hat.2.2.2.1, hat.2.2.2.2⟩
    · rw [hn] at hsome
      cases hsome
  | deferred decided hp hd hr hph hn hm =>
    rcases hat.of_proposed hph (quiet hr (by rw [hp]; rfl)) with ⟨rfl, -⟩ | ⟨-, hsome⟩
    · rw [hp] at hv
      refine ⟨.deferred, .defer e decided hp (some.inj hv) hd hm, ?_⟩
      exact ⟨hph, rfl, hat.2.2.1, hat.2.2.2.1, hat.2.2.2.2⟩
    · rw [hn] at hsome
      cases hsome
  | policyFailed v hp hr hph =>
    have hm := quiet hr (by rw [hp]; rfl)
    rw [hp] at hv
    obtain rfl : v = record.invocationId := some.inj hv
    rcases hph with ⟨hph, hn⟩ | hph
    · rcases hat.of_proposed hph hm with ⟨rfl, -⟩ | ⟨-, hsome⟩
      · refine ⟨.refused, .policyFails _ e hp (.inl rfl), ?_⟩
        exact ⟨.inl hph, rfl, hat.2.2.2.1, hat.2.2.2.2⟩
      · rw [hn] at hsome
        cases hsome
    · obtain rfl := hat.of_awaiting hph hm
      refine ⟨.refused, .policyFails _ e hp (.inr rfl), ?_⟩
      exact ⟨.inr hph, rfl, hat.2.2.1, hat.2.2.2⟩
  | asked v hp hr hph hd =>
    have hm := quiet hr (by rw [hp]; rfl)
    rw [hp] at hv
    obtain rfl : v = record.invocationId := some.inj hv
    rcases hat.of_proposed hph hm with ⟨-, hnone⟩ | ⟨rfl, -⟩
    · rw [hd] at hnone
      cases hnone
    · exact ⟨.awaiting, .ask e hp, rfl, hm, hat.2.2.2⟩
  | approved v scopes hp hr hph hs =>
    have hm := quiet hr (by rw [hp]; rfl)
    rw [hp] at hv
    obtain rfl : v = record.invocationId := some.inj hv
    obtain rfl := hat.of_awaiting hph hm
    exact ⟨.allowed, .approve e scopes hp hs, rfl, hat.2⟩
  | refused v decision hp hd hr hph =>
    have hm := quiet hr (by rw [hp]; rfl)
    rw [hp] at hv
    obtain rfl : v = record.invocationId := some.inj hv
    obtain rfl := hat.of_awaiting hph hm
    exact ⟨.refused, .refuse e decision hp hd, .inl rfl, rfl, hat.2.2⟩
  | started v hp _ hph =>
    rw [hp] at hv
    obtain rfl : v = record.invocationId := some.inj hv
    obtain rfl := hat.of_allowed hph
    exact ⟨.running, .start e hp, rfl, hat.2⟩
  | result v content observation hp _ hph ho hf =>
    rw [hp] at hv
    obtain rfl : v = record.invocationId := some.inj hv
    rcases hat.of_running hph with ⟨-, hnone⟩ | ⟨_, rfl, hsome⟩
    · rw [ho] at hnone
      cases hnone
    · obtain rfl := some.inj (ho.symm.trans hsome)
      refine ⟨.succeeded, .result e observation content hp hf, ?_⟩
      exact ⟨rfl, hat.2.1, rfl, by rw [ho]; rfl⟩
  | errored v hp hr ho =>
    rw [hp] at hv
    obtain rfl : v = record.invocationId := some.inj hv
    refine ⟨.failed, .error stage e hp (hat.mayFail ho hr.unfinished), rfl, rfl, ?_⟩
    by_contra hpend
    have hres := hr.pending (by simpa using hpend)
    rw [hp] at hres
    cases hres

end Refinement

def Payload.endsInvocation (payload : Payload) : Bool := payload.isResult || payload.isError

section Courses

variable {format : OpsObservation → Option (List ContentBlock)} {v : InvocationId}
  {p : ToolProposed} {stage stage' : Stage} {e : Event} {events : List Event}

theorem Moves.alive (h : Moves format v p stage e stage') : stage.terminal = false := by
  cases h with
  | policyFails _ _ _ hs => rcases hs with rfl | rfl <;> rfl
  | error _ _ _ hs => cases stage <;> first | rfl | cases hs
  | _ => rfl

theorem Moves.ends (h : Moves format v p stage e stage') :
    e.payload.endsInvocation = stage'.terminal := by
  cases h with
  | deny _ _ hp | allow _ _ hp | defer _ _ hp | policyFails _ _ hp | ask _ hp | approve _ _ hp
  | refuse _ _ hp | start _ hp | observe _ _ hp | result _ _ _ hp | error _ _ hp =>
    rw [hp]
    rfl

theorem Course.snoc (h : Course format v p (events ++ [e]) stage) :
    ∃ before, Course format v p events before ∧ Moves format v p before e stage := by
  generalize hl : events ++ [e] = all at h
  cases h with
  | proposed => simp at hl
  | @move events' e' before _ hc hm =>
    obtain ⟨rfl, he⟩ := List.append_inj' hl rfl
    obtain rfl := List.singleton_inj.1 he
    exact ⟨before, hc, hm⟩

theorem Course.ended (h : Course format v p events stage) (he : e ∈ events)
    (hend : e.payload.endsInvocation) : stage.terminal := by
  induction h with
  | proposed => cases he
  | @move events e' before after _ hm ih =>
    rcases List.mem_append.1 he with he | he
    · rw [hm.alive] at ih
      cases ih he
    · obtain rfl := List.mem_singleton.1 he
      rw [← hm.ends, hend]

theorem Course.last {xs ys : List Event} (h : Course format v p (xs ++ e :: ys) stage)
    (hend : e.payload.endsInvocation) : ys = [] := by
  cases ys using List.reverseRecOn with
  | nil => rfl
  | append_singleton ys z =>
    have hsplit : xs ++ e :: (ys ++ [z]) = (xs ++ e :: ys) ++ [z] := by simp
    rw [hsplit] at h
    obtain ⟨_, hc, hm⟩ := h.snoc
    have hterm := hc.ended (e := e) (by simp) hend
    rw [hm.alive] at hterm
    cases hterm

variable (v p)

/-- The events that allowed an invocation: one decision of the policy, or its deferral to an
approval that was asked for and given. The scopes that were granted and those that were
proposed cover each other. -/
inductive Granted : List Event → Prop where
  | policy (e : Event) (decided : ToolPolicyDecided)
      (hp : e.payload = .toolPolicyDecided decided) (hv : decided.invocationId = v)
      (hd : decided.decision = .allow)
      (hs : scopesCover decided.scopes p.requestedScopes)
      (hs' : scopesCover p.requestedScopes decided.scopes) : Granted [e]
  | approval (d a g : Event) (decided : ToolPolicyDecided) (scopes : List CapabilityScope)
      (hd : d.payload = .toolPolicyDecided decided) (hv : decided.invocationId = v)
      (hr : decided.decision = .requireApproval)
      (ha : a.payload = .toolApprovalRequested v p.requestedScopes)
      (hg : g.payload = .toolApprovalDecided v .approved scopes)
      (hs : scopesCover scopes p.requestedScopes)
      (hs' : scopesCover p.requestedScopes scopes) : Granted [d, a, g]

variable {v p}

theorem matchingScopes_covers {scopes requested : List CapabilityScope}
    (h : matchingScopes scopes requested) :
    scopesCover scopes requested ∧ scopesCover requested scopes := by
  simp only [matchingScopes, and_eq_true] at h
  exact ⟨h.1.2, h.2⟩

theorem Course.granted (h : Course format v p events .allowed) : Granted v p events := by
  cases h with
  | @move before e stage _ hc hm =>
    cases hm with
    | allow _ decided hp hv hd hs =>
      cases hc with
      | proposed =>
        obtain ⟨hs, hs'⟩ := matchingScopes_covers hs
        exact .policy e decided hp hv hd hs hs'
      | move _ hm => cases hm
    | approve _ scopes hp hs =>
      obtain ⟨hs, hs'⟩ := matchingScopes_covers hs
      cases hc with
      | @move _ a _ _ hc hm =>
        cases hm with
        | ask _ ha =>
          cases hc with
          | @move _ d _ _ hc hm =>
            cases hm with
            | defer _ decided hd hv hr =>
              cases hc with
              | proposed => exact .approval d a e decided scopes hd hv hr ha hp hs hs'
              | move _ hm => cases hm

/-- The whole course of an invocation that succeeded. -/
structure SucceededCourse (format : OpsObservation → Option (List ContentBlock))
    (v : InvocationId) (p : ToolProposed) (events : List Event) : Prop where
  shape : ∃ grant started observed result observation content,
    events = grant ++ [started, observed, result] ∧ Granted v p grant ∧
      started.payload = .toolStarted v ∧
      observed.payload = .opsObservationRecorded v observation ∧
      p.observationRequest = some observation.request ∧
      result.payload = .toolResultRecorded v content p.resultMessageId ∧
      format observation = some content

theorem Course.succeeded (h : Course format v p events .succeeded) :
    SucceededCourse format v p events := by
  cases h with
  | @move _ r _ _ hc hm =>
    cases hm with
    | result _ observation content hr hf =>
      cases hc with
      | @move _ o _ _ hc hm =>
        cases hm with
        | observe _ _ ho _ hq =>
          cases hc with
          | @move grant st _ _ hc hm =>
            cases hm with
            | start _ hs =>
              refine ⟨grant, st, o, r, observation, content, ?_, hc.granted, hs, ho, hq, hr, hf⟩
              simp

end Courses

end OpsHistory
