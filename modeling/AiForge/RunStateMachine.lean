import AiForge.Operation
import AiForge.RunProjection

/-! # The run state machine

`RunProjection::apply` works on its own fields: it checks and assigns, and nothing is copied
or rolled back. The operations below assign where the source assigns. They compute the pure
transitions, so an event that is refused has changed nothing. -/
namespace RunStateMachine

open Content Events EventProjection Operation Pricing RunProjection Staged Option
open UsageLedger (addCost addUsage)

abbrev RunOp := Op RunState ProjectionError

def invalidTransition (message : String) : ProjectionError := ⟨.invalidTransition, message⟩

def noInference (message : String) : ProjectionError := ⟨.wrongInference, message⟩

def requireLive : RunOp PUnit := do
  let s ← get
  ensure (s.status.live) (invalidTransition "event requires a live run")

def insertPending (i : InvocationId) : RunOp Bool := fun s =>
  (.ok (decide (i ∉ s.pendingApprovalIds)),
    { s with pendingApprovalIds := insert i s.pendingApprovalIds })

def erasePending (i : InvocationId) : RunOp Bool := fun s =>
  (.ok (decide (i ∈ s.pendingApprovalIds)),
    { s with pendingApprovalIds := s.pendingApprovalIds.erase i })

def resetInference : RunOp PUnit := modify RunState.closeInference

def requireInference (i : InferenceId) (message : String) : RunOp PUnit := do
  let s ← get
  ensure (s.activeInferenceId = some i) (noInference message)

/-- The message a delta or a finish refers to, still open and of the same inference. -/
def requireOpenMessage (messageId : MessageId) (i : InferenceId) (missing closed : String) :
    RunOp PUnit := do
  let s ← get
  let message ← require (s.findMessage messageId) ⟨.unknownMessage, missing⟩
  ensure (message.complete = false ∧ message.inferenceId = some i) (invalidTransition closed)

def requireNewMessage (messageId : MessageId) : RunOp PUnit := do
  let s ← get
  ensure (s.findMessage messageId = none)
    (invalidTransition "message ID is already present in the run")

def abortInference (i : InferenceId) (message : String) : RunOp PUnit := do
  requireInference i message
  modify fun s => s.completeMessages (some i)
  resetInference

def visitInPlace (event : RunEvent) : RunOp PUnit :=
  match event.payload with
  | .runStarted started => do
    let s ← get
    ensure (s.status = .notStarted ∧ s.runId = none)
      (invalidTransition "run.started may occur only once")
    modify fun s => { s with
      runId := some event.metadata.runId
      status := .running
      personaId := started.personaId }
  | .runProvenanceRecorded provenance => do
    requireLive
    let s ← get
    ensure (s.provenance = none) (invalidTransition "run provenance may be recorded only once")
    modify fun s => { s with provenance := some provenance }
  | .personaSelectionRecorded selection => do
    requireLive
    let s ← get
    ensure (s.personaSelection = none ∧ s.messages = [] ∧
        (validatePersonaSelection selection).isOk)
      (invalidTransition "persona selection must be recorded once before run content")
    ensure (selection.persona.map PersonaReference.personaId = s.personaId)
      (invalidTransition "persona selection does not match run start metadata")
    modify fun s => { s with personaSelection := some selection }
  | .runAwaitingInput _ => do
    let s ← get
    ensure ((s.status = .running ∨ s.status = .awaitingApproval) ∧ s.activeInferenceId = none)
      (invalidTransition "a run may await input only between inferences")
    modify fun s => { s with status := .awaitingInput }
  | .runResumed _ => do
    let s ← get
    ensure (s.status = .awaitingInput) (invalidTransition "only an awaiting run may resume")
    modify fun s => { s with
      status := if s.pendingApprovalIds = ∅ then .running else .awaitingApproval }
  | .toolApprovalRequested i _ _ => do
    let refused := invalidTransition "tool approval request is duplicated or out of order"
    let s ← get
    ensure (s.status.live ∧ s.activeInferenceId = none) refused
    let inserted ← insertPending i
    ensure (inserted) refused
    modify fun s => { s with
      status := if s.status = .running then .awaitingApproval else s.status }
  | .toolApprovalDecided i _ _ _ => do
    let refused := invalidTransition "tool approval decision has no pending request"
    let s ← get
    ensure (s.status = .awaitingApproval ∨ s.status = .awaitingInput) refused
    let erased ← erasePending i
    ensure (erased) refused
    modify fun s => { s with
      status := if s.status = .awaitingApproval ∧ s.pendingApprovalIds = ∅ then .running
        else s.status }
  | .planRevisionProposed _ => do
    let s ← get
    ensure ((s.status = .running ∨ s.status = .awaitingPlanRevision) ∧ s.activeInferenceId = none)
      (invalidTransition "a plan may be proposed only between inference attempts")
    modify fun s => { s with status := .awaitingPlanDecision }
  | .planRevisionDecisionRecorded decision => do
    let s ← get
    ensure (s.status = .awaitingPlanDecision)
      (invalidTransition "a plan decision requires an awaiting plan revision")
    modify fun s => { s with
      status := if decision.decision = .revisionRequested then .awaitingPlanRevision
        else .running }
  | .planRevisionInvalidated _ => do
    let s ← get
    ensure (s.status = .running ∨ s.status = .awaitingPlanDecision)
      (invalidTransition "plan invalidation requires a live control run")
    modify fun s => { s with
      status := if s.status = .awaitingPlanDecision then .awaitingPlanRevision else s.status }
  | .runCompleted => do
    requireLive
    let s ← get
    ensure (s.activeInferenceId = none ∧ s.pendingApprovalIds = ∅)
      (invalidTransition "a run cannot complete with active work")
    modify fun s => { s with status := .completed }
  | .runFailed _ => do
    requireLive
    resetInference
    modify fun s => { s with pendingApprovalIds := ∅, status := .failed }
  | .runCancelled _ => do
    requireLive
    modify fun s => s.completeMessages s.activeInferenceId
    resetInference
    modify fun s => { s with pendingApprovalIds := ∅, status := .cancelled }
  | .userContentAdded message => do
    requireLive
    let s ← get
    ensure (s.personaId = none ∨ s.personaSelection.isSome)
      (invalidTransition "selected persona provenance must precede run content")
    ensure (message.role = .user) (invalidTransition "user content must carry the user role")
    requireNewMessage message.messageId
    modify fun s => { s with
      messages := s.messages ++ [⟨message.messageId, .user, message.content, true, none⟩] }
  | .inferenceStarted i modelId => do
    let s ← get
    ensure (s.status = .running) (invalidTransition "inference requires a running run")
    ensure (s.activeInferenceId = none)
      (invalidTransition "only one inference may be active in this projection")
    modify fun s => { s with
      activeInferenceId := some i
      activeModelId := some modelId
      activeInferenceCostRecorded := false
      activeInferencePricingRecorded := false }
  | .inferencePricingObserved i observation => do
    requireInference i "pricing observation has no matching inference"
    let s ← get
    ensure (s.activeModelId = some observation.modelId)
      (noInference "pricing observation has no matching inference")
    ensure (s.activeInferencePricingRecorded = false)
      (invalidTransition "pricing may be observed only once per inference")
    ensure ((validatePricingObservation observation).isOk)
      ⟨.invalidPricing, "pricing observation is malformed"⟩
    modify fun s => { s with pricingObservations := s.pricingObservations ++ [observation] }
    modify fun s => { s with activeInferencePricingRecorded := true }
  | .assistantContentStarted messageId i => do
    requireInference i "assistant content has no matching inference"
    requireNewMessage messageId
    modify fun s => { s with
      messages := s.messages ++ [⟨messageId, .assistant, [], false, some i⟩] }
  | .assistantContentDeltaAdded messageId i delta => do
    requireInference i "content delta has no matching inference"
    requireOpenMessage messageId i "content delta refers to an unknown message"
      "content delta targets a finished or unrelated message"
    modify fun s => s.changeMessage messageId fun m => { m with content := m.content ++ [delta] }
  | .assistantContentFinished messageId i => do
    requireInference i "content finish has no matching inference"
    requireOpenMessage messageId i "content finish refers to an unknown message"
      "assistant message is already finished or unrelated"
    modify fun s => s.changeMessage messageId fun m => { m with complete := true }
  | .reasoningMetadataAdded i _ _ =>
    requireInference i "reasoning metadata has no matching inference"
  | .usageRecorded i usage => do
    requireInference i "usage has no matching inference"
    let s ← get
    let next ← require (addUsage s.usage usage) ⟨.usageOverflow, "usage total overflow"⟩
    modify fun s => { s with usage := next }
  | .inferenceCostRecorded i cost => do
    requireInference i "reported cost has no matching inference"
    let s ← get
    ensure (s.activeInferenceCostRecorded = false)
      (invalidTransition "reported cost may be recorded only once per inference")
    let next ← require (addCost s.reportedCost cost).toOption
      ⟨.costOverflow, "reported cost total overflow"⟩
    modify fun s => { s with reportedCost := some next }
    modify fun s => { s with activeInferenceCostRecorded := true }
  | .inferenceFinished i _ => do
    requireInference i "finish has no matching inference"
    let s ← get
    ensure ((s.messages.any fun m => m.inferenceId == some i && !m.complete) = false)
      (invalidTransition "inference finished before its assistant content")
    resetInference
  | .inferenceFailed i _ => abortInference i "failure has no matching inference"
  | .inferenceCancelled i _ => abortInference i "cancellation has no matching inference"
  | .unknown _ _ => pure ⟨⟩
  | _ => requireLive

def applyInPlace (event : RunEvent) : RunOp PUnit := do
  let s ← get
  ensure (event.metadata.sequence ≠ 0 ∧ event.metadata.schemaVersion ≠ 0)
    ⟨.invalidEnvelope, "event sequence and schema version must be positive"⟩
  ensure (s.lastSequence < event.metadata.sequence)
    ⟨.nonMonotonicSequence, "event sequence did not increase"⟩
  ensure (s.runId = none ∨ s.runId = some event.metadata.runId)
    ⟨.wrongRun, "event belongs to another run"⟩
  ensure (s.runId.isSome ∨ isRunStarted event.payload ∨
      isUnknown event.payload)
    (invalidTransition "the first known run event must be run.started")
  ensure (s.status.terminal = false ∨ isUnknown event.payload)
    (invalidTransition "known events cannot follow a terminal run event")
  visitInPlace event
  modify fun s => { s with lastSequence := event.metadata.sequence }

def RunMachine : Projection RunState RunEvent ProjectionError :=
  ⟨{}, fun s event => applyInPlace event s⟩

section Rules

variable {s : RunState} {r : Except ProjectionError RunState} {f : PUnit → RunOp PUnit}
  {g : RunState → Except ProjectionError RunState} {i : InferenceId} {message : String}

/-- Both sides ask for a live run before anything else. -/
theorem computes_requireLive_bind (h : s.status.live → Computes (f ⟨⟩) s (g s)) :
    Computes (requireLive >>= f) s (requireRunning s >>= g) := by
  refine computes_ensure_bind (fun hl => ?_) fun hl => ?_
  · rw [show requireRunning s = .ok s from if_pos hl]
    exact h hl
  · rw [show requireRunning s = transitionError "event requires a live run" from if_neg hl]
    rfl

theorem computes_requireLive : Computes requireLive s (requireRunning s) := by
  refine computes_get_bind (computes_ensure (fun hl => ?_) fun hl => ?_)
  · exact if_pos hl
  · exact if_neg hl

theorem computes_requireInference_bind
    (h : s.activeInferenceId = some i → Computes (f ⟨⟩) s (g s)) :
    Computes (requireInference i message >>= f) s (matchInference s i message >>= g) := by
  refine computes_ensure_bind (fun hi => ?_) fun hi => ?_
  · rw [show matchInference s i message = .ok s from if_pos hi]
    exact h hi
  · rw [show matchInference s i message = wrongInference message from if_neg hi]
    rfl

theorem computes_requireInference :
    Computes (requireInference i message) s (matchInference s i message) := by
  refine computes_get_bind (computes_ensure (fun hi => ?_) fun hi => ?_)
  · exact if_pos hi
  · exact if_neg hi

theorem computes_requireNewMessage_bind {messageId : MessageId}
    (h : s.findMessage messageId = none → Computes (f ⟨⟩) s r)
    (h' : (s.findMessage messageId).isSome →
      r = transitionError "message ID is already present in the run") :
    Computes (requireNewMessage messageId >>= f) s r := by
  exact computes_ensure_bind h fun hn => h' (isSome_iff_ne_none.2 hn)

/-- A message that is changed in place has been looked up and checked before. -/
theorem computes_openMessage {messageId : MessageId} {missing closed : String}
    {change : RunState → RunState} :
    Computes (requireOpenMessage messageId i missing closed >>= fun _ => modify change) s
      (match s.findMessage messageId with
        | none => .error ⟨.unknownMessage, missing⟩
        | some m =>
          if m.complete || m.inferenceId != some i then transitionError closed
          else pure (change s)) := by
  cases hm : s.findMessage messageId with
  | none =>
    change Computes ((require (s.findMessage messageId) _ >>= _) >>= _) s _
    rw [hm]
    rfl
  | some m =>
    change Computes ((require (s.findMessage messageId) _ >>= _) >>= _) s _
    rw [hm]
    refine computes_ensure_bind (fun h => computes_modify ?_) fun h => ?_
    · simp [h.1, h.2, pure, Except.pure]
    · have hshut : (m.complete || m.inferenceId != some i) = true := by
        by_contra hopen
        simp only [Bool.or_eq_true, bne_iff_ne, ne_eq, not_or, Decidable.not_not] at hopen
        exact h ⟨by simpa using hopen.1, hopen.2⟩
      simp [hshut, invalidTransition]

/-- An approval that was there already is inserted without effect. -/
theorem computes_insertPending_bind {i : InvocationId} {f : Bool → RunOp PUnit}
    (hnew : i ∉ s.pendingApprovalIds →
      f true { s with pendingApprovalIds := insert i s.pendingApprovalIds } = stored r s)
    (hold : i ∈ s.pendingApprovalIds → Computes (f false) s r) :
    Computes (insertPending i >>= f) s r := by
  change f (decide (i ∉ s.pendingApprovalIds))
    { s with pendingApprovalIds := insert i s.pendingApprovalIds } = stored r s
  by_cases hi : i ∈ s.pendingApprovalIds
  · rw [Finset.insert_eq_of_mem hi, decide_eq_false (not_not.2 hi)]
    exact hold hi
  · rw [decide_eq_true hi]
    exact hnew hi

/-- An approval that was not there is erased without effect. -/
theorem computes_erasePending_bind {i : InvocationId} {f : Bool → RunOp PUnit}
    (hthere : i ∈ s.pendingApprovalIds →
      f true { s with pendingApprovalIds := s.pendingApprovalIds.erase i } = stored r s)
    (hmiss : i ∉ s.pendingApprovalIds → Computes (f false) s r) :
    Computes (erasePending i >>= f) s r := by
  change f (decide (i ∈ s.pendingApprovalIds))
    { s with pendingApprovalIds := s.pendingApprovalIds.erase i } = stored r s
  by_cases hi : i ∈ s.pendingApprovalIds
  · rw [decide_eq_true hi]
    exact hthere hi
  · rw [Finset.erase_eq_of_notMem hi, decide_eq_false hi]
    exact hmiss hi

end Rules

theorem visitInPlace_computes (s : RunState) (event : RunEvent) :
    Computes (visitInPlace event) s (visit s event) := by
  unfold visitInPlace visit
  cases hp : event.payload <;> dsimp only
  case runStarted started =>
    refine computes_get_bind (computes_ensure_bind (fun h => computes_modify ?_) fun h => ?_)
    · simp [applyStarted, h.1, h.2]
    · rw [applyStarted, if_pos (by simpa [isSome_iff_ne_none, imp_iff_not_or] using h)]
      rfl
  case runProvenanceRecorded provenance =>
    refine computes_requireLive_bind fun hl => computes_get_bind ?_
    refine computes_ensure_bind (fun h => computes_modify ?_) fun h => ?_
    · simp [h, pure, Except.pure]
    · simp [h, isSome_iff_ne_none, invalidTransition]
  case personaSelectionRecorded selection =>
    refine computes_requireLive_bind fun hl => computes_get_bind ?_
    refine computes_ensure_bind (fun h => ?_) fun h => ?_
    · obtain ⟨hsel, _, hval⟩ := h
      refine computes_ensure_bind (fun hid => computes_modify ?_) fun hid => ?_
      · cases hv : validatePersonaSelection selection <;>
          simp_all [pure, Except.pure, Except.isOk, Except.toBool]
      · cases hv : validatePersonaSelection selection <;>
          simp_all [Except.isOk, Except.toBool, invalidTransition]
    · cases hv : validatePersonaSelection selection <;>
        simp_all [Except.isOk, Except.toBool, isSome_iff_ne_none, invalidTransition]
  case runAwaitingInput =>
    refine computes_get_bind (computes_ensure_bind (fun h => computes_modify ?_) fun h => ?_)
    · rw [applyAwaitingInput, if_neg (by simp [h.2]; tauto)]
    · rw [applyAwaitingInput, if_pos (by simp only [isSome_iff_ne_none]; tauto)]
      rfl
  case runResumed =>
    refine computes_get_bind (computes_ensure_bind (fun h => computes_modify ?_) fun h => ?_)
    · simp [applyResumed, h]
    · simp [applyResumed, h, invalidTransition]
  case inferenceStarted i modelId =>
    refine computes_get_bind (computes_ensure_bind (fun hr => ?_) fun h => ?_)
    · refine computes_ensure_bind (fun hi => computes_modify ?_) fun hi => ?_
      · simp [applyInferenceStarted, hr, hi]
      · simp [applyInferenceStarted, hr, hi, isSome_iff_ne_none, invalidTransition]
    · simp [applyInferenceStarted, h, invalidTransition]
  case toolApprovalRequested i _ _ =>
    refine computes_get_bind (computes_ensure_bind (fun h => ?_) fun h => ?_)
    · refine computes_insertPending_bind (fun hnew => ?_) fun hold => ?_
      · rw [applyApprovalRequested, if_neg (by simp [h.1, h.2, hnew])]
        rfl
      · rw [applyApprovalRequested, if_pos (.inr (.inr hold))]
        rfl
    · have href : (!s.status.live) = true ∨ s.activeInferenceId.isSome = true := by
        simp only [isSome_iff_ne_none, Bool.not_eq_true']
        by_contra hn
        push Not at hn
        exact h ⟨by simpa using hn.1, hn.2⟩
      rw [applyApprovalRequested, if_pos (by tauto)]
      rfl
  case toolApprovalDecided i _ _ _ =>
    refine computes_get_bind (computes_ensure_bind (fun h => ?_) fun h => ?_)
    · refine computes_erasePending_bind (fun hthere => ?_) fun hmiss => ?_
      · rw [applyApprovalDecided, if_neg (by simp only [hthere]; tauto)]
        rfl
      · rw [applyApprovalDecided, if_pos (.inr hmiss)]
        rfl
    · rw [applyApprovalDecided, if_pos (.inl (by tauto))]
      rfl
  case planRevisionProposed =>
    refine computes_get_bind (computes_ensure_bind (fun h => computes_modify ?_) fun h => ?_)
    · rw [applyPlanProposed, if_neg (by simp [h.2]; tauto)]
    · rw [applyPlanProposed, if_pos (by simp only [isSome_iff_ne_none]; tauto)]
      rfl
  case planRevisionDecisionRecorded decision =>
    refine computes_get_bind (computes_ensure_bind (fun h => computes_modify ?_) fun h => ?_)
    · simp [applyPlanDecision, h]
    · simp [applyPlanDecision, h, invalidTransition]
  case planRevisionInvalidated =>
    refine computes_get_bind (computes_ensure_bind (fun h => computes_modify ?_) fun h => ?_)
    · rw [applyPlanInvalidated, if_neg (by tauto)]
    · rw [applyPlanInvalidated, if_pos (by tauto)]
      rfl
  case runCompleted =>
    refine computes_requireLive_bind fun hl => computes_get_bind ?_
    refine computes_ensure_bind (fun h => computes_modify ?_) fun h => ?_
    · simp [h.1, h.2, pure, Except.pure]
    · rw [if_pos (by simp only [isSome_iff_ne_none]; tauto)]
      rfl
  case runFailed | runCancelled =>
    exact computes_requireLive_bind fun hl => computes_total rfl rfl
  case userContentAdded message =>
    refine computes_requireLive_bind fun hl => computes_get_bind ?_
    refine computes_ensure_bind (fun hsel => ?_) fun hsel => ?_
    · have hs : (s.personaId.isSome && s.personaSelection.isNone) = false := by
        rcases hsel with hnone | hsome
        · simp [hnone]
        · simp [hsome]
      rw [hs]
      refine computes_ensure_bind (fun hrole => ?_) fun hrole => ?_
      · refine computes_requireNewMessage_bind (fun hnew => computes_modify ?_) fun hold => ?_
        · simp [hrole, hnew, pure, Except.pure]
        · simp [hrole, hold]
      · simp [hrole, invalidTransition]
    · have hs : (s.personaId.isSome && s.personaSelection.isNone) = true := by
        push Not at hsel
        simpa [isSome_iff_ne_none] using hsel
      simp [hs, invalidTransition]
  case inferencePricingObserved i observation =>
    refine computes_requireInference_bind fun hi => computes_get_bind ?_
    refine computes_ensure_bind (fun hmodel => ?_) fun hmodel => ?_
    · refine computes_ensure_bind (fun hfst => ?_) fun hfst => ?_
      · refine computes_ensure_bind (fun hval => ?_) fun hval => ?_
        · refine computes_total rfl ?_
          cases hv : validatePricingObservation observation <;>
            simp_all [pure, Except.pure, Except.isOk, Except.toBool]
        · cases hv : validatePricingObservation observation <;>
            simp_all [Except.isOk, Except.toBool]
      · simp [hmodel, hfst, invalidTransition]
    · simp [hmodel, noInference]
  case assistantContentStarted messageId i =>
    refine computes_requireInference_bind fun hi => ?_
    refine computes_requireNewMessage_bind (fun hnew => computes_modify ?_) fun hold => ?_
    · simp [hnew, pure, Except.pure]
    · simp [hold]
  case assistantContentDeltaAdded messageId i delta | assistantContentFinished messageId i =>
    exact computes_requireInference_bind fun hi => computes_openMessage
  case reasoningMetadataAdded i _ _ => exact computes_requireInference
  case usageRecorded i usage =>
    refine computes_requireInference_bind fun hi => computes_get_bind ?_
    refine computes_require_bind (fun next hnext => computes_modify ?_) fun hnone => ?_
    · simp [hnext, pure, Except.pure]
    · simp [hnone]
  case inferenceCostRecorded i cost =>
    refine computes_requireInference_bind fun hi => computes_get_bind ?_
    refine computes_ensure_bind (fun hfst => ?_) fun hfst => ?_
    · refine computes_require_bind (fun next hnext => computes_total rfl ?_) fun hnone => ?_
      · cases ha : addCost s.reportedCost cost <;>
          simp_all [pure, Except.pure, Except.toOption]
      · cases ha : addCost s.reportedCost cost <;> simp_all [Except.toOption]
    · simp [hfst, invalidTransition]
  case inferenceFinished i _ =>
    refine computes_requireInference_bind fun hi => computes_get_bind ?_
    refine computes_ensure_bind (fun hdone => computes_modify ?_) fun hopen => ?_
    · rw [hdone]
      rfl
    · rw [if_pos (by simpa using hopen)]
      rfl
  case inferenceFailed i _ | inferenceCancelled i _ =>
    exact computes_requireInference_bind fun hi => computes_total rfl rfl
  case unknown => exact computes_pure rfl
  all_goals exact computes_requireLive

theorem applyInPlace_computes (s : RunState) (event : RunEvent) :
    Computes (applyInPlace event) s (applyChecked s event) := by
  have hvis : Computes (visitInPlace event >>= fun _ =>
      modify fun s => { s with lastSequence := event.metadata.sequence }) s
      ((visit s event).map fun t => { t with lastSequence := event.metadata.sequence }) :=
    computes_then_modify (visitInPlace_computes s event) rfl
  have hchk : ∀ outcome, precheck s event = outcome → applyChecked s event =
      outcome >>= fun _ => (visit s event).map fun t =>
        { t with lastSequence := event.metadata.sequence } := by
    rintro outcome rfl
    unfold applyChecked
    cases visit s event <;> rfl
  have n₁ : ¬ (event.metadata.sequence ≠ 0 ∧ event.metadata.schemaVersion ≠ 0) ↔
      (event.metadata.sequence = 0 ∨ event.metadata.schemaVersion = 0) := by tauto
  have n₂ : ¬ s.lastSequence < event.metadata.sequence ↔
      event.metadata.sequence ≤ s.lastSequence := not_lt
  have n₃ : ¬ (s.runId = none ∨ s.runId = some event.metadata.runId) ↔
      (s.runId.isSome ∧ s.runId ≠ some event.metadata.runId) := by
    rw [not_or, isSome_iff_ne_none]
  have n₄ : ¬ (s.runId.isSome ∨ isRunStarted event.payload ∨
      isUnknown event.payload) ↔
      (s.runId.isNone && !isRunStarted event.payload && !isUnknown event.payload) = true := by
    simp [and_assoc]
  have n₅ : ¬ (s.status.terminal = false ∨ isUnknown event.payload) ↔
      (s.status.terminal && !isUnknown event.payload) = true := by simp
  refine computes_get_bind (computes_ensure_bind (fun h₁ => ?_) fun h₁ => ?_)
  · rw [← not_not (a := _ ∧ _), n₁] at h₁
    refine computes_ensure_bind (fun h₂ => ?_) fun h₂ => ?_
    · rw [← not_not (a := _ < _), n₂] at h₂
      refine computes_ensure_bind (fun h₃ => ?_) fun h₃ => ?_
      · rw [← not_not (a := _ ∨ _), n₃] at h₃
        refine computes_ensure_bind (fun h₄ => ?_) fun h₄ => ?_
        · rw [← not_not (a := _ ∨ _), n₄] at h₄
          refine computes_ensure_bind (fun h₅ => ?_) fun h₅ => ?_
          · rw [← not_not (a := _ ∨ _), n₅] at h₅
            rw [hchk (.ok ()) (by
              rw [precheck, if_neg h₁, if_neg h₂, if_neg h₃, if_neg h₄, if_neg h₅])]
            exact hvis
          · rw [hchk _ (by
              rw [precheck, if_neg h₁, if_neg h₂, if_neg h₃, if_neg h₄, if_pos (n₅.1 h₅)])]
            rfl
        · rw [hchk _ (by
            rw [precheck, if_neg h₁, if_neg h₂, if_neg h₃, if_pos (n₄.1 h₄)])]
          rfl
      · rw [hchk _ (by rw [precheck, if_neg h₁, if_neg h₂, if_pos (n₃.1 h₃)])]
        rfl
    · rw [hchk _ (by rw [precheck, if_neg h₁, if_pos (n₂.1 h₂)])]
      rfl
  · rw [hchk _ (by rw [precheck, if_pos (n₁.1 h₁)])]
    rfl

theorem runMachine_apply (s : RunState) (event : RunEvent) :
    RunMachine.apply s event = stored (applyChecked s event) s := applyInPlace_computes s event

/-- The machine that assigns in place is the projection of the pure transitions. -/
theorem runMachine_eq : RunMachine = RunProjectionOf := by
  have happ : RunMachine.apply = apply := by
    funext s event
    rw [runMachine_apply]
    unfold apply
    cases applyChecked s event <;> rfl
  change RunMachine = ⟨RunMachine.initial, apply⟩
  rw [← happ]

variable {s : RunState} {event : RunEvent}

theorem accepts_iff : RunMachine.Accepts s event ↔ ∃ t, applyChecked s event = .ok t := by
  unfold Projection.Accepts
  rw [runMachine_apply]
  cases applyChecked s event with
  | ok | error => simp [stored]

theorem apply_accepted {t : RunState} (h : applyChecked s event = .ok t) :
    (RunMachine.apply s event).2 = t := by
  rw [runMachine_apply, h]
  rfl

theorem accepted_step {t : RunState}
    (h : RunMachine.Accepted s [event] t) : applyChecked s event = .ok t := by
  rcases h with _ | ⟨hx, ⟨⟩⟩
  obtain ⟨_, hu⟩ := accepts_iff.1 hx
  rw [apply_accepted hu]
  exact hu

theorem runMachine_atomic : RunMachine.Atomic := by
  intro s event h
  rw [accepts_iff] at h
  rw [runMachine_apply]
  cases hc : applyChecked s event with
  | ok t => exact absurd ⟨t, hc⟩ h
  | error => rfl

/-- How the status of a run goes with its open inference and its pending approvals. -/
structure Coupled (v : View) : Prop where
  inference_running : v.inference.isSome → v.status = .running
  approval_awaited : v.status = .awaitingApproval → v.pending ≠ ∅
  running_settled : v.status = .running → v.pending = ∅
  pending_awaited : v.pending ≠ ∅ → v.status = .awaitingApproval ∨ v.status = .awaitingInput

variable {v : View}

theorem Coupled.idle (h : Coupled v) (hs : v.status ≠ .running) : v.inference = none := by
  cases hi : v.inference with
  | none => rfl
  | some => exact absurd (h.inference_running (by simp [hi])) hs

theorem Coupled.settled (h : Coupled v) (hs : v.status ≠ .awaitingApproval)
    (hs' : v.status ≠ .awaitingInput) : v.pending = ∅ := by
  by_contra hp
  rcases h.pending_awaited hp with ha | ha
  · exact hs ha
  · exact hs' ha

theorem coupled_quiet {status : RunStatus} (hs : status ≠ .awaitingApproval) :
    Coupled ⟨status, ∅, none⟩ := by
  constructor
  · simp
  · intro ha
    exact absurd ha hs
  · simp
  · simp

theorem coupled_closing {w : View} {i : InferenceId} (h : Coupled v)
    (hn : v.closing i = some w) : Coupled w := by
  unfold View.closing at hn
  split_ifs at hn
  cases hn
  exact ⟨by simp, h.approval_awaited, h.running_settled, h.pending_awaited⟩

theorem next_coupled {w : View} {payload : RunEventPayload} (h : Coupled v)
    (hn : v.next payload = some w) : Coupled w := by
  obtain ⟨status, pending, inference⟩ := v
  have hquiet : status ≠ .running → status ≠ .awaitingApproval → status ≠ .awaitingInput →
      pending = ∅ ∧ inference = none := fun hr ha hi => ⟨h.settled ha hi, h.idle hr⟩
  cases payload
  case runStarted =>
    simp only [View.next] at hn
    split_ifs at hn with hs
    cases hn
    obtain ⟨rfl, rfl⟩ := hquiet (by simp [hs]) (by simp [hs]) (by simp [hs])
    exact coupled_quiet (by simp)
  case runAwaitingInput =>
    simp only [View.next] at hn
    split_ifs at hn with hs
    cases hn
    constructor <;> simp [hs.2]
  case runResumed =>
    simp only [View.next] at hn
    split_ifs at hn with hs hp
    · cases hn
      have hi := h.idle (by simp [hs])
      constructor <;> simp_all
    · cases hn
      have hi := h.idle (by simp [hs])
      constructor <;> simp_all
  case toolApprovalRequested i _ _ =>
    simp only [View.next] at hn
    split_ifs at hn with hs hr
    · cases hn
      constructor <;> simp [hs.2.1]
    · cases hn
      constructor
      · simp [hs.2.1]
      · simp
      · intro hrun
        exact absurd hrun hr
      · intro _
        cases status <;> simp_all [RunStatus.live]
  case toolApprovalDecided i _ _ _ =>
    simp only [View.next] at hn
    split_ifs at hn with hs hlast
    · cases hn
      have hi := h.idle (by simp [hlast.1])
      constructor <;> simp_all
    · cases hn
      have hi : inference = none := h.idle (by rcases hs.1 with ha | ha <;> simp [ha])
      constructor
      · simp [hi]
      · intro ha hp
        exact hlast ⟨ha, hp⟩
      · intro hr
        rcases hs.1 with ha | ha <;> simp_all
      · intro _
        exact hs.1
  case planRevisionProposed =>
    simp only [View.next] at hn
    split_ifs at hn with hs
    cases hn
    have hp : pending = ∅ := by
      rcases hs.1 with hr | hr
      · exact h.running_settled hr
      · exact h.settled (by simp [hr]) (by simp [hr])
    obtain rfl := hp
    obtain rfl := hs.2
    exact coupled_quiet (by simp)
  case planRevisionDecisionRecorded =>
    simp only [View.next] at hn
    split_ifs at hn with hs hd
    · cases hn
      obtain ⟨rfl, rfl⟩ := hquiet (by simp [hs]) (by simp [hs]) (by simp [hs])
      exact coupled_quiet (by simp)
    · cases hn
      obtain ⟨rfl, rfl⟩ := hquiet (by simp [hs]) (by simp [hs]) (by simp [hs])
      exact coupled_quiet (by simp)
  case planRevisionInvalidated =>
    simp only [View.next] at hn
    split_ifs at hn with hs hd
    · cases hn
      obtain ⟨rfl, rfl⟩ := hquiet (by simp [hd]) (by simp [hd]) (by simp [hd])
      exact coupled_quiet (by simp)
    · cases hn
      exact h
  case runCompleted =>
    simp only [View.next] at hn
    split_ifs at hn with hs
    cases hn
    obtain ⟨-, rfl, rfl⟩ := hs
    exact coupled_quiet (by simp)
  case runFailed | runCancelled =>
    simp only [View.next, View.ending] at hn
    split_ifs at hn
    cases hn
    exact coupled_quiet (by simp)
  case inferenceStarted i _ =>
    simp only [View.next] at hn
    split_ifs at hn with hs
    cases hn
    have hp := h.running_settled hs.1
    constructor <;> simp_all
  case unknown =>
    cases hn
    exact h
  case inferenceFinished | inferenceFailed | inferenceCancelled =>
    exact coupled_closing h hn
  all_goals
    -- Every other event leaves the view as it is.
    simp only [View.next, View.during] at hn
    split_ifs at hn
    cases hn
    exact h

/-- The invariant of a run: its status tells what is open and what is awaited. -/
structure StatusInvariant (s : RunState) : Prop where
  inference_running : s.activeInferenceId.isSome → s.status = .running
  approval_awaited : s.status = .awaitingApproval → s.pendingApprovalIds ≠ ∅
  running_settled : s.status = .running → s.pendingApprovalIds = ∅
  pending_awaited : s.pendingApprovalIds ≠ ∅ →
    s.status = .awaitingApproval ∨ s.status = .awaitingInput
  planning_quiet : s.status = .awaitingPlanDecision ∨ s.status = .awaitingPlanRevision →
    s.pendingApprovalIds = ∅ ∧ s.activeInferenceId = none

theorem statusInvariant_of_coupled (h : Coupled s.view) : StatusInvariant s := by
  refine ⟨h.inference_running, h.approval_awaited, h.running_settled, h.pending_awaited, ?_⟩
  rintro (hs | hs)
  · exact ⟨h.settled (by simp [RunState.view, hs]) (by simp [RunState.view, hs]),
      h.idle (by simp [RunState.view, hs])⟩
  · exact ⟨h.settled (by simp [RunState.view, hs]) (by simp [RunState.view, hs]),
      h.idle (by simp [RunState.view, hs])⟩

theorem reachable_coupled (h : RunMachine.Reachable s) : Coupled s.view := by
  refine reachable_inv (I := fun s : RunState => Coupled s.view) runMachine_atomic ?_ ?_ h
  · have hinit : Coupled ⟨.notStarted, ∅, none⟩ := coupled_quiet (by simp)
    exact hinit
  · intro s event ha hs
    obtain ⟨_, ht⟩ := accepts_iff.1 ha
    rw [apply_accepted ht]
    exact next_coupled hs (applyChecked_view ht)

theorem terminal_rejects (hs : s.status.terminal)
    (h : RunMachine.Accepts s event) : isUnknown event.payload := by
  obtain ⟨_, ht⟩ := accepts_iff.1 h
  exact applyChecked_terminal ht hs

/-- The only events accepted after the end of a run leave its status as it is. -/
theorem terminal_step (status : RunStatus) (ht : status.terminal)
    (hs : s.status = status) (event : RunEvent) : (RunMachine.apply s event).2.status = status := by
  by_cases ha : RunMachine.Accepts s event
  · have hu := terminal_rejects (by rw [hs]; exact ht) ha
    obtain ⟨t, hc⟩ := accepts_iff.1 ha
    have hv := applyChecked_view hc
    rw [apply_accepted hc]
    cases hp : event.payload <;> rw [hp] at hu hv <;> simp only [isUnknown, reduceCtorEq] at hu
    have hview := some.inj hv
    have hstat : s.status = t.status := congrArg View.status hview
    rw [← hstat]
    exact hs
  · rw [runMachine_atomic s event ha]
    exact hs

/-- In every state a run reaches, through any sequence of accepted and refused events, its
status goes with its inference and its approvals; an ended run stays as it ended and takes no
event the program knows; and a refused event leaves every field as it was. -/
theorem run_state_invariant : (∀ s, RunMachine.Reachable s → StatusInvariant s) ∧
    (∀ s, RunMachine.Reachable s → s.status.terminal →
      (∀ events, (RunMachine.feed s events).status = s.status) ∧
      ∀ event, RunMachine.Accepts s event → isUnknown event.payload) ∧
    (∀ s event, ¬ RunMachine.Accepts s event → (RunMachine.apply s event).2 = s) := by
  refine ⟨fun s hs => statusInvariant_of_coupled (reachable_coupled hs), ?_, runMachine_atomic⟩
  intro s _ ht
  refine ⟨fun events => ?_, fun event => terminal_rejects ht⟩
  exact feed_invariant (I := fun t : RunState => t.status = s.status)
    (fun t event h => terminal_step s.status ht h event) rfl events

end RunStateMachine
