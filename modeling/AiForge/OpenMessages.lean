import AiForge.RunStateMachine

/-! # Open messages

An assistant message is opened by an inference and stays open until it is finished or its
inference ends. A failed run forgets its inference without completing what it had begun to
say, so the messages of a run are attended exactly as long as no run fails in the middle of
one. -/
namespace OpenMessages

open Content Events EventProjection KeyedList RunProjection RunStateMachine

/-- Every message that is still open belongs to the inference that is. -/
def Attended (s : RunState) : Prop :=
  ∀ m ∈ s.messages, m.complete = false →
    m.inferenceId.isSome ∧ m.inferenceId = s.activeInferenceId

def AllComplete (s : RunState) : Prop := ∀ m ∈ s.messages, m.complete

instance (s : RunState) : Decidable (Attended s) := List.decidableBAll _ _

instance (s : RunState) : Decidable (AllComplete s) := List.decidableBAll _ _

/-- No message is left dangling: open ones belong to the open inference, and a run that has
ended has none. -/
structure NoDangling (s : RunState) : Prop where
  attended : Attended s
  ended : s.status.terminal → AllComplete s

def isRunFailed : RunEventPayload → Bool
  | .runFailed _ => true
  | _ => false

variable {s : RunState}

theorem AllComplete.attended (h : AllComplete s) : Attended s := by
  intro m hm ho
  rw [h m hm] at ho
  cases ho

/-- With no inference open there is nothing an open message could belong to. -/
theorem Attended.allComplete (h : Attended s) (hi : s.activeInferenceId = none) :
    AllComplete s := by
  intro m hm
  by_contra ho
  obtain ⟨hsome, heq⟩ := h m hm (by simpa using ho)
  rw [heq, hi] at hsome
  cases hsome

theorem completeMessages_allComplete (h : Attended s) :
    AllComplete (s.completeMessages s.activeInferenceId) := by
  intro m hm
  obtain ⟨m', hm', rfl⟩ := List.mem_map.1 hm
  by_cases hi : m'.inferenceId = s.activeInferenceId
  · rw [if_pos hi]
  · rw [if_neg hi]
    by_contra ho
    exact hi (h m' hm' (by simpa using ho)).2

/-- What closes an open inference leaves nothing open. -/
theorem closed_attended {t : RunState} (hm : AllComplete s) (ht : t.messages = s.messages) :
    Attended t := by
  have hall : AllComplete t := by
    intro m hmt
    rw [ht] at hmt
    exact hm m hmt
  exact hall.attended

theorem changeMessage_attended {messageId : MessageId} {i : InferenceId}
    {f : ProjectedMessage → ProjectedMessage} (h : Attended s)
    (hi : s.activeInferenceId = some i) {m : ProjectedMessage}
    (hm : s.findMessage messageId = some m) (hid : m.inferenceId = some i)
    (hf : (f m).inferenceId = m.inferenceId) : Attended (s.changeMessage messageId f) := by
  refine forall_update (Q := fun m : ProjectedMessage => m.complete = false →
    m.inferenceId.isSome = true ∧ m.inferenceId = s.activeInferenceId) h ?_
  intro m' hm' _ _
  obtain rfl : m = m' := Option.some.inj (hm.symm.trans hm')
  rw [hf, hid, hi]
  exact ⟨rfl, rfl⟩

theorem pushMessage_attended {m : ProjectedMessage} (h : Attended s)
    (hm : m.complete = false → m.inferenceId.isSome ∧
      m.inferenceId = s.activeInferenceId) :
    Attended { s with messages := s.messages ++ [m] } := by
  intro m' hm'
  rcases List.mem_append.1 hm' with hold | hnew
  · exact h m' hold
  · obtain rfl := List.mem_singleton.1 hnew
    exact hm

/-- One accepted event keeps the messages attended, unless it fails a run that still has one
open. -/
theorem visit_attended {t : RunState} {event : RunEvent} (h : visit s event = .ok t)
    (hs : Attended s) (hfail : isRunFailed event.payload → AllComplete s) : Attended t := by
  unfold visit at h
  cases hp : event.payload <;> rw [hp] at h <;> dsimp only at h
  case runStarted =>
    simp only [applyStarted] at h
    split at h
    · cases h
    · cases h
      exact hs
  case runAwaitingInput | runResumed | toolApprovalRequested | toolApprovalDecided |
      planRevisionProposed | planRevisionDecisionRecorded | planRevisionInvalidated =>
    simp only [applyAwaitingInput, applyResumed, applyApprovalRequested, applyApprovalDecided,
      applyPlanProposed, applyPlanDecision, applyPlanInvalidated] at h
    split at h
    · cases h
    · cases h
      exact hs
  case inferenceStarted =>
    simp only [applyInferenceStarted] at h
    split at h
    · cases h
    · split at h
      · cases h
      · rename_i hnone
        cases h
        -- No inference was open, so no message was.
        exact closed_attended (hs.allComplete (by simpa using hnone)) rfl
  case runProvenanceRecorded | personaSelectionRecorded | runCompleted =>
    obtain ⟨-, h⟩ := live_bind h
    split_ifs at h
    cases h
    exact hs
  case runFailed =>
    obtain ⟨-, h⟩ := live_bind h
    cases h
    exact closed_attended (hfail (by rw [hp]; rfl)) rfl
  case runCancelled =>
    obtain ⟨-, h⟩ := live_bind h
    cases h
    exact closed_attended (completeMessages_allComplete hs) rfl
  case userContentAdded =>
    obtain ⟨-, h⟩ := live_bind h
    split_ifs at h
    cases h
    exact pushMessage_attended hs (by simp)
  case inferencePricingObserved =>
    obtain ⟨-, h⟩ := during_bind h
    split_ifs at h
    cases h
    exact hs
  case assistantContentStarted =>
    obtain ⟨hi, h⟩ := during_bind h
    split_ifs at h
    cases h
    exact pushMessage_attended hs fun _ => ⟨rfl, hi.symm⟩
  case assistantContentDeltaAdded | assistantContentFinished =>
    obtain ⟨hi, h⟩ := during_bind h
    split at h
    · cases h
    · rename_i m hm
      split_ifs at h with hopen
      cases h
      simp only [Bool.or_eq_true, not_or, bne_iff_ne, ne_eq, not_not] at hopen
      exact changeMessage_attended hs hi hm hopen.2 rfl
  case usageRecorded =>
    obtain ⟨-, h⟩ := during_bind h
    split at h
    · cases h
    · cases h
      exact hs
  case inferenceCostRecorded =>
    obtain ⟨-, h⟩ := during_bind h
    split_ifs at h
    split at h
    · cases h
    · cases h
      exact hs
  case reasoningMetadataAdded =>
    obtain ⟨-, rfl⟩ := matchInference_ok h
    exact hs
  case inferenceFinished i _ =>
    obtain ⟨hi, h⟩ := during_bind h
    split_ifs at h with hopen
    cases h
    refine closed_attended (s := s) (fun m hm => ?_) rfl
    by_contra ho
    obtain ⟨-, heq⟩ := hs m hm (by simpa using ho)
    refine hopen (List.any_eq_true.2 ⟨m, hm, ?_⟩)
    simpa [heq, hi] using ho
  case inferenceFailed | inferenceCancelled =>
    obtain ⟨hi, h⟩ := during_bind h
    cases h
    rw [← hi]
    exact closed_attended (completeMessages_allComplete hs) rfl
  case unknown =>
    cases h
    exact hs
  all_goals
    obtain ⟨-, rfl⟩ := requireRunning_ok h
    exact hs

theorem noDangling_of_attended (hr : RunMachine.Reachable s) (h : Attended s) : NoDangling s := by
  refine ⟨h, fun ht => h.allComplete ?_⟩
  refine (reachable_coupled hr).idle ?_
  intro hrun
  change s.status = .running at hrun
  rw [hrun] at ht
  cases ht

theorem failed_messages {t : RunState} {event : RunEvent} (h : applyChecked s event = .ok t)
    (hf : isRunFailed event.payload) :
    t.messages = s.messages ∧ t.status.terminal := by
  obtain ⟨-, _, hu, rfl⟩ := applyChecked_ok h
  unfold visit at hu
  cases hp : event.payload <;> rw [hp] at hu hf <;> try cases hf
  obtain ⟨-, hu⟩ := live_bind hu
  cases hu
  exact ⟨rfl, rfl⟩

/-- In every state a run goes through the open messages belong to the open inference, and an
ended run has none, exactly if the run does not fail while a message is open. -/
theorem messages_attended_iff {events : List RunEvent} {s : RunState}
    (h : RunMachine.Accepted RunMachine.initial events s) :
    (∀ past t, past <+: events → RunMachine.Accepted RunMachine.initial past t →
      NoDangling t) ↔
    ∀ past event t, past ++ [event] <+: events →
      RunMachine.Accepted RunMachine.initial past t → isRunFailed event.payload →
      AllComplete t := by
  constructor
  · rintro hall past event t ⟨_, rfl⟩ ht hf
    obtain ⟨u, hu, -⟩ := accepted_append.1 h
    obtain ⟨t', ht', hstep⟩ := accepted_append.1 hu
    obtain rfl : t' = t := (accepted_feed ht').symm.trans (accepted_feed ht)
    obtain ⟨hmessages, hended⟩ := failed_messages (accepted_step hstep) hf
    have hcomplete := (hall (past ++ [event]) u (List.prefix_append _ _) hu).ended hended
    intro m hm
    exact hcomplete m (hmessages ▸ hm)
  · intro hcond past
    induction past using List.reverseRecOn with
    | nil =>
      rintro t - ⟨⟩
      exact noDangling_of_attended (reachable_initial RunMachine) (by simp [Attended, RunMachine])
    | append_singleton past event ih =>
      intro t hpre ht
      obtain ⟨u, hu, hstep⟩ := accepted_append.1 ht
      have hbefore := ih u ((List.prefix_append past [event]).trans hpre) hu
      obtain ⟨-, _, hv, hvt⟩ := applyChecked_ok (accepted_step hstep)
      have hafter := visit_attended hv hbefore.attended (hcond past event u hpre hu)
      refine noDangling_of_attended ⟨past ++ [event], accepted_feed ht⟩ ?_
      rw [hvt]
      exact hafter

def chatEvent (eventId : EventId) (sequence : ℕ) (payload : RunEventPayload) : RunEvent :=
  ⟨⟨eventId, "run", sequence, 1, 0, none, none, none⟩, payload⟩

def openedMessage : List RunEvent :=
  [chatEvent "started" 1 (.runStarted
      ⟨"surface", "workspace", "profile", none, none, .conversation, none, false, false⟩),
    chatEvent "inference" 2 (.inferenceStarted "inference" "model"),
    chatEvent "opened" 3 (.assistantContentStarted "answer" "inference")]

def runFailedEvent : RunEvent :=
  chatEvent "failed" 4 (.runFailed ⟨.backend, "connection lost", true⟩)

/-- A run that fails while it answers keeps the answer open for ever. -/
theorem failed_run_message_dangling :
    ¬ ∀ events s, RunMachine.Accepted RunMachine.initial events s → NoDangling s := by
  intro h
  have hs : RunMachine.Accepted RunMachine.initial (openedMessage ++ [runFailedEvent]) _ :=
    accepted_of_isOk (by decide)
  have hopen := (h _ _ hs).ended (by decide)
  revert hopen
  decide

/-- The message is finished before the run fails. -/
def finishedMessage : List RunEvent :=
  openedMessage ++ [chatEvent "finished" 4 (.assistantContentFinished "answer" "inference"),
    chatEvent "failed" 5 (.runFailed ⟨.backend, "connection lost", true⟩)]

theorem finished_message_attended :
    (∃ s, RunMachine.Accepted RunMachine.initial finishedMessage s) ∧
    ∀ past t, past <+: finishedMessage → RunMachine.Accepted RunMachine.initial past t →
      NoDangling t := by
  have hs : RunMachine.Accepted RunMachine.initial finishedMessage _ :=
    accepted_of_isOk (by decide)
  refine ⟨⟨_, hs⟩, (messages_attended_iff hs).2 ?_⟩
  exact forall_steps
    (Q := fun t (event : RunEvent) => isRunFailed event.payload = true → AllComplete t) (by decide)

end OpenMessages
