import AiForge.TranscriptInvariant

/-! # Views of messages

The run projection and the transcript both keep the messages of a run. Through the view of a
message that they share, an accepted event changes either list by its payload alone; the two
differ where an inference or a run ends, which closes all messages of the inference in the run
and its first one, or none, in the transcript. -/
namespace Transcript

open Content Events KeyedList List RunProjection Staged TranscriptState

structure MessageView where
  messageId : MessageId
  inferenceId : Option InferenceId
  streaming : Bool

def projectedView (message : ProjectedMessage) : MessageView :=
  ⟨message.messageId, message.inferenceId, !message.complete⟩

def shownView (message : TranscriptMessage) : MessageView :=
  ⟨message.messageId, message.inferenceId, message.state == .streaming⟩

def MessageView.close (view : MessageView) : MessageView := { view with streaming := false }

def closeAll (inferenceId : Option InferenceId) (views : List MessageView) : List MessageView :=
  views.map fun view => if view.inferenceId = inferenceId then view.close else view

def closeFirst (inferenceId : Option InferenceId) (views : List MessageView) :
    List MessageView :=
  updateFirst MessageView.inferenceId inferenceId MessageView.close views

/-- What an event does to the messages as long as nothing ends. -/
def nextViews (views : List MessageView) : RunEventPayload → List MessageView
  | .userContentAdded message => views ++ [⟨message.messageId, none, false⟩]
  | .assistantContentStarted messageId inferenceId =>
    views ++ [⟨messageId, some inferenceId, true⟩]
  | .assistantContentFinished messageId _ =>
    updateFirst MessageView.messageId messageId MessageView.close views
  | _ => views

def nextProjected (active : Option InferenceId) (views : List MessageView)
    (payload : RunEventPayload) : List MessageView :=
  match payload with
  | .inferenceFailed inferenceId _ | .inferenceCancelled inferenceId _ =>
    closeAll (some inferenceId) views
  | .runCancelled _ => closeAll active views
  | _ => nextViews views payload

def nextShown (views : List MessageView) (payload : RunEventPayload) : List MessageView :=
  match payload with
  | .inferenceFailed inferenceId _ | .inferenceCancelled inferenceId _ =>
    closeFirst (some inferenceId) views
  | _ => nextViews views payload

def projectedViews (run : RunState) : List MessageView := run.messages.map projectedView

def TranscriptState.shownViews (s : TranscriptState) : List MessageView :=
  s.messages.map shownView

section Run

variable {run next : RunState}

theorem projectedViews_complete (inferenceId : Option InferenceId) :
    projectedViews (run.completeMessages inferenceId) =
      closeAll inferenceId (projectedViews run) := by
  unfold projectedViews closeAll RunState.completeMessages
  rw [map_map, map_map]
  refine map_congr_left ?_
  intro message _
  by_cases hown : message.inferenceId = inferenceId
  · simp [projectedView, MessageView.close, hown]
  · simp [projectedView, hown]

theorem lookup_findMessage {messageId : MessageId}
    (h : ¬ (run.findMessage messageId).isSome) :
    lookup MessageView.messageId messageId (projectedViews run) = none := by
  have hnone : lookup ProjectedMessage.messageId messageId run.messages = none :=
    Option.not_isSome_iff_eq_none.1 h
  have hmap : lookup MessageView.messageId messageId (projectedViews run) =
      (lookup ProjectedMessage.messageId messageId run.messages).map projectedView :=
    lookup_map fun _ => rfl
  rw [hmap, hnone]
  rfl

variable {event : RunEvent}

section

variable (h : RunProjection.visit run event = .ok next)

include h

theorem visit_projectedViews :
    projectedViews next = nextProjected run.activeInferenceId (projectedViews run) event.payload := by
  have hframed := RunProjection.visit_framed h
  unfold RunProjection.visit at h
  cases hp : event.payload <;> rw [hp] at h hframed <;> dsimp only at h
  case userContentAdded message =>
    obtain ⟨-, h⟩ := live_bind h
    split_ifs at h
    cases h
    simp [nextProjected, nextViews, projectedViews, projectedView]
  case assistantContentStarted messageId inferenceId =>
    obtain ⟨-, h⟩ := during_bind h
    split_ifs at h
    cases h
    simp [nextProjected, nextViews, projectedViews, projectedView]
  case assistantContentDeltaAdded messageId inferenceId delta =>
    obtain ⟨-, h⟩ := during_bind h
    split at h
    · cases h
    · split_ifs at h
      cases h
      exact map_update fun _ => rfl
  case assistantContentFinished messageId inferenceId =>
    obtain ⟨-, h⟩ := during_bind h
    split at h
    · cases h
    · split_ifs at h
      cases h
      exact updateFirst_map (fun _ => rfl) fun _ => rfl
  case inferenceFailed inferenceId error | inferenceCancelled inferenceId reason =>
    obtain ⟨-, h⟩ := during_bind h
    cases h
    exact projectedViews_complete _
  case runCancelled reason =>
    obtain ⟨-, h⟩ := live_bind h
    cases h
    exact projectedViews_complete _
  all_goals
    have hsame := hframed.messages rfl
    unfold projectedViews
    rw [hsame]
    rfl

theorem visit_new {messageId : MessageId}
    (hnew : (∃ message, event.payload = .userContentAdded message ∧ message.messageId = messageId) ∨
      ∃ inferenceId, event.payload = .assistantContentStarted messageId inferenceId) :
    lookup MessageView.messageId messageId (projectedViews run) = none := by
  unfold RunProjection.visit at h
  rcases hnew with ⟨message, hp, rfl⟩ | ⟨inferenceId, hp⟩
  · rw [hp] at h
    obtain ⟨-, h⟩ := live_bind h
    split_ifs at h with hpers hrole hfnd
    exact lookup_findMessage hfnd
  · rw [hp] at h
    obtain ⟨-, h⟩ := during_bind h
    split_ifs at h with hfnd
    exact lookup_findMessage hfnd

/-- An inference finishes only after its messages. -/
theorem visit_finished {inferenceId : InferenceId} {reason : FinishReason}
    (hp : event.payload = .inferenceFinished inferenceId reason) :
    ∀ view ∈ projectedViews run, view.inferenceId = some inferenceId → view.streaming = false := by
  unfold RunProjection.visit at h
  rw [hp] at h
  obtain ⟨-, h⟩ := during_bind h
  split_ifs at h with hopen
  intro view hview hown
  obtain ⟨message, hmsg, rfl⟩ := mem_map.1 hview
  rw [Bool.not_eq_true, any_eq_false] at hopen
  have hshut := hopen message hmsg
  simp only [projectedView] at hown ⊢
  simpa [hown] using hshut

end

/-- How an event moves the open inference. -/
def InferenceMove (before after : Option InferenceId) : RunEventPayload → Prop
  | .inferenceStarted i _ => before = none ∧ after = some i
  | .assistantContentStarted _ i => before = some i ∧ after = some i
  | .inferenceFinished i _ | .inferenceFailed i _ | .inferenceCancelled i _ =>
    before = some i ∧ after = none
  | .runFailed _ | .runCancelled _ => after = none
  | _ => after = before

theorem view_inference {v w : RunProjection.View} {payload : RunEventPayload}
    (h : v.next payload = some w) : InferenceMove v.inference w.inference payload := by
  cases payload
  case unknown =>
    cases h
    rfl
  case inferenceStarted =>
    obtain ⟨hguard, h⟩ := Option.ite_none_right_eq_some.1 h
    cases h
    exact ⟨hguard.2, rfl⟩
  case assistantContentStarted =>
    obtain ⟨hguard, h⟩ := Option.ite_none_right_eq_some.1 h
    cases h
    exact ⟨hguard, hguard⟩
  case inferenceFinished | inferenceFailed | inferenceCancelled =>
    obtain ⟨hguard, h⟩ := Option.ite_none_right_eq_some.1 h
    cases h
    exact ⟨hguard, rfl⟩
  all_goals
    obtain ⟨-, h⟩ := Option.ite_none_right_eq_some.1 h
    cases h
    rfl

theorem view_ended {v w : RunProjection.View} {payload : RunEventPayload}
    (h : v.next payload = some w) (hv : v.status.terminal → v.inference = none) :
    w.status.terminal → w.inference = none := by
  cases payload
  case unknown =>
    cases h
    exact hv
  case runStarted =>
    obtain ⟨-, h⟩ := Option.ite_none_right_eq_some.1 h
    cases h
    intro hterm
    cases hterm
  case inferenceStarted =>
    obtain ⟨⟨hrun, -⟩, h⟩ := Option.ite_none_right_eq_some.1 h
    cases h
    intro hterm
    rw [hrun] at hterm
    cases hterm
  case runAwaitingInput | planRevisionProposed =>
    obtain ⟨⟨-, hnone⟩, h⟩ := Option.ite_none_right_eq_some.1 h
    cases h
    exact fun _ => hnone
  case runCompleted | toolApprovalRequested =>
    obtain ⟨⟨-, hnone, -⟩, h⟩ := Option.ite_none_right_eq_some.1 h
    cases h
    exact fun _ => hnone
  case runResumed | planRevisionDecisionRecorded =>
    obtain ⟨-, h⟩ := Option.ite_none_right_eq_some.1 h
    cases h
    intro hterm
    split at hterm <;> cases hterm
  case toolApprovalDecided | planRevisionInvalidated =>
    obtain ⟨-, h⟩ := Option.ite_none_right_eq_some.1 h
    cases h
    intro hterm
    split at hterm
    · cases hterm
    · exact hv hterm
  all_goals
    obtain ⟨-, h⟩ := Option.ite_none_right_eq_some.1 h
    cases h
    first
    | exact hv
    | exact fun _ => rfl

/-! ### Open messages belong to the open inference -/

structure Anchored (run : RunState) : Prop where
  distinct : Distinct MessageView.messageId (projectedViews run)
  active : ∀ view ∈ projectedViews run, view.streaming →
    view.inferenceId = run.activeInferenceId ∧ run.activeInferenceId ≠ none

theorem mem_closeAll {inferenceId : Option InferenceId} {views : List MessageView}
    {view : MessageView} (h : view ∈ closeAll inferenceId views) (hopen : view.streaming) :
    view ∈ views ∧ view.inferenceId ≠ inferenceId := by
  obtain ⟨before, hpre, rfl⟩ := mem_map.1 h
  by_cases hown : before.inferenceId = inferenceId
  · rw [if_pos hown] at hopen
    cases hopen
  · rw [if_neg hown] at hopen ⊢
    exact ⟨hpre, hown⟩

theorem map_messageId_closeAll (inferenceId : Option InferenceId) (views : List MessageView) :
    (closeAll inferenceId views).map MessageView.messageId = views.map MessageView.messageId := by
  unfold closeAll
  rw [map_map]
  refine map_congr_left ?_
  intro view _
  by_cases hown : view.inferenceId = inferenceId
  · simp [hown, MessageView.close]
  · simp [hown]

/-- What leaves the messages and the open inference alone keeps them anchored. -/
theorem Anchored.kept (h : Anchored run) (hvs : projectedViews next = projectedViews run)
    (hact : next.activeInferenceId = run.activeInferenceId) : Anchored next := by
  constructor
  · rw [hvs]
    exact h.distinct
  · rw [hvs, hact]
    exact h.active

/-- When no message is left open, it does not matter what becomes of the inference. -/
theorem Anchored.closed (hdist : Distinct MessageView.messageId (projectedViews next))
    (hshut : ∀ view ∈ projectedViews next, view.streaming = false) : Anchored next := by
  refine ⟨hdist, ?_⟩
  intro view hview hopen
  rw [hshut view hview] at hopen
  cases hopen

theorem Anchored.closeAll (h : Anchored run) {inferenceId : Option InferenceId}
    (hown : inferenceId = run.activeInferenceId)
    (hvs : projectedViews next = closeAll inferenceId (projectedViews run)) : Anchored next := by
  refine .closed ?_ ?_
  · unfold Distinct
    rw [hvs, map_messageId_closeAll]
    exact h.distinct
  · intro view hview
    rw [hvs] at hview
    by_contra hopen
    rw [Bool.not_eq_false] at hopen
    obtain ⟨hpre, hoth⟩ := mem_closeAll hview hopen
    exact hoth ((h.active view hpre hopen).1.trans hown.symm)

theorem anchored_visit (h : Anchored run) (hvis : RunProjection.visit run event = .ok next)
    (hfail : ∀ error, event.payload = .runFailed error →
      ∀ view ∈ projectedViews run, view.streaming = false) : Anchored next := by
  have hvs := visit_projectedViews hvis
  have hmv : InferenceMove run.activeInferenceId next.activeInferenceId event.payload :=
    view_inference (RunProjection.visit_view hvis)
  have hnew := @visit_new run next event hvis
  have hfin := @visit_finished run next event hvis
  cases hp : event.payload <;> rw [hp] at hvs hmv hnew hfail hfin
  case userContentAdded message =>
    constructor
    · rw [hvs]
      exact distinct_snoc h.distinct (hnew (.inl ⟨message, rfl, rfl⟩))
    · have hact : next.activeInferenceId = run.activeInferenceId := hmv
      rw [hvs, hact]
      intro view hview hopen
      rcases mem_append.1 hview with hold | hadded
      · exact h.active view hold hopen
      · obtain rfl := mem_singleton.1 hadded
        cases hopen
  case assistantContentStarted messageId inferenceId =>
    obtain ⟨hpre, haft⟩ : run.activeInferenceId = some inferenceId ∧
      next.activeInferenceId = some inferenceId := hmv
    constructor
    · rw [hvs]
      exact distinct_snoc h.distinct (hnew (.inr ⟨inferenceId, rfl⟩))
    · rw [hvs, haft]
      intro view hview hopen
      rcases mem_append.1 hview with hold | hadded
      · obtain ⟨hown, -⟩ := h.active view hold hopen
        exact ⟨hown.trans hpre, nofun⟩
      · obtain rfl := mem_singleton.1 hadded
        exact ⟨rfl, nofun⟩
  case assistantContentFinished messageId inferenceId =>
    have hact : next.activeInferenceId = run.activeInferenceId := hmv
    constructor
    · rw [hvs]
      exact distinct_update (fun view hid => hid) h.distinct
    · rw [hvs, hact]
      refine forall_update h.active ?_
      intro view _ _ hopen
      cases hopen
  case inferenceStarted inferenceId modelId =>
    have hnone : run.activeInferenceId = none := hmv.1
    refine .closed (hvs ▸ h.distinct) ?_
    rw [hvs]
    intro view hview
    by_contra hopen
    rw [Bool.not_eq_false] at hopen
    exact (h.active view hview hopen).2 hnone
  case inferenceFinished inferenceId reason =>
    have hact : run.activeInferenceId = some inferenceId := hmv.1
    refine .closed (hvs ▸ h.distinct) ?_
    rw [hvs]
    intro view hview
    by_contra hopen
    rw [Bool.not_eq_false] at hopen
    have hown := (h.active view hview hopen).1.trans hact
    rw [hfin rfl view hview hown] at hopen
    cases hopen
  case inferenceFailed inferenceId error | inferenceCancelled inferenceId reason =>
    have hact : run.activeInferenceId = some inferenceId := hmv.1
    exact h.closeAll hact.symm hvs
  case runFailed error =>
    refine .closed (hvs ▸ h.distinct) ?_
    rw [hvs]
    exact hfail error rfl
  case runCancelled reason => exact h.closeAll rfl hvs
  all_goals exact h.kept hvs hmv

end Run

section Shown

variable {validateVerificationEvidence : VerificationEvidence → Bool}
variable {s t : TranscriptState} {metadata : EventMetadata}

theorem messages_add (item : TranscriptItem) :
    (s.add item).messages = s.messages ++ item.message?.toList := by
  cases hitem : item.message? <;>
    simp [messages, add, hitem]

theorem shown_add_message (message : TranscriptMessage) :
    (s.add (.message message)).shownViews = s.shownViews ++ [shownView message] := by
  unfold shownViews
  rw [messages_add, map_append]
  rfl

theorem shown_add {item : TranscriptItem} (h : item.message? = none) :
    (s.add item).shownViews = s.shownViews := by
  unfold shownViews
  rw [messages_add, h, Option.toList_none, append_nil]

theorem message?_mapMessage (f : TranscriptMessage → TranscriptMessage) (item : TranscriptItem) :
    (item.mapMessage f).message? = item.message?.map f := by
  cases item <;> rfl

theorem message?_mapTool (f : TranscriptToolSummary → TranscriptToolSummary)
    (item : TranscriptItem) : (item.mapTool f).message? = item.message? := by
  cases item <;> rfl

theorem message?_mapQuestion (f : TranscriptQuestionSummary → TranscriptQuestionSummary)
    (item : TranscriptItem) : (item.mapQuestion f).message? = item.message? := by
  cases item <;> rfl

theorem messages_changeMessage (messageId : MessageId) (f : TranscriptMessage → TranscriptMessage) :
    (s.changeMessage messageId f).messages =
      updateFirst TranscriptMessage.messageId messageId f s.messages :=
  filterMap_update_view (message?_mapMessage f)

theorem messages_changeInferenceMessage (inferenceId : InferenceId)
    (f : TranscriptMessage → TranscriptMessage) :
    (s.changeInferenceMessage inferenceId f).messages =
      updateFirst TranscriptMessage.inferenceId (some inferenceId) f s.messages :=
  filterMap_update_view (message?_mapMessage f)

variable {f : TranscriptMessage → TranscriptMessage}

/-- A change that leaves the state of a message alone is not seen. -/
theorem shown_changeMessage_kept {messageId : MessageId}
    (hf : ∀ message, shownView (f message) = shownView message) :
    (s.changeMessage messageId f).shownViews = s.shownViews := by
  unfold shownViews
  rw [messages_changeMessage]
  exact map_update hf

variable {inferenceId : InferenceId}

theorem shown_changeInference_kept
    (hf : ∀ message, shownView (f message) = shownView message) :
    (s.changeInferenceMessage inferenceId f).shownViews = s.shownViews := by
  unfold shownViews
  rw [messages_changeInferenceMessage]
  exact map_update hf

/-- The end of an inference closes its first message, if it has one. -/
theorem shown_changeInference_closed
    (hf : ∀ message, shownView (f message) = (shownView message).close) :
    (s.changeInferenceMessage inferenceId f).shownViews =
      closeFirst (some inferenceId) s.shownViews := by
  unfold shownViews
  rw [messages_changeInferenceMessage]
  exact updateFirst_map (fun _ => rfl) hf

theorem closeFirst_absent (h : ¬ (s.inferenceMessage inferenceId).isSome) :
    closeFirst (some inferenceId) s.shownViews = s.shownViews := by
  have hnone : lookup TranscriptMessage.inferenceId (some inferenceId) s.messages = none :=
    Option.not_isSome_iff_eq_none.1 h
  have hmap : lookup MessageView.inferenceId (some inferenceId) s.shownViews =
      (lookup TranscriptMessage.inferenceId (some inferenceId) s.messages).map shownView :=
    lookup_map fun _ => rfl
  rw [hnone] at hmap
  exact updateFirst_of_none hmap

theorem shown_of_messages (h : t.messages = s.messages) : t.shownViews = s.shownViews :=
  congrArg (List.map shownView) h

theorem shown_transition (h : Transition validateVerificationEvidence s metadata payload t)
    (hplain : ¬ Plain metadata payload) : t.shownViews = s.shownViews := by
  cases h with
  | content hcont => exact absurd hcont hplain
  | propose | ask | refer | publish => exact shown_add rfl
  | tool =>
    exact shown_of_messages (filterMap_update_of_fixed (message?_mapTool _))
  | answer | cancel =>
    exact shown_of_messages (filterMap_update_of_fixed (message?_mapQuestion _))
  | create => rfl
  | referMessage =>
    rw [shown_add rfl]
    exact shown_changeMessage_kept fun _ => rfl
  | verify =>
    exact shown_add rfl

theorem visitRun_shownViews {payload : RunEventPayload} (h : visitRun s metadata payload = .ok t) :
    t.shownViews = nextShown s.shownViews payload := by
  have htrans (validate : VerificationEvidence → Bool) :
      Transition validate s metadata (.run payload) t := visitRun_transition h
  cases payload
  case userContentAdded message =>
    cases h
    exact shown_add_message _
  case assistantContentStarted messageId inferenceId =>
    cases h
    exact shown_add_message _
  case assistantContentDeltaAdded messageId inferenceId delta =>
    obtain ⟨-, h⟩ := guarded h
    cases h
    exact shown_changeMessage_kept fun _ => rfl
  case assistantContentFinished messageId inferenceId =>
    obtain ⟨-, h⟩ := guarded h
    cases h
    unfold shownViews
    rw [messages_changeMessage]
    exact updateFirst_map (fun _ => rfl) fun _ => rfl
  case reasoningMetadataAdded inferenceId text metadata =>
    obtain ⟨-, h⟩ := guarded h
    cases h
    exact shown_changeInference_kept fun _ => rfl
  case usageRecorded inferenceId usage =>
    obtain ⟨_, -, h⟩ := bind_ok.1 h
    cases h
    exact shown_changeInference_kept fun _ => rfl
  case inferenceFailed inferenceId error =>
    cases h
    unfold failInference
    by_cases hfnd : (s.inferenceMessage inferenceId).isSome = true
    · rw [if_pos hfnd]
      exact shown_changeInference_closed fun _ => rfl
    · rw [if_neg hfnd]
      exact (shown_add rfl).trans (closeFirst_absent hfnd).symm
  case inferenceCancelled inferenceId reason =>
    cases h
    unfold cancelInference
    by_cases hfnd : (s.inferenceMessage inferenceId).isSome = true
    · rw [if_pos hfnd]
      exact shown_changeInference_closed fun _ => rfl
    · rw [if_neg hfnd]
      exact (shown_add rfl).trans (closeFirst_absent hfnd).symm
  case runFailed error =>
    cases h
    unfold failRun
    split
    · rfl
    · exact shown_add rfl
  case runCancelled reason =>
    cases h
    unfold cancelRun
    split
    · rfl
    · exact shown_add rfl
  case toolProposed | toolPolicyDecided | toolApprovalRequested | toolApprovalDecided |
      toolPolicyFailed | toolStarted | toolProgressed | toolResultRecorded | toolErrored =>
    exact shown_transition (htrans fun _ => true) fun hplain => nomatch hplain.tool
  case questionRequested =>
    exact shown_transition (htrans fun _ => true) fun hplain => nomatch hplain.question
  case questionAnswered | questionCancelled =>
    exact shown_transition (htrans fun _ => true) fun hplain => nomatch hplain.resolution
  all_goals
    cases h
    rfl

theorem visit_shownViews {event : TranscriptEvent}
    (h : visit validateVerificationEvidence s event = .ok t) :
    t.shownViews = nextShown s.shownViews event.payload.runPayload := by
  have htrans := visit_transition h
  cases hp : event.payload <;> rw [hp] at htrans
  case run payload =>
    unfold visit at h
    rw [hp] at h
    exact visitRun_shownViews h
  case artifactCreated artifact =>
    exact shown_transition htrans fun hplain => nomatch hplain.artifact
  case artifactReferenced artifactId messageId =>
    unfold visit at h
    rw [hp] at h
    obtain ⟨_, -, h⟩ := bind_ok.1 h
    cases messageId with
    | none =>
      cases h
      exact shown_add rfl
    | some =>
      obtain ⟨-, h⟩ := guarded h
      cases h
      rw [shown_add rfl]
      exact shown_changeMessage_kept fun _ => rfl
  case videoArtifactPublished published =>
    unfold visit at h
    rw [hp] at h
    obtain ⟨_, -, h⟩ := bind_ok.1 h
    obtain ⟨-, h⟩ := guarded h
    cases h
    exact shown_add rfl
  case verificationEvidenceRecorded evidence =>
    unfold visit at h
    rw [hp] at h
    obtain ⟨-, h⟩ := guarded h
    obtain ⟨_, -, h⟩ := bind_ok.1 h
    obtain ⟨-, h⟩ := guarded h
    obtain ⟨-, h⟩ := guarded h
    obtain ⟨-, h⟩ := guarded h
    obtain ⟨-, h⟩ := guarded h
    obtain ⟨-, h⟩ := guarded h
    cases h
    exact shown_add rfl

/-- An accepted event moves both lists of messages by its payload alone. -/
structure Moved (s : TranscriptState) (event : TranscriptEvent) (t : TranscriptState) : Prop where
  visited : ∃ next, RunProjection.visit s.run event.runEvent = .ok next ∧
    t.run = { next with lastSequence := event.metadata.sequence }
  shown : t.shownViews = nextShown s.shownViews event.payload.runPayload

theorem accepts_moved {event : TranscriptEvent}
    (h : (transcriptProjection validateVerificationEvidence).Accepts s event) :
    Moved s event ((transcriptProjection validateVerificationEvidence).apply s event).2 := by
  change ((transcriptProjection validateVerificationEvidence).apply s event).1 = .ok () at h
  simp only [transcriptProjection] at h ⊢
  cases happ : applyInPlace validateVerificationEvidence s event with
  | error => simp [happ] at h
  | ok =>
    obtain ⟨-, happ⟩ := guarded happ
    obtain ⟨_, hrun, happ⟩ := bind_ok.1 happ
    obtain ⟨_, hvis, happ⟩ := bind_ok.1 happ
    cases happ
    obtain ⟨-, moved, hmv, rfl⟩ := RunProjection.applyChecked_ok (mapError_ok.1 hrun)
    have hshown := visit_shownViews hvis
    have hkept := transition_run (visit_transition hvis)
    exact ⟨⟨moved, hmv, hkept⟩, hshown⟩

end Shown

end Transcript
