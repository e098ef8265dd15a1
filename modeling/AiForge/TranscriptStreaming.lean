import AiForge.MessageViews

/-! # Streaming messages

A transcript and the run inside it agree on what is streaming as long as every inference and
every run that ends leaves no message open behind; an ending that does is also the point from
which they disagree, or from which an ended run shows a message that is still streaming. -/
namespace Transcript

open Content EventProjection Events KeyedList

/-- The transcript shows a message as streaming exactly while the run holds it as incomplete, and
never when the run has ended. -/
structure StreamingAgrees (s : TranscriptState) : Prop where
  streaming : ∀ message ∈ s.messages, message.state = .streaming ↔
    ∃ projected ∈ s.run.messages, projected.messageId = message.messageId ∧
      projected.complete = false
  ended : s.run.status.terminal → ∀ message ∈ s.messages, message.state ≠ .streaming

/-- An inference ends when at most its first message is open, and a run fails or is cancelled
when none is. -/
def EndsClosed (s : TranscriptState) (event : TranscriptEvent) : Prop :=
  match event.payload with
  | .run (.inferenceFailed inferenceId _) | .run (.inferenceCancelled inferenceId _) =>
    ∀ message ∈ s.messages, message.inferenceId = some inferenceId →
      message.state = .streaming → s.inferenceMessage inferenceId = some message
  | .run (.runFailed _) | .run (.runCancelled _) =>
    ∀ message ∈ s.messages, message.state ≠ .streaming
  | _ => True

/-- Both lists of messages look the same, and open messages belong to the open inference. -/
structure Aligned (s : TranscriptState) : Prop where
  views : projectedViews s.run = s.shownViews
  anchored : Anchored s.run
  ended : s.run.status.terminal → s.run.activeInferenceId = none

section Agreement

variable {validateVerificationEvidence : VerificationEvidence → Bool}
variable {s t : TranscriptState} {event : TranscriptEvent} {message : TranscriptMessage}

theorem shownView_streaming :
    (shownView message).streaming ↔ message.state = .streaming := beq_iff_eq

theorem aligned_initial : Aligned {} where
  views := rfl
  anchored := ⟨List.nodup_nil, nofun⟩
  ended := nofun

theorem Aligned.agrees (h : Aligned s) : StreamingAgrees s := by
  constructor
  · intro message hmsg
    have hshown : shownView message ∈ projectedViews s.run := by
      rw [h.views]
      exact List.mem_map.2 ⟨message, hmsg, rfl⟩
    obtain ⟨projected, hproj, hview⟩ := List.mem_map.1 hshown
    have hid : projected.messageId = message.messageId := congrArg MessageView.messageId hview
    have hopen : (!projected.complete) = (message.state == .streaming) :=
      congrArg MessageView.streaming hview
    constructor
    · intro hst
      refine ⟨projected, hproj, hid, ?_⟩
      rw [hst, beq_self_eq_true, Bool.not_eq_true'] at hopen
      exact hopen
    · rintro ⟨other, hoth, hsame, hincomplete⟩
      have hvs : projectedView other = projectedView projected := by
        refine List.inj_on_of_nodup_map h.anchored.distinct ?_ ?_ (hsame.trans hid.symm)
        · exact List.mem_map.2 ⟨other, hoth, rfl⟩
        · exact List.mem_map.2 ⟨projected, hproj, rfl⟩
      have hstreaming := congrArg MessageView.streaming hvs
      simp only [projectedView, hincomplete, Bool.not_false] at hstreaming
      rw [← hstreaming] at hopen
      exact beq_iff_eq.1 hopen.symm
  · intro hterm message hmsg hst
    have hshown : shownView message ∈ projectedViews s.run := by
      rw [h.views]
      exact List.mem_map.2 ⟨message, hmsg, rfl⟩
    have hact := h.anchored.active _ hshown (shownView_streaming.2 hst)
    exact hact.2 (h.ended hterm)

/-! ### Endings that close what is open -/

variable {inferenceId : Option InferenceId} {views : List MessageView}

theorem closeAll_closed
    (h : ∀ view ∈ views, view.inferenceId = inferenceId → view.streaming = false) :
    closeAll inferenceId views = views := by
  conv_rhs => rw [← List.map_id views]
  refine List.map_congr_left ?_
  intro view hview
  by_cases hown : view.inferenceId = inferenceId
  · have hshut := h view hview hown
    rw [if_pos hown]
    unfold MessageView.close
    rw [← hshut]
    rfl
  · rw [if_neg hown]
    rfl

/-- Closing the first message closes all, when no other message of the inference is open. -/
theorem closeAll_eq_closeFirst (hdist : Distinct MessageView.messageId views)
    (h : ∀ view ∈ views, view.inferenceId = inferenceId → view.streaming →
      lookup MessageView.inferenceId inferenceId views = some view) :
    closeAll inferenceId views = closeFirst inferenceId views := by
  induction views with
  | nil => rfl
  | cons first rest ih =>
    obtain ⟨hnew, hrest⟩ := List.nodup_cons.1 hdist
    unfold closeFirst updateFirst
    by_cases hown : first.inferenceId = inferenceId
    · have hshut : closeAll inferenceId rest = rest := by
        refine closeAll_closed ?_
        intro view hview hsame
        by_contra hopen
        have hfnd := h view (List.mem_cons_of_mem _ hview) hsame (by simpa using hopen)
        have hfst : lookup MessageView.inferenceId inferenceId (first :: rest) = some first := by
          simp [lookup, hown]
        obtain rfl := Option.some.inj (hfst.symm.trans hfnd)
        exact hnew (List.mem_map.2 ⟨first, hview, rfl⟩)
      unfold closeAll at hshut ⊢
      rw [List.map_cons, hshut, if_pos hown, if_pos hown]
    · have htail := ih hrest fun view hview hsame hopen => by
        have hfnd := h view (List.mem_cons_of_mem _ hview) hsame hopen
        simpa [lookup, hown] using hfnd
      unfold closeAll closeFirst at htail
      unfold closeAll
      rw [List.map_cons, htail, if_neg hown, if_neg hown]

theorem mem_closeFirst {view : MessageView} (hview : view ∈ views)
    (hfst : lookup MessageView.inferenceId inferenceId views ≠ some view) :
    view ∈ closeFirst inferenceId views := by
  induction views with
  | nil => cases hview
  | cons first _ ih =>
    unfold closeFirst updateFirst
    by_cases hown : first.inferenceId = inferenceId
    · rw [if_pos hown]
      rcases List.mem_cons.1 hview with rfl | hrest
      · exact absurd (by simp [lookup, hown]) hfst
      · exact List.mem_cons_of_mem _ hrest
    · rw [if_neg hown]
      rcases List.mem_cons.1 hview with rfl | hrest
      · exact List.mem_cons_self
      · refine List.mem_cons_of_mem _ (ih hrest ?_)
        simpa [lookup, hown] using hfst

theorem lookup_shownViews (inferenceId : InferenceId) :
    lookup MessageView.inferenceId (some inferenceId) s.shownViews =
      (s.inferenceMessage inferenceId).map shownView :=
  lookup_map fun _ => rfl

theorem mem_shownViews (h : message ∈ s.messages) :
    shownView message ∈ s.shownViews := List.mem_map.2 ⟨message, h, rfl⟩

theorem Aligned.distinct (h : Aligned s) : Distinct MessageView.messageId s.shownViews := by
  rw [← h.views]
  exact h.anchored.distinct

/-- What the condition says of the views. -/
theorem closeAll_shownViews (h : Aligned s) {inferenceId : InferenceId}
    (hends : ∀ message ∈ s.messages, message.inferenceId = some inferenceId →
      message.state = .streaming → s.inferenceMessage inferenceId = some message) :
    closeAll (some inferenceId) s.shownViews = closeFirst (some inferenceId) s.shownViews := by
  refine closeAll_eq_closeFirst h.distinct ?_
  intro view hview hown hopen
  obtain ⟨message, hmsg, rfl⟩ := List.mem_map.1 hview
  have hfst := hends message hmsg hown (shownView_streaming.1 hopen)
  rw [lookup_shownViews, hfst]
  rfl

theorem shown_closed (h : ∀ message ∈ s.messages, message.state ≠ .streaming) :
    ∀ view ∈ s.shownViews, view.streaming = false := by
  intro view hview
  obtain ⟨message, hmsg, rfl⟩ := List.mem_map.1 hview
  have hst := h message hmsg
  rw [← Bool.not_eq_true]
  intro hopen
  exact hst (shownView_streaming.1 hopen)

/-- While endings close what is open, both lists of messages move alike. -/
theorem next_agree (h : Aligned s) (hends : EndsClosed s event) :
    nextProjected s.run.activeInferenceId s.shownViews event.payload.runPayload =
      nextShown s.shownViews event.payload.runPayload := by
  unfold EndsClosed at hends
  cases hp : event.payload <;> rw [hp] at hends
  case run payload =>
    cases payload
    case inferenceFailed inferenceId error | inferenceCancelled inferenceId reason =>
      exact closeAll_shownViews h hends
    case runCancelled reason =>
      have hshut := shown_closed hends
      exact closeAll_closed fun view hview _ => hshut view hview
    all_goals rfl
  all_goals rfl

theorem payload_of_runFailed {payload : TranscriptPayload} {error : DomainError}
    (h : payload.runPayload = .runFailed error) : payload = .run (.runFailed error) := by
  cases payload
  case run payload => exact congrArg TranscriptPayload.run h
  all_goals cases h

theorem aligned_step (h : Aligned s) (hmv : Moved s event t) (hends : EndsClosed s event) :
    Aligned t := by
  obtain ⟨⟨next, hvis, hrun⟩, hshown⟩ := hmv
  have hvs := visit_projectedViews hvis
  have hfail (error : DomainError) (hp : event.runEvent.payload = .runFailed error) :
      ∀ view ∈ projectedViews s.run, view.streaming = false := by
    rw [h.views]
    unfold EndsClosed at hends
    rw [payload_of_runFailed hp] at hends
    exact shown_closed hends
  have hanchored := anchored_visit h.anchored hvis hfail
  have hend := view_ended (RunProjection.visit_view hvis) h.ended
  constructor
  · have hsame : projectedViews t.run = projectedViews next := by rw [hrun]; rfl
    have hpay : event.runEvent.payload = event.payload.runPayload := rfl
    rw [hsame, hvs, hshown, h.views, hpay, next_agree h hends]
  · rw [hrun]
    exact hanchored.kept rfl rfl
  · rw [hrun]
    exact hend

/-! ### Endings that leave a message open -/

theorem Aligned.first_of_view (h : Aligned s) {inferenceId : InferenceId}
    (hmsg : message ∈ s.messages)
    (hfst : lookup MessageView.inferenceId (some inferenceId) s.shownViews =
      some (shownView message)) : s.inferenceMessage inferenceId = some message := by
  rw [lookup_shownViews] at hfst
  obtain ⟨first, hfnd, hview⟩ := Option.map_eq_some_iff.1 hfst
  have hids : (s.messages.map TranscriptMessage.messageId).Nodup := by
    have hdist := h.distinct
    unfold Distinct TranscriptState.shownViews at hdist
    rw [List.map_map] at hdist
    exact hdist
  have hmem : first ∈ s.messages := lookup_mem hfnd
  have hid : first.messageId = message.messageId := congrArg MessageView.messageId hview
  rw [hfnd, List.inj_on_of_nodup_map hids hmem hmsg hid]

/-- A message that the ending of its inference leaves open in the transcript is closed in the
run. -/
theorem ended_inference (h : Aligned s) (hagr : StreamingAgrees t) {inferenceId : InferenceId}
    (hrun : projectedViews t.run = closeAll (some inferenceId) (projectedViews s.run))
    (hshown : t.shownViews = closeFirst (some inferenceId) s.shownViews) :
    ∀ message ∈ s.messages, message.inferenceId = some inferenceId →
      message.state = .streaming → s.inferenceMessage inferenceId = some message := by
  intro message hmsg hown hst
  by_contra hlat
  have hview := mem_shownViews hmsg
  have hkept : shownView message ∈ t.shownViews := by
    rw [hshown]
    exact mem_closeFirst hview fun hfst => hlat (h.first_of_view hmsg hfst)
  obtain ⟨still, hstill, hsame⟩ := List.mem_map.1 hkept
  have hopen : still.state = .streaming := by
    rw [← shownView_streaming, hsame]
    exact shownView_streaming.2 hst
  obtain ⟨projected, hproj, hid, hincomplete⟩ := (hagr.streaming still hstill).1 hopen
  have hmem : projectedView projected ∈ closeAll (some inferenceId) (projectedViews s.run) := by
    rw [← hrun]
    exact List.mem_map.2 ⟨projected, hproj, rfl⟩
  obtain ⟨hpre, hoth⟩ := mem_closeAll hmem (by simp [projectedView, hincomplete])
  rw [h.views] at hpre
  have hids : (projectedView projected).messageId = (shownView message).messageId := by
    rw [← hsame]
    exact hid
  rw [List.inj_on_of_nodup_map h.distinct hpre hview hids] at hoth
  exact hoth hown

theorem ended_run (hagr : StreamingAgrees t) (hterm : t.run.status.terminal)
    (hshown : t.shownViews = s.shownViews) :
    ∀ message ∈ s.messages, message.state ≠ .streaming := by
  intro message hmsg hst
  have hview := mem_shownViews hmsg
  rw [← hshown] at hview
  obtain ⟨still, hstill, hsame⟩ := List.mem_map.1 hview
  refine hagr.ended hterm still hstill ?_
  rw [← shownView_streaming, hsame]
  exact shownView_streaming.2 hst

theorem endsClosed_of_agrees (h : Aligned s) (hmv : Moved s event t)
    (hagr : StreamingAgrees t) : EndsClosed s event := by
  obtain ⟨⟨next, hvis, hrun⟩, hshown⟩ := hmv
  have hvs : projectedViews t.run =
      nextProjected s.run.activeInferenceId (projectedViews s.run) event.payload.runPayload := by
    rw [hrun]
    exact visit_projectedViews hvis
  have hview : s.run.view.next event.payload.runPayload = some t.run.view := by
    rw [hrun]
    exact RunProjection.visit_view hvis
  unfold EndsClosed
  cases hp : event.payload <;> rw [hp] at hvs hshown hview
  case run payload =>
    cases payload
    case inferenceFailed inferenceId error | inferenceCancelled inferenceId reason =>
      exact ended_inference h hagr hvs hshown
    case runFailed error | runCancelled reason =>
      obtain ⟨-, hend⟩ := Option.ite_none_right_eq_some.1 hview
      have hstat := congrArg RunProjection.View.status (Option.some.inj hend)
      exact ended_run hagr (congrArg RunProjection.RunStatus.terminal hstat.symm) hshown
    all_goals trivial
  all_goals trivial

/-! ### Runs -/

theorem agrees_from_iff (h : Aligned s) (events : List TranscriptEvent) :
    (∀ before, before <+: events → StreamingAgrees
      ((transcriptProjection validateVerificationEvidence).feed s before)) ↔
    ∀ before event, before ++ [event] <+: events →
      (transcriptProjection validateVerificationEvidence).Accepts
        ((transcriptProjection validateVerificationEvidence).feed s before) event →
      EndsClosed ((transcriptProjection validateVerificationEvidence).feed s before) event := by
  induction events generalizing s with
  | nil =>
    refine iff_of_true ?_ ?_
    · intro before hpre
      obtain rfl := List.prefix_nil.1 hpre
      exact h.agrees
    · intro before event hpre
      cases before <;> cases List.prefix_nil.1 hpre
  | cons first events ih =>
    by_cases haccepts : (transcriptProjection validateVerificationEvidence).Accepts s first
    · have hmv := accepts_moved haccepts
      constructor
      · intro hagr
        have hnext := hagr [first] ⟨events, rfl⟩
        have hends := endsClosed_of_agrees h hmv hnext
        have hrest := (ih (aligned_step h hmv hends)).1 fun before hpre =>
          hagr (first :: before) (List.cons_prefix_cons.2 ⟨rfl, hpre⟩)
        intro before event hpre hacc
        cases before with
        | nil =>
          obtain ⟨rfl, -⟩ := List.cons_prefix_cons.1 hpre
          exact hends
        | cons _ before =>
          obtain ⟨rfl, htail⟩ := List.cons_prefix_cons.1 hpre
          exact hrest before event htail hacc
      · intro hends
        have hfst := hends [] first ⟨events, rfl⟩ haccepts
        have hrest := (ih (aligned_step h hmv hfst)).2 fun before event hpre hacc =>
          hends (first :: before) event (List.cons_prefix_cons.2 ⟨rfl, hpre⟩) hacc
        intro before hpre
        cases before with
        | nil => exact h.agrees
        | cons _ before =>
          obtain ⟨rfl, htail⟩ := List.cons_prefix_cons.1 hpre
          exact hrest before htail
    · -- a rejected event leaves the transcript as it was
      have hsame := transcriptProjection_atomic s first haccepts
      have hih := ih h
      constructor
      · intro hagr
        have hrest := hih.1 fun before hpre => by
          have hstep := hagr (first :: before) (List.cons_prefix_cons.2 ⟨rfl, hpre⟩)
          rwa [feed_cons, hsame] at hstep
        intro before event hpre hacc
        cases before with
        | nil =>
          obtain ⟨rfl, -⟩ := List.cons_prefix_cons.1 hpre
          exact absurd hacc haccepts
        | cons _ before =>
          obtain ⟨rfl, htail⟩ := List.cons_prefix_cons.1 hpre
          rw [feed_cons, hsame] at hacc ⊢
          exact hrest before event htail hacc
      · intro hends
        have hrest := hih.2 fun before event hpre hacc => by
          have hstep := hends (first :: before) event (List.cons_prefix_cons.2 ⟨rfl, hpre⟩)
          rw [feed_cons, hsame] at hstep
          exact hstep hacc
        intro before hpre
        cases before with
        | nil => exact h.agrees
        | cons _ before =>
          obtain ⟨rfl, htail⟩ := List.cons_prefix_cons.1 hpre
          rw [feed_cons, hsame]
          exact hrest before htail

end Agreement

/-- Along any stream of events the transcript and its run agree on what is streaming exactly when
every inference and every run that ends leaves no message open behind. -/
theorem streaming_agrees_iff (validateVerificationEvidence : VerificationEvidence → Bool)
    (events : List TranscriptEvent) :
    let projection := transcriptProjection validateVerificationEvidence
    (∀ before, before <+: events →
      StreamingAgrees (projection.feed projection.initial before)) ↔
    ∀ before event, before ++ [event] <+: events →
      projection.Accepts (projection.feed projection.initial before) event →
      EndsClosed (projection.feed projection.initial before) event :=
  agrees_from_iff aligned_initial events

/-! ### A cancelled run that is still streaming -/

def streamedEvent (eventId : EventId) (sequence : ℕ) (payload : RunEventPayload) :
    TranscriptEvent :=
  ⟨⟨eventId, "run", sequence, 1, 0, none, none, none⟩, .run payload⟩

def cancelledEvents : List TranscriptEvent := [
  streamedEvent "started" 1 (.runStarted {
    surfaceId := "surface"
    workspaceId := "workspace"
    permissionProfileId := "profile"
    personaId := none
    memorySelection := none
    purpose := .conversation
    conversationAdmission := none
    localContextAdmissionRequired := false
    manualObservationRequired := false }),
  streamedEvent "inference" 2 (.inferenceStarted "inference" "model"),
  streamedEvent "content" 3 (.assistantContentStarted "message" "inference"),
  streamedEvent "cancelled" 4 (.runCancelled none)]

instance (projection : Projection TranscriptState TranscriptEvent TranscriptProjectionError)
    (s : TranscriptState) (event : TranscriptEvent) : Decidable (projection.Accepts s event) :=
  inferInstanceAs (Decidable (_ = _))

/-- The run completes the message of its open inference, the transcript goes on streaming it. -/
theorem cancelled_run_streams : ¬ ∀ (validateVerificationEvidence : VerificationEvidence → Bool)
    (events : List TranscriptEvent) (t : TranscriptState),
    (transcriptProjection validateVerificationEvidence).Accepted
      (transcriptProjection validateVerificationEvidence).initial events t →
    StreamingAgrees t := by
  intro hclaim
  have hagrees := hclaim (fun _ => false) cancelledEvents _
    (.cons (by decide +kernel) (.cons (by decide +kernel) (.cons (by decide +kernel)
      (.cons (by decide +kernel) (.nil _)))))
  have hstate := hagrees.ended (by decide +kernel)
    { messageId := "message", role := .assistant, content := [], state := .streaming,
      inferenceId := some "inference" } (by decide +kernel)
  exact hstate rfl

end Transcript
