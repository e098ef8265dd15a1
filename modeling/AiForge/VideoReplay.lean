import AiForge.VideoLifecycle

/-! # Rebuilding a video run

A run is rebuilt from the log of its session: the events of the other runs are passed over, and
a history that ends inside a step that is recorded as a whole is refused. -/
namespace Video

open Content EventProjection List Staged VideoPayload

/-- What the log checks when an event is appended to it. -/
structure WellFormed (events : List VideoEvent) : Prop where
  positive : ∀ event ∈ events, event.metadata.sequence ≠ 0 ∧ event.metadata.schemaVersion ≠ 0
  increasing : (events.map (·.metadata.sequence)).Pairwise (· < ·)
  distinct : (events.map (·.metadata.eventId)).Nodup

structure VideoEventLog where
  sessionId : SessionId
  events : List VideoEvent
  wellFormed : WellFormed events

structure Rebuilding where
  projection : VideoProjection
  eventIds : List EventId := []
  sessionSequence : ℕ := 0

def applyOwn (runId : RunId) (s : VideoProjection) (event : VideoEvent) : Result VideoProjection :=
  if event.metadata.runId = runId then applyInPlace s event else pure s

def rebuildStep (runId : RunId) (r : Rebuilding) (event : VideoEvent) : Result Rebuilding := do
  ensure (event.metadata.sequence ≠ 0 ∧ event.metadata.schemaVersion ≠ 0)
    ⟨.invalidEnvelope, "video session event envelope is invalid"⟩
  ensure (event.metadata.eventId ∉ r.eventIds)
    ⟨.duplicateEvent, "video session contains a duplicate event ID"⟩
  ensure (r.sessionSequence < event.metadata.sequence)
    ⟨.nonMonotonicSequence, "video session event sequence did not increase"⟩
  let projection ← applyOwn runId r.projection event
  return ⟨projection, event.metadata.eventId :: r.eventIds, event.metadata.sequence⟩

/-- The history ends between events that are recorded together. -/
def incompleteAtomicTail (s : VideoProjection) : Bool :=
  (s.cancelRequested && s.state != .cancelled) || s.stagedArtifact.isSome ||
    s.state == .jobFailed || s.state == .published || s.state == .cleanupCompleted ||
    s.state == .transcriptionObserved

def rebuild (log : VideoEventLog) (runId : RunId) : Result VideoProjection := do
  let rebuilt ← log.events.foldlM (rebuildStep runId)
    { projection := { sessionId := some log.sessionId } }
  ensure (rebuilt.projection.runId ≠ none)
    ⟨.missingRun, "video target run is absent from the session"⟩
  ensure (incompleteAtomicTail rebuilt.projection = false)
    (invalidTransition "video history ends inside an atomic lifecycle transition")
  return rebuilt.projection

def VideoEventLog.run (log : VideoEventLog) (runId : RunId) : List VideoEvent :=
  log.events.filter fun event => event.metadata.runId = runId

def VideoProjection.inSession (s : VideoProjection) (sessionId : SessionId) : VideoProjection :=
  { s with sessionId := some sessionId }

variable {s t : VideoProjection} {runId : RunId} {sessionId : SessionId}

theorem visit_inSession (s : VideoProjection) (event : VideoEvent) :
    visit (s.inSession sessionId) event = (visit s event).map (·.inSession sessionId) := by
  refine bind_map fun _ => ?_
  cases event.payload with
  | quoteObserved | jobQueued | transcriptionObserved =>
    exact bind_map fun _ => bind_map fun _ => rfl
  | jobStatusObserved =>
    exact bind_map fun _ => bind_map fun _ => bind_map fun _ => bind_map fun _ =>
      bind_map fun _ => bind_map fun _ => rfl
  | artifactPublished | cleanupPending | cleanupCompleted | cleanupFailed =>
    exact bind_map fun _ => bind_map fun _ => bind_map fun _ => rfl
  | other | unknown => rfl
  | _ => exact bind_map fun _ => rfl

/-- No event reads or changes the session of a projection. -/
theorem applyInPlace_inSession (s : VideoProjection) (event : VideoEvent) :
    applyInPlace (s.inSession sessionId) event =
      (applyInPlace s event).map (·.inSession sessionId) := by
  refine bind_map fun _ => ?_
  split
  · refine bind_map fun _ => ?_
    rw [visit_inSession, Staged.map_bind]
    exact bind_map fun _ => rfl
  · rfl

variable {events : List VideoEvent}

theorem accepted_foldlM (h : videoProjection.Accepted s events t) :
    events.foldlM applyInPlace s = .ok t := by
  induction h with
  | nil => rfl
  | cons hx _ ih => exact foldlM_cons_ok.2 ⟨_, accepts_iff.1 hx, ih⟩

/-- A well-formed log passes the checks of the session, and only the events of the run move
the projection. -/
theorem rebuildStep_foldlM {r : Rebuilding} (hpos : ∀ event ∈ events,
      event.metadata.sequence ≠ 0 ∧ event.metadata.schemaVersion ≠ 0)
    (hinc : (r.sessionSequence :: events.map (·.metadata.sequence)).Pairwise (· < ·))
    (hdist : (events.map (·.metadata.eventId)).Nodup)
    (hfresh : ∀ event ∈ events, event.metadata.eventId ∉ r.eventIds)
    (h : (events.filter fun event => event.metadata.runId = runId).foldlM applyInPlace
      r.projection = .ok t) :
    ∃ rebuilt, events.foldlM (rebuildStep runId) r = .ok rebuilt ∧ rebuilt.projection = t := by
  induction events generalizing r with
  | nil =>
    cases h
    exact ⟨r, rfl, rfl⟩
  | cons event events ih =>
    obtain ⟨hlat, hinc⟩ := pairwise_cons.1 hinc
    obtain ⟨hnew, hdist⟩ := nodup_cons.1 hdist
    have hstep : ∀ projection, applyOwn runId r.projection event = .ok projection →
        rebuildStep runId r event =
          .ok ⟨projection, event.metadata.eventId :: r.eventIds, event.metadata.sequence⟩ := by
      intro projection hproj
      refine ensured (hpos event mem_cons_self) ?_
      refine ensured (hfresh event mem_cons_self) ?_
      refine ensured (hlat _ mem_cons_self) ?_
      exact bind_ok.2 ⟨projection, hproj, rfl⟩
    have hrest : ∀ projection, (events.filter fun event => event.metadata.runId = runId).foldlM
          applyInPlace projection = .ok t →
        ∃ rebuilt, events.foldlM (rebuildStep runId)
          ⟨projection, event.metadata.eventId :: r.eventIds, event.metadata.sequence⟩ =
            .ok rebuilt ∧ rebuilt.projection = t := by
      intro projection hproj
      refine ih (fun e he => hpos e (mem_cons_of_mem _ he)) hinc hdist ?_
        hproj
      intro e he hmem
      rcases mem_cons.1 hmem with hsame | hold
      · exact hnew (mem_map.2 ⟨e, he, hsame⟩)
      · exact hfresh e (mem_cons_of_mem _ he) hold
    by_cases hrun : event.metadata.runId = runId
    · rw [filter_cons_of_pos (by simpa using hrun)] at h
      obtain ⟨projection, happ, h⟩ := foldlM_cons_ok.1 h
      obtain ⟨rebuilt, hrebuilt, hproj⟩ := hrest projection h
      have hfst := hstep projection ((if_pos hrun).trans happ)
      exact ⟨rebuilt, foldlM_cons_ok.2 ⟨_, hfst, hrebuilt⟩, hproj⟩
    · rw [filter_cons_of_neg (by simpa using hrun)] at h
      obtain ⟨rebuilt, hrebuilt, hproj⟩ := hrest r.projection h
      have hfst := hstep r.projection (if_neg hrun)
      exact ⟨rebuilt, foldlM_cons_ok.2 ⟨_, hfst, hrebuilt⟩, hproj⟩

/-- The events of a run that were accepted one by one are replayed from the log, up to the test
at the end of the history. -/
theorem rebuild_accepted {log : VideoEventLog}
    (h : videoProjection.Accepted videoProjection.initial (log.run runId) s)
    (hbeg : s.runId ≠ none) :
    rebuild log runId = .ok (s.inSession log.sessionId) ↔ incompleteAtomicTail s = false := by
  have hfold : (log.run runId).foldlM applyInPlace
      (videoProjection.initial.inSession log.sessionId) = .ok (s.inSession log.sessionId) := by
    rw [foldlM_map applyInPlace_inSession, accepted_foldlM h]
    rfl
  have hinc : (0 :: log.events.map (·.metadata.sequence)).Pairwise (· < ·) := by
    refine pairwise_cons.2 ⟨?_, log.wellFormed.increasing⟩
    intro sequence hmem
    obtain ⟨event, hev, rfl⟩ := mem_map.1 hmem
    exact Nat.pos_of_ne_zero (log.wellFormed.positive event hev).1
  obtain ⟨_, hrebuilt, hproj⟩ := rebuildStep_foldlM
    (r := { projection := videoProjection.initial.inSession log.sessionId })
    log.wellFormed.positive hinc log.wellFormed.distinct (fun _ _ => not_mem_nil) hfold
  have hopened : rebuild log runId =
      (do ensure (incompleteAtomicTail s = false)
            (invalidTransition "video history ends inside an atomic lifecycle transition")
          return s.inSession log.sessionId) := by
    change (log.events.foldlM (rebuildStep runId)
      { projection := videoProjection.initial.inSession log.sessionId } >>= _) = _
    rw [hrebuilt, Staged.ok_bind, hproj]
    have hrun : (s.inSession log.sessionId).runId ≠ none := hbeg
    simp only [ensure, if_pos hrun]
    rfl
  rw [hopened]
  constructor
  · intro h
    obtain ⟨_, htail, _⟩ := bind_ok.1 h
    exact ensure_ok.1 htail
  · intro htail
    exact ensured htail rfl

def VideoPayload.creates : VideoPayload → Bool
  | .artifactCreated _ => true
  | _ => false

def VideoPayload.publishes : VideoPayload → Bool
  | .artifactPublished _ => true
  | _ => false

/-- A history that created an artifact published it. -/
def publishedIfCreated (past : List VideoPayload) : Bool :=
  !past.any VideoPayload.creates || past.any VideoPayload.publishes

variable {past : List VideoPayload}

theorem filterMap_created_eq_nil :
    past.filterMap created = [] ↔ past.any creates = false := by
  rw [filterMap_eq_nil_iff, any_eq_false]
  refine forall₂_congr fun payload _ => ?_
  cases payload <;> simp [created, creates]

theorem filterMap_publication_eq_nil :
    past.filterMap publication = [] ↔ past.any publishes = false := by
  rw [filterMap_eq_nil_iff, any_eq_false]
  refine forall₂_congr fun payload _ => ?_
  cases payload <;> simp [publication, publishes]

/-- An artifact stays staged exactly when it was created and not published. -/
theorem staged_iff (h : Lived past s) :
    s.stagedArtifact = none ↔ publishedIfCreated past := by
  have hmade := h.artifacts.created
  have hpub := h.artifacts.published
  unfold publishedIfCreated
  rw [Bool.or_eq_true, Bool.not_eq_true', ← filterMap_created_eq_nil]
  constructor
  · intro hstg
    by_cases hart : s.artifact = none
    · refine .inl ?_
      rw [hmade, hstg, hart]
      rfl
    · refine .inr ?_
      by_contra hnone
      have hnil := filterMap_publication_eq_nil.2 (Bool.eq_false_iff.2 hnone)
      rw [hnil] at hpub
      exact hart (Option.toList_eq_nil_iff.1 hpub.symm)
  · rintro (hnil | hpublishes)
    · rw [hmade] at hnil
      exact Option.toList_eq_nil_iff.1 (append_eq_nil_iff.1 hnil).1
    · by_contra hstg
      have hnone := h.artifacts.staged hstg
      rw [hnone] at hpub
      have hnil := map_eq_nil_iff.1 hpub
      simp [filterMap_publication_eq_nil.1 hnil] at hpublishes

structure Orderly (s : VideoProjection) : Prop where
  cancelled : s.cancelRequested → s.state ≠ .completed ∧ s.state ≠ .failed
  started : s.runId = none → s.state = .notStarted

theorem orderly_step {event : VideoEvent} (h : Orderly s) (hs : Step s event t) : Orderly t := by
  cases hs with
  | skipped => exact ⟨h.cancelled, h.started⟩
  | moved hknw hfree hmove hstarted =>
    generalize event.payload = payload at hknw hfree hmove hstarted
    have hordinary : payload.isCancelled = false → s.cancelRequested = false := by
      intro hnot
      rcases hfree.cancelling with hcancel | hcancel
      · exact hcancel
      · simp [hnot] at hcancel
    have hrun : payload.isStart = false → s.runId ≠ none := by
      intro hnot
      rcases hstarted with hbeg | hbeg
      · simp [hnot] at hbeg
      · exact hbeg
    cases hmove with
    | start => exact ⟨h.cancelled, fun hnone => by cases hnone⟩
    | requestCancel _ _ _ hst =>
      have hdone : s.state ≠ .completed := by
        intro hst
        exact absurd hfree.running (by simp [hst, VideoLifecycleState.terminal])
      have hfail : s.state ≠ .failed := by
        intro hst
        exact absurd hfree.running (by simp [hst, VideoLifecycleState.terminal])
      exact ⟨fun _ => ⟨hdone, hfail⟩, h.started⟩
    | cancel =>
      exact ⟨fun _ => ⟨by simp, by simp⟩, fun hnone => absurd hnone (hrun rfl)⟩
    | create => exact ⟨h.cancelled, h.started⟩
    | _ =>
      have hcancel := hordinary rfl
      have hnone := hrun rfl
      exact ⟨fun hreq => absurd hreq (by simp [hcancel]), fun h => absurd h hnone⟩

theorem accepted_orderly
    (h : videoProjection.Accepted videoProjection.initial events s) : Orderly s :=
  accepted_invariant (fun _ _ hacc hs => orderly_step hs (accepts_step hacc).2) h
    ⟨nofun, fun _ => rfl⟩

/-- A run that ended is caught inside a step only by an artifact that stayed staged. -/
theorem tail_of_terminal (h : Orderly s) (hterm : s.state.terminal) :
    incompleteAtomicTail s = s.stagedArtifact.isSome := by
  unfold incompleteAtomicTail
  cases hst : s.state with
  | completed =>
    have hcancel : s.cancelRequested = false := by
      by_contra hreq
      exact (h.cancelled (by simpa using hreq)).1 hst
    rw [hcancel]
    cases s.stagedArtifact <;> rfl
  | failed =>
    have hcancel : s.cancelRequested = false := by
      by_contra hreq
      exact (h.cancelled (by simpa using hreq)).2 hst
    rw [hcancel]
    cases s.stagedArtifact <;> rfl
  | cancelled => cases s.cancelRequested <;> cases s.stagedArtifact <;> rfl
  | _ => simp [hst, VideoLifecycleState.terminal] at hterm

/-- Rebuilding a finished run: where the events of a run were accepted one by one and left it
terminal, the log of the session rebuilds it to the same state, whatever the other runs
recorded, exactly when the run published the artifact it created, if it created one. -/
theorem finished_run_rebuilt (log : VideoEventLog) (runId : RunId) (s : VideoProjection)
    (h : videoProjection.Accepted videoProjection.initial (log.run runId) s)
    (hterminal : s.state.terminal) : rebuild log runId = .ok (s.inSession log.sessionId) ↔
      publishedIfCreated ((log.run runId).map (·.payload)) := by
  have horderly := accepted_orderly h
  have hstarted : s.runId ≠ none := by
    intro hnone
    simp [horderly.started hnone, VideoLifecycleState.terminal] at hterminal
  rw [rebuild_accepted h hstarted, tail_of_terminal horderly hterminal,
    ← staged_iff (accepted_lived h)]
  simp

/-! ### Runs that end with a staged artifact -/

theorem wellFormed_of_checks (hpos : (events.all fun event =>
      event.metadata.sequence != 0 && event.metadata.schemaVersion != 0) = true)
    (hinc : (events.map (·.metadata.sequence)).Pairwise (· < ·))
    (hdist : (events.map (·.metadata.eventId)).Nodup) : WellFormed events where
  positive := by simpa using hpos
  increasing := hinc
  distinct := hdist

def sampleLog : VideoEventLog where
  sessionId := "session"
  events := sampleRun
  wellFormed := wellFormed_of_checks (by decide +kernel) (by decide +kernel) (by decide +kernel)

theorem sample_run_rebuilt : rebuild sampleLog "run" =
      .ok ((videoProjection.feed videoProjection.initial sampleRun).inSession "session") := by
  have hrun : sampleLog.run "run" = sampleRun := by decide +kernel
  have haccepted : videoProjection.Accepted videoProjection.initial (sampleLog.run "run")
      (videoProjection.feed videoProjection.initial sampleRun) := by
    rw [hrun]
    exact accepted_of_isOk (by decide +kernel)
  have hterminal :
      (videoProjection.feed videoProjection.initial sampleRun).state.terminal := by
    decide +kernel
  exact (finished_run_rebuilt sampleLog "run" _ haccepted hterminal).2
    (by rw [hrun]; decide +kernel)

def stagedLog : VideoEventLog where
  sessionId := "session"
  events := sampleEvents "run" (sampleJob ++ [.runFailed ⟨.unavailable, "failed", false⟩])
  wellFormed := wellFormed_of_checks (by decide +kernel) (by decide +kernel) (by decide +kernel)

theorem staged_failure_not_rebuilt :
    ¬ ∀ (log : VideoEventLog) (runId : RunId) (s : VideoProjection),
      videoProjection.Accepted videoProjection.initial (log.run runId) s →
        s.state.terminal → ∃ rebuilt, rebuild log runId = .ok rebuilt := by
  intro hclaim
  have haccepted : videoProjection.Accepted videoProjection.initial (stagedLog.run "run")
      (videoProjection.feed videoProjection.initial (stagedLog.run "run")) :=
    accepted_of_isOk (by decide +kernel)
  obtain ⟨rebuilt, hrebuilt⟩ := hclaim stagedLog "run" _ haccepted (by decide +kernel)
  have hfails : (rebuild stagedLog "run").isOk = false := by decide +kernel
  rw [hrebuilt] at hfails
  cases hfails

end Video
