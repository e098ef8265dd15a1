import AiForge.VideoProjection

/-! # The life of a video run

What the accepted events of a run say about its state, as invariants over the payloads accepted
so far: the request they name, the numbers of its polls, the artifact it published and the
attempts to clean up after it. -/
namespace Video

open EventProjection Events List VideoProjection VideoPayload

section Records

variable {α : Type} {f : VideoPayload → Option α} {past : List VideoPayload}
  {payload : VideoPayload}

theorem filterMap_skip (h : f payload = none) :
    (past ++ [payload]).filterMap f = past.filterMap f := by
  simp [filterMap_append, h]

theorem filterMap_note {value : α} (h : f payload = some value) :
    (past ++ [payload]).filterMap f = past.filterMap f ++ [value] := by
  simp [filterMap_append, h]

end Records

namespace VideoPayload

def generation : VideoPayload → Option VideoGenerationRequested
  | .generationRequested requested => some requested
  | _ => none

def job : VideoPayload → Option VideoJobQueued
  | .jobQueued queued => some queued
  | _ => none

def poll : VideoPayload → Option VideoJobStatusObserved
  | .jobStatusObserved status => some status
  | _ => none

def created : VideoPayload → Option ArtifactMetadata
  | .artifactCreated artifact => some artifact
  | _ => none

def publication : VideoPayload → Option VideoArtifactPublished
  | .artifactPublished published => some published
  | _ => none

def attempt : VideoPayload → Option ℕ
  | .cleanupPending pending => some pending.attempt
  | _ => none

def failedAttempt : VideoPayload → Option ℕ
  | .cleanupFailed failed _ => some failed.attempt
  | _ => none

def completedAttempt : VideoPayload → Option ℕ
  | .cleanupCompleted completed => some completed.attempt
  | _ => none

/-- The operation and the job that an event of a job carries. -/
def jobNames : VideoPayload → Option (VideoOperationId × VideoJobId)
  | .jobQueued queued => some (queued.operationId, queued.jobId)
  | .jobStatusObserved status => some (status.operationId, status.jobId)
  | .artifactPublished published => some (published.operationId, published.jobId)
  | .cleanupPending pending => some (pending.operationId, pending.jobId)
  | .cleanupCompleted completed => some (completed.operationId, completed.jobId)
  | .cleanupFailed failed _ => some (failed.operationId, failed.jobId)
  | _ => none

end VideoPayload

/-- The states that only a generation reaches. -/
def VideoLifecycleState.generating : VideoLifecycleState → Bool
  | .quoted | .queued | .processing | .mediaReady | .jobFailed | .published | .cleanupPending |
    .cleanupFailed | .cleanupCompleted => true
  | _ => false

def VideoProjection.hasPublished (s : VideoProjection) : Bool :=
  match s.state with
  | .published | .cleanupPending | .cleanupFailed | .cleanupCompleted => true
  | .completed => s.workflow == .generation
  | _ => false

def VideoProjection.hasCleaned (s : VideoProjection) : Bool :=
  match s.state with
  | .cleanupCompleted => true
  | .completed => s.workflow == .generation
  | _ => false

structure Requests (past : List VideoPayload) (s : VideoProjection) : Prop where
  generations : past.filterMap VideoPayload.generation = s.generationRequest.toList
  generation : s.generationRequest ≠ none → s.workflow = .generation
  transcription : s.transcriptionRequest ≠ none → s.workflow = .transcription
  idle : s.workflow = .none ↔ s.state = .notStarted
  generating : s.state.generating → s.workflow = .generation
  transcribed : s.state = .transcriptionObserved → s.workflow = .transcription
  cancelling : s.cancelRequested → s.workflow ≠ .none

/-- An event names the requested operation and its job. -/
def Names (s : VideoProjection) (names : VideoOperationId × VideoJobId) : Prop :=
  Operates s names.1 ∧ s.jobId = some names.2

structure Jobs (past : List VideoPayload) (s : VideoProjection) : Prop where
  jobs : (past.filterMap VideoPayload.job).map (·.jobId) = s.jobId.toList
  names : ∀ names ∈ past.filterMap VideoPayload.jobNames, Names s names

structure Polls (past : List VideoPayload) (s : VideoProjection) : Prop where
  numbers : (past.filterMap VideoPayload.poll).map (·.pollNumber) = List.range' 1 s.lastPollNumber
  forward : (past.filterMap VideoPayload.poll).IsChain
    fun before after => ¬ (before.state = .processing ∧ after.state = .queued)
  last : s.state = .queued →
    ∀ status ∈ (past.filterMap VideoPayload.poll).getLast?, status.state = .queued

structure Artifacts (past : List VideoPayload) (s : VideoProjection) : Prop where
  created : past.filterMap VideoPayload.created = s.stagedArtifact.toList ++ s.artifact.toList
  requested : ∀ artifact ∈ past.filterMap VideoPayload.created, ∃ request,
    s.generationRequest = some request ∧ artifact.artifactId = request.artifactId
  published : (past.filterMap VideoPayload.publication).map (·.artifact) = s.artifact.toList
  phase : s.artifact ≠ none ↔ s.hasPublished
  staged : s.stagedArtifact ≠ none → s.artifact = none
  uncancelled : s.cancelRequested → s.artifact = none

structure Cleanups (past : List VideoPayload) (s : VideoProjection) : Prop where
  attempts : past.filterMap VideoPayload.attempt = List.range' 1 s.cleanupAttempt
  failures : past.filterMap VideoPayload.failedAttempt =
    List.range' 1 (if s.state = .cleanupFailed then s.cleanupAttempt else s.cleanupAttempt - 1)
  completions : past.filterMap VideoPayload.completedAttempt =
    if s.hasCleaned then [s.cleanupAttempt] else []
  tried : s.state = .cleanupPending ∨ s.state = .cleanupFailed ∨ s.hasCleaned →
    0 < s.cleanupAttempt
  untried : s.hasPublished = false ∨ s.state = .published → s.cleanupAttempt = 0

/-- Everything that the payloads accepted so far and the state say about each other. -/
structure Lived (past : List VideoPayload) (s : VideoProjection) : Prop where
  requests : Requests past s
  jobs : Jobs past s
  polls : Polls past s
  artifacts : Artifacts past s
  cleanups : Cleanups past s

theorem lived_initial : Lived [] videoProjection.initial where
  requests := by constructor <;> simp [videoProjection, VideoLifecycleState.generating]
  jobs := by constructor <;> simp [videoProjection]
  polls := by constructor <;> simp [videoProjection]
  artifacts := by constructor <;> simp [videoProjection, hasPublished]
  cleanups := by constructor <;> simp [videoProjection, hasCleaned]

section Moves

variable {past : List VideoPayload} {payload : VideoPayload} {metadata : EventMetadata}
  {s t : VideoProjection}

theorem Operates.generation (h : Requests past s) {operationId : VideoOperationId}
    (ho : Operates s operationId) : s.workflow = .generation := by
  obtain ⟨_, hreq, _⟩ := ho
  exact h.generation (by simp [hreq])

theorem Requests.keep (h : Requests past s) (hpay : payload.generation = none)
    (hgen : t.generationRequest = s.generationRequest)
    (htr : t.transcriptionRequest = s.transcriptionRequest)
    (hflow : t.workflow = s.workflow) (hidle : t.state = .notStarted ↔ s.state = .notStarted)
    (hgenerating : t.state.generating → s.workflow = .generation)
    (htranscribed : t.state = .transcriptionObserved → s.workflow = .transcription)
    (hcancelling : t.cancelRequested → s.workflow ≠ .none) :
    Requests (past ++ [payload]) t where
  generations := by rw [filterMap_skip hpay, hgen, h.generations]
  generation := by
    rw [hgen, hflow]
    exact h.generation
  transcription := by
    rw [htr, hflow]
    exact h.transcription
  idle := by
    rw [hflow, hidle]
    exact h.idle
  generating := by
    rw [hflow]
    exact hgenerating
  transcribed := by
    rw [hflow]
    exact htranscribed
  cancelling := by
    rw [hflow]
    exact hcancelling

theorem requests_moves (h : Requests past s) (hm : Transition s metadata payload t) :
    Requests (past ++ [payload]) t := by
  have hidle := h.idle
  cases hm with
  | start | create =>
    exact h.keep rfl rfl rfl rfl Iff.rfl h.generating h.transcribed h.cancelling
  | requestGeneration _ hflow =>
    have hnone : s.generationRequest = none := by
      by_contra hsome
      simp [h.generation hsome] at hflow
    have hoth : s.transcriptionRequest = none := by
      by_contra hsome
      simp [h.transcription hsome] at hflow
    constructor
    case generations =>
      rw [filterMap_note (f := generation) rfl, h.generations, hnone]
      rfl
    all_goals simp [hoth, VideoLifecycleState.generating]
  | requestTranscription _ hflow =>
    have hnone : s.generationRequest = none := by
      by_contra hsome
      simp [h.generation hsome] at hflow
    constructor
    case generations => rw [filterMap_skip (f := generation) rfl, h.generations]
    all_goals simp [hnone, VideoLifecycleState.generating]
  | quote _ hop hst | queue _ hop hst | publish _ hop _ hst
  | cleaned _ hop _ hst | cleanupFailed _ _ hop _ hst =>
    refine h.keep rfl rfl rfl rfl ?_ (fun _ => hop.generation h) nofun h.cancelling
    simp [hst]
  | status status hop _ _ _ hst =>
    have hgen := hop.generation h
    have hnot : lifecycleOf status.state s.state ≠ .notStarted ∧
        lifecycleOf status.state s.state ≠ .transcriptionObserved := by
      rcases hst with hst | hst <;> cases status.state <;> simp [lifecycleOf, hst]
    refine h.keep rfl rfl rfl rfl ?_ (fun _ => hgen) (fun hend => absurd hend hnot.2)
      h.cancelling
    refine iff_of_false hnot.1 ?_
    rcases hst with hst | hst <;> simp [hst]
  | pending _ hop _ hst =>
    refine h.keep rfl rfl rfl rfl ?_ (fun _ => hop.generation h) nofun h.cancelling
    rcases hst with hst | hst <;> simp [hst]
  | transcribe _ hreq _ hst =>
    refine h.keep rfl rfl rfl rfl ?_ nofun ?_ h.cancelling
    · simp [hst]
    · exact fun _ => h.transcription (by simp [hreq])
  | requestCancel _ hflow =>
    exact h.keep rfl rfl rfl rfl Iff.rfl h.generating h.transcribed fun _ => hflow
  | cancel _ hrequested =>
    refine h.keep rfl rfl rfl rfl ?_ nofun nofun h.cancelling
    simp [← hidle, h.cancelling hrequested]
  | fail _ hflow =>
    refine h.keep rfl rfl rfl rfl ?_ nofun nofun h.cancelling
    simp [← hidle, hflow]
  | complete hst =>
    refine h.keep rfl rfl rfl rfl ?_ nofun nofun h.cancelling
    rcases hst with hst | hst <;> simp [hst]

/-- What names the operation and the job of a run keeps naming them. -/
theorem names_moves {names : VideoOperationId × VideoJobId} (h : Requests past s)
    (hn : Names s names) (hm : Transition s metadata payload t) : Names t names := by
  obtain ⟨hop, hjob⟩ := hn
  have hgen := hop.generation h
  cases hm with
  | requestGeneration _ hflow => simp [hgen] at hflow
  | queue _ _ _ hnone => simp [hnone] at hjob
  | _ => exact ⟨hop, hjob⟩

theorem Jobs.keep (h : Jobs past s) (hkeep : ∀ names, Names s names → Names t names)
    (hpay : payload.job = none) (hid : t.jobId = s.jobId)
    (hnms : ∀ names ∈ payload.jobNames, Names t names) : Jobs (past ++ [payload]) t where
  jobs := by rw [filterMap_skip hpay, hid, h.jobs]
  names := by
    intro names hmem
    rw [filterMap_append, mem_append] at hmem
    rcases hmem with hpast | hnew
    · exact hkeep names (h.names names hpast)
    · exact hnms names (by simpa using hnew)

theorem jobs_moves (hr : Requests past s) (h : Jobs past s)
    (hm : Transition s metadata payload t) : Jobs (past ++ [payload]) t := by
  have hkeep : ∀ names, Names s names → Names t names := fun _ hn => names_moves hr hn hm
  cases hm with
  | queue queued hop _ hjob =>
    constructor
    case jobs =>
      rw [filterMap_note (f := job) rfl, map_append, h.jobs, hjob]
      rfl
    case names =>
      intro names hmem
      rw [filterMap_append, mem_append] at hmem
      rcases hmem with hpast | hnew
      · exact hkeep names (h.names names hpast)
      · obtain rfl : names = (queued.operationId, queued.jobId) := by
          simpa [jobNames] using hnew
        exact ⟨hop, rfl⟩
  | status _ hop hjob | publish _ hop hjob | pending _ hop hjob
  | cleaned _ hop hjob | cleanupFailed _ _ hop hjob =>
    refine h.keep hkeep rfl rfl ?_
    rintro _ ⟨⟩
    exact ⟨hop, hjob⟩
  | _ => exact h.keep hkeep rfl rfl nofun

theorem Polls.keep (h : Polls past s) (hpay : payload.poll = none)
    (hnum : t.lastPollNumber = s.lastPollNumber)
    (hst : t.state = .queued → s.state = .queued) : Polls (past ++ [payload]) t where
  numbers := by rw [filterMap_skip hpay, hnum, h.numbers]
  forward := by
    rw [filterMap_skip hpay]
    exact h.forward
  last := by
    rw [filterMap_skip hpay]
    exact fun hqueue => h.last (hst hqueue)

theorem unpolled (h : Jobs past s) (hjob : s.jobId = none) :
    past.filterMap poll = [] := by
  rw [filterMap_eq_nil_iff]
  intro payload hmem
  cases payload with
  | jobStatusObserved status =>
    have hnms := h.names (status.operationId, status.jobId)
      (mem_filterMap.2 ⟨_, hmem, rfl⟩)
    exact absurd hnms.2 (by simp [hjob])
  | _ => rfl

theorem polls_moves (hj : Jobs past s) (h : Polls past s)
    (hm : Transition s metadata payload t) : Polls (past ++ [payload]) t := by
  cases hm with
  | queue _ _ _ hjob =>
    have hnone := unpolled hj hjob
    constructor
    case numbers => rw [filterMap_skip (f := poll) rfl, h.numbers]
    case forward =>
      rw [filterMap_skip (f := poll) rfl]
      exact h.forward
    case last =>
      rw [filterMap_skip (f := poll) rfl, hnone]
      nofun
  | status status _ _ hval hpoll hst hfwd =>
    constructor
    case numbers =>
      rw [filterMap_note (f := poll) rfl, map_append, h.numbers]
      simp only [map_cons, map_nil, hpoll]
      rw [List.range'_concat]
      simp [Nat.add_comm]
    case forward =>
      rw [filterMap_note (f := poll) rfl, isChain_append]
      refine ⟨h.forward, isChain_singleton _, ?_⟩
      rintro before hpre _ ⟨⟩ ⟨hprocessing, hqueue⟩
      -- A poll that reports a queued job is accepted only while the run waits as queued.
      have hwaiting : s.state = .queued := by
        rcases hst with hst | hst
        · exact hst
        · exact absurd ⟨hst, hqueue⟩ hfwd
      have hlast := h.last hwaiting before hpre
      rw [hprocessing] at hlast
      cases hlast
    case last =>
      intro hqueue
      rw [filterMap_note (f := poll) rfl]
      rintro last hlast
      obtain rfl : status = last := by simpa using hlast
      cases hs : status.state with
      | queued => rfl
      | processing => simp [hs, lifecycleOf] at hqueue
      | completed => simp [hs, lifecycleOf] at hqueue
      | failed => simp [hs, lifecycleOf] at hqueue
      | outOfRange => simp [hs, validateVideoJobState] at hval
  | start | create | requestCancel => exact h.keep rfl rfl id
  | _ => exact h.keep rfl rfl nofun

theorem Artifacts.keep (h : Artifacts past s) (hmade : payload.created = none)
    (hpub : payload.publication = none) (hstg : t.stagedArtifact = s.stagedArtifact)
    (hart : t.artifact = s.artifact) (hreq : ∀ request, s.generationRequest = some request →
      t.generationRequest = some request)
    (hph : t.hasPublished = s.hasPublished)
    (hcancel : t.cancelRequested → s.artifact = none) : Artifacts (past ++ [payload]) t where
  created := by rw [filterMap_skip hmade, hstg, hart, h.created]
  requested := by
    rw [filterMap_skip hmade]
    intro artifact hmem
    obtain ⟨request, hsome, hid⟩ := h.requested artifact hmem
    exact ⟨request, hreq request hsome, hid⟩
  published := by rw [filterMap_skip hpub, hart, h.published]
  phase := by
    rw [hart, hph]
    exact h.phase
  staged := by
    rw [hstg, hart]
    exact h.staged
  uncancelled := by
    rw [hart]
    exact hcancel

theorem not_published_of_ne (h : s.state.succeeding = false)
    (hrun : s.state.terminal = false) : s.hasPublished = false := by
  unfold hasPublished
  split <;> simp_all [VideoLifecycleState.succeeding, VideoLifecycleState.terminal]

theorem artifacts_moves (hr : Requests past s) (h : Artifacts past s)
    (hfree : Free s payload) (hm : Transition s metadata payload t) :
    Artifacts (past ++ [payload]) t := by
  have hpre : s.state.succeeding = false → s.artifact = none := by
    intro hst
    by_contra hsome
    have hph := h.phase.1 hsome
    rw [not_published_of_ne hst hfree.running] at hph
    cases hph
  cases hm with
  | start =>
    exact h.keep rfl rfl rfl rfl (fun _ => id) rfl h.uncancelled
  | requestGeneration _ hflow hst =>
    refine h.keep rfl rfl rfl rfl ?_ ?_ h.uncancelled
    · intro request hsome
      simp [hr.generation (by simp [hsome])] at hflow
    · simp [hasPublished, hst]
  | requestTranscription _ _ hst | quote _ _ hst | queue _ _ hst | cleaned _ _ _ hst
  | cleanupFailed _ _ _ _ hst | transcribe _ _ _ hst =>
    refine h.keep rfl rfl rfl rfl (fun _ => id) ?_ h.uncancelled
    simp [hasPublished, hst]
  | status status _ _ _ _ hst =>
    refine h.keep rfl rfl rfl rfl (fun _ => id) ?_ h.uncancelled
    rcases hst with hst | hst <;> cases status.state <;>
      simp [hasPublished, lifecycleOf, hst]
  | create artifact hst hstg hreq hid =>
    have hnone : s.artifact = none := hpre (by simp [hst, VideoLifecycleState.succeeding])
    constructor
    case created =>
      rw [filterMap_note (f := created) rfl, h.created, hstg, hnone]
      rfl
    case requested =>
      rw [filterMap_note (f := created) rfl]
      intro other hmem
      rcases mem_append.1 hmem with hpast | hnew
      · exact h.requested other hpast
      · obtain rfl := mem_singleton.1 hnew
        exact ⟨_, hreq, hid⟩
    case published => rw [filterMap_skip (f := publication) rfl, h.published]
    case phase => exact h.phase
    case staged => exact fun _ => hnone
    case uncancelled => exact h.uncancelled
  | publish published _ _ hst hstg =>
    have hnone : s.artifact = none := hpre (by simp [hst, VideoLifecycleState.succeeding])
    constructor
    case created =>
      rw [filterMap_skip (f := created) rfl, h.created, hstg, hnone]
      rfl
    case requested =>
      rw [filterMap_skip (f := created) rfl]
      exact h.requested
    case published =>
      rw [filterMap_note (f := publication) rfl, map_append, h.published, hnone]
      rfl
    case phase => simp [hasPublished]
    case staged => nofun
    case uncancelled =>
      intro hcancel
      rcases hfree.cancelling with hnot | hcanc
      · simp [hnot] at hcancel
      · cases hcanc
  | pending _ _ _ hst =>
    refine h.keep rfl rfl rfl rfl (fun _ => id) ?_ h.uncancelled
    rcases hst with hst | hst <;> simp [hasPublished, hst]
  | requestCancel _ _ _ hst =>
    exact h.keep rfl rfl rfl rfl (fun _ => id) rfl fun _ => hpre hst
  | cancel _ hrequested =>
    refine h.keep rfl rfl rfl rfl (fun _ => id) ?_ h.uncancelled
    have hnone := h.uncancelled hrequested
    have hph : s.hasPublished = false := by
      cases hp : s.hasPublished with
      | false => rfl
      | true => exact absurd hnone (h.phase.2 hp)
    rw [hph]
    rfl
  | fail _ _ hst =>
    refine h.keep rfl rfl rfl rfl (fun _ => id) ?_ h.uncancelled
    rw [not_published_of_ne hst hfree.running]
    rfl
  | complete hst =>
    refine h.keep rfl rfl rfl rfl (fun _ => id) ?_ h.uncancelled
    rcases hst with hst | hst
    · have hgen := hr.generating (by simp [hst, VideoLifecycleState.generating])
      simp [hasPublished, hst, hgen]
    · have htr := hr.transcribed hst
      simp [hasPublished, hst, htr]

section

variable (h : Cleanups past s) (hattempt : payload.attempt = none)
  (hfailed : payload.failedAttempt = none) (hcompleted : payload.completedAttempt = none)
  (hsame : t.cleanupAttempt = s.cleanupAttempt)

include h hattempt hfailed hcompleted hsame

theorem Cleanups.keep (hfail : t.state = .cleanupFailed ↔ s.state = .cleanupFailed)
    (hcln : t.hasCleaned = s.hasCleaned)
    (htried : t.state = .cleanupPending → s.state = .cleanupPending)
    (huntried : t.hasPublished = false ∨ t.state = .published →
      s.hasPublished = false ∨ s.state = .published) : Cleanups (past ++ [payload]) t where
  attempts := by rw [filterMap_skip hattempt, hsame, h.attempts]
  failures := by
    rw [filterMap_skip hfailed, hsame, h.failures]
    simp only [hfail]
  completions := by rw [filterMap_skip hcompleted, hsame, hcln, h.completions]
  tried := by
    rw [hsame, hcln, hfail]
    rintro (hpend | hrest)
    · exact h.tried (.inl (htried hpend))
    · exact h.tried (.inr hrest)
  untried := by
    rw [hsame]
    exact fun hcase => h.untried (huntried hcase)

/-- Before the artifact is published there is nothing to clean up. -/
theorem Cleanups.early (hs : s.hasPublished = false)
    (hpend : t.state ≠ .cleanupPending) (hfail : t.state ≠ .cleanupFailed)
    (hcln : t.hasCleaned = false) : Cleanups (past ++ [payload]) t := by
  refine h.keep hattempt hfailed hcompleted hsame (iff_of_false hfail ?_) ?_
    (fun hst => absurd hst hpend) fun _ => .inl hs
  · intro hst
    simp [hasPublished, hst] at hs
  · rw [hcln]
    cases hst : s.state <;> simp_all [hasCleaned, hasPublished]

end

theorem cleanups_moves (hr : Requests past s) (ha : Artifacts past s) (h : Cleanups past s)
    (hfree : Free s payload) (hm : Transition s metadata payload t) :
    Cleanups (past ++ [payload]) t := by
  cases hm with
  | start | create | requestCancel =>
    exact h.keep rfl rfl rfl rfl Iff.rfl rfl id id
  | requestGeneration _ _ hst | requestTranscription _ _ hst | quote _ _ hst
  | queue _ _ hst | publish _ _ _ hst | transcribe _ _ _ hst =>
    exact h.early rfl rfl rfl rfl (by simp [hasPublished, hst]) nofun nofun rfl
  | status status _ _ _ _ hst =>
    refine h.early rfl rfl rfl rfl ?_ ?_ ?_ ?_ <;>
      rcases hst with hst | hst <;> cases status.state <;>
      simp [hasCleaned, hasPublished, lifecycleOf, hst]
  | pending pending _ _ hst hattempt =>
    have hcln : s.hasCleaned = false := by
      rcases hst with hst | hst <;> simp [hasCleaned, hst]
    constructor
    case attempts =>
      rw [filterMap_note (f := attempt) rfl, h.attempts, hattempt, List.range'_concat]
      simp [Nat.add_comm]
    case failures =>
      rw [filterMap_skip (f := failedAttempt) rfl, h.failures]
      rcases hst with hst | hst
      · simp [hattempt, h.untried (.inr hst), hst]
      · simp [hattempt, hst]
    case completions =>
      rw [filterMap_skip (f := completedAttempt) rfl, h.completions, hcln]
      rfl
    case tried =>
      intro _
      change 0 < pending.attempt
      omega
    case untried => simp [hasPublished]
  | cleaned _ _ _ hst hattempt =>
    have hcln : s.hasCleaned = false := by simp [hasCleaned, hst]
    constructor
    case attempts => rw [filterMap_skip (f := attempt) rfl, h.attempts]
    case failures =>
      rw [filterMap_skip (f := failedAttempt) rfl, h.failures]
      simp [hst]
    case completions =>
      rw [filterMap_note (f := completedAttempt) rfl, h.completions, hcln, hattempt]
      rfl
    case tried => exact fun _ => h.tried (.inl hst)
    case untried => simp [hasPublished]
  | cleanupFailed _ _ _ _ hst hattempt =>
    have hcln : s.hasCleaned = false := by simp [hasCleaned, hst]
    have htried := h.tried (.inl hst)
    constructor
    case attempts => rw [filterMap_skip (f := attempt) rfl, h.attempts]
    case failures =>
      rw [filterMap_note (f := failedAttempt) rfl, h.failures, hattempt]
      obtain ⟨_, hpre⟩ := Nat.exists_eq_add_of_lt htried
      simp only [hst, hpre, reduceIte]
      simp [List.range'_concat, Nat.add_comm]
    case completions =>
      rw [filterMap_skip (f := completedAttempt) rfl, h.completions, hcln]
      rfl
    case tried => exact fun _ => htried
    case untried => simp [hasPublished]
  | cancel _ hreq =>
    have hph : s.hasPublished = false := by
      cases hp : s.hasPublished with
      | false => rfl
      | true => exact absurd (ha.uncancelled hreq) (ha.phase.2 hp)
    exact h.early rfl rfl rfl rfl hph nofun nofun rfl
  | fail _ _ hst =>
    have hph := not_published_of_ne hst hfree.running
    exact h.early rfl rfl rfl rfl hph nofun nofun rfl
  | complete hst =>
    rcases hst with hst | hst
    · have hgen := hr.generating (by simp [hst, VideoLifecycleState.generating])
      refine h.keep rfl rfl rfl rfl ?_ ?_ nofun ?_
      · simp [hst]
      · simp [hasCleaned, hst, hgen]
      · simp [hasPublished, hgen]
    · have htr := hr.transcribed hst
      exact h.early rfl rfl rfl rfl (by simp [hasPublished, hst]) nofun nofun
        (by simp [hasCleaned, htr])

theorem lived_moves (h : Lived past s) (hfree : Free s payload)
    (hm : Transition s metadata payload t) : Lived (past ++ [payload]) t where
  requests := requests_moves h.requests hm
  jobs := jobs_moves h.requests h.jobs hm
  polls := polls_moves h.jobs h.polls hm
  artifacts := artifacts_moves h.requests h.artifacts hfree hm
  cleanups := cleanups_moves h.requests h.artifacts h.cleanups hfree hm

end Moves

section Runs

variable {past : List VideoPayload} {event : VideoEvent} {s t : VideoProjection}

/-- The position of the last event is no part of the life of a run. -/
theorem lived_stamped (h : Lived past s) (sequence : ℕ) :
    Lived past { s with lastSequence := sequence } where
  requests := ⟨h.requests.generations, h.requests.generation, h.requests.transcription,
    h.requests.idle, h.requests.generating, h.requests.transcribed, h.requests.cancelling⟩
  jobs := ⟨h.jobs.jobs, h.jobs.names⟩
  polls := ⟨h.polls.numbers, h.polls.forward, h.polls.last⟩
  artifacts := ⟨h.artifacts.created, h.artifacts.requested, h.artifacts.published,
    h.artifacts.phase, h.artifacts.staged, h.artifacts.uncancelled⟩
  cleanups := ⟨h.cleanups.attempts, h.cleanups.failures, h.cleanups.completions,
    h.cleanups.tried, h.cleanups.untried⟩

theorem lived_skipped (h : Lived past s) {encoded : String} :
    Lived (past ++ [.unknown encoded]) s where
  requests := h.requests.keep rfl rfl rfl rfl Iff.rfl h.requests.generating
    h.requests.transcribed h.requests.cancelling
  jobs := h.jobs.keep (fun _ => id) rfl rfl nofun
  polls := h.polls.keep rfl rfl id
  artifacts := h.artifacts.keep rfl rfl rfl rfl (fun _ => id) rfl h.artifacts.uncancelled
  cleanups := h.cleanups.keep rfl rfl rfl rfl Iff.rfl rfl id id

theorem lived_step (h : Lived past s) (hs : Step s event t) :
    Lived (past ++ [event.payload]) t := by
  cases hs with
  | skipped hunk =>
    cases hp : event.payload with
    | unknown => exact lived_stamped (lived_skipped h) _
    | _ => simp [hp, known] at hunk
  | moved _ hfree hmove => exact lived_stamped (lived_moves h hfree hmove) _

theorem accepted_lived {events : List VideoEvent}
    (h : videoProjection.Accepted videoProjection.initial events s) :
    Lived (events.map (·.payload)) s := by
  have hrun := accepted_history (J := fun past s => Lived (past.map (·.payload)) s)
    (fun past s event hacc hpast => by
      rw [map_append]
      exact lived_step hpast (accepts_step hacc).2) [] h lived_initial
  simpa using hrun

/-- A run in a terminal state accepts no known event. -/
theorem terminal_rejects (hterm : s.state.terminal)
    (hknw : event.payload.known) : ¬ videoProjection.Accepts s event := by
  intro hacc
  obtain ⟨_, hstep⟩ := accepts_step hacc
  generalize (videoProjection.apply s event).2 = t at hstep
  cases hstep with
  | skipped hunk => simp [hknw] at hunk
  | moved _ hfree => exact absurd hfree.running (by simp [hterm])

/-- The events that end a run without success. -/
def VideoPayload.abandons : VideoPayload → Bool
  | .runFailed _ | .runCancelRequested _ | .runCancelled _ => true
  | _ => false

theorem published_keeps (h : Lived past s) (hpub : s.artifact ≠ none)
    (habandons : event.payload.abandons) : ¬ videoProjection.Accepts s event := by
  intro hacc
  have hph := h.artifacts.phase.1 hpub
  have huncancelled : s.cancelRequested = false := by
    cases hc : s.cancelRequested with
    | false => rfl
    | true => exact absurd (h.artifacts.uncancelled hc) hpub
  obtain ⟨_, hstep⟩ := accepts_step hacc
  generalize (videoProjection.apply s event).2 = t at hstep
  cases hstep with
  | skipped hunk =>
    cases hp : event.payload with
    | unknown => simp [hp, abandons] at habandons
    | _ => simp [hp, known] at hunk
  | moved _ hfree hmove =>
    generalize event.payload = payload at hmove habandons hfree
    cases hmove with
    | requestCancel _ _ _ hst =>
      simp [not_published_of_ne hst hfree.running] at hph
    | cancel _ hreq => simp [huncancelled] at hreq
    | fail _ _ hst => simp [not_published_of_ne hst hfree.running] at hph
    | _ => simp [abandons] at habandons

/-- The facts that a completed generation leaves in its history. -/
structure Generated (past : List VideoPayload) (s : VideoProjection)
    (request : VideoGenerationRequested) (artifact : ArtifactMetadata) : Prop where
  requests : past.filterMap VideoPayload.generation = [request]
  created : past.filterMap VideoPayload.created = [artifact]
  requested : artifact.artifactId = request.artifactId
  published : (past.filterMap VideoPayload.publication).map (·.artifact) = [artifact]
  artifact : s.artifact = some artifact
  tried : 0 < s.cleanupAttempt
  attempts : past.filterMap VideoPayload.attempt = List.range' 1 s.cleanupAttempt
  failures : past.filterMap VideoPayload.failedAttempt = List.range' 1 (s.cleanupAttempt - 1)
  completions : past.filterMap VideoPayload.completedAttempt = [s.cleanupAttempt]

theorem generated_of_completed (h : Lived past s) (hst : s.state = .completed)
    (hgen : past.filterMap generation ≠ []) :
    ∃ request artifact, Generated past s request artifact := by
  have hflow : s.workflow = .generation := by
    refine h.requests.generation fun hnone => hgen ?_
    rw [h.requests.generations, hnone]
    rfl
  have hph : s.hasPublished = true := by
    simp [hasPublished, hst, hflow]
  have hcln : s.hasCleaned := by
    simp [hasCleaned, hst, hflow]
  obtain ⟨artifact, hart⟩ := Option.ne_none_iff_exists'.1 (h.artifacts.phase.2 hph)
  have hstg : s.stagedArtifact = none := by
    by_contra hsome
    simp [h.artifacts.staged hsome] at hart
  have hmade : past.filterMap created = [artifact] := by
    rw [h.artifacts.created, hstg, hart]
    rfl
  obtain ⟨request, hreq, hid⟩ :=
    h.artifacts.requested artifact (hmade ▸ mem_singleton_self artifact)
  refine ⟨request, artifact, ?_⟩
  constructor
  case requests =>
    rw [h.requests.generations, hreq]
    rfl
  case created => exact hmade
  case requested => exact hid
  case published =>
    rw [h.artifacts.published, hart]
    rfl
  case artifact => exact hart
  case tried => exact h.cleanups.tried (.inr (.inr hcln))
  case attempts => exact h.cleanups.attempts
  case failures =>
    rw [h.cleanups.failures, hst]
    rfl
  case completions =>
    rw [h.cleanups.completions, hcln]
    rfl

/-- The lifecycle of a video run: in every state that accepted events lead to, a completed
generation has published the artifact of its request and cleaned up after its last attempt,
polls and attempts are numbered without gaps, every event of the job names the one request and
its job, and what has ended or been published stays so. -/
theorem video_lifecycle_invariant (events : List VideoEvent) (s : VideoProjection)
    (h : videoProjection.Accepted videoProjection.initial events s) :
    let past := events.map (·.payload)
    (s.state = .completed → past.filterMap VideoPayload.generation ≠ [] →
      ∃ request artifact, Generated past s request artifact) ∧
    ((past.filterMap VideoPayload.poll).map (·.pollNumber) = List.range' 1 s.lastPollNumber ∧
      (past.filterMap VideoPayload.poll).IsChain
        fun before after => ¬ (before.state = .processing ∧ after.state = .queued)) ∧
    (past.filterMap VideoPayload.publication ≠ [] → s.state ≠ .failed ∧ s.state ≠ .cancelled ∧
      ∀ event, event.payload.abandons → ¬ videoProjection.Accepts s event) ∧
    (∀ names ∈ past.filterMap VideoPayload.jobNames, ∃ request,
      past.filterMap VideoPayload.generation = [request] ∧ names.1 = request.operationId ∧
        (past.filterMap VideoPayload.job).map (·.jobId) = [names.2]) ∧
    (s.state.terminal →
      ∀ event, event.payload.known → ¬ videoProjection.Accepts s event) ∧
    (∀ event, ¬ videoProjection.Accepts s event → (videoProjection.apply s event).2 = s) := by
  intro past
  have hlived : Lived past s := accepted_lived h
  refine ⟨generated_of_completed hlived, ⟨hlived.polls.numbers, hlived.polls.forward⟩, ?published,
    ?named, ?ended, fun event => videoProjection_atomic s event⟩
  case published =>
    intro hpublication
    have hsome : s.artifact ≠ none := by
      intro hnone
      have hnil := hlived.artifacts.published
      rw [hnone] at hnil
      exact hpublication (map_eq_nil_iff.1 hnil)
    have hphase := hlived.artifacts.phase.1 hsome
    refine ⟨?_, ?_, fun event => published_keeps hlived hsome⟩
    · intro hfailed
      simp [VideoProjection.hasPublished, hfailed] at hphase
    · intro hcancelled
      simp [VideoProjection.hasPublished, hcancelled] at hphase
  case named =>
    intro names hnames
    obtain ⟨⟨request, hrequest, hoperation⟩, hjob⟩ := hlived.jobs.names names hnames
    refine ⟨request, ?_, hoperation.symm, ?_⟩
    · rw [hlived.requests.generations, hrequest]
      rfl
    · rw [hlived.jobs.jobs, hjob]
      rfl
  case ended =>
    intro hterminal event hknown
    exact terminal_rejects hterminal hknown

end Runs

/-! ### A sample run -/

def sampleRequest : VideoGenerationRequested where
  operationId := "operation"
  spec := ⟨"model", SafeText.bytesOf "a river", 5⟩
  artifactId := "artifact"

def sampleArtifact : ArtifactMetadata where
  artifactId := "artifact"
  mediaType := "video/mp4"
  byteSize := 8
  digest := "sha256:" ++ String.ofList (List.replicate 64 '0')
  producingInvocationId := none
  width := none
  height := none
  producingInferenceId := none

def sampleStarted : RunStarted :=
  ⟨"surface", "workspace", "profile", none, none, .conversation, none, false, false⟩

def sampleEvents (runId : Content.RunId) (payloads : List VideoPayload) : List VideoEvent :=
  payloads.zipIdx.map fun (payload, i) =>
    ⟨⟨s!"event-{i}", runId, i + 1, 1, 0, none, none, none⟩, payload⟩

def sampleJob : List VideoPayload :=
  [.runStarted sampleStarted, .generationRequested sampleRequest,
    .quoteObserved ⟨"operation", Money.usd Money.zero⟩, .jobQueued ⟨"operation", "job"⟩,
    .jobStatusObserved ⟨"operation", "job", 1, .processing⟩,
    .jobStatusObserved ⟨"operation", "job", 2, .completed⟩, .artifactCreated sampleArtifact]

def sampleRun : List VideoEvent := sampleEvents "run" (sampleJob ++
  [.artifactPublished ⟨"operation", "job", sampleArtifact⟩,
    .cleanupPending ⟨"operation", "job", 1⟩,
    .cleanupFailed ⟨"operation", "job", 1⟩ ⟨.unavailable, "pending", true⟩,
    .cleanupPending ⟨"operation", "job", 2⟩, .cleanupCompleted ⟨"operation", "job", 2⟩,
    .runCompleted])

theorem sample_run_lifecycle : (videoProjection.replay sampleRun).isOk ∧
      (videoProjection.feed videoProjection.initial sampleRun).state = .completed ∧
      ∃ request artifact, Generated (sampleRun.map (·.payload))
        (videoProjection.feed videoProjection.initial sampleRun) request artifact := by
  have hok : (videoProjection.replay sampleRun).isOk := by decide +kernel
  have hstate : (videoProjection.feed videoProjection.initial sampleRun).state = .completed := by
    decide +kernel
  obtain ⟨hgenerated, _⟩ := video_lifecycle_invariant sampleRun _ (accepted_of_isOk hok)
  exact ⟨hok, hstate, hgenerated hstate (by decide +kernel)⟩

end Video
