import AiForge.TranscriptLifecycle

/-! # Questions, artifacts and the whole transcript

A question is resolved once, by a valid answer or by a cancellation, and whatever shows or
names an artifact does so after the artifact was created. Together with the lifecycle of the
invocations this says what every transcript can be trusted for. -/
namespace Transcript

open Content EventProjection Events KeyedList List Prefixes Video TranscriptState

variable {validateVerificationEvidence : VerificationEvidence → Bool}
variable {s t : TranscriptState} {metadata : EventMetadata} {payload : TranscriptPayload}
variable {past : List TranscriptEvent} {event : TranscriptEvent}

/-- What an accepted event does to the questions. -/
inductive QuestionStep (s : TranscriptState) (metadata : EventMetadata)
    (payload : TranscriptPayload) (t : TranscriptState) : Prop where
  | kept (hasked : asked metadata payload = none) (hresolved : resolved metadata payload = none)
      (ht : t.questions = s.questions)
  | asked {question : QuestionDefinition}
      (hpayload : payload = .run (.questionRequested question))
      (hnew : s.question question.questionId metadata.invocationId = none)
      (ht : t.questions = s.questions ++ [{ question, invocationId := metadata.invocationId }])
  | answered {answer : QuestionAnswer} {target : TranscriptQuestionSummary}
      (hpayload : payload = .run (.questionAnswered answer))
      (htarget : s.question answer.questionId metadata.invocationId = some target)
      (hstate : target.state = .awaitingAnswer)
      (hvalid : answerIsValid target.question answer)
      (ht : t.questions = updateFirst TranscriptQuestionSummary.key
        (answer.questionId, metadata.invocationId)
        (fun question => { question with state := .answered, answer := some answer }) s.questions)
  | cancelled {questionId : QuestionId} {reason : Option String}
      {target : TranscriptQuestionSummary}
      (hpayload : payload = .run (.questionCancelled questionId reason))
      (htarget : s.question questionId metadata.invocationId = some target)
      (hstate : target.state = .awaitingAnswer)
      (ht : t.questions = updateFirst TranscriptQuestionSummary.key
        (questionId, metadata.invocationId)
        (fun question => { question with state := .cancelled, cancellationReason := reason })
        s.questions)

theorem questions_add (item : TranscriptItem) :
    (s.add item).questions = s.questions ++ item.question?.toList := by
  cases hitem : item.question? <;>
    simp [questions, add, hitem]

theorem question?_mapMessage (f : TranscriptMessage → TranscriptMessage) (item : TranscriptItem) :
    (item.mapMessage f).question? = item.question? := by
  cases item <;> rfl

theorem question?_mapTool (f : TranscriptToolSummary → TranscriptToolSummary)
    (item : TranscriptItem) : (item.mapTool f).question? = item.question? := by
  cases item <;> rfl

theorem question?_mapQuestion (f : TranscriptQuestionSummary → TranscriptQuestionSummary)
    (item : TranscriptItem) : (item.mapQuestion f).question? = item.question?.map f := by
  cases item <;> rfl

variable {items : List TranscriptItem}

theorem questions_messageMove (h : MessageMove s.items items) :
    items.filterMap TranscriptItem.question? = s.questions := by
  cases h with
  | kept => rfl
  | added | noticed => simp [TranscriptItem.question?, questions]
  | changed _ _ f =>
    exact filterMap_update_of_fixed (question?_mapMessage f)

theorem transition_questions (h : Transition validateVerificationEvidence s metadata payload t) :
    QuestionStep s metadata payload t := by
  cases h with
  | content hplain hmove =>
    exact .kept hplain.question hplain.resolution (questions_messageMove hmove)
  | propose | publish | verify =>
    exact .kept rfl rfl ((questions_add _).trans (append_nil _))
  | tool _ hques hres =>
    exact .kept hques hres (filterMap_update_of_fixed (question?_mapTool _))
  | ask _ hnew => exact .asked rfl hnew (questions_add _)
  | answer _ htgt hst hval =>
    exact .answered rfl htgt hst hval
      (filterMap_update_view (question?_mapQuestion _))
  | cancel _ _ htgt hst =>
    exact .cancelled rfl htgt hst (filterMap_update_view (question?_mapQuestion _))
  | create => exact .kept rfl rfl rfl
  | refer => exact .kept rfl rfl ((questions_add _).trans (append_nil _))
  | referMessage =>
    refine .kept rfl rfl ((questions_add _).trans ((append_nil _).trans ?_))
    exact filterMap_update_of_fixed (question?_mapMessage _)

/-- The questions that were answered or cancelled, in the order of these events. -/
def resolutions (past : List TranscriptEvent) : List QuestionKey :=
  past.filterMap fun event => resolved event.metadata event.payload

theorem resolutions_kept (h : resolved event.metadata event.payload = none) :
    resolutions (past ++ [event]) = resolutions past := by
  simp [resolutions, h]

theorem resolutions_own {key : QuestionKey} (h : resolved event.metadata event.payload = some key) :
    resolutions (past ++ [event]) = resolutions past ++ [key] := by
  simp [resolutions, h]

/-- An awaiting question has neither an answer nor a resolution; an answer is valid. -/
structure Posed (past : List TranscriptEvent) (summary : TranscriptQuestionSummary) : Prop where
  asked : ∃ event ∈ past, asked event.metadata event.payload =
    some { question := summary.question, invocationId := summary.invocationId }
  awaiting : summary.state = .awaitingAnswer ↔ summary.key ∉ resolutions past
  answered : ∀ answer, summary.answer = some answer →
    summary.state = .answered ∧ answerIsValid summary.question answer

structure Questions (past : List TranscriptEvent) (s : TranscriptState) : Prop where
  distinct : Distinct TranscriptQuestionSummary.key s.questions
  posed : ∀ summary ∈ s.questions, Posed past summary
  known : ∀ key ∈ resolutions past, ∃ summary ∈ s.questions, summary.key = key
  once : (resolutions past).Nodup
  recorded : ∀ event ∈ past, ∀ answer, event.payload = .run (.questionAnswered answer) →
    ∃ summary, s.question answer.questionId event.metadata.invocationId = some summary ∧
      summary.answer = some answer

theorem questions_initial : Questions [] {} where
  distinct := nodup_nil
  posed := by simp [questions]
  known := by simp [resolutions]
  once := nodup_nil
  recorded := by simp

theorem Posed.later {summary : TranscriptQuestionSummary} (h : Posed past summary)
    (hkey : resolved event.metadata event.payload ≠ some summary.key) :
    Posed (past ++ [event]) summary where
  asked := by
    obtain ⟨earlier, hmem, hasked⟩ := h.asked
    exact ⟨earlier, mem_append_left _ hmem, hasked⟩
  awaiting := by
    rw [h.awaiting]
    cases hrslv : resolved event.metadata event.payload with
    | none => rw [resolutions_kept hrslv]
    | some key =>
      have hne : summary.key ≠ key := by
        rintro rfl
        exact hkey hrslv
      simp [resolutions_own hrslv, hne]
  answered := h.answered

theorem question_eq (h : t.questions = s.questions) (questionId : QuestionId)
    (invocationId : Option InvocationId) :
    t.question questionId invocationId = s.question questionId invocationId := by
  unfold question
  rw [h]

theorem questions_kept (h : Questions past s)
    (hrslv : resolved event.metadata event.payload = none)
    (ht : t.questions = s.questions) : Questions (past ++ [event]) t where
  distinct := ht ▸ h.distinct
  posed := by
    intro summary hmem
    rw [ht] at hmem
    exact (h.posed summary hmem).later (by simp [hrslv])
  known := by
    rw [resolutions_kept hrslv, ht]
    exact h.known
  once := by
    rw [resolutions_kept hrslv]
    exact h.once
  recorded := by
    intro earlier hmem answer hans
    rw [question_eq ht]
    rcases mem_append.1 hmem with hmem | hmem
    · exact h.recorded earlier hmem answer hans
    · obtain rfl := mem_singleton.1 hmem
      simp [hans, resolved] at hrslv

theorem questions_asked (h : Questions past s) {question : QuestionDefinition}
    (hpay : event.payload = .run (.questionRequested question))
    (hnew : s.question question.questionId event.metadata.invocationId = none) (ht : t.questions =
      s.questions ++ [{ question, invocationId := event.metadata.invocationId }]) :
    Questions (past ++ [event]) t := by
  have hrslv : resolved event.metadata event.payload = none := by
    rw [hpay]
    rfl
  constructor
  case distinct =>
    rw [ht]
    exact distinct_snoc h.distinct hnew
  case posed =>
    intro summary hmem
    rw [ht] at hmem
    rcases mem_append.1 hmem with hmem | hmem
    · exact (h.posed summary hmem).later (by simp [hrslv])
    · obtain rfl := mem_singleton.1 hmem
      refine ⟨⟨event, by simp, by rw [hpay]; rfl⟩, ?_, nofun⟩
      rw [resolutions_kept hrslv]
      refine iff_of_true rfl ?_
      intro hold
      obtain ⟨old, hold, hkey⟩ := h.known _ hold
      exact lookup_none.1 hnew old hold hkey
  case known =>
    rw [resolutions_kept hrslv, ht]
    intro key hkey
    obtain ⟨summary, hmem, hsame⟩ := h.known key hkey
    exact ⟨summary, mem_append_left _ hmem, hsame⟩
  case once =>
    rw [resolutions_kept hrslv]
    exact h.once
  case recorded =>
    intro earlier hmem answer hans
    rcases mem_append.1 hmem with hmem | hmem
    · obtain ⟨summary, hfnd, hrec⟩ := h.recorded earlier hmem answer hans
      refine ⟨summary, ?_, hrec⟩
      unfold TranscriptState.question
      rw [ht]
      exact lookup_snoc_of_some hfnd
    · obtain rfl := mem_singleton.1 hmem
      simp [hpay] at hans

/-- A resolution changes the one awaiting question that it names. -/
theorem questions_resolved (h : Questions past s) {questionId : QuestionId}
    {target : TranscriptQuestionSummary}
    {change : TranscriptQuestionSummary → TranscriptQuestionSummary}
    (ht : t.questions = updateFirst TranscriptQuestionSummary.key
      (questionId, event.metadata.invocationId) change s.questions)
    (hrslv : resolved event.metadata event.payload =
      some (questionId, event.metadata.invocationId))
    (htgt : s.question questionId event.metadata.invocationId = some target)
    (hst : target.state = .awaitingAnswer) (hques : ∀ q, (change q).question = q.question)
    (hinv : ∀ q, (change q).invocationId = q.invocationId)
    (hshut : ∀ q, (change q).state ≠ .awaitingAnswer)
    (hans : ∀ answer, (change target).answer = some answer →
      (change target).state = .answered ∧ answerIsValid target.question answer)
    (hown : ∀ answer, event.payload = .run (.questionAnswered answer) →
      answer.questionId = questionId ∧ (change target).answer = some answer) :
    Questions (past ++ [event]) t := by
  have hkeys (q : TranscriptQuestionSummary) : (change q).key = q.key := by
    simp [TranscriptQuestionSummary.key, hques, hinv]
  have hkey : target.key = (questionId, event.metadata.invocationId) := lookup_key htgt
  have hmem : target ∈ s.questions := lookup_mem htgt
  have hnew : (questionId, event.metadata.invocationId) ∉ resolutions past := by
    rw [← hkey]
    exact (h.posed target hmem).awaiting.1 hst
  have hself : t.question questionId event.metadata.invocationId = some (change target) := by
    unfold question
    rw [ht, lookup_update_self fun q hq => (hkeys q).trans hq]
    change (s.question questionId event.metadata.invocationId).map change = _
    rw [htgt]
    rfl
  constructor
  case distinct =>
    rw [ht]
    exact distinct_update (fun q hq => (hkeys q).trans hq) h.distinct
  case posed =>
    intro summary hsum
    rw [ht] at hsum
    rcases mem_update (fun q hq => (hkeys q).trans hq) h.distinct hsum with
      ⟨hne, hold⟩ | ⟨_, hfnd, rfl⟩
    · refine (h.posed summary hold).later ?_
      rw [hrslv]
      intro he
      exact hne (Option.some.inj he).symm
    · obtain rfl := Option.some.inj (htgt.symm.trans hfnd)
      obtain ⟨earlier, hearly, hasked⟩ := (h.posed target hmem).asked
      refine ⟨⟨earlier, mem_append_left _ hearly, ?_⟩, ?_, ?_⟩
      · rw [hques, hinv]
        exact hasked
      · refine iff_of_false (hshut target) ?_
        rw [hkeys, hkey, resolutions_own hrslv]
        simp
      · rw [hques]
        exact hans
  case known =>
    rw [resolutions_own hrslv]
    intro key hold
    rcases mem_append.1 hold with hold | hold
    · obtain ⟨summary, hsum, hsame⟩ := h.known key hold
      have hne : summary.key ≠ (questionId, event.metadata.invocationId) := by
        rw [hsame]
        rintro rfl
        exact hnew hold
      refine ⟨summary, ?_, hsame⟩
      rw [ht]
      exact mem_update_ne (fun q hq => (hkeys q).trans hq) h.distinct hsum hne
    · obtain rfl := mem_singleton.1 hold
      refine ⟨change target, ?_, (hkeys target).trans hkey⟩
      rw [ht]
      exact mem_update_self (fun q hq => (hkeys q).trans hq) htgt
  case once =>
    rw [resolutions_own hrslv]
    exact nodup_append.2 ⟨h.once, by simp, by
      intro key hold other hoth
      obtain rfl := mem_singleton.1 hoth
      rintro rfl
      exact hnew hold⟩
  case recorded =>
    intro earlier hearly answer hpay
    rcases mem_append.1 hearly with hearly | hearly
    · obtain ⟨summary, hfnd, hrec⟩ := h.recorded earlier hearly answer hpay
      -- an earlier answer resolved another question
      have hold : (answer.questionId, earlier.metadata.invocationId) ∈ resolutions past :=
        mem_filterMap.2 ⟨earlier, hearly, by rw [hpay]; rfl⟩
      have hne : (answer.questionId, earlier.metadata.invocationId) ≠
          (questionId, event.metadata.invocationId) := by
        intro he
        exact hnew (he ▸ hold)
      refine ⟨summary, ?_, hrec⟩
      unfold question
      rw [ht, lookup_update_ne (fun q hq => (hkeys q).trans hq) hne]
      exact hfnd
    · obtain rfl := mem_singleton.1 hearly
      obtain ⟨rfl, hrec⟩ := hown answer hpay
      exact ⟨change target, hself, hrec⟩

theorem questions_step (h : Questions past s) (hs : Step validateVerificationEvidence s event t) :
    Questions (past ++ [event]) t := by
  obtain ⟨-, _, _, _, hnext, rfl⟩ := hs
  cases transition_questions hnext with
  | kept _ hrslv ht => exact questions_kept h hrslv ht
  | asked hpay hnew ht => exact questions_asked h hpay hnew ht
  | @answered answer target hpay htgt hst hval ht =>
    refine questions_resolved h ht (by rw [hpay]; rfl) htgt hst (fun _ => rfl)
      (fun _ => rfl) (fun _ hwaits => TranscriptQuestionState.noConfusion hwaits) ?_ ?_
    · intro given hgiven
      cases hgiven
      exact ⟨rfl, hval⟩
    · intro given hgiven
      rw [hpay] at hgiven
      cases hgiven
      exact ⟨rfl, rfl⟩
  | @cancelled questionId reason target hpay htgt hst ht =>
    refine questions_resolved h ht (by rw [hpay]; rfl) htgt hst (fun _ => rfl)
      (fun _ => rfl) (fun _ hwaits => TranscriptQuestionState.noConfusion hwaits) ?_ ?_
    · -- a question that still waits has no answer
      intro given hgiven
      have hposed := h.posed target (lookup_mem htgt)
      rw [(hposed.answered given hgiven).1] at hst
      cases hst
    · intro given hgiven
      rw [hpay] at hgiven
      cases hgiven

def TranscriptItem.artifacts : TranscriptItem → List ArtifactMetadata
  | message m => m.artifacts
  | artifact reference => [reference.artifact]
  | _ => []

def TranscriptItem.named : TranscriptItem → List ArtifactId
  | verification evidence => evidence.named
  | _ => []

/-- Every artifact that the item shows or names is among the given ones. -/
structure Known (artifacts : List ArtifactMetadata) (item : TranscriptItem) : Prop where
  shown : ∀ artifact ∈ item.artifacts, artifact ∈ artifacts
  named : ∀ artifactId ∈ item.named, ∃ artifact ∈ artifacts, artifact.artifactId = artifactId

structure Artifacts (past : List TranscriptEvent) (s : TranscriptState) : Prop where
  created : s.artifacts = past.filterMap fun event => event.payload.created
  distinct : Distinct ArtifactMetadata.artifactId s.artifacts
  known : ∀ item ∈ s.items, Known s.artifacts item

theorem artifacts_initial : Artifacts [] {} where
  created := rfl
  distinct := nodup_nil
  known := by simp

section Known

variable {artifacts : List ArtifactMetadata} {item : TranscriptItem}

theorem known_plain (hshown : item.artifacts = []) (hnamed : item.named = []) :
    Known artifacts item where
  shown := by simp [hshown]
  named := by simp [hnamed]

theorem Known.mapMessage {f : TranscriptMessage → TranscriptMessage}
    (hf : ∀ m, ∀ artifact ∈ (f m).artifacts, artifact ∈ m.artifacts ∨ artifact ∈ artifacts)
    (h : Known artifacts item) : Known artifacts (item.mapMessage f) := by
  cases item with
  | message m =>
    refine ⟨?_, h.named⟩
    intro artifact hmem
    rcases hf m artifact hmem with hold | hnew
    · exact h.shown artifact hold
    · exact hnew
  | tool | question | artifact | verification | notice => exact h

theorem Known.mapTool {f : TranscriptToolSummary → TranscriptToolSummary}
    (h : Known artifacts item) : Known artifacts (item.mapTool f) := by
  cases item <;> exact ⟨h.shown, h.named⟩

theorem Known.mapQuestion {f : TranscriptQuestionSummary → TranscriptQuestionSummary}
    (h : Known artifacts item) : Known artifacts (item.mapQuestion f) := by
  cases item <;> exact ⟨h.shown, h.named⟩

theorem known_add (h : ∀ item ∈ items, Known artifacts item)
    (hnew : Known artifacts item) : ∀ other ∈ items ++ [item], Known artifacts other := by
  intro other hmem
  rcases mem_append.1 hmem with hmem | hmem
  · exact h other hmem
  · obtain rfl := mem_singleton.1 hmem
    exact hnew

theorem known_messageMove (hmove : MessageMove s.items items)
    (h : ∀ item ∈ s.items, Known artifacts item) : ∀ item ∈ items, Known artifacts item := by
  cases hmove with
  | kept => exact h
  | added _ hart => exact known_add h (known_plain hart rfl)
  | noticed => exact known_add h (known_plain rfl rfl)
  | changed _ _ _ _ hart =>
    refine forall_update h fun item _ hitem => hitem.mapMessage ?_
    intro m artifact hmem
    rw [hart] at hmem
    exact .inl hmem

end Known

theorem known_found {artifactId : ArtifactId} {found : ArtifactMetadata}
    (h : s.artifact artifactId = some found) (reference : TranscriptArtifactReference)
    (href : reference.artifact = found) : Known s.artifacts (.artifact reference) where
  shown := by
    intro artifact hmem
    obtain rfl := mem_singleton.1 hmem
    exact href ▸ lookup_mem h
  named := nofun

theorem known_verification {evidence : VerificationEvidence}
    (h : ∀ artifactId ∈ evidence.named, (s.artifact artifactId).isSome) :
    Known s.artifacts (.verification evidence) where
  shown := nofun
  named := by
    intro artifactId hmem
    obtain ⟨artifact, hart⟩ := Option.isSome_iff_exists.1 (h artifactId hmem)
    exact ⟨artifact, lookup_mem hart, lookup_key hart⟩

/-- An event adds the artifact it creates, and shows or names only artifacts that exist. -/
theorem transition_artifacts (h : Transition validateVerificationEvidence s metadata payload t)
    (hknw : ∀ item ∈ s.items, Known s.artifacts item) :
    t.artifacts = s.artifacts ++ payload.created.toList ∧
      (∀ artifact, payload.created = some artifact → s.artifact artifact.artifactId = none) ∧
      ∀ item ∈ t.items, Known t.artifacts item := by
  cases h with
  | content hplain hmove =>
    rw [hplain.artifact]
    exact ⟨(append_nil _).symm, nofun, known_messageMove hmove hknw⟩
  | propose | ask =>
    exact ⟨(append_nil _).symm, nofun, known_add hknw (known_plain rfl rfl)⟩
  | tool _ _ _ hart =>
    rw [hart]
    exact ⟨(append_nil _).symm, nofun,
      forall_update hknw fun item _ hitem => hitem.mapTool⟩
  | answer | cancel =>
    exact ⟨(append_nil _).symm, nofun,
      forall_update hknw fun item _ hitem => hitem.mapQuestion⟩
  | create _ hnew =>
    refine ⟨rfl, ?_, ?_⟩
    · intro created hmade
      cases hmade
      exact hnew
    · intro item hmem
      have hitem := hknw item hmem
      refine ⟨fun shown hshown => mem_append_left _ (hitem.shown shown hshown), ?_⟩
      intro artifactId hnamed
      obtain ⟨named, hold, hid⟩ := hitem.named artifactId hnamed
      exact ⟨named, mem_append_left _ hold, hid⟩
  | refer _ hfnd | publish _ hfnd =>
    exact ⟨(append_nil _).symm, nofun, known_add hknw (known_found hfnd _ rfl)⟩
  | @referMessage artifactId messageId found hfnd =>
    refine ⟨(append_nil _).symm, nofun, known_add ?_ (known_found hfnd _ rfl)⟩
    refine forall_update hknw fun item _ hitem => hitem.mapMessage ?_
    intro m artifact hmem
    rcases mem_append.1 hmem with hmem | hmem
    · exact .inl hmem
    · obtain rfl := mem_singleton.1 hmem
      exact .inr (lookup_mem hfnd)
  | verify _ _ _ _ _ _ _ hartifacts =>
    exact ⟨(append_nil _).symm, nofun, known_add hknw (known_verification hartifacts)⟩

theorem artifacts_step (h : Artifacts past s) (hs : Step validateVerificationEvidence s event t) :
    Artifacts (past ++ [event]) t := by
  obtain ⟨-, _, next, _, hnext, rfl⟩ := hs
  obtain ⟨hmade, hnew, hknw⟩ := transition_artifacts hnext h.known
  constructor
  case created =>
    rw [hmade, filterMap_append, ← h.created]
    cases hpay : event.payload.created <;> simp [hpay]
  case distinct =>
    rw [hmade]
    cases hpay : event.payload.created with
    | none => simpa using h.distinct
    | some artifact => exact distinct_snoc h.distinct (hnew artifact hpay)
  case known => exact hknw

/-- What a summary and the acts of its invocation say about each other. -/
structure Went (acts : List ToolAct) (tool : TranscriptToolSummary) : Prop where
  /-- The invocation was proposed first, and once. -/
  proposed : ∃ rest, acts = .proposed tool.toolName :: rest ∧
    ∀ toolName, .proposed toolName ∉ rest
  justified : Warranted Justified acts
  allowed : tool.state = .allowed → Cleared acts
  running : tool.state = .running → .started ∈ acts
  result : tool.state = .complete ∨ tool.result ≠ [] →
    .started ∈ acts ∧ .resultRecorded tool.result ∈ acts

theorem went_of_stage {acts : List ToolAct} {tool : TranscriptToolSummary}
    (h : Stage acts tool) : Went acts tool := by
  have hph := h.phase
  constructor
  case proposed =>
    obtain ⟨rest, hrest⟩ := h.first
    refine ⟨rest, hrest, ?_⟩
    intro toolName hmem
    -- a second proposal would have acts before it
    obtain ⟨before, after, hsplit⟩ := append_of_mem hmem
    have hemp : ToolAct.proposed tool.toolName :: before = [] :=
      h.justified (.proposed tool.toolName :: before) (.proposed toolName) after
        (by rw [hrest, hsplit, cons_append])
    cases hemp
  case justified => exact h.justified
  case allowed =>
    intro hst
    rw [hst] at hph
    exact hph.2
  case running =>
    intro hst
    rw [hst] at hph
    exact hph.2.2
  case result =>
    intro hres
    have hst : tool.state = .complete := by
      by_contra hne
      rcases hres with hdone | hres
      · exact hne hdone
      · exact hres (hph.fresh hne).result
    rw [hst] at hph
    exact hph.2

/-- All that is kept by every accepted event. -/
structure Kept (past : List TranscriptEvent) (s : TranscriptState) : Prop where
  tools : Tools past s
  questions : Questions past s
  artifacts : Artifacts past s

section Runs

variable (validate : VerificationEvidence → Bool) {events : List TranscriptEvent}

theorem kept_accepted (h : Kept past s)
    (ha : (transcriptProjection validate).Accepted s events t) : Kept (past ++ events) t := by
  refine accepted_history ?_ past ha h
  intro past s event hacc h
  have hs := accepts_step hacc
  exact ⟨tools_step h.tools hs, questions_step h.questions hs, artifacts_step h.artifacts hs⟩

theorem identities_accepted (ha : (transcriptProjection validate).Accepted s events t) :
    s.identities <+: t.identities := by
  refine accepted_invariant (I := fun u => s.identities <+: u.identities) ?_ ha prefix_rfl
  intro u event hacc hu
  obtain ⟨-, _, _, _, hnext, ht⟩ := accepts_step hacc
  have hmv := identities_transition hnext
  rw [ht]
  exact hu.trans hmv

theorem settled_accepted (h : Kept past s)
    (ha : (transcriptProjection validate).Accepted s events t) {invocationId : InvocationId}
    {tool : TranscriptToolSummary} (htool : s.tool invocationId = some tool)
    (hset : Settled tool) : t.tool invocationId = some tool := by
  refine (accepted_history (J := fun past u => Kept past u ∧ u.tool invocationId = some tool)
    ?_ past ha ⟨h, htool⟩).2
  intro past u event hacc hu
  have hs := accepts_step hacc
  refine ⟨⟨tools_step hu.1.tools hs, questions_step hu.1.questions hs,
    artifacts_step hu.1.artifacts hs⟩, ?_⟩
  exact settled_step hu.1.tools hs hu.2 hset

/-- In every reached state each invocation went through its lifecycle in order, a settled
summary is final, items keep their places, artifacts were created before they are shown or
named, questions are resolved once and validly, and a rejected event changes nothing. -/
theorem transcript_tool_lifecycle (stream later : List TranscriptEvent) :
    let transcript := transcriptProjection validate
    let s := transcript.feed transcript.initial stream
    let past := transcript.acceptedEvents transcript.initial stream
    let t := transcript.feed s later
    (∀ tool ∈ s.tools, s.tool tool.invocationId = some tool ∧
      Went (acts tool.invocationId past) tool) ∧
    (∀ tool ∈ s.tools, Settled tool → t.tool tool.invocationId = some tool) ∧
    s.identities <+: t.identities ∧
    (s.artifacts = past.filterMap (fun event => event.payload.created) ∧
      ∀ item ∈ s.items, Known s.artifacts item) ∧
    ((resolutions past).Nodup ∧ (∀ summary ∈ s.questions, Posed past summary) ∧
      ∀ event ∈ past, ∀ answer, event.payload = .run (.questionAnswered answer) →
        ∃ summary, s.question answer.questionId event.metadata.invocationId = some summary ∧
          summary.answer = some answer) ∧
    ∀ event, ¬ transcript.Accepts s event → (transcript.apply s event).2 = s := by
  intro transcript s past t
  have hatomic : transcript.Atomic := transcriptProjection_atomic
  have hpast : transcript.Accepted transcript.initial past s :=
    accepted_acceptedEvents hatomic transcript.initial stream
  have hlater : transcript.Accepted s (transcript.acceptedEvents s later) t :=
    accepted_acceptedEvents hatomic s later
  have hkept : Kept past s :=
    kept_accepted validate ⟨tools_initial, questions_initial, artifacts_initial⟩ hpast
  have hfound (tool : TranscriptToolSummary) (htool : tool ∈ s.tools) :
      s.tool tool.invocationId = some tool := lookup_of_mem hkept.tools.distinct htool
  refine ⟨?_, ?_, identities_accepted validate hlater, ⟨hkept.artifacts.created,
    hkept.artifacts.known⟩, ⟨hkept.questions.once, hkept.questions.posed,
    hkept.questions.recorded⟩, hatomic s⟩
  · intro tool htool
    have hlife := hkept.tools.life tool.invocationId tool (hfound tool htool)
    exact ⟨hfound tool htool, went_of_stage (life_stage hlife)⟩
  · intro tool htool hsettled
    exact settled_accepted validate hkept hlater (hfound tool htool) hsettled

end Runs

end Transcript
