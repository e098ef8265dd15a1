import AiForge.Prefixes
import AiForge.TranscriptProjection

/-! # Lifecycles in a transcript

What each invocation, question and artifact of a transcript went through is read from the
accepted events. Every act of an invocation is justified by the acts before it; a summary that
carries a result or an error is final. -/
namespace Transcript

open Content Events KeyedList List Prefixes TranscriptState

variable {validateVerificationEvidence : VerificationEvidence → Bool}
variable {s t : TranscriptState} {metadata : EventMetadata} {payload : TranscriptPayload}

inductive ItemIdentity where
  | message (messageId : MessageId)
  | tool (invocationId : InvocationId)
  | question (key : QuestionKey)
  | artifact (reference : TranscriptArtifactReference)
  | verification (evidence : VerificationEvidence)
  | notice (notice : TranscriptNotice)

/-- What an item is about; only messages, invocations and questions change afterwards. -/
def TranscriptItem.identity : TranscriptItem → ItemIdentity
  | message m => .message m.messageId
  | tool summary => .tool summary.invocationId
  | question summary => .question summary.key
  | artifact reference => .artifact reference
  | verification evidence => .verification evidence
  | notice n => .notice n

def TranscriptState.identities (s : TranscriptState) : List ItemIdentity :=
  s.items.map TranscriptItem.identity

theorem identities_add (item : TranscriptItem) :
    (s.add item).identities = s.identities ++ [item.identity] := by
  simp [identities, add]

theorem identity_mapMessage {f : TranscriptMessage → TranscriptMessage}
    (hf : ∀ m, (f m).messageId = m.messageId) (item : TranscriptItem) :
    (item.mapMessage f).identity = item.identity := by
  cases item with
  | message => simp [TranscriptItem.mapMessage, TranscriptItem.identity, hf]
  | tool | question | artifact | verification | notice => rfl

theorem identities_messageMove {items : List TranscriptItem} (h : MessageMove s.items items) :
    s.identities <+: items.map TranscriptItem.identity := by
  cases h with
  | kept => exact prefix_rfl
  | added | noticed =>
    rw [map_append]
    exact prefix_append ..
  | changed _ _ _ hid =>
    rw [map_update (identity_mapMessage hid)]
    exact prefix_rfl

variable {tool next : TranscriptToolSummary} {act : ToolAct}

theorem ToolMove.invocationId
    (h : ToolMove tool act next) : next.invocationId = tool.invocationId := by
  cases h <;> rfl

variable {invocationId : InvocationId}

theorem identities_changeTool (hnext : next.invocationId = invocationId) :
    (s.changeTool invocationId fun _ => next).identities = s.identities := by
  refine map_update_found ?_
  intro item hitem
  cases item with
  | tool summary =>
    have hsame : summary.invocationId = invocationId := by
      simpa [TranscriptItem.tool?] using lookup_key hitem
    simp [TranscriptItem.mapTool, TranscriptItem.identity, hnext, hsame]
  | message | question | artifact | verification | notice => rfl

theorem identities_changeMessage {messageId : MessageId}
    {f : TranscriptMessage → TranscriptMessage} (hf : ∀ m, (f m).messageId = m.messageId) :
    (s.changeMessage messageId f).identities = s.identities :=
  map_update (identity_mapMessage hf)

theorem identities_changeQuestion {key : QuestionKey}
    {f : TranscriptQuestionSummary → TranscriptQuestionSummary} (hf : ∀ q, (f q).key = q.key) :
    (s.changeQuestion key f).identities = s.identities := by
  refine map_update ?_
  intro item
  cases item with
  | question => simp [TranscriptItem.mapQuestion, TranscriptItem.identity, hf]
  | message | tool | artifact | verification | notice => rfl

theorem identities_transition (h : Transition validateVerificationEvidence s metadata payload t) :
    s.identities <+: t.identities := by
  cases h with
  | content _ hmove => exact identities_messageMove hmove
  | tool _ _ _ _ htool hmove =>
    rw [identities_changeTool (hmove.invocationId.trans (lookup_key htool))]
  | answer | cancel =>
    rw [identities_changeQuestion]
    intro question
    rfl
  | create => exact prefix_rfl
  | referMessage =>
    rw [identities_add]
    rw [identities_changeMessage]
    · exact prefix_append ..
    · intro m
      rfl
  | propose | ask | refer | publish | verify =>
    rw [identities_add]
    exact prefix_append ..

/-- The accepted events of one invocation, in their order. -/
def acts (invocationId : InvocationId) (past : List TranscriptEvent) : List ToolAct :=
  past.filterMap fun event =>
    event.payload.toolAct.bind fun named =>
      if named.1 = invocationId then some named.2 else none

/-- An invocation may start by a policy that allows it, or by an approval that was asked for
after the policy had required one. -/
def Cleared (acts : List ToolAct) : Prop :=
  .policyDecided .allow ∈ acts ∨
    [.policyDecided .requireApproval, .approvalRequested, .approvalDecided .approved].Sublist acts

/-- What must have come before an act of an invocation. -/
def Justified (before : List ToolAct) : ToolAct → Prop
  | .proposed _ => before = []
  | .policyDecided _ => before ≠ [] ∧ ∀ decision, .policyDecided decision ∉ before
  | .approvalRequested => .policyDecided .requireApproval ∈ before
  | .approvalDecided _ =>
    [.policyDecided .requireApproval, .approvalRequested].Sublist before
  | .policyFailed => before ≠ []
  | .started => Cleared before ∧ .started ∉ before
  | .progressed _ => .started ∈ before
  | .resultRecorded _ => .started ∈ before ∧ ∀ content, .resultRecorded content ∉ before
  | .errored _ => before ≠ []

/-- Only an awaited approval that was asked for is decided. -/
def Asked (before : List ToolAct) : ToolAct → Prop
  | .approvalDecided _ => .approvalRequested ∈ before
  | _ => True

inductive Life (invocationId : InvocationId) : List ToolAct → TranscriptToolSummary → Prop where
  | proposed (toolName : String) : Life invocationId [.proposed toolName] { invocationId, toolName }
  | moved {before : List ToolAct} {act : ToolAct} {tool next : TranscriptToolSummary}
      (life : Life invocationId before tool) (move : ToolMove tool act next)
      (asked : Asked before act) : Life invocationId (before ++ [act]) next

structure Fresh (acts : List ToolAct) (tool : TranscriptToolSummary) : Prop where
  unanswered : ∀ content, .resultRecorded content ∉ acts
  result : tool.result = []

structure Idle (acts : List ToolAct) (tool : TranscriptToolSummary) : Prop
    extends Fresh acts tool where
  unstarted : .started ∉ acts
  error : tool.error = none

/-- What the state of a summary says about the acts of its invocation. -/
def Phase (acts : List ToolAct) (tool : TranscriptToolSummary) : TranscriptToolState → Prop
  | .proposed => Idle acts tool ∧ ∀ decision, .policyDecided decision ∉ acts
  | .awaitingApproval => Idle acts tool ∧ .policyDecided .requireApproval ∈ acts
  | .allowed => Idle acts tool ∧ Cleared acts
  | .running => Fresh acts tool ∧ tool.error = none ∧ .started ∈ acts
  | .complete => tool.error = none ∧ .started ∈ acts ∧ .resultRecorded tool.result ∈ acts
  | .denied | .cancelled | .failed => Fresh acts tool

structure Stage (acts : List ToolAct) (tool : TranscriptToolSummary) : Prop where
  first : ∃ rest, acts = .proposed tool.toolName :: rest
  justified : Warranted Justified acts
  asked : .approvalRequested ∈ acts →
    [.policyDecided .requireApproval, .approvalRequested].Sublist acts
  phase : Phase acts tool tool.state

theorem Cleared.later {before : List ToolAct} (h : Cleared before) (act : ToolAct) :
    Cleared (before ++ [act]) := by
  rcases h with h | h
  · exact .inl (mem_append_left _ h)
  · exact .inr (h.trans (sublist_append_left ..))

section Stages

variable {before : List ToolAct} {tool next : TranscriptToolSummary} {act : ToolAct}
variable {state : TranscriptToolState}

theorem Fresh.later (h : Fresh before tool) (hact : ∀ content, act ≠ .resultRecorded content)
    (hres : next.result = tool.result) : Fresh (before ++ [act]) next where
  unanswered := by
    intro content hmem
    rcases mem_append.1 hmem with hmem | hmem
    · exact h.unanswered content hmem
    · exact hact content (mem_singleton.1 hmem).symm
  result := hres.trans h.result

theorem Idle.later (h : Idle before tool) (hact : ∀ content, act ≠ .resultRecorded content)
    (hbeg : act ≠ .started) (hres : next.result = tool.result)
    (herr : next.error = tool.error) : Idle (before ++ [act]) next where
  toFresh := h.toFresh.later hact hres
  unstarted := by
    intro hmem
    rcases mem_append.1 hmem with hmem | hmem
    · exact h.unstarted hmem
    · exact hbeg (mem_singleton.1 hmem).symm
  error := herr.trans h.error

theorem Phase.fresh (h : Phase before tool state) (hst : state ≠ .complete) :
    Fresh before tool := by
  cases state with
  | proposed | awaitingApproval | allowed => exact h.1.toFresh
  | running => exact h.1
  | complete => exact absurd rfl hst
  | denied | cancelled | failed => exact h

/-- An act that only says something about an invocation leaves its phase as it was. -/
theorem Phase.kept (h : Phase before tool state) (hresulted : ∀ content, act ≠ .resultRecorded content)
    (hstarted : act ≠ .started) (hdec : ∀ decision, act ≠ .policyDecided decision)
    (hres : next.result = tool.result) (herr : next.error = tool.error) :
    Phase (before ++ [act]) next state := by
  cases state with
  | proposed =>
    obtain ⟨hidle, hundecided⟩ := h
    refine ⟨hidle.later hresulted hstarted hres herr, ?_⟩
    intro decision hmem
    rcases mem_append.1 hmem with hmem | hmem
    · exact hundecided decision hmem
    · exact hdec decision (mem_singleton.1 hmem).symm
  | awaitingApproval =>
    exact ⟨h.1.later hresulted hstarted hres herr, mem_append_left _ h.2⟩
  | allowed => exact ⟨h.1.later hresulted hstarted hres herr, h.2.later act⟩
  | running =>
    exact ⟨h.1.later hresulted hres, herr.trans h.2.1, mem_append_left _ h.2.2⟩
  | complete =>
    obtain ⟨hnone, hbeg, hrec⟩ := h
    refine ⟨herr.trans hnone, mem_append_left _ hbeg, ?_⟩
    rw [hres]
    exact mem_append_left _ hrec
  | denied | cancelled | failed => exact Fresh.later h hresulted hres

theorem Fresh.phase (h : Fresh before tool)
    (hst : state = .denied ∨ state = .cancelled ∨ state = .failed) :
    Phase before tool state := by
  rcases hst with rfl | rfl | rfl <;> exact h

/-- An error denies nothing that was not denied before. -/
theorem erroredState_closed (error : DomainError) (state : TranscriptToolState) :
    erroredState error state = .denied ∨ erroredState error state = .cancelled ∨
      erroredState error state = .failed := by
  unfold erroredState
  split
  · exact .inr (.inl rfl)
  · split
    · exact .inr (.inr rfl)
    · rename_i hdenied
      exact .inl (not_ne_iff.1 hdenied)

theorem Stage.nonempty (h : Stage before tool) : before ≠ [] := by
  obtain ⟨_, hrest⟩ := h.first
  rw [hrest]
  exact cons_ne_nil _ _

theorem Stage.later (h : Stage before tool) (hname : next.toolName = tool.toolName)
    (hact : act ≠ .approvalRequested) (hjustified : Justified before act)
    (hph : Phase (before ++ [act]) next next.state) : Stage (before ++ [act]) next where
  first := by
    obtain ⟨rest, hrest⟩ := h.first
    exact ⟨rest ++ [act], by rw [hrest, cons_append, hname]⟩
  justified := warranted_snoc.2 ⟨h.justified, hjustified⟩
  asked := by
    intro hmem
    rcases mem_append.1 hmem with hmem | hmem
    · exact (h.asked hmem).trans (sublist_append_left ..)
    · exact absurd (mem_singleton.1 hmem).symm hact
  phase := hph

theorem stage_proposed (invocationId : InvocationId) (toolName : String) :
    Stage [.proposed toolName] { invocationId, toolName } where
  first := ⟨[], rfl⟩
  justified := warranted_snoc.2 ⟨warranted_nil, rfl⟩
  asked := by simp
  phase := ⟨⟨⟨by simp, rfl⟩, by simp, rfl⟩, by simp⟩

section

variable (h : Stage before tool)

include h

theorem stage_policyDecided (hst : tool.state = .proposed)
    (decision : PolicyDecision) :
    Stage (before ++ [.policyDecided decision]) { tool with state := policyState decision } := by
  have hph := h.phase
  rw [hst] at hph
  obtain ⟨hidle, hundecided⟩ := hph
  refine h.later rfl nofun ⟨h.nonempty, hundecided⟩ ?_
  have hlat : Idle (before ++ [.policyDecided decision])
      { tool with state := policyState decision } := hidle.later nofun nofun rfl rfl
  cases decision with
  | allow => exact ⟨hlat, .inl (by simp)⟩
  | deny => exact hlat.toFresh
  | requireApproval => exact ⟨hlat, by simp⟩

theorem stage_approvalRequested (hst : tool.state = .awaitingApproval) :
    Stage (before ++ [.approvalRequested]) tool where
  first := by
    obtain ⟨rest, hrest⟩ := h.first
    exact ⟨rest ++ [.approvalRequested], by rw [hrest, cons_append]⟩
  justified := by
    have hph := h.phase
    rw [hst] at hph
    exact warranted_snoc.2 ⟨h.justified, hph.2⟩
  asked := by
    have hph := h.phase
    rw [hst] at hph
    intro _
    exact (singleton_sublist.2 hph.2).append (List.Sublist.refl [ToolAct.approvalRequested])
  phase := h.phase.kept nofun nofun nofun rfl rfl

theorem stage_approvalDecided (hst : tool.state = .awaitingApproval)
    (decision : ApprovalDecision) (hasked : .approvalRequested ∈ before) :
    Stage (before ++ [.approvalDecided decision])
      { tool with state := approvalState decision } := by
  have hph := h.phase
  rw [hst] at hph
  have hlat : Idle (before ++ [.approvalDecided decision])
      { tool with state := approvalState decision } := hph.1.later nofun nofun rfl rfl
  refine h.later rfl nofun (h.asked hasked) ?_
  cases decision with
  | approved =>
    refine ⟨hlat, .inr ?_⟩
    exact (h.asked hasked).append (List.Sublist.refl [ToolAct.approvalDecided .approved])
  | denied | cancelled => exact hlat.toFresh

theorem stage_started (hst : tool.state = .allowed) :
    Stage (before ++ [.started]) { tool with state := .running } := by
  have hph := h.phase
  rw [hst] at hph
  obtain ⟨hidle, hclr⟩ := hph
  refine h.later rfl nofun ⟨hclr, hidle.unstarted⟩ ?_
  exact ⟨hidle.toFresh.later nofun rfl, hidle.error, by simp⟩

theorem stage_progressed (hst : tool.state = .running)
    (content : List ContentBlock) : Stage (before ++ [.progressed content])
      { tool with progress := tool.progress ++ content } := by
  have hph := h.phase
  rw [hst] at hph
  refine h.later rfl nofun hph.2.2 ?_
  exact h.phase.kept nofun nofun nofun rfl rfl

theorem stage_resultRecorded (hst : tool.state = .running)
    (content : List ContentBlock) : Stage (before ++ [.resultRecorded content])
      { tool with result := content, state := .complete } := by
  have hph := h.phase
  rw [hst] at hph
  obtain ⟨hnew, herr, hbeg⟩ := hph
  refine h.later rfl nofun ⟨hbeg, hnew.unanswered⟩ ?_
  exact ⟨herr, mem_append_left _ hbeg, by simp⟩

theorem stage_errored (hdone : tool.state ≠ .complete)
    (error : DomainError) : Stage (before ++ [.errored error])
      { tool with state := erroredState error tool.state, error := some error } := by
  refine h.later rfl nofun h.nonempty ?_
  have hnew : Fresh (before ++ [.errored error])
      { tool with state := erroredState error tool.state, error := some error } :=
    (h.phase.fresh hdone).later nofun rfl
  exact hnew.phase (erroredState_closed error tool.state)

theorem stage_moved (hmove : ToolMove tool act next)
    (hasked : Asked before act) : Stage (before ++ [act]) next := by
  cases hmove with
  | policyDecided decision hst => exact stage_policyDecided h hst decision
  | approvalRequested hst => exact stage_approvalRequested h hst
  | approvalDecided decision hst => exact stage_approvalDecided h hst decision hasked
  | policyFailed => exact h.later rfl nofun h.nonempty (h.phase.kept nofun nofun nofun rfl rfl)
  | started hst => exact stage_started h hst
  | progressed content hst => exact stage_progressed h hst content
  | resultRecorded content hst => exact stage_resultRecorded h hst content
  | errored error hdone => exact stage_errored h hdone error

end

theorem life_stage (h : Life invocationId before tool) : Stage before tool := by
  induction h with
  | proposed toolName => exact stage_proposed invocationId toolName
  | moved _ move asked ih => exact stage_moved ih move asked

/-- The summary carries a result or an error. -/
def Settled (tool : TranscriptToolSummary) : Prop :=
  tool.state = .complete ∨ tool.result ≠ [] ∨ tool.error ≠ none

/-- An error is only recorded in a state that no later event but another error accepts. -/
theorem settled_move (h : Stage before tool) (hset : Settled tool)
    (hmove : ToolMove tool act next) : next = tool := by
  have hph := h.phase
  -- a summary that waits or runs has neither a result nor an error
  have open_state (hidle : tool.result = [] ∧ tool.error = none) (hst : tool.state ≠ .complete) :
      False := by
    rcases hset with hdone | hres | herr
    · exact hst hdone
    · exact hres hidle.1
    · exact herr hidle.2
  cases hmove with
  | policyDecided _ hst | approvalDecided _ hst | started hst =>
    rw [hst] at hph
    exact (open_state ⟨hph.1.result, hph.1.error⟩ (by rw [hst]; nofun)).elim
  | approvalRequested | policyFailed => rfl
  | progressed _ hst | resultRecorded _ hst =>
    rw [hst] at hph
    exact (open_state ⟨hph.1.result, hph.2.1⟩ (by rw [hst]; nofun)).elim
  | errored _ hdone _ herr =>
    exact (open_state ⟨(hph.fresh hdone).result, herr⟩ hdone).elim

end Stages

/-- What an accepted event does to the summaries of invocations. -/
inductive ToolStep (s : TranscriptState) (payload : TranscriptPayload) (t : TranscriptState) :
    Prop where
  | kept (hact : payload.toolAct = none) (ht : t.tools = s.tools)
  | proposed {invocationId : InvocationId} {toolName : String}
      (hact : payload.toolAct = some (invocationId, .proposed toolName))
      (hnew : s.tool invocationId = none)
      (ht : t.tools = s.tools ++ [{ invocationId := invocationId, toolName := toolName }])
  | moved {invocationId : InvocationId} {act : ToolAct} {tool next : TranscriptToolSummary}
      (hact : payload.toolAct = some (invocationId, act)) (htool : s.tool invocationId = some tool)
      (hmove : ToolMove tool act next)
      (ht : t.tools =
        updateFirst TranscriptToolSummary.invocationId invocationId (fun _ => next) s.tools)

theorem tools_add (item : TranscriptItem) : (s.add item).tools = s.tools ++ item.tool?.toList := by
  cases hitem : item.tool? <;> simp [tools, add, hitem]

theorem tool?_mapMessage (f : TranscriptMessage → TranscriptMessage) (item : TranscriptItem) :
    (item.mapMessage f).tool? = item.tool? := by
  cases item <;> rfl

theorem tool?_mapQuestion (f : TranscriptQuestionSummary → TranscriptQuestionSummary)
    (item : TranscriptItem) : (item.mapQuestion f).tool? = item.tool? := by
  cases item <;> rfl

theorem tool?_mapTool (f : TranscriptToolSummary → TranscriptToolSummary) (item : TranscriptItem) :
    (item.mapTool f).tool? = item.tool?.map f := by
  cases item <;> rfl

theorem tools_messageMove {items : List TranscriptItem} (h : MessageMove s.items items) :
    items.filterMap TranscriptItem.tool? = s.tools := by
  cases h with
  | kept => rfl
  | added | noticed => simp [TranscriptItem.tool?, tools]
  | changed _ _ f =>
    exact filterMap_update_of_fixed (tool?_mapMessage f)

theorem transition_tools (h : Transition validateVerificationEvidence s metadata payload t) :
    ToolStep s payload t := by
  cases h with
  | content hplain hmove => exact .kept hplain.tool (tools_messageMove hmove)
  | propose proposed hnew => exact .proposed rfl hnew (tools_add _)
  | tool hact _ _ _ htool hmove =>
    exact .moved hact htool hmove (filterMap_update_view (tool?_mapTool _))
  | answer | cancel =>
    exact .kept rfl (filterMap_update_of_fixed (tool?_mapQuestion _))
  | create => exact .kept rfl rfl
  | referMessage =>
    refine .kept rfl ((tools_add _).trans ((append_nil _).trans ?_))
    exact filterMap_update_of_fixed (tool?_mapMessage _)
  | ask | refer => exact .kept rfl ((tools_add _).trans (append_nil _))
  | publish | verify =>
    exact .kept rfl ((tools_add _).trans (append_nil _))

theorem transition_run (h : Transition validateVerificationEvidence s metadata payload t) :
    t.run = s.run := by
  cases h <;> rfl

section Acts

variable {invocationId other : InvocationId} {act : ToolAct} {past : List TranscriptEvent}
variable {event : TranscriptEvent}

theorem acts_kept (h : event.payload.toolAct = none) :
    acts invocationId (past ++ [event]) = acts invocationId past := by
  simp [acts, h]

theorem acts_own (h : event.payload.toolAct = some (invocationId, act)) :
    acts invocationId (past ++ [event]) = acts invocationId past ++ [act] := by
  simp [acts, h]

theorem acts_other (h : event.payload.toolAct = some (other, act)) (hne : other ≠ invocationId) :
    acts invocationId (past ++ [event]) = acts invocationId past := by
  simp [acts, h, hne]

theorem mem_acts_later (h : act ∈ acts invocationId past) :
    act ∈ acts invocationId (past ++ [event]) := by
  unfold acts at *
  rw [filterMap_append]
  exact mem_append_left _ h

end Acts

open RunProjection (View) in
/-- A run waits only for approvals that were asked for. -/
theorem view_pending {v w : View} {payload : RunEventPayload} {invocationId : InvocationId}
    (h : v.next payload = some w) (hi : invocationId ∈ w.pending) : invocationId ∈ v.pending ∨
      ∃ scopes reason, payload = .toolApprovalRequested invocationId scopes reason := by
  cases payload
  case toolApprovalRequested i scopes reason =>
    obtain ⟨-, h⟩ := Option.ite_none_right_eq_some.1 h
    cases h
    rcases Finset.mem_insert.1 hi with rfl | hi
    · exact .inr ⟨scopes, reason, rfl⟩
    · exact .inl hi
  case toolApprovalDecided =>
    obtain ⟨-, h⟩ := Option.ite_none_right_eq_some.1 h
    cases h
    exact .inl (Finset.mem_of_mem_erase hi)
  case unknown =>
    cases h
    exact .inl hi
  all_goals
    obtain ⟨-, h⟩ := Option.ite_none_right_eq_some.1 h
    cases h
    first
    | exact .inl hi
    | exact absurd hi (Finset.notMem_empty _)

open RunProjection (View) in
theorem view_decided {v w : View} {invocationId : InvocationId} {decision : ApprovalDecision}
    {scopes : List CapabilityScope} {lifetime : ApprovalGrantLifetime}
    (h : v.next (.toolApprovalDecided invocationId decision scopes lifetime) = some w) :
    invocationId ∈ v.pending := by
  obtain ⟨⟨-, hi⟩, -⟩ := Option.ite_none_right_eq_some.1 h
  exact hi

structure Tools (past : List TranscriptEvent) (s : TranscriptState) : Prop where
  distinct : Distinct TranscriptToolSummary.invocationId s.tools
  life : ∀ invocationId tool, s.tool invocationId = some tool →
    Life invocationId (acts invocationId past) tool
  unknown : ∀ invocationId, s.tool invocationId = none → acts invocationId past = []
  pending : ∀ invocationId ∈ s.run.pendingApprovalIds,
    .approvalRequested ∈ acts invocationId past

theorem tools_initial : Tools [] {} where
  distinct := nodup_nil
  life := nofun
  unknown := fun _ _ => rfl
  pending := by simp

section ToolSteps

variable {past : List TranscriptEvent} {event : TranscriptEvent} {run : RunProjection.RunState}

theorem tool_eq {u : TranscriptState} (h : t.tools = u.tools) (invocationId : InvocationId) :
    t.tool invocationId = u.tool invocationId := by
  unfold tool
  rw [h]

section

variable (h : Tools past s)

include h

theorem pending_step (hrun : RunProjection.applyChecked s.run event.runEvent = .ok run) :
    ∀ invocationId ∈ run.pendingApprovalIds,
      .approvalRequested ∈ acts invocationId (past ++ [event]) := by
  intro invocationId hmem
  rcases view_pending (RunProjection.applyChecked_view hrun) hmem with hold | ⟨scopes, reason, he⟩
  · exact mem_acts_later (h.pending invocationId hold)
  · have hact : event.payload.toolAct = some (invocationId, .approvalRequested) := by
      cases hp : event.payload with
      | run payload =>
        have hpay : payload = .toolApprovalRequested invocationId scopes reason := by
          simpa [TranscriptEvent.runEvent, hp, TranscriptPayload.runPayload] using he
        rw [hpay]
        rfl
      | artifactCreated | artifactReferenced | videoArtifactPublished
        | verificationEvidenceRecorded =>
        simp [TranscriptEvent.runEvent, hp, TranscriptPayload.runPayload] at he
    rw [acts_own hact]
    simp

/-- The run projection accepts a decision only for an approval that it waits for. -/
theorem asked_step (hrun : RunProjection.applyChecked s.run event.runEvent = .ok run)
    (hact : event.payload.toolAct = some (invocationId, act)) :
    Asked (acts invocationId past) act := by
  cases act with
  | approvalDecided decision =>
    have hpay : ∃ scopes lifetime, event.payload =
        .run (.toolApprovalDecided invocationId decision scopes lifetime) := by
      unfold TranscriptPayload.toolAct at hact
      split at hact
      all_goals first
        | (rename_i hp
           obtain ⟨rfl, hdec⟩ := Prod.mk.inj (Option.some.inj hact)
           obtain rfl := ToolAct.approvalDecided.inj hdec
           exact ⟨_, _, hp⟩)
        | cases hact
    obtain ⟨scopes, lifetime, hp⟩ := hpay
    have hview := RunProjection.applyChecked_view hrun
    rw [TranscriptEvent.runEvent, hp] at hview
    exact h.pending invocationId (view_decided hview)
  | proposed | policyDecided | approvalRequested | policyFailed | started | progressed
    | resultRecorded | errored => trivial

theorem tools_kept (hact : event.payload.toolAct = none)
    (hpend : ∀ invocationId ∈ t.run.pendingApprovalIds,
      .approvalRequested ∈ acts invocationId (past ++ [event]))
    (ht : t.tools = s.tools) : Tools (past ++ [event]) t where
  distinct := ht ▸ h.distinct
  life := by
    intro invocationId tool htool
    rw [tool_eq ht] at htool
    rw [acts_kept hact]
    exact h.life invocationId tool htool
  unknown := by
    intro invocationId hnone
    rw [tool_eq ht] at hnone
    rw [acts_kept hact]
    exact h.unknown invocationId hnone
  pending := hpend

theorem tools_proposed {toolName : String}
    (hact : event.payload.toolAct = some (invocationId, .proposed toolName))
    (hnew : s.tool invocationId = none) (hpend : ∀ invocationId ∈ t.run.pendingApprovalIds,
      .approvalRequested ∈ acts invocationId (past ++ [event]))
    (ht : t.tools = s.tools ++ [{ invocationId := invocationId, toolName := toolName }]) :
    Tools (past ++ [event]) t := by
  have hself : t.tool invocationId =
      some { invocationId := invocationId, toolName := toolName } := by
    unfold tool
    rw [ht, lookup_snoc hnew, if_pos rfl]
  have hoth (other : InvocationId) (hne : other ≠ invocationId) : t.tool other = s.tool other := by
    unfold tool
    rw [ht]
    cases hs : lookup TranscriptToolSummary.invocationId other s.tools with
    | none => rw [lookup_snoc hs, if_neg hne.symm]
    | some => exact lookup_snoc_of_some hs
  constructor
  case distinct =>
    rw [ht]
    exact distinct_snoc h.distinct hnew
  case life =>
    intro other tool htool
    by_cases he : other = invocationId
    · subst he
      obtain rfl := Option.some.inj (hself.symm.trans htool)
      rw [acts_own hact, h.unknown other hnew]
      exact .proposed toolName
    · rw [acts_other hact (Ne.symm he)]
      exact h.life other tool (hoth other he ▸ htool)
  case unknown =>
    intro other hnone
    by_cases he : other = invocationId
    · subst he
      rw [hself] at hnone
      cases hnone
    · rw [acts_other hact (Ne.symm he)]
      exact h.unknown other (hoth other he ▸ hnone)
  case pending => exact hpend

theorem tools_moved (hact : event.payload.toolAct = some (invocationId, act))
    (htool : s.tool invocationId = some tool) (hmove : ToolMove tool act next)
    (hasked : Asked (acts invocationId past) act)
    (hpend : ∀ invocationId ∈ t.run.pendingApprovalIds,
      .approvalRequested ∈ acts invocationId (past ++ [event]))
    (ht : t.tools =
      updateFirst TranscriptToolSummary.invocationId invocationId (fun _ => next) s.tools) :
    Tools (past ++ [event]) t := by
  have hid : next.invocationId = invocationId := hmove.invocationId.trans (lookup_key htool)
  have hself : t.tool invocationId = some next := by
    unfold TranscriptState.tool
    rw [ht, lookup_update_self fun _ _ => hid]
    change (s.tool invocationId).map _ = _
    rw [htool]
    rfl
  have hoth (other : InvocationId) (hne : other ≠ invocationId) : t.tool other = s.tool other := by
    unfold TranscriptState.tool
    rw [ht]
    exact lookup_update_ne (fun _ _ => hid) hne
  constructor
  case distinct =>
    rw [ht]
    exact distinct_update (fun _ _ => hid) h.distinct
  case life =>
    intro other found hfnd
    by_cases he : other = invocationId
    · subst he
      obtain rfl := Option.some.inj (hself.symm.trans hfnd)
      rw [acts_own hact]
      exact .moved (h.life other tool htool) hmove hasked
    · rw [acts_other hact (Ne.symm he)]
      exact h.life other found (hoth other he ▸ hfnd)
  case unknown =>
    intro other hnone
    by_cases he : other = invocationId
    · subst he
      rw [hself] at hnone
      cases hnone
    · rw [acts_other hact (Ne.symm he)]
      exact h.unknown other (hoth other he ▸ hnone)
  case pending => exact hpend

theorem tools_step (hs : Step validateVerificationEvidence s event t) :
    Tools (past ++ [event]) t := by
  obtain ⟨-, run, next, hrun, hnext, rfl⟩ := hs
  have hpend : ∀ invocationId ∈ next.run.pendingApprovalIds,
      .approvalRequested ∈ acts invocationId (past ++ [event]) := by
    rw [transition_run hnext]
    exact pending_step h hrun
  cases transition_tools hnext with
  | kept hact ht => exact tools_kept h hact hpend ht
  | proposed hact hnew ht => exact tools_proposed h hact hnew hpend ht
  | moved hact htool hmove ht =>
    exact tools_moved h hact htool hmove (asked_step h hrun hact) hpend ht

/-- A settled summary stays as it is through every accepted event. -/
theorem settled_step (hs : Step validateVerificationEvidence s event t)
    (htool : s.tool invocationId = some tool) (hset : Settled tool) :
    t.tool invocationId = some tool := by
  obtain ⟨-, _, next, _, hnext, rfl⟩ := hs
  cases transition_tools hnext with
  | kept _ ht => exact (tool_eq ht invocationId).trans htool
  | proposed _ _ ht =>
    change lookup _ _ next.tools = _
    rw [ht]
    exact lookup_snoc_of_some htool
  | @moved moved act before after hact hpre hmove ht =>
    have hid : after.invocationId = moved := hmove.invocationId.trans (lookup_key hpre)
    change lookup _ _ next.tools = _
    rw [ht]
    by_cases he : invocationId = moved
    · subst he
      obtain rfl := Option.some.inj (htool.symm.trans hpre)
      have hstg := life_stage (h.life invocationId tool htool)
      rw [lookup_update_self fun _ _ => hid, settled_move hstg hset hmove]
      change (s.tool invocationId).map _ = _
      rw [htool]
      rfl
    · rw [lookup_update_ne (fun _ _ => hid) he]
      exact htool

end

end ToolSteps

end Transcript
