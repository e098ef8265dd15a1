import AiForge.ConversationRequests

/-! # Exact conversation requests

A request that is accepted shows the recovered sources in their order, then the message of the
user, then the active exchange, and beside these only instructions and evidence. Its estimates
add up without wrapping. -/
namespace ConversationExactness

open Admission Content ConversationRecovery ConversationRequests List
open ConversationRequests.ConversationRequestMatch ContextBuilder KernelState
open Money (uint64Max)
open SourceRecovery Staged SummaryLog

/-- The fields of a capacity are 64-bit values. -/
structure WithinMachine (capacity : ContextCapacity) : Prop where
  contextWindow : capacity.contextWindowTokens ≤ uint64Max
  reservedOutput : capacity.reservedOutputTokens ≤ uint64Max
  reservedInput : capacity.reservedInputTokens ≤ uint64Max

/-- A context that shows the sources, the user and the active exchange as the layout has them. -/
structure ShowsExactly (sources : List ContextContentInput) (estimatorVersion : ℕ)
    (user : Message) (active : List Message) (mandatory : ℕ) (context : ConstructedContext)
    (layout : Layout) : Prop where
  entries : context.entries = layout.entries
  distinct : (context.entries.map ContextEntry.entryId).Nodup
  messages : (context.entries.map fun entry => entry.message.messageId).Nodup
  others : ∀ entry ∈ layout.others, entry.kind = .instruction ∨ entry.kind = .evidence
  admitted : List.Forall₂ Carries sources layout.admitted
  shownOnce : ∀ source ∈ sources, ∃! entry, entry ∈ context.entries ∧
    entry.entryId = source.entryId
  asked : ∃ entry, layout.asked = [entry] ∧ Asks user entry
  askedOnce : ∃! entry, entry ∈ context.entries ∧ entry.message = user
  appended : List.Forall₂ (Appends estimatorVersion) active layout.appended
  total : context.capacity.reservedInputTokens + tokens context.entries =
    context.estimatedInputTokens
  window : context.estimatedInputTokens + context.capacity.reservedOutputTokens ≤
    context.capacity.contextWindowTokens
  mandatory : mandatoryTokens context.entries + tokens layout.asked = mandatory

/-- The counters are the exact sums of what was taken, and no operation on them wraps. -/
structure Accounted (capacity : ContextCapacity) (taken : List ContextEntry)
    (state : ConversationRequestMatch) : Prop where
  total : state.totalInput = capacity.reservedInputTokens + tokens taken
  totalRoom : machineSub uint64Max state.totalInput + state.totalInput = uint64Max
  mandatory : ∃ asked : List ContextEntry, asked.Sublist taken ∧
    state.mandatory = mandatoryTokens taken + tokens asked
  mandatoryRoom : machineSub uint64Max state.mandatory + state.mandatory = uint64Max
  counters : state.users + state.matched + state.activeIndex ≤ taken.length
  window : machineSub capacity.contextWindowTokens capacity.reservedOutputTokens +
    capacity.reservedOutputTokens = capacity.contextWindowTokens

theorem add_some {total value sum : ℕ} (h : add total value = some sum) :
    sum = total + value := by
  unfold add at h
  split at h
  · cases h
  · cases h
    rfl

variable {admission : ConversationAdmission}

theorem reserved_of_valid (h : validateConversationAdmission admission = .ok ()) :
    admission.capacity.reservedOutputTokens ≤ admission.capacity.contextWindowTokens := by
  obtain ⟨_, shaped, -⟩ := bind_ok.1 h
  replace shaped := later shaped
  obtain ⟨_, -, shaped⟩ := bind_ok.1 shaped
  obtain ⟨-, shaped⟩ := guarded shaped
  obtain ⟨_, -, shaped⟩ := bind_ok.1 shaped
  obtain ⟨_, -, shaped⟩ := bind_ok.1 shaped
  obtain ⟨_, -, shaped⟩ := bind_ok.1 shaped
  obtain ⟨_, added, shaped⟩ := bind_ok.1 shaped
  have sum := add_some (require_ok.1 added)
  have fits := (ensure_ok.1 shaped).2
  omega

/-- An admission without a rolling summary context admits no summaries. -/
theorem summaries_of_valid (h : validateConversationAdmission admission = .ok ())
    (plain : ¬ (admission.version = 2 ∧ admission.mode = .rolling)) : admission.summaries = [] := by
  obtain ⟨_, shaped, -⟩ := bind_ok.1 h
  obtain ⟨version, header⟩ := guarded (shape_header shaped)
  obtain ⟨-, header⟩ := guarded header
  obtain ⟨noSummaries, -⟩ := guarded header
  by_contra some_summary
  refine noSummaries ⟨?_, some_summary⟩
  by_contra neither
  rw [not_or] at neither
  refine plain ⟨version.1.resolve_left neither.1, ?_⟩
  cases mode : admission.mode with
  | full => exact absurd mode neither.2
  | rolling => rfl

theorem admittedSummaries_ok {history : History} {log : SessionLog} {requireCurrent : Bool}
    {summaries : PreparedConversationSummaryContext}
    (valid : validateConversationAdmission admission = .ok ())
    (h : admittedSummaries history log admission requireCurrent = .ok summaries) :
    List.Forall₂ RecordsSummary admission.summaries summaries.content := by
  unfold admittedSummaries at h
  split at h
  · exact recoverConversationSummaryContext_ok h
  · rename_i plain
    cases h
    rw [summaries_of_valid valid plain]
    exact .nil

section Runs

variable {sources : List ContextContentInput} {estimatorVersion reserved : ℕ}
  {start state : ConversationRequestMatch} {taken : List ContextEntry}

/-- The places of the entries taken and what the counters say about them. -/
def Consumed (sources : List ContextContentInput) (estimatorVersion reserved : ℕ)
    (start : ConversationRequestMatch) (taken : List ContextEntry)
    (state : ConversationRequestMatch) : Prop :=
  ∃ layout : Layout, layout.entries = taken ∧ Arranged sources estimatorVersion layout state ∧
    Counted reserved layout taken state ∧ state.user = start.user ∧ state.active = start.active

section

variable (ready : start.Ready sources estimatorVersion) (total : start.totalInput = reserved)
  (bound : reserved ≤ uint64Max)

include ready total bound

theorem consumed_start : Consumed sources estimatorVersion reserved start [] start := by
  refine ⟨{}, rfl, ?_, ?_, rfl, rfl⟩
  · exact { ready with
      expected := by rw [ready.expected, ready.matched, drop_zero]
      others := forall_mem_nil _
      reached := by
        rw [ready.matched]
        exact Nat.zero_le _
      admitted := by
        rw [ready.matched, take_zero]
        exact .nil
      middle := fun some_middle => absurd rfl some_middle
      asked := forall_mem_nil _
      users := ready.users.symm
      once := by
        rw [ready.users]
        exact Nat.zero_le _
      waiting := fun _ => ⟨rfl, rfl⟩
      sent := by
        rw [ready.activeIndex]
        exact Nat.zero_le _
      appended := by
        rw [ready.activeIndex, take_zero]
        exact .nil }
  · constructor
    case total => exact total
    case totalBound => exact total ▸ bound
    case mandatory => exact ready.mandatory
    case mandatoryBound =>
      rw [ready.mandatory]
      exact Nat.zero_le _
    case seen | messageIds => exact forall_mem_nil _
    case distinct | messages => exact nodup_nil

theorem consumed_run (h : taken.foldlM consume start = some state) :
    Consumed sources estimatorVersion reserved start taken state := by
  refine RowScans.foldlM_along ?_ (consumed_start ready total bound) h
  rintro _ _ _ _ ⟨_, laid, arranged, counted, user, active⟩ step
  obtain ⟨wider, widened, placed, grown, sameUser, sameActive⟩ :=
    consume_step ready.distinct laid arranged counted step
  exact ⟨wider, widened, placed, grown, sameUser.trans user, sameActive.trans active⟩

end

theorem asked_sublist (layout : Layout) : layout.asked.Sublist layout.entries := by
  have behind := sublist_append_right (layout.before ++ layout.admitted ++ layout.middle)
    layout.asked
  have inner := behind.trans (sublist_append_left _ layout.after)
  exact inner.trans (sublist_append_left _ layout.appended)

theorem accounted_of_consumed {capacity : ContextCapacity} (machine : WithinMachine capacity)
    (room : capacity.reservedOutputTokens ≤ capacity.contextWindowTokens)
    (h : Consumed sources estimatorVersion capacity.reservedInputTokens start taken state) :
    Accounted capacity taken state := by
  obtain ⟨layout, laid, arranged, counted, -, -⟩ := h
  constructor
  case total => exact counted.total
  case totalRoom =>
    rw [machineSub_eq le_rfl counted.totalBound]
    exact Nat.sub_add_cancel counted.totalBound
  case mandatory => exact ⟨layout.asked, laid ▸ asked_sublist layout, counted.mandatory⟩
  case mandatoryRoom =>
    rw [machineSub_eq le_rfl counted.mandatoryBound]
    exact Nat.sub_add_cancel counted.mandatoryBound
  case counters =>
    have admitted := arranged.admitted.length_eq
    have appended := arranged.appended.length_eq
    rw [length_take_of_le arranged.reached] at admitted
    rw [length_take_of_le arranged.sent] at appended
    have asked := arranged.users
    have parts := congrArg List.length laid
    simp only [Layout.entries, length_append] at parts
    omega
  case window =>
    rw [machineSub_eq machine.contextWindow room]
    exact Nat.sub_add_cancel room

theorem mem_entries_of_admitted {layout : Layout} {entry : ContextEntry}
    (h : entry ∈ layout.admitted) : entry ∈ layout.entries := by
  simp [Layout.entries, h]

theorem showsExactly_of_complete
    {context : ConstructedContext} (machine : WithinMachine context.capacity)
    (room : context.capacity.reservedOutputTokens ≤ context.capacity.contextWindowTokens)
    (h : Consumed sources estimatorVersion context.capacity.reservedInputTokens start
      context.entries state)
    (complete : state.complete admission context) :
    ∃ layout, ShowsExactly sources estimatorVersion start.user start.active
      admission.mandatoryInputTokens context layout := by
  obtain ⟨layout, laid, arranged, counted, user, active⟩ := h
  simp only [ConversationRequestMatch.complete, Bool.and_eq_true, beq_iff_eq, List.isEmpty_iff,
    decide_eq_true_eq] at complete
  obtain ⟨⟨⟨⟨⟨noneLeft, one⟩, allSent⟩, mandatory⟩, total⟩, fits⟩ := complete
  rw [machineSub_eq machine.contextWindow room] at fits
  have finished : state.matched = sources.length := by
    have left := congrArg List.length (arranged.expected.symm.trans noneLeft)
    rw [List.length_drop, List.length_nil] at left
    have reached := arranged.reached
    omega
  have admitted : List.Forall₂ Carries sources layout.admitted := by
    have rows := arranged.admitted
    rwa [finished, List.take_length] at rows
  obtain ⟨asking, known⟩ := List.length_eq_one_iff.1 (arranged.users.trans one)
  have asks : Asks start.user asking := by
    rw [← user]
    exact arranged.asked asking (by rw [known]; exact List.mem_singleton_self _)
  have shown : asking ∈ context.entries := by
    rw [← laid]
    exact (asked_sublist layout).subset (by rw [known]; exact List.mem_singleton_self _)
  refine ⟨layout, ?_⟩
  exact { counted with
    entries := laid.symm
    others := by
      intro entry among
      simpa [mandatoryKind] using arranged.others entry among
    admitted := admitted
    shownOnce := by
      intro source among
      obtain ⟨entry, held, carries⟩ := RowScans.exists_of_forall₂ admitted among
      have shown : entry ∈ context.entries := laid ▸ mem_entries_of_admitted held
      refine ⟨entry, ⟨shown, carries.entryId⟩, ?_⟩
      rintro _ ⟨present, same⟩
      exact List.inj_on_of_nodup_map counted.distinct present shown (same.trans carries.entryId.symm)
    asked := ⟨asking, known, asks⟩
    askedOnce := by
      refine ⟨asking, ⟨shown, asks.message⟩, ?_⟩
      rintro _ ⟨present, same⟩
      refine List.inj_on_of_nodup_map counted.messages present shown ?_
      exact congrArg Message.messageId (same.trans asks.message.symm)
    appended := by
      have rows := arranged.appended
      rw [allSent, List.take_length, active] at rows
      exact rows
    total := counted.total.symm.trans total
    window := by omega
    mandatory := counted.mandatory.symm.trans mandatory }

end Runs

section Requests

variable {history : History} {log : SessionLog} {admission : ConversationAdmission}
  {userMessage : Message} {request : BackendRequest} {activeMessages : List Message}
  {errorCode : RunKernelErrorCode} {requireCurrent : Bool} {start : ConversationRequestMatch}

theorem startMatch_ok (h : startMatch history log admission userMessage request activeMessages
      errorCode requireCurrent = .ok start) :
    ∃ groups summaries,
      recoverConversationContext history log admission {} = .ok groups ∧
      admittedSummaries history log admission requireCurrent = .ok summaries ∧
      admission.capacity = request.context.capacity ∧
      start.Ready (summaries.content ++ contentOf groups) admission.estimatorVersion ∧
      start.user = userMessage ∧ start.active = activeMessages ∧
      start.totalInput = request.context.capacity.reservedInputTokens := by
  obtain ⟨fixed, h⟩ := guarded h
  obtain ⟨groups, resolved, h⟩ := bind_ok.1 h
  obtain ⟨summaries, restored, h⟩ := bind_ok.1 h
  obtain ⟨ready, user, active, total⟩ := initializeMatch_ready rfl (require_ok.1 h)
  simp only [not_or, not_not] at fixed
  exact ⟨groups, summaries, mapError_ok.1 resolved, mapError_ok.1 restored, fixed.2.1,
    ready, user, active, total⟩

end Requests

/-- What an accepted request shows, and that nothing wraps on the way to any answer. -/
theorem request_matches_admission :
    (∀ (history : History) (log : SessionLog) (admission : ConversationAdmission)
      (userMessage : Message) (request : BackendRequest) (activeMessages : List Message)
      (errorCode : RunKernelErrorCode) (requireCurrent : Bool),
      WithinMachine request.context.capacity →
      validateConversationRequest history log admission userMessage request activeMessages
        errorCode requireCurrent = .ok () →
      ∃ groups summaries layout,
        recoverConversationContext history log admission {} = .ok groups ∧
        List.Forall₂ Records (admission.groups.flatMap ConversationAdmittedGroup.entries)
          (contentOf groups) ∧
        admittedSummaries history log admission requireCurrent = .ok summaries ∧
        List.Forall₂ RecordsSummary admission.summaries summaries.content ∧
        ShowsExactly (summaries.content ++ contentOf groups) admission.estimatorVersion
          userMessage activeMessages admission.mandatoryInputTokens request.context layout) ∧
    (∀ (history : History) (log : SessionLog) (admission : ConversationAdmission)
      (userMessage : Message) (request : BackendRequest) (activeMessages : List Message)
      (errorCode : RunKernelErrorCode) (requireCurrent : Bool)
      (start state : ConversationRequestMatch) (taken : List ContextEntry),
      WithinMachine request.context.capacity →
      startMatch history log admission userMessage request activeMessages errorCode
        requireCurrent = .ok start →
      taken <+: request.context.entries → taken.foldlM consume start = some state →
      Accounted request.context.capacity taken state) := by
  constructor
  · intro history log admission userMessage request activeMessages errorCode requireCurrent
      machine h
    obtain ⟨start, started, h⟩ := bind_ok.1 h
    obtain ⟨state, consumed, h⟩ := bind_ok.1 h
    have complete := ensure_ok.1 h
    obtain ⟨groups, summaries, resolved, restored, capacity, ready, user, active, total⟩ :=
      startMatch_ok started
    obtain ⟨valid, recorded⟩ := recoverConversationContext_ok resolved
    have room := reserved_of_valid valid
    rw [capacity] at room
    have run := consumed_run ready total machine.reservedInput (require_ok.1 consumed)
    obtain ⟨layout, shows⟩ := showsExactly_of_complete machine room run complete
    rw [user, active] at shows
    exact ⟨groups, summaries, layout, resolved, recorded, restored,
      admittedSummaries_ok valid restored, shows⟩
  · intro history log admission userMessage request activeMessages errorCode requireCurrent
      start state taken machine started _ consumed
    obtain ⟨groups, summaries, resolved, -, capacity, ready, -, -, total⟩ :=
      startMatch_ok started
    have room := reserved_of_valid (recoverConversationContext_ok resolved).1
    rw [capacity] at room
    exact accounted_of_consumed machine room
      (consumed_run ready total machine.reservedInput consumed)

def sampleAdmission : ConversationAdmission where
  version := 2
  sessionId := "session"
  modelId := "model"
  sourceSnapshotSequence := 3
  policyEventId := none
  policyRevision := 0
  mode := .full
  capacity := ⟨1000, 100, 50⟩
  mandatoryInputTokens := 50
  groups := [⟨"talk", [SummaryProjection.sampleEntry], false⟩]
  omittedGroupCount := 0
  omittedGroupsDigest := none
  admissionDigest := none

def sampleSealed : ConversationAdmission :=
  { sampleAdmission with
    admissionDigest := some (Sealing.contentDigest (encoding sampleAdmission)) }

def sampleText (id : MessageId) (role : Role) (text : String) : Message :=
  ⟨id, role, [.text (SafeText.bytesOf text)], none, []⟩

def sampleShown (kind : ContextBuilder.ContextEntryKind) (message : Message) (order tokens : ℕ) :
    ContextEntry :=
  ⟨message.messageId, kind, none, message, ⟨message.messageId, none, none⟩, 0, order, tokens⟩

def sampleQuestion : ContextEntry where
  entryId := "history-entry-2"
  kind := .conversation
  instructionLayer := none
  message := SummaryProjection.sampleMessage
  provenance := SummaryProjection.sampleContent.provenance
  specificity := 0
  order := 1
  estimatedTokens := 26

def sampleRequest : BackendRequest where
  modelId := "model"
  context := {
    entries := [
      sampleShown .instruction (sampleText "runtime" .system "Answer.") 1 20,
      sampleQuestion,
      sampleShown .conversation (sampleText "next" .user "And now?") 2 30,
      sampleShown .conversation (sampleText "reply" .assistant "ok") 3 26]
    decisions := []
    capacity := ⟨1000, 100, 50⟩
    estimatedInputTokens := 152 }

theorem sampleRequest_valid :
    validateConversationRequest SummaryProjection.sampleHistory SummaryProjection.sampleLog
      sampleSealed (sampleText "next" .user "And now?") sampleRequest
      [sampleText "reply" .assistant "ok"] .continuationNotReady true = .ok () := by
  have hseal : validateConversationAdmission sampleSealed = .ok () :=
    validate_eq_ok.2 ⟨by decide +kernel, by decide +kernel, rfl⟩
  rw [validateConversationRequest, startMatch, recoverConversationContext, validateInSession,
    hseal]
  decide +kernel

theorem sampleRequest_shown : (∃ groups summaries layout,
      recoverConversationContext SummaryProjection.sampleHistory SummaryProjection.sampleLog
        sampleSealed {} = .ok groups ∧
      List.Forall₂ Records [SummaryProjection.sampleEntry] (contentOf groups) ∧
      admittedSummaries SummaryProjection.sampleHistory SummaryProjection.sampleLog sampleSealed
        true = .ok summaries ∧
      List.Forall₂ RecordsSummary [] summaries.content ∧
      ShowsExactly (summaries.content ++ contentOf groups) 1
        (sampleText "next" .user "And now?") [sampleText "reply" .assistant "ok"] 50
        sampleRequest.context layout) ∧
    ∃ start state,
      startMatch SummaryProjection.sampleHistory SummaryProjection.sampleLog sampleSealed
        (sampleText "next" .user "And now?") sampleRequest [sampleText "reply" .assistant "ok"]
        .continuationNotReady true = .ok start ∧
      Accounted sampleRequest.context.capacity sampleRequest.context.entries state := by
  have machine : WithinMachine sampleRequest.context.capacity :=
    ⟨by decide, by decide, by decide⟩
  refine ⟨request_matches_admission.1 _ _ _ _ _ _ _ _ machine sampleRequest_valid, ?_⟩
  obtain ⟨start, started, h⟩ := bind_ok.1 sampleRequest_valid
  obtain ⟨state, consumed, -⟩ := bind_ok.1 h
  exact ⟨start, state, started, request_matches_admission.2 _ _ _ _ _ _ _ _ start state _ machine
    started (prefix_refl _) (require_ok.1 consumed)⟩

end ConversationExactness
