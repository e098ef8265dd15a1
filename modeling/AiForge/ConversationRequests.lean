import AiForge.ConversationRecovery
import AiForge.KernelState
import AiForge.RowScans

/-! # Requests and their admissions

A request shows what its admission admits. One pass over the entries of the context checks them
against the recovered sources, the message of the user and the messages of the active exchange. -/
namespace ConversationRequests

open Admission Content ContextBuilder ConversationRecovery KernelState Money SourceRecovery Staged
open List SummaryGeneration SummaryLog ContextContentInput Option

/-- Sums and differences of 64-bit values. -/
def machineAdd (first second : ℕ) : ℕ := (first + second) % 2 ^ 64

def machineSub (first second : ℕ) : ℕ := (first + 2 ^ 64 - second) % 2 ^ 64

/-- The expected contents stand for the map from their identities. -/
structure ConversationRequestMatch where
  user : Message
  active : List Message
  expected : List ContextContentInput := []
  sourceOrder : List ContextEntryId := []
  activeEstimates : List ℕ := []
  seen : Finset ContextEntryId := ∅
  messageIds : Finset MessageId := ∅
  totalInput : ℕ
  (mandatory lastHistoryOrder previousContentOrder users matched activeIndex : ℕ := 0)

namespace ConversationRequestMatch

def expect (state : ConversationRequestMatch) (content : ContextContentInput) :
    Option ConversationRequestMatch :=
  if state.expected.any fun known => known.entryId == content.entryId then none
  else some { state with
    expected := state.expected ++ [content]
    sourceOrder := state.sourceOrder ++ [content.entryId]
    lastHistoryOrder := content.order }

def initializeMatch (state : ConversationRequestMatch) (history : List ConversationHistoryGroup)
    (summaries : List ContextContentInput) (estimatorVersion : ℕ) :
    Option ConversationRequestMatch := do
  let state ← summaries.foldlM expect state
  let state ← history.foldlM
    (fun state group => group.entries.foldlM (fun state entry => state.expect entry.content) state)
    state
  let estimates ← state.active.mapM fun message =>
    (estimateConversationMessage message estimatorVersion {}).toOption
  return { state with activeEstimates := estimates }

def consumeMandatory (state : ConversationRequestMatch) (entry : ContextEntry) :
    Option ConversationRequestMatch :=
  if entry.estimatedTokens > machineSub uint64Max state.mandatory then none
  else some { state with
    mandatory := machineAdd state.mandatory entry.estimatedTokens
    previousContentOrder :=
      if entry.kind = .instruction then state.previousContentOrder
      else max state.previousContentOrder entry.order }

def historyKind : ContextContentKind → ContextEntryKind
  | .toolResult => .toolResult
  | .evidence => .evidence
  | _ => .conversation

def consumeHistory (state : ConversationRequestMatch) (entry : ContextEntry)
    (value : ContextContentInput) : Option ConversationRequestMatch :=
  if state.users ≠ 0 ∨ state.sourceOrder[state.matched]? ≠ some entry.entryId ∨
      entry.order ≤ state.previousContentOrder then none
  else if entry.kind ≠ historyKind value.kind ∨ entry.instructionLayer.isSome ∨
      entry.specificity ≠ 0 ∨ entry.message ≠ value.message ∨
      entry.provenance ≠ value.provenance ∨ entry.order ≠ value.order ∨
      entry.estimatedTokens ≠ value.estimatedTokens then none
  else
    let next := { state with
      expected := state.expected.filter fun source => source.entryId != entry.entryId
      matched := state.matched + 1
      previousContentOrder := entry.order }
    if entry.kind ≠ .evidence then some next else next.consumeMandatory entry

def consumeUser (state : ConversationRequestMatch) (entry : ContextEntry) :
    Option ConversationRequestMatch :=
  let next := { state with users := state.users + 1 }
  if next.users ≠ 1 ∨ next.activeIndex ≠ 0 ∨ entry.instructionLayer.isSome ∨
      entry.specificity ≠ 0 ∨ entry.order ≤ next.lastHistoryOrder ∨
      entry.order ≤ next.previousContentOrder then none
  else next.consumeMandatory entry

def activeKind (message : Message) : ContextEntryKind :=
  if message.role = .tool then .toolResult else .conversation

def consumeActive (state : ConversationRequestMatch) (entry : ContextEntry) :
    Option ConversationRequestMatch :=
  if state.users ≠ 1 ∨ state.activeIndex = state.active.length then none
  else
    match state.active[state.activeIndex]?, state.activeEstimates[state.activeIndex]? with
    | some message, some estimate =>
      if entry.kind ≠ activeKind message ∨ entry.message ≠ message ∨
          entry.instructionLayer.isSome ∨ entry.specificity ≠ 0 ∨
          entry.order ≤ state.previousContentOrder ∨ entry.estimatedTokens ≠ estimate then none
      else some { state with
        activeIndex := state.activeIndex + 1
        previousContentOrder := entry.order }
    | _, _ => none

def note (state : ConversationRequestMatch) (entry : ContextEntry) : ConversationRequestMatch :=
  { state with
    seen := insert entry.entryId state.seen
    messageIds := insert entry.message.messageId state.messageIds
    totalInput := machineAdd state.totalInput entry.estimatedTokens }

def classify (state : ConversationRequestMatch) (entry : ContextEntry) :
    Option ConversationRequestMatch :=
  match state.expected.find? fun source => source.entryId == entry.entryId with
  | some source => state.consumeHistory entry source
  | none =>
    if state.matched ≠ 0 ∧ state.matched ≠ state.sourceOrder.length then none
    else if entry.kind = .conversation ∧ entry.message = state.user then state.consumeUser entry
    else if entry.kind = .conversation ∨ entry.kind = .toolResult then state.consumeActive entry
    -- Once appended exchanges start, nothing can interrupt their provider order.
    else if state.activeIndex ≠ 0 then none
    else state.consumeMandatory entry

def consume (state : ConversationRequestMatch) (entry : ContextEntry) :
    Option ConversationRequestMatch :=
  if entry.entryId ∈ state.seen ∨ entry.message.messageId ∈ state.messageIds ∨
      entry.estimatedTokens > machineSub uint64Max state.totalInput then none
  else (state.note entry).classify entry

def complete (state : ConversationRequestMatch) (admission : ConversationAdmission)
    (context : ConstructedContext) : Bool :=
  state.expected.isEmpty && state.users == 1 && state.activeIndex == state.active.length &&
    state.mandatory == admission.mandatoryInputTokens &&
    state.totalInput == context.estimatedInputTokens &&
    decide (state.totalInput ≤ machineSub context.capacity.contextWindowTokens
      context.capacity.reservedOutputTokens)

end ConversationRequestMatch

structure BackendRequest where
  modelId : ModelId
  context : ConstructedContext

def admittedSummaries (history : History) (log : SessionLog) (admission : ConversationAdmission)
    (requireCurrentSummaries : Bool) : Summarized PreparedConversationSummaryContext :=
  if admission.version = 2 ∧ admission.mode = .rolling then
    recoverConversationSummaryContext history log admission.summaries
      admission.sourceSnapshotSequence {} requireCurrentSummaries
  else .ok {}

def rejected (errorCode : RunKernelErrorCode) : RunKernelError :=
  ⟨errorCode, "conversation admission does not match its source or request", false⟩

def startMatch (history : History) (log : SessionLog) (admission : ConversationAdmission)
    (userMessage : Message) (request : BackendRequest) (activeMessages : List Message)
    (errorCode : RunKernelErrorCode) (requireCurrentSummaries : Bool) :
    Except RunKernelError ConversationRequestMatch := do
  ensure (¬ (admission.modelId ≠ request.modelId ∨
      admission.capacity ≠ request.context.capacity ∨ request.context.entries.length > 65536))
    (rejected errorCode)
  let resolved ← (recoverConversationContext history log admission {}).mapError
    fun _ => rejected errorCode
  let summaries ← (admittedSummaries history log admission requireCurrentSummaries).mapError
    fun _ => rejected errorCode
  let start : ConversationRequestMatch := {
    user := userMessage
    active := activeMessages
    totalInput := request.context.capacity.reservedInputTokens }
  require (start.initializeMatch resolved summaries.content admission.estimatorVersion)
    (rejected errorCode)

def validateConversationRequest (history : History) (log : SessionLog)
    (admission : ConversationAdmission) (userMessage : Message) (request : BackendRequest)
    (activeMessages : List Message) (errorCode : RunKernelErrorCode)
    (requireCurrentSummaries : Bool) : Except RunKernelError Unit := do
  let start ← startMatch history log admission userMessage request activeMessages errorCode
    requireCurrentSummaries
  let state ← require
    (request.context.entries.foldlM ConversationRequestMatch.consume start) (rejected errorCode)
  ensure (state.complete admission request.context) (rejected errorCode)

theorem machineAdd_eq {first second : ℕ} (h : first + second ≤ uint64Max) :
    machineAdd first second = first + second := by
  unfold machineAdd
  have top : uint64Max = 2 ^ 64 - 1 := rfl
  omega

theorem machineSub_eq {first second : ℕ} (bound : first ≤ uint64Max) (h : second ≤ first) :
    machineSub first second = first - second := by
  unfold machineSub
  have top : uint64Max = 2 ^ 64 - 1 := rfl
  omega

theorem machineAdd_fits {total value : ℕ} (bound : total ≤ uint64Max)
    (fits : ¬ value > machineSub uint64Max total) :
    machineAdd total value = total + value ∧ total + value ≤ uint64Max := by
  rw [machineSub_eq le_rfl bound] at fits
  have fits : total + value ≤ uint64Max := by omega
  exact ⟨machineAdd_eq fits, fits⟩

namespace ConversationRequestMatch

/-- The match before the first entry: it expects the sources in their order. -/
structure Ready (start : ConversationRequestMatch) (sources : List ContextContentInput)
    (estimatorVersion : ℕ) : Prop where
  expected : start.expected = sources
  sourceOrder : start.sourceOrder = sources.map ContextContentInput.entryId
  distinct : (sources.map ContextContentInput.entryId).Nodup
  estimates : List.Forall₂
    (fun message estimate => estimateConversationMessage message estimatorVersion {} = .ok estimate)
    start.active start.activeEstimates
  seen : start.seen = ∅
  messageIds : start.messageIds = ∅
  mandatory : start.mandatory = 0
  users : start.users = 0
  matched : start.matched = 0
  activeIndex : start.activeIndex = 0

/-- What the loops over the sources have added. -/
structure Expects (start : ConversationRequestMatch) (done : List ContextContentInput)
    (state : ConversationRequestMatch) : Prop where
  same : state = { start with
    expected := done
    sourceOrder := done.map ContextContentInput.entryId
    lastHistoryOrder := state.lastHistoryOrder }
  distinct : (done.map ContextContentInput.entryId).Nodup

variable {state : ConversationRequestMatch}

theorem expects_expect {start next : ConversationRequestMatch}
    {done : List ContextContentInput} {content : ContextContentInput}
    (h : Expects start done state) (step : state.expect content = some next) :
    Expects start (done ++ [content]) next := by
  unfold expect at step
  split at step
  · cases step
  · rename_i unknown
    cases step
    have expected : state.expected = done := by rw [h.same]
    have sourceOrder : state.sourceOrder = done.map entryId := by rw [h.same]
    constructor
    · rw [expected, sourceOrder, h.same, map_append]
      rfl
    · rw [map_append, map_singleton, ← concat_eq_append]
      refine List.Nodup.concat ?_ h.distinct
      intro among
      obtain ⟨known, held, same⟩ := mem_map.1 among
      refine unknown (any_eq_true.2 ⟨known, ?_, ?_⟩)
      · rw [expected]
        exact held
      · exact beq_iff_eq.2 same

theorem expects_groups (groups : List ConversationHistoryGroup) : groups.foldlM
        (fun state group => group.entries.foldlM (fun state entry => state.expect entry.content)
          state) state =
      (contentOf groups).foldlM expect state := by
  induction groups generalizing state with
  | nil => rfl
  | cons _ _ ih =>
    rw [List.foldlM_cons, contentOf, List.flatMap_cons, List.foldlM_append, List.foldlM_map]
    congr 1
    funext next
    exact ih

theorem initializeMatch_ready {start : ConversationRequestMatch}
    {groups : List ConversationHistoryGroup} {summaries : List ContextContentInput}
    {estimatorVersion : ℕ}
    (blank : start = { user := start.user, active := start.active, totalInput := start.totalInput })
    (h : start.initializeMatch groups summaries estimatorVersion = some state) :
    state.Ready (summaries ++ contentOf groups) estimatorVersion ∧ state.user = start.user ∧
      state.active = start.active ∧ state.totalInput = start.totalInput := by
  obtain ⟨_, first, h⟩ := bind_eq_some_iff.1 h
  obtain ⟨expecting, second, h⟩ := bind_eq_some_iff.1 h
  obtain ⟨_, estimated, h⟩ := bind_eq_some_iff.1 h
  cases h
  rw [expects_groups] at second
  have both : (summaries ++ contentOf groups).foldlM expect start = some expecting := by
    rw [foldlM_append, first]
    exact second
  obtain ⟨same, distinct⟩ := RowScans.foldlM_along (I := Expects start)
    (fun _ _ _ _ held step => expects_expect held step)
    ⟨by rw [blank]; rfl, nodup_nil⟩ both
  rw [same, blank]
  rw [same] at estimated
  exact ⟨⟨rfl, rfl, distinct, mapM_eq_ok.1 (mapM_toOption estimated), rfl, rfl, rfl, rfl, rfl, rfl⟩, rfl, rfl, rfl⟩

/-- An entry that shows a source unchanged. -/
structure Carries (source : ContextContentInput) (entry : ContextEntry) : Prop where
  entryId : entry.entryId = source.entryId
  kind : entry.kind = historyKind source.kind
  instructionLayer : entry.instructionLayer = none
  specificity : entry.specificity = 0
  message : entry.message = source.message
  provenance : entry.provenance = source.provenance
  order : entry.order = source.order
  estimatedTokens : entry.estimatedTokens = source.estimatedTokens

structure Asks (user : Message) (entry : ContextEntry) : Prop where
  kind : entry.kind = .conversation
  message : entry.message = user
  instructionLayer : entry.instructionLayer = none
  specificity : entry.specificity = 0

/-- An entry that shows a message of the active exchange with an estimate of its own. -/
structure Appends (estimatorVersion : ℕ) (sent : Message) (entry : ContextEntry) : Prop where
  kind : entry.kind = activeKind sent
  message : entry.message = sent
  instructionLayer : entry.instructionLayer = none
  specificity : entry.specificity = 0
  estimatedTokens :
    estimateConversationMessage sent estimatorVersion {} = .ok entry.estimatedTokens

def mandatoryKind (entry : ContextEntry) : Bool :=
  entry.kind == .instruction || entry.kind == .evidence

def tokens (entries : List ContextEntry) : ℕ := (entries.map ContextEntry.estimatedTokens).sum

def mandatoryTokens (entries : List ContextEntry) : ℕ := tokens (entries.filter mandatoryKind)

theorem tokens_append (entries : List ContextEntry) (entry : ContextEntry) :
    tokens (entries ++ [entry]) = tokens entries + entry.estimatedTokens := by
  simp [tokens]

theorem mandatoryTokens_append (entries : List ContextEntry) (entry : ContextEntry) :
    mandatoryTokens (entries ++ [entry]) =
      mandatoryTokens entries + if mandatoryKind entry then entry.estimatedTokens else 0 := by
  unfold mandatoryTokens
  rw [filter_append]
  by_cases h : mandatoryKind entry
  · rw [filter_cons_of_pos h, if_pos h, filter_nil, tokens_append]
  · rw [filter_cons_of_neg h, if_neg h, filter_nil, append_nil, Nat.add_zero]

variable {state next : ConversationRequestMatch} {entry : ContextEntry}

theorem consumeMandatory_ok (h : state.consumeMandatory entry = some next)
    (bound : state.mandatory ≤ uint64Max) : state.mandatory + entry.estimatedTokens ≤ uint64Max ∧
      next = { state with
        mandatory := state.mandatory + entry.estimatedTokens
        previousContentOrder := next.previousContentOrder } := by
  unfold consumeMandatory at h
  split at h
  · cases h
  · rename_i fits
    obtain ⟨added, within⟩ := machineAdd_fits bound fits
    cases h
    exact ⟨within, by dsimp only; rw [added]⟩

variable {value : ContextContentInput}

theorem consumeHistory_ok (same : value.entryId = entry.entryId)
    (h : state.consumeHistory entry value = some next) (bound : state.mandatory ≤ uint64Max) :
    Carries value entry ∧ state.users = 0 ∧
      state.sourceOrder[state.matched]? = some entry.entryId ∧
      state.mandatory + (if mandatoryKind entry then entry.estimatedTokens else 0) ≤ uint64Max ∧
      next = { state with
        expected := state.expected.filter fun source => source.entryId != entry.entryId
        matched := state.matched + 1
        mandatory := state.mandatory + if mandatoryKind entry then entry.estimatedTokens else 0
        previousContentOrder := next.previousContentOrder } := by
  unfold consumeHistory at h
  split at h
  · cases h
  rename_i free
  split at h
  · cases h
  rename_i alike
  simp only [not_or, not_not, Bool.not_eq_true, isSome_eq_false_iff,
    isNone_iff_eq_none] at free alike
  obtain ⟨noUser, next_in_order, -⟩ := free
  obtain ⟨kind, layer, specificity, message, provenance, order, estimate⟩ := alike
  have carries : Carries value entry :=
    ⟨same.symm, kind, layer, specificity, message, provenance, order, estimate⟩
  have notInstruction : entry.kind ≠ .instruction := by
    rw [kind]
    cases value.kind <;> simp [historyKind]
  split at h
  · rename_i plain
    have free : mandatoryKind entry = false := by simp [mandatoryKind, plain, notInstruction]
    cases h
    rw [free]
    exact ⟨carries, noUser, next_in_order, bound, rfl⟩
  · rename_i evidence
    have counted : mandatoryKind entry := by
      rw [not_not] at evidence
      simp [mandatoryKind, evidence]
    obtain ⟨within, result⟩ := consumeMandatory_ok h bound
    rw [counted]
    exact ⟨carries, noUser, next_in_order, within, result⟩

theorem consumeUser_ok (isUser : entry.kind = .conversation ∧ entry.message = state.user)
    (h : state.consumeUser entry = some next) (bound : state.mandatory ≤ uint64Max) :
    Asks state.user entry ∧ state.users = 0 ∧
      state.mandatory + entry.estimatedTokens ≤ uint64Max ∧ next = { state with
        users := 1
        mandatory := state.mandatory + entry.estimatedTokens
        previousContentOrder := next.previousContentOrder } := by
  unfold consumeUser at h
  dsimp only at h
  split at h
  · cases h
  rename_i free
  simp only [not_or, not_not, Bool.not_eq_true, isSome_eq_false_iff,
    isNone_iff_eq_none] at free
  obtain ⟨_, -, layer, specificity, -⟩ := free
  have noUser : state.users = 0 := by omega
  obtain ⟨within, result⟩ := consumeMandatory_ok h bound
  rw [noUser] at result
  exact ⟨⟨isUser.1, isUser.2, layer, specificity⟩, noUser, within, result⟩

theorem consumeActive_ok (h : state.consumeActive entry = some next) :
    ∃ message estimate, state.active[state.activeIndex]? = some message ∧
      state.activeEstimates[state.activeIndex]? = some estimate ∧
      entry.kind = activeKind message ∧ entry.message = message ∧
      entry.instructionLayer = none ∧ entry.specificity = 0 ∧ entry.estimatedTokens = estimate ∧
      state.users = 1 ∧ next = { state with
        activeIndex := state.activeIndex + 1
        previousContentOrder := next.previousContentOrder } := by
  unfold consumeActive at h
  split at h
  · cases h
  rename_i ready
  split at h
  · rename_i message estimate known priced
    split at h
    · cases h
    · rename_i alike
      simp only [not_or, not_not, Bool.not_eq_true, isSome_eq_false_iff,
        isNone_iff_eq_none] at ready alike
      obtain ⟨kind, sameMessage, layer, specificity, -, same⟩ := alike
      cases h
      exact ⟨message, estimate, known, priced, kind, sameMessage, layer, specificity, same,
        ready.1, rfl⟩
  · cases h

/-- The parts of a context, in their order. -/
structure Layout where
  (before admitted middle asked after appended : List ContextEntry := [])

namespace Layout

def entries (layout : Layout) : List ContextEntry :=
  layout.before ++ layout.admitted ++ layout.middle ++ layout.asked ++ layout.after ++
    layout.appended

/-- Entries that show neither a source nor a message of the run. -/
def others (layout : Layout) : List ContextEntry := layout.before ++ layout.middle ++ layout.after

end Layout

/-- How far the match has come through the parts. -/
structure Arranged (sources : List ContextContentInput) (estimatorVersion : ℕ) (layout : Layout)
    (state : ConversationRequestMatch) : Prop where
  expected : state.expected = sources.drop state.matched
  sourceOrder : state.sourceOrder = sources.map ContextContentInput.entryId
  estimates : List.Forall₂
    (fun message estimate => estimateConversationMessage message estimatorVersion {} = .ok estimate)
    state.active state.activeEstimates
  others : ∀ entry ∈ layout.others, mandatoryKind entry = true
  reached : state.matched ≤ sources.length
  admitted : List.Forall₂ Carries (sources.take state.matched) layout.admitted
  middle : layout.middle ≠ [] → state.matched = sources.length
  asked : ∀ entry ∈ layout.asked, Asks state.user entry
  users : layout.asked.length = state.users
  once : state.users ≤ 1
  waiting : state.users = 0 → layout.after = [] ∧ layout.appended = []
  sent : state.activeIndex ≤ state.active.length
  appended : List.Forall₂ (Appends estimatorVersion) (state.active.take state.activeIndex)
    layout.appended

/-- What the counters and the sets of the match say about the entries so far. -/
structure Counted (reserved : ℕ) (layout : Layout) (done : List ContextEntry)
    (state : ConversationRequestMatch) : Prop where
  total : state.totalInput = reserved + tokens done
  totalBound : state.totalInput ≤ uint64Max
  mandatory : state.mandatory = mandatoryTokens done + tokens layout.asked
  mandatoryBound : state.mandatory ≤ uint64Max
  seen : ∀ entry ∈ done, entry.entryId ∈ state.seen
  distinct : (done.map ContextEntry.entryId).Nodup
  messageIds : ∀ entry ∈ done, entry.message.messageId ∈ state.messageIds
  messages : (done.map fun entry => entry.message.messageId).Nodup

section Steps

variable {sources : List ContextContentInput} {estimatorVersion reserved : ℕ} {layout : Layout}
  {done : List ContextEntry}

theorem nodup_concat {κ : Type} {key : ContextEntry → κ} (distinct : (done.map key).Nodup)
    (fresh : ∀ other ∈ done, key other ≠ key entry) : ((done ++ [entry]).map key).Nodup := by
  rw [map_append, map_singleton, ← concat_eq_append]
  refine List.Nodup.concat ?_ distinct
  intro among
  obtain ⟨other, held, same⟩ := mem_map.1 among
  exact fresh other held same

theorem next_source (distinct : (sources.map entryId).Nodup)
    (arranged : Arranged sources estimatorVersion layout state)
    (found : (state.expected.find? fun source => source.entryId == entry.entryId) = some value)
    (inOrder : state.sourceOrder[state.matched]? = some entry.entryId) :
    sources.drop state.matched = value :: sources.drop (state.matched + 1) ∧
      state.expected.filter (fun source => source.entryId != entry.entryId) =
        sources.drop (state.matched + 1) := by
  rw [arranged.sourceOrder, List.getElem?_map] at inOrder
  obtain ⟨source, known, same⟩ := map_eq_some_iff.1 inOrder
  obtain ⟨inside, known⟩ := List.getElem?_eq_some_iff.1 known
  have split : sources.drop state.matched = source :: sources.drop (state.matched + 1) := by
    rw [drop_eq_getElem_cons inside, known]
  rw [arranged.expected, split, List.find?_cons_of_pos (by simp [same])] at found
  cases found
  refine ⟨split, ?_⟩
  have later : ((sources.drop state.matched).map entryId).Nodup :=
    distinct.sublist ((drop_sublist _ _).map _)
  rw [split, map_cons, nodup_cons] at later
  rw [arranged.expected, split, filter_cons_of_neg (by simp [same])]
  refine filter_eq_self.2 ?_
  intro other held
  rw [bne_iff_ne]
  intro repeated
  refine later.1 (mem_map.2 ⟨other, held, ?_⟩)
  rw [repeated, same]

theorem arranged_history (order mandatory : ℕ)
    (distinct : (sources.map entryId).Nodup)
    (arranged : Arranged sources estimatorVersion layout state)
    (found : (state.expected.find? fun source => source.entryId == entry.entryId) = some value)
    (inOrder : state.sourceOrder[state.matched]? = some entry.entryId)
    (carries : Carries value entry) (noUser : state.users = 0) :
    layout.middle ++ layout.asked ++ layout.after ++ layout.appended = [] ∧
      Arranged sources estimatorVersion { layout with admitted := layout.admitted ++ [entry] }
        { state with
          expected := state.expected.filter fun source => source.entryId != entry.entryId
          matched := state.matched + 1
          mandatory := mandatory
          previousContentOrder := order } := by
  obtain ⟨split, rest⟩ := next_source distinct arranged found inOrder
  have inside : state.matched < sources.length := by
    by_contra outside
    rw [drop_eq_nil_of_le (by omega)] at split
    cases split
  have noMiddle : layout.middle = [] := by
    by_contra some_middle
    have finished := arranged.middle some_middle
    omega
  have noAsked : layout.asked = [] := length_eq_zero_iff.1 (arranged.users.trans noUser)
  obtain ⟨noAfter, noAppended⟩ := arranged.waiting noUser
  have taken : sources.take (state.matched + 1) = sources.take state.matched ++ [value] := by
    have head : sources[state.matched]? = some value := by
      have := congrArg List.head? split
      rwa [List.head?_drop] at this
    rw [take_add_one, head]
    rfl
  refine ⟨by rw [noMiddle, noAsked, noAfter, noAppended]; rfl, ?_⟩
  exact { arranged with
    expected := rest
    reached := by
      change state.matched + 1 ≤ sources.length
      omega
    admitted := by
      rw [taken]
      exact rel_append arranged.admitted (.cons carries .nil)
    middle := by
      intro some_middle
      exact absurd noMiddle some_middle }

theorem arranged_user (order mandatory : ℕ)
    (arranged : Arranged sources estimatorVersion layout state) (asks : Asks state.user entry)
    (noUser : state.users = 0) : layout.asked ++ layout.after ++ layout.appended = [] ∧
      Arranged sources estimatorVersion { layout with asked := [entry] }
        { state with users := 1, mandatory := mandatory, previousContentOrder := order } := by
  have noAsked : layout.asked = [] := length_eq_zero_iff.1 (arranged.users.trans noUser)
  obtain ⟨noAfter, noAppended⟩ := arranged.waiting noUser
  refine ⟨by rw [noAsked, noAfter, noAppended]; rfl, ?_⟩
  exact { arranged with
    asked := by
      intro other among
      rw [mem_singleton.1 among]
      exact asks
    users := by rfl
    once := le_rfl
    waiting := by
      intro none_yet
      cases none_yet }

theorem arranged_active (order : ℕ) {message : Message} {estimate : ℕ}
    (arranged : Arranged sources estimatorVersion layout state)
    (known : state.active[state.activeIndex]? = some message)
    (priced : state.activeEstimates[state.activeIndex]? = some estimate)
    (appends : estimateConversationMessage message estimatorVersion {} = .ok estimate →
      Appends estimatorVersion message entry) (asked : state.users = 1) :
    Arranged sources estimatorVersion { layout with appended := layout.appended ++ [entry] }
      { state with activeIndex := state.activeIndex + 1, previousContentOrder := order } := by
  have estimated : estimateConversationMessage message estimatorVersion {} = .ok estimate := by
    obtain ⟨inside, rfl⟩ := List.getElem?_eq_some_iff.1 known
    obtain ⟨within, rfl⟩ := List.getElem?_eq_some_iff.1 priced
    exact (forall₂_iff_get.1 arranged.estimates).2 state.activeIndex inside within
  exact { arranged with
    waiting := by
      intro none_yet
      change state.users = 0 at none_yet
      omega
    sent := (List.getElem?_eq_some_iff.1 known).1
    appended := by
      rw [take_add_one, known]
      exact rel_append arranged.appended (.cons (appends estimated) .nil) }

/-- An entry of another kind goes before the sources, behind them or behind the user. -/
theorem arranged_other (order mandatory : ℕ)
    (arranged : Arranged sources estimatorVersion layout state)
    (whole : ¬ (state.matched ≠ 0 ∧ state.matched ≠ state.sourceOrder.length))
    (early : state.activeIndex = 0) (other : mandatoryKind entry) :
    ∃ wider, wider.entries = layout.entries ++ [entry] ∧ wider.asked = layout.asked ∧
      Arranged sources estimatorVersion wider
        { state with mandatory := mandatory, previousContentOrder := order } := by
  have noAppended : layout.appended = [] := by
    have none_yet := arranged.appended
    rw [early, take_zero] at none_yet
    exact forall₂_nil_left_iff.1 none_yet
  rw [arranged.sourceOrder, length_map] at whole
  have incidental : ∀ shown ∈ layout.others ++ [entry], mandatoryKind shown := by
    intro shown among
    rcases mem_append.1 among with before | last
    · exact arranged.others shown before
    · rw [mem_singleton.1 last]
      exact other
  have stays : ∀ wider : Layout, wider.admitted = layout.admitted → wider.asked = layout.asked →
      wider.appended = layout.appended → wider.others.Perm (layout.others ++ [entry]) →
      (wider.middle ≠ [] → state.matched = sources.length) →
      (state.users = 0 → wider.after = []) →
      Arranged sources estimatorVersion wider
        { state with mandatory := mandatory, previousContentOrder := order } := by
    intro wider admitted asked appended others middle after
    exact { arranged with
      others := by
        intro shown among
        exact incidental shown (others.mem_iff.1 among)
      admitted := admitted ▸ arranged.admitted
      middle := middle
      asked := asked ▸ arranged.asked
      users := asked ▸ arranged.users
      waiting := by
        intro none_yet
        exact ⟨after none_yet, appended.trans noAppended⟩
      appended := appended ▸ arranged.appended }
  rcases Nat.le_one_iff_eq_zero_or_eq_one.1 arranged.once with none_yet | _
  · have noAsked : layout.asked = [] :=
      length_eq_zero_iff.1 (arranged.users.trans none_yet)
    obtain ⟨noAfter, -⟩ := arranged.waiting none_yet
    by_cases finished : state.matched = sources.length
    · refine ⟨{ layout with middle := layout.middle ++ [entry] }, ?_, rfl, stays _ rfl rfl rfl ?_
        (fun _ => finished) fun _ => noAfter⟩
      · simp [Layout.entries, noAsked, noAfter, noAppended]
      · simp [Layout.others, noAfter]
    · have noMiddle : layout.middle = [] := by
        by_contra some_middle
        exact finished (arranged.middle some_middle)
      have noAdmitted : layout.admitted = [] := by
        have none_matched := arranged.admitted
        rw [show state.matched = 0 by omega, take_zero] at none_matched
        exact forall₂_nil_left_iff.1 none_matched
      refine ⟨{ layout with before := layout.before ++ [entry] }, ?_, rfl, stays _ rfl rfl rfl ?_
        (fun some_middle => absurd noMiddle some_middle) fun _ => noAfter⟩
      · simp [Layout.entries, noAdmitted, noMiddle, noAsked, noAfter, noAppended]
      · simp [Layout.others, noMiddle, noAfter]
  · refine ⟨{ layout with after := layout.after ++ [entry] }, ?_, rfl, stays _ rfl rfl rfl ?_
      arranged.middle ?_⟩
    · simp [Layout.entries, noAppended]
    · simp [Layout.others]
    · intro none_yet
      omega

theorem arranged_note (arranged : Arranged sources estimatorVersion layout state) :
    Arranged sources estimatorVersion layout (state.note entry) := by
  exact { arranged with }

/-- The total and the two sets grow by the entry, however it is classified. -/
theorem counted_next (counted : Counted reserved layout done state)
    (fresh : ¬ (entry.entryId ∈ state.seen ∨ entry.message.messageId ∈ state.messageIds ∨
      entry.estimatedTokens > machineSub uint64Max state.totalInput)) {wider : Layout}
    (total : next.totalInput = (state.note entry).totalInput)
    (seen : next.seen = (state.note entry).seen)
    (messageIds : next.messageIds = (state.note entry).messageIds)
    (mandatory : next.mandatory = mandatoryTokens (done ++ [entry]) + tokens wider.asked)
    (mandatoryBound : next.mandatory ≤ uint64Max) :
    Counted reserved wider (done ++ [entry]) next := by
  simp only [not_or] at fresh
  obtain ⟨newEntry, newMessage, fits⟩ := fresh
  obtain ⟨added, within⟩ := machineAdd_fits counted.totalBound fits
  change next.totalInput = machineAdd state.totalInput entry.estimatedTokens at total
  rw [added] at total
  constructor
  case total => rw [total, counted.total, tokens_append, Nat.add_assoc]
  case totalBound =>
    rw [total]
    exact within
  case mandatory => exact mandatory
  case mandatoryBound => exact mandatoryBound
  case seen =>
    intro other among
    rw [seen]
    rcases mem_append.1 among with before | last
    · exact Finset.mem_insert_of_mem (counted.seen other before)
    · rw [mem_singleton.1 last]
      exact Finset.mem_insert_self _ _
  case distinct =>
    refine nodup_concat counted.distinct ?_
    intro other held same
    exact newEntry (same ▸ counted.seen other held)
  case messageIds =>
    intro other among
    rw [messageIds]
    rcases mem_append.1 among with before | last
    · exact Finset.mem_insert_of_mem (counted.messageIds other before)
    · rw [mem_singleton.1 last]
      exact Finset.mem_insert_self _ _
  case messages =>
    refine nodup_concat counted.messages ?_
    intro other held same
    exact newMessage (same ▸ counted.messageIds other held)

theorem consume_step (distinct : (sources.map entryId).Nodup)
    (laid : layout.entries = done) (arranged : Arranged sources estimatorVersion layout state)
    (counted : Counted reserved layout done state) (h : state.consume entry = some next) :
    ∃ wider, wider.entries = done ++ [entry] ∧ Arranged sources estimatorVersion wider next ∧
      Counted reserved wider (done ++ [entry]) next ∧ next.user = state.user ∧
      next.active = state.active := by
  unfold consume at h
  split at h
  · cases h
  rename_i fresh
  have noted : Arranged sources estimatorVersion layout (state.note entry) :=
    arranged_note arranged
  have bound : (state.note entry).mandatory ≤ uint64Max := counted.mandatoryBound
  have sum : (state.note entry).mandatory = mandatoryTokens done + tokens layout.asked :=
    counted.mandatory
  have growth : mandatoryTokens (done ++ [entry]) =
      mandatoryTokens done + if mandatoryKind entry then entry.estimatedTokens else 0 :=
    mandatoryTokens_append done entry
  unfold classify at h
  split at h
  · rename_i value found
    have same : value.entryId = entry.entryId := by simpa using List.find?_some found
    obtain ⟨carries, noUser, inOrder, _, result⟩ := consumeHistory_ok same h bound
    obtain ⟨tail, placed⟩ := arranged_history next.previousContentOrder next.mandatory
      distinct noted found inOrder carries noUser
    simp only [append_eq_nil_iff] at tail
    obtain ⟨⟨⟨noMiddle, noAsked⟩, noAfter⟩, noAppended⟩ := tail
    have mandatory : next.mandatory = (state.note entry).mandatory +
        if mandatoryKind entry then entry.estimatedTokens else 0 := by rw [result]
    refine ⟨{ layout with admitted := layout.admitted ++ [entry] }, ?_, ?_,
      counted_next counted fresh (by rw [result]) (by rw [result]) (by rw [result]) ?_ ?_,
      by rw [result]; rfl, by rw [result]; rfl⟩
    · rw [← laid]
      simp [Layout.entries, noMiddle, noAsked, noAfter, noAppended]
    · rw [result]
      rw [mandatory] at placed
      exact placed
    · dsimp only
      omega
    · omega
  · split at h
    · cases h
    rename_i whole
    split at h
    · rename_i isUser
      obtain ⟨asks, noUser, _, result⟩ := consumeUser_ok isUser h bound
      obtain ⟨tail, placed⟩ := arranged_user next.previousContentOrder next.mandatory
        noted asks noUser
      simp only [append_eq_nil_iff] at tail
      obtain ⟨⟨noAsked, noAfter⟩, noAppended⟩ := tail
      have mandatory : next.mandatory =
          (state.note entry).mandatory + entry.estimatedTokens := by rw [result]
      have plain : mandatoryKind entry = false := by simp [mandatoryKind, asks.kind]
      have one : tokens [entry] = entry.estimatedTokens := by simp [tokens]
      have none_yet : tokens layout.asked = 0 := by simp [noAsked, tokens]
      rw [plain] at growth
      refine ⟨{ layout with asked := [entry] }, ?_, ?_,
        counted_next counted fresh (by rw [result]) (by rw [result]) (by rw [result]) ?_ ?_,
        by rw [result]; rfl, by rw [result]; rfl⟩
      · rw [← laid]
        simp [Layout.entries, noAsked, noAfter, noAppended]
      · rw [result]
        rw [mandatory] at placed
        exact placed
      · rw [mandatory, sum, growth, one, none_yet]
        rfl
      · omega
    · split at h
      · rename_i exchanged
        obtain ⟨_, _, known, priced, kind, shown, layer, specificity, same, asked,
          result⟩ := consumeActive_ok h
        have placed := arranged_active next.previousContentOrder noted known priced
          (fun estimated => ⟨kind, shown, layer, specificity, same ▸ estimated⟩) asked
        have plain : mandatoryKind entry = false := by
          rcases exchanged with talk | tool
          · simp [mandatoryKind, talk]
          · simp [mandatoryKind, tool]
        have mandatory : next.mandatory = (state.note entry).mandatory := by rw [result]
        rw [plain] at growth
        refine ⟨{ layout with appended := layout.appended ++ [entry] }, ?_, ?_,
          counted_next counted fresh (by rw [result]) (by rw [result]) (by rw [result]) ?_ ?_,
          by rw [result]; rfl, by rw [result]; rfl⟩
        · rw [← laid]
          simp [Layout.entries]
        · rw [result]
          exact placed
        · rw [mandatory, sum, growth]
          rfl
        · omega
      · split at h
        · cases h
        rename_i untalked early
        have other : mandatoryKind entry := by
          cases known : entry.kind with
          | instruction | evidence => simp [mandatoryKind, known]
          | conversation => exact absurd (.inl known) untalked
          | toolResult => exact absurd (.inr known) untalked
        obtain ⟨_, result⟩ := consumeMandatory_ok h bound
        obtain ⟨wider, widened, sameAsked, placed⟩ := arranged_other
          next.previousContentOrder next.mandatory noted whole
          (not_not.1 early) other
        have mandatory : next.mandatory =
            (state.note entry).mandatory + entry.estimatedTokens := by rw [result]
        rw [other] at growth
        refine ⟨wider, by rw [widened, laid], ?_,
          counted_next counted fresh (by rw [result]) (by rw [result]) (by rw [result]) ?_ ?_,
          by rw [result]; rfl, by rw [result]; rfl⟩
        · rw [result]
          rw [mandatory] at placed
          exact placed
        · rw [mandatory, sum, growth, sameAsked, if_pos rfl]
          omega
        · omega

end Steps

end ConversationRequestMatch

end ConversationRequests
