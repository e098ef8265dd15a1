import AiForge.ConversationSummary
import AiForge.Events

/-! # Policy history of a session

The events of a session with its policy and summary records written out. A change of the policy
or of the active summaries is a control run of three events, and each change counts the policy
revision on by one. -/
namespace SummaryLog

open Admission Content Events Summary Money Staged

structure ConversationPolicy where
  revision : ℕ := 0
  mode : ConversationMode := .full
  pinnedRunIds : List RunId := []
  deriving DecidableEq

structure ConversationSummaryActivated where
  previousPolicyRevision : ℕ
  activation : ConversationSummaryActivation
  replacedVersions : List ConversationSummaryVersion
  deriving DecidableEq

structure ConversationSummaryDisabled where
  previousPolicyRevision : ℕ
  candidate : ConversationSummaryVersion
  activationEventId : EventId
  deriving DecidableEq

inductive SummaryPayload where
  | conversationPolicySet (previousRevision : ℕ) (policy : ConversationPolicy)
  | conversationSummaryGenerationIntentRecorded (intent : ConversationSummaryIntent)
  | conversationSummaryCandidatePublished (candidate : ConversationSummaryCandidate)
  | conversationSummaryActivated (action : ConversationSummaryActivated)
  | conversationSummaryDisabled (action : ConversationSummaryDisabled)
  | run (payload : RunEventPayload)
  deriving DecidableEq

structure SummaryEvent where
  metadata : EventMetadata
  payload : SummaryPayload
  deriving DecidableEq

def SummaryEvent.sequence (event : SummaryEvent) : ℕ := event.metadata.sequence
def SummaryEvent.eventId (event : SummaryEvent) : EventId := event.metadata.eventId

def runStarted? : SummaryPayload → Option RunStarted
  | .run (.runStarted started) => some started
  | _ => none

def isRunCompleted : SummaryPayload → Bool
  | .run .runCompleted => true
  | _ => false

def maximumEvents : ℕ := 65536

structure SessionLog where
  sessionId : SessionId
  events : List SummaryEvent
  increasing : (events.map SummaryEvent.sequence).Pairwise (· < ·)
  positive : ∀ event ∈ events, 0 < event.sequence ∧ 0 < event.metadata.schemaVersion
  distinct : (events.map SummaryEvent.eventId).Nodup

namespace SessionLog

variable {log next : SessionLog} {event : SummaryEvent}

def lastSequence (log : SessionLog) : ℕ := (log.events.getLast?.map SummaryEvent.sequence).getD 0

theorem le_lastSequence (h : event ∈ log.events) : event.sequence ≤ log.lastSequence := by
  have hne := List.ne_nil_of_mem h
  have hsplit : log.events = log.events.dropLast ++ [log.events.getLast hne] :=
    (List.dropLast_append_getLast hne).symm
  have hlast : log.lastSequence = (log.events.getLast hne).sequence := by
    rw [lastSequence, List.getLast?_eq_some_getLast hne]
    rfl
  rw [hlast]
  have hinc := log.increasing
  rw [hsplit] at h hinc
  rw [List.map_append, List.pairwise_append] at hinc
  rcases List.mem_append.1 h with hmem | hmem
  · have hlt := hinc.2.2 _ (List.mem_map_of_mem hmem) _
      (List.mem_map_of_mem (List.mem_singleton_self _))
    omega
  · exact le_of_eq (congrArg SummaryEvent.sequence (List.mem_singleton.1 hmem))

/-- Whether the log takes the event next. -/
structure Takes (log : SessionLog) (event : SummaryEvent) : Prop where
  sequence : event.sequence ≠ 0
  schema : event.metadata.schemaVersion ≠ 0
  identity : event.eventId ∉ log.events.map SummaryEvent.eventId
  later : log.lastSequence < event.sequence

instance (log : SessionLog) (event : SummaryEvent) : Decidable (log.Takes event) :=
  decidable_of_iff (event.sequence ≠ 0 ∧ event.metadata.schemaVersion ≠ 0 ∧
      event.eventId ∉ log.events.map SummaryEvent.eventId ∧ log.lastSequence < event.sequence)
    ⟨fun ⟨h₁, h₂, h₃, h₄⟩ => ⟨h₁, h₂, h₃, h₄⟩, fun ⟨h₁, h₂, h₃, h₄⟩ => ⟨h₁, h₂, h₃, h₄⟩⟩

def push (log : SessionLog) (event : SummaryEvent) (h : log.Takes event) : SessionLog where
  sessionId := log.sessionId
  events := log.events ++ [event]
  increasing := by
    rw [List.map_append, List.pairwise_append]
    refine ⟨log.increasing, List.pairwise_singleton _ _, ?_⟩
    intro a ha b hb
    obtain ⟨e, he, rfl⟩ := List.mem_map.mp ha
    rw [List.map_singleton, List.mem_singleton] at hb
    have hle := le_lastSequence he
    have hlt := h.later
    omega
  positive := by
    intro e he
    rcases List.mem_append.mp he with he | he
    · exact log.positive e he
    · rw [List.mem_singleton.mp he]
      exact ⟨Nat.pos_of_ne_zero h.sequence, Nat.pos_of_ne_zero h.schema⟩
  distinct := by
    rw [List.map_append, List.map_singleton, ← List.concat_eq_append]
    exact List.Nodup.concat h.identity log.distinct

/-- `SessionEventLog::append`; nothing reads which of its checks failed. -/
def append (log : SessionLog) (event : SummaryEvent) : Option SessionLog :=
  if h : log.Takes event then some (log.push event h) else none

theorem push_lastSequence (h : log.Takes event) :
    (log.push event h).lastSequence = event.sequence := by
  simp [lastSequence, push]

/-- The events up to a sequence number; they are sorted, so `upper_bound` finds where they end. -/
def upTo (log : SessionLog) (sequence : ℕ) : List SummaryEvent :=
  log.events.takeWhile fun event => event.sequence ≤ sequence

/-- Both replays read the events up to a snapshot, by default the whole log; each names what is
wrong in its own words. -/
def snapshot {ε : Type} (log : SessionLog) (snapshotSequence : Option ℕ)
    (unavailable exceeded : ε) : Except ε (List SummaryEvent) := do
  let sequence := snapshotSequence.getD log.lastSequence
  let events := log.upTo sequence
  ensure (sequence ≤ log.lastSequence ∧
      (sequence ≠ 0 → events.getLast?.map SummaryEvent.sequence = some sequence)) unavailable
  ensure (events.length ≤ maximumEvents) exceeded
  return events

end SessionLog

def controlRun (before current after : SummaryEvent) : Bool :=
  ((runStarted? before.payload).any fun started =>
    started.purpose == .control && started.memorySelection.isNone &&
      started.conversationAdmission.isNone) &&
  before.metadata.schemaVersion == 3 && current.metadata.schemaVersion == 1 &&
  after.metadata.schemaVersion == 1 && before.metadata.parentRunId.isNone &&
  current.metadata.parentRunId.isNone && after.metadata.parentRunId.isNone &&
  before.metadata.runId == current.metadata.runId &&
  after.metadata.runId == current.metadata.runId && isRunCompleted after.payload

/-- The event at the index stands between the start and the completion of a control run. -/
def controlTransaction (events : List SummaryEvent) : ℕ → Bool
  | 0 => false
  | index + 1 =>
    match events[index]?, events[index + 1]?, events[index + 2]? with
    | some before, some current, some after => controlRun before current after
    | _, _, _ => false

structure ConversationPolicySnapshot where
  policy : ConversationPolicy := {}
  eventId : Option EventId := none
  eventSequence : ℕ := 0
  deriving DecidableEq

def validateConversationPolicy (policy : ConversationPolicy) : Result Unit := do
  ensure (policy.revision ≠ 0)
    ⟨.invalidPolicy, "conversation policy mode or revision is invalid"⟩
  ensure (policy.pinnedRunIds.length ≤ conversationMaximumPins)
    ⟨.resourceExhausted, "conversation policy has too many pins"⟩
  ensure policy.pinnedRunIds.Nodup
    ⟨.invalidPolicy, "conversation policy contains duplicate pins"⟩

def policyTypeName (typeName : String) : Bool :=
  typeName == "session.conversation_policy_set" ||
  typeName == "session.conversation_summary_activated" ||
  typeName == "session.conversation_summary_disabled"

/-- The revision that a change of the policy starts from. -/
def previousRevision? : SummaryPayload → Option ℕ
  | .conversationPolicySet previousRevision _ => some previousRevision
  | .conversationSummaryActivated action => some action.previousPolicyRevision
  | .conversationSummaryDisabled action => some action.previousPolicyRevision
  | _ => none

def transactionInvalid : ConversationAdmissionError :=
  ⟨.invalidPolicy, "conversation policy transaction is invalid"⟩

def nextPolicy (policy : ConversationPolicy) : SummaryPayload → Result ConversationPolicy
  | .conversationPolicySet _ set => do
    ensure (validateConversationPolicy set = .ok () ∧ set.revision = policy.revision + 1)
      transactionInvalid
    return set
  | _ => return { policy with revision := policy.revision + 1 }

def supportedPolicyEvent : SummaryPayload → Result Unit
  | .run (.unknown typeName _) =>
    ensure (policyTypeName typeName = false)
      ⟨.unsupportedVersion, "conversation policy event is unsupported"⟩
  | _ => return

def applyPolicyEvent (events : List SummaryEvent) (index : ℕ) (event : SummaryEvent)
    (result : ConversationPolicySnapshot) : Result ConversationPolicySnapshot := do
  supportedPolicyEvent event.payload
  match previousRevision? event.payload with
  | none => return result
  | some previous =>
    ensure (controlTransaction events index ∧ result.policy.revision ≠ uint64Max ∧
      previous = result.policy.revision) transactionInvalid
    let policy ← nextPolicy result.policy event.payload
    return ⟨policy, some event.eventId, event.sequence⟩

structure PolicyReplay where
  result : ConversationPolicySnapshot := {}
  startedRuns : Finset RunId := ∅

def startRun (event : SummaryEvent) (runs : Finset RunId) : Result (Finset RunId) :=
  match runStarted? event.payload with
  | none => return runs
  | some _ =>
    require (insertNew event.metadata.runId runs)
      ⟨.invalidPolicy, "conversation policy history reuses a run identity"⟩

/-- One turn of the loop in `recorded_conversation_policy`. -/
def policyStep (events : List SummaryEvent) (state : PolicyReplay) (item : SummaryEvent × ℕ) :
    Result PolicyReplay := do
  let startedRuns ← startRun item.1 state.startedRuns
  let result ← applyPolicyEvent events item.2 item.1 state.result
  return ⟨result, startedRuns⟩

def recordedConversationPolicy (log : SessionLog) (snapshotSequence : Option ℕ) :
    Result ConversationPolicySnapshot := do
  let events ← log.snapshot snapshotSequence
    ⟨.invalidPolicy, "conversation policy snapshot is unavailable"⟩
    ⟨.resourceExhausted, "conversation policy event limit exceeded"⟩
  let replay ← events.zipIdx.foldlM (policyStep events) {}
  return replay.result

/-! ## Appending to a log

What a replay has read does not change when events are appended. -/

structure SessionLog.ExtendedBy (log : SessionLog) (suffix : List SummaryEvent)
    (longer : SessionLog) : Prop where
  session : longer.sessionId = log.sessionId
  events : longer.events = log.events ++ suffix

variable {log : SessionLog}

theorem append_some {next : SessionLog} {event : SummaryEvent} :
    log.append event = some next ↔ ∃ h : log.Takes event, next = log.push event h := by
  unfold SessionLog.append
  split
  · rename_i h
    constructor
    · rintro ⟨⟩
      exact ⟨h, rfl⟩
    · rintro ⟨-, rfl⟩
      rfl
  · rename_i h
    exact iff_of_false nofun fun ⟨h', _⟩ => h h'

variable {longer : SessionLog} {suffix : List SummaryEvent}

theorem append_extends
    (h : suffix.foldlM SessionLog.append log = some longer) : log.ExtendedBy suffix longer := by
  induction suffix generalizing log with
  | nil =>
    cases h
    exact ⟨rfl, (List.append_nil _).symm⟩
  | cons _ _ ih =>
    rw [List.foldlM_cons] at h
    obtain ⟨_, hev, hrest⟩ := Option.bind_eq_some_iff.1 h
    obtain ⟨_, rfl⟩ := append_some.1 hev
    obtain ⟨hsess, hevs⟩ := ih hrest
    refine ⟨hsess, ?_⟩
    rw [hevs, SessionLog.push, List.append_assoc, List.singleton_append]

section Extended

variable {log longer : SessionLog} {suffix : List SummaryEvent}

section

variable (h : log.ExtendedBy suffix longer)

include h

theorem lastSequence_lt {event : SummaryEvent}
    (he : event ∈ suffix) : log.lastSequence < event.sequence := by
  have hmem : event ∈ longer.events := by
    rw [h.events]
    exact List.mem_append_right _ he
  have hinc := longer.increasing
  rw [h.events, List.map_append, List.pairwise_append] at hinc
  unfold SessionLog.lastSequence
  cases hlast : log.events.getLast? with
  | none => exact (longer.positive event hmem).1
  | some =>
    exact hinc.2.2 _ (List.mem_map_of_mem (List.mem_of_getLast? hlast)) _
      (List.mem_map_of_mem he)

theorem upTo_extended {sequence : ℕ}
    (hs : sequence ≤ log.lastSequence) : longer.upTo sequence = log.upTo sequence := by
  have hnone : suffix.takeWhile (fun event => decide (event.sequence ≤ sequence)) = [] := by
    cases suffix with
    | nil => rfl
    | cons =>
      have hlt := lastSequence_lt h List.mem_cons_self
      rw [List.takeWhile_cons_of_neg]
      simp only [decide_eq_true_eq]
      omega
  unfold SessionLog.upTo
  rw [h.events, List.takeWhile_append, hnone, List.append_nil]
  split
  · rename_i hall
    exact (List.takeWhile_prefix _).eq_of_length hall |>.symm
  · rfl

theorem lastSequence_le : log.lastSequence ≤ longer.lastSequence := by
  unfold SessionLog.lastSequence
  rw [h.events, List.getLast?_append]
  cases hlast : suffix.getLast? with
  | none => exact le_rfl
  | some => exact le_of_lt (lastSequence_lt h (List.mem_of_getLast? hlast))

end

variable {ε : Type} {unavailable exceeded : ε} {events : List SummaryEvent}

theorem snapshot_ok {snapshotSequence : Option ℕ} :
    log.snapshot snapshotSequence unavailable exceeded = .ok events ↔
      (snapshotSequence.getD log.lastSequence ≤ log.lastSequence ∧
        (snapshotSequence.getD log.lastSequence ≠ 0 → events.getLast?.map SummaryEvent.sequence =
          some (snapshotSequence.getD log.lastSequence))) ∧
      events.length ≤ maximumEvents ∧
      events = log.upTo (snapshotSequence.getD log.lastSequence) := by
  unfold SessionLog.snapshot
  simp only [bind_ok, ensure_ok]
  constructor
  · rintro ⟨_, hlast, _, hlen, h⟩
    cases h
    exact ⟨hlast, hlen, rfl⟩
  · rintro ⟨hlast, hlen, rfl⟩
    exact ⟨⟨⟩, hlast, ⟨⟩, hlen, rfl⟩

/-- A snapshot that has been taken can still be taken. -/
theorem snapshot_extended (h : log.ExtendedBy suffix longer) {sequence : ℕ}
    (hs : log.snapshot (some sequence) unavailable exceeded = .ok events) :
    longer.snapshot (some sequence) unavailable exceeded = .ok events := by
  rw [snapshot_ok] at hs ⊢
  simp only [Option.getD_some] at hs ⊢
  obtain ⟨⟨hle, hlast⟩, hlen, heq⟩ := hs
  exact ⟨⟨hle.trans (lastSequence_le h), hlast⟩, hlen, by rw [upTo_extended h hle, heq]⟩

theorem upTo_lastSequence (log : SessionLog) : log.upTo log.lastSequence = log.events := by
  unfold SessionLog.upTo
  rw [List.takeWhile_eq_self_iff]
  intro event he
  exact decide_eq_true (SessionLog.le_lastSequence he)

theorem snapshot_last : log.snapshot none unavailable exceeded = .ok events ↔
    events.length ≤ maximumEvents ∧ events = log.events := by
  rw [snapshot_ok]
  simp only [Option.getD_none, upTo_lastSequence]
  constructor
  · rintro ⟨-, hlen, heq⟩
    exact ⟨hlen, heq⟩
  · rintro ⟨hlen, rfl⟩
    refine ⟨⟨le_rfl, ?_⟩, hlen, rfl⟩
    intro hne
    unfold SessionLog.lastSequence at hne ⊢
    cases hlast : log.events.getLast? with
    | none => simp [hlast] at hne
    | some => rfl

end Extended

section Positions

variable {events suffix : List SummaryEvent} {index : ℕ} {event : SummaryEvent}

theorem getElem?_append (suffix : List SummaryEvent) (h : events[index]? = some event) :
    (events ++ suffix)[index]? = some event := by
  obtain ⟨hlt, -⟩ := List.getElem?_eq_some_iff.1 h
  rw [List.getElem?_append_left hlt]
  exact h

theorem controlTransaction_iff : controlTransaction events index ↔
    ∃ before current after, ∃ i, index = i + 1 ∧ events[i]? = some before ∧
      events[i + 1]? = some current ∧ events[i + 2]? = some after ∧
      controlRun before current after := by
  cases index with
  | zero => exact iff_of_false nofun fun ⟨_, _, _, _, h, _⟩ => nomatch h
  | succ i =>
    simp only [controlTransaction]
    constructor
    · intro h
      split at h
      · rename_i before current after hpre hcur haft
        exact ⟨before, current, after, i, rfl, hpre, hcur, haft, h⟩
      · cases h
    · rintro ⟨before, current, after, _, hj, hpre, hcur, haft, h⟩
      obtain rfl := Nat.succ.inj hj
      rw [hpre, hcur, haft]
      exact h

theorem controlTransaction_append (suffix : List SummaryEvent)
    (h : controlTransaction events index) :
    controlTransaction (events ++ suffix) index = true := by
  obtain ⟨before, current, after, i, hi, hpre, hcur, haft, hrun⟩ :=
    controlTransaction_iff.1 h
  exact controlTransaction_iff.2 ⟨before, current, after, i, hi, getElem?_append suffix hpre,
    getElem?_append suffix hcur, getElem?_append suffix haft, hrun⟩

end Positions

section Policy

variable {events : List SummaryEvent} {index : ℕ} {event : SummaryEvent}

theorem applyPolicyEvent_append (suffix : List SummaryEvent)
    {result next : ConversationPolicySnapshot}
    (h : applyPolicyEvent events index event result = .ok next) :
    applyPolicyEvent (events ++ suffix) index event result = .ok next := by
  obtain ⟨_, hsupp, h⟩ := bind_ok.1 h
  refine bind_ok.2 ⟨_, hsupp, ?_⟩
  split at h
  · exact h
  · obtain ⟨htx, h⟩ := guarded h
    obtain ⟨hctrl, hrest⟩ := htx
    exact ensured ⟨controlTransaction_append suffix hctrl, hrest⟩ h

theorem policyStep_append (suffix : List SummaryEvent) {state next : PolicyReplay}
    {item : SummaryEvent × ℕ} (h : policyStep events state item = .ok next) :
    policyStep (events ++ suffix) state item = .ok next := by
  obtain ⟨runs, hruns, h⟩ := bind_ok.1 h
  obtain ⟨result, hres, h⟩ := bind_ok.1 h
  exact bind_ok.2 ⟨runs, hruns, bind_ok.2
    ⟨result, applyPolicyEvent_append suffix hres, h⟩⟩

theorem startRun_mem {runs next : Finset RunId} (h : startRun event runs = .ok next)
    {run : RunId} (hrun : run ∈ next) : run ∈ runs ∨ run = event.metadata.runId := by
  unfold startRun at h
  split at h
  · cases h
    exact .inl hrun
  · rw [require_ok, insertNew] at h
    split at h
    · cases h
    · cases h
      exact (Finset.mem_insert.1 hrun).symm

theorem startedRuns_recorded {replay : PolicyReplay}
    (h : events.zipIdx.foldlM (policyStep events) {} = .ok replay) :
    ∀ run ∈ replay.startedRuns, ∃ event ∈ events, event.metadata.runId = run := by
  refine Staged.foldlM_keeps
    (I := fun state => ∀ run ∈ state.startedRuns, ∃ event ∈ events, event.metadata.runId = run)
    ?_ (fun _ hmem => absurd hmem (Finset.notMem_empty _)) h
  rintro ⟨e, _⟩ hitem state _ hst hstep run hrun
  obtain ⟨_, hruns, hstep⟩ := bind_ok.1 hstep
  obtain ⟨_, -, hstep⟩ := bind_ok.1 hstep
  cases hstep
  rcases startRun_mem hruns hrun with hmem | rfl
  · exact hst run hmem
  · exact ⟨e, (List.mem_zipIdx' hitem).2 ▸ List.getElem_mem _, rfl⟩

end Policy

variable {after : SummaryEvent}

theorem controlRun_started {before current : SummaryEvent}
    (h : controlRun before current after) :
    (∃ started, before.payload = .run (.runStarted started)) ∧
      after.payload = .run .runCompleted ∧ before.metadata.schemaVersion = 3 ∧
      current.metadata.schemaVersion = 1 ∧ after.metadata.schemaVersion = 1 := by
  simp only [controlRun, Bool.and_eq_true, beq_iff_eq, Option.any_eq_true] at h
  obtain ⟨⟨⟨⟨⟨⟨⟨⟨⟨⟨started, hbeg, -⟩, hfst⟩, hsnd⟩, hthird⟩, -⟩, -⟩, -⟩, -⟩, -⟩, hend⟩ := h
  refine ⟨⟨started, ?_⟩, ?_, hfst, hsnd, hthird⟩
  · unfold runStarted? at hbeg
    split at hbeg
    · rename_i s heq
      cases hbeg
      exact heq
    · cases hbeg
  · unfold isRunCompleted at hend
    split at hend
    · assumption
    · cases hend

section ControlRun

variable {events : List SummaryEvent} {state : PolicyReplay} {event : SummaryEvent} {index : ℕ}

theorem policyStep_started {started : RunStarted}
    (hpay : event.payload = .run (.runStarted started))
    (hnew : event.metadata.runId ∉ state.startedRuns) : policyStep events state (event, index) =
      .ok ⟨state.result, insert event.metadata.runId state.startedRuns⟩ := by
  have hbeg : startRun event state.startedRuns =
      .ok (insert event.metadata.runId state.startedRuns) := by
    unfold startRun
    rw [hpay]
    exact require_ok.2 (if_neg hnew)
  refine bind_ok.2 ⟨_, hbeg, bind_ok.2 ⟨state.result, ?_, rfl⟩⟩
  unfold applyPolicyEvent
  rw [hpay]
  rfl

theorem policyStep_activated {action : ConversationSummaryActivated}
    (hpay : event.payload = .conversationSummaryActivated action)
    (hctrl : controlTransaction events index)
    (hmax : state.result.policy.revision ≠ uint64Max)
    (hprev : action.previousPolicyRevision = state.result.policy.revision) :
    policyStep events state (event, index) = .ok ⟨⟨{ state.result.policy with
      revision := state.result.policy.revision + 1 }, some event.eventId, event.sequence⟩,
      state.startedRuns⟩ := by
  have hbeg : startRun event state.startedRuns = .ok state.startedRuns := by
    unfold startRun
    rw [hpay]
    rfl
  refine bind_ok.2 ⟨_, hbeg, bind_ok.2 ⟨_, ?_, rfl⟩⟩
  unfold applyPolicyEvent
  rw [hpay]
  exact bind_ok.2
    ⟨⟨⟩, rfl, ensured ⟨hctrl, hmax, hprev⟩ rfl⟩

theorem policyStep_completed (hpay : event.payload = .run .runCompleted) :
    policyStep events state (event, index) = .ok state := by
  have hbeg : startRun event state.startedRuns = .ok state.startedRuns := by
    unfold startRun
    rw [hpay]
    rfl
  refine bind_ok.2 ⟨_, hbeg, bind_ok.2 ⟨state.result, ?_, rfl⟩⟩
  unfold applyPolicyEvent
  rw [hpay]
  rfl

end ControlRun

theorem zipIdx_extended (h : log.ExtendedBy suffix longer) :
    longer.events.zipIdx = log.events.zipIdx ++ suffix.zipIdx log.events.length := by
  rw [h.events, List.zipIdx_append, Nat.zero_add]

/-- The event in the middle of three appended events stands in a control run. -/
theorem controlTransaction_appended {before current : SummaryEvent}
    (hlog : log.ExtendedBy [before, current, after] longer)
    (hctrl : controlRun before current after) :
    controlTransaction longer.events (log.events.length + 1) = true := by
  refine controlTransaction_iff.2 ⟨before, current, after, _, rfl, ?_, ?_, ?_, hctrl⟩
  · simp [hlog.events]
  · simp [hlog.events]
  · simp [hlog.events]

theorem policyReplay_extended (h : log.ExtendedBy suffix longer) {replay : PolicyReplay}
    (hrepl : log.events.zipIdx.foldlM (policyStep log.events) {} = .ok replay) :
    log.events.zipIdx.foldlM (policyStep longer.events) {} = .ok replay := by
  obtain ⟨_, hsame, rfl⟩ := Staged.foldlM_simulates
    (R := fun _ first second => first = second) (g := policyStep longer.events) (by
      rintro _ _ _ _ next rfl hstep
      refine ⟨next, ?_, rfl⟩
      rw [h.events]
      exact policyStep_append suffix hstep) rfl hrepl
  exact hsame

/-- Appending an activation in a control run of its own counts the policy revision on. -/
theorem recordedConversationPolicy_activated
    {before current : SummaryEvent} {action : ConversationSummaryActivated}
    {policy : ConversationPolicySnapshot} (hlog : log.ExtendedBy [before, current, after] longer)
    (hlen : longer.events.length ≤ maximumEvents)
    (hctrl : controlRun before current after)
    (hfresh : ∀ event ∈ log.events, event.metadata.runId ≠ before.metadata.runId)
    (hact : current.payload = .conversationSummaryActivated action)
    (hpol : recordedConversationPolicy log none = .ok policy)
    (hmax : policy.policy.revision ≠ uint64Max)
    (hprev : action.previousPolicyRevision = policy.policy.revision) :
    recordedConversationPolicy longer none = .ok ⟨{ policy.policy with
      revision := policy.policy.revision + 1 }, some current.eventId, current.sequence⟩ := by
  obtain ⟨events, hevs, hpol⟩ := bind_ok.1 hpol
  obtain ⟨replay, hrepl, hpol⟩ := bind_ok.1 hpol
  cases hpol
  obtain ⟨-, rfl⟩ := snapshot_last.1 hevs
  obtain ⟨⟨_, hbeg⟩, hdone, -⟩ := controlRun_started hctrl
  have hnew : before.metadata.runId ∉ replay.startedRuns := by
    intro hmem
    obtain ⟨event, he, hsame⟩ := startedRuns_recorded hrepl _ hmem
    exact hfresh event he hsame
  refine bind_ok.2 ⟨longer.events, snapshot_last.2 ⟨hlen, rfl⟩, ?_⟩
  refine bind_ok.2 ⟨⟨_, insert before.metadata.runId replay.startedRuns⟩, ?_, rfl⟩
  rw [zipIdx_extended hlog, foldlM_append_ok]
  refine ⟨replay, policyReplay_extended hlog hrepl, ?_⟩
  refine foldlM_cons_ok.2 ⟨_, policyStep_started hbeg hnew, ?_⟩
  refine foldlM_cons_ok.2 ⟨_, policyStep_activated hact
    (controlTransaction_appended hlog hctrl) hmax hprev, ?_⟩
  exact foldlM_cons_ok.2 ⟨_, policyStep_completed hdone, rfl⟩

end SummaryLog
