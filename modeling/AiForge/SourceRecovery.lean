import AiForge.MessageDigest
import AiForge.SummaryLog

/-! # Recovering the sources of a summary

The sources of a summary are rebuilt from the log up to the snapshot they were taken at and have
to be the sealed ones. The conversation history is a parameter: past `source_events` its
reconstruction reads the session, the events of the snapshot and the excluded runs. -/
namespace SourceRecovery

open Admission Content MessageDigest Summary SummaryLog Money Staged

structure ContextContentInput where
  entryId : ContextEntryId
  kind : ContextContentKind := .conversation
  message : Message
  provenance : ContextProvenance
  (order estimatedTokens : ℕ)
  deriving DecidableEq

structure ConversationHistoryEntry where
  content : ContextContentInput
  completedEventId : EventId
  eventSequence : ℕ

structure ConversationHistoryGroup where
  runId : RunId
  entries : List ConversationHistoryEntry

inductive ConversationHistoryErrorCode where
  | unsupportedEstimator | invalidHistory | invalidSnapshot | invalidExclusion | unsupportedContent
  | resourceExhausted | tokenOverflow | cancelled | internalFailure
  deriving DecidableEq

structure ConversationHistoryError where
  code : ConversationHistoryErrorCode
  message : String
  runId : Option RunId := none

abbrev Groups := Except ConversationHistoryError (List ConversationHistoryGroup)
abbrev History := SessionId → List SummaryEvent → List RunId → Groups

structure PreparedConversationSummarySources where
  sources : ConversationSummarySources
  content : List ContextContentInput := []
  estimatedTokens : ℕ := 0

inductive ConversationSummarySourceErrorCode where
  | invalidRequest | invalidHistory | invalidSources | foreignScope | resourceExhausted | cancelled
  | internalFailure

structure ConversationSummarySourceError where
  code : ConversationSummarySourceErrorCode
  message : String

abbrev SourceResult := Except ConversationSummarySourceError

def conversationEstimatorVersion : ℕ := 1

/-- The limits read here; the history reads its own. -/
structure ConversationHistoryLimits where
  maximumEvents : ℕ := 65536
  maximumRuns : ℕ := 4096

/-- The request holds the runs to cover and, unless the end of the log is meant, a snapshot. -/
structure ConversationSummarySourceRequest where
  log : SessionLog
  runIds : List RunId
  snapshotSequence : Option ℕ
  limits : ConversationHistoryLimits := {}

def historyFailure (error : ConversationHistoryError) : ConversationSummarySourceError :=
  ⟨match error.code with
    | .cancelled => .cancelled
    | .resourceExhausted => .resourceExhausted
    | _ => .invalidHistory, error.message⟩

def summaryFailure (error : ConversationSummaryError) : ConversationSummarySourceError :=
  ⟨if error.code = .resourceExhausted then .resourceExhausted else .invalidSources, error.message⟩

/-- The events are sorted, so an event with this sequence is the last one up to it. -/
def endsAt (log : SessionLog) (sequence : ℕ) : Bool :=
  decide ((log.upTo sequence).getLast?.map SummaryEvent.sequence = some sequence)

def snapshotEvents (request : ConversationSummarySourceRequest) :
    SourceResult (List SummaryEvent) := do
  let sequence := request.snapshotSequence.getD request.log.lastSequence
  let events := request.log.upTo sequence
  ensure (sequence ≠ 0 ∧ endsAt request.log sequence)
    ⟨.invalidRequest, "summary source snapshot is unavailable"⟩
  ensure (events.length ≤ request.limits.maximumEvents)
    ⟨.resourceExhausted, "summary source event limit exceeded"⟩
  return events

structure SourceIndex where
  excluded : Finset RunId := ∅
  terminals : RunId → Option SummaryEvent := fun _ => none

def isTerminal : SummaryPayload → Bool
  | .run .runCompleted | .run (.runFailed _) | .run (.runCancelled _) => true
  | _ => false

/-- One turn of the loop in `index_sources`. -/
def indexEvent (request : ConversationSummarySourceRequest) (index : SourceIndex)
    (event : SummaryEvent) : SourceResult SourceIndex := do
  if event.metadata.runId ∉ request.runIds then
    let excluded := insert event.metadata.runId index.excluded
    ensure (excluded.card ≤ request.limits.maximumRuns)
      ⟨.resourceExhausted, "summary source run limit exceeded"⟩
    return { index with excluded := excluded }
  else if isTerminal event.payload then
    return { index with
      terminals := Function.update index.terminals event.metadata.runId (some event) }
  else return index

def indexSources (request : ConversationSummarySourceRequest) (events : List SummaryEvent) :
    SourceResult SourceIndex := do
  ensure (request.runIds ≠ []) ⟨.invalidRequest, "summary source coverage is empty"⟩
  ensure (request.runIds.length ≤ summaryMaximumGroups)
    ⟨.resourceExhausted, "too many requested summary sources"⟩
  ensure request.runIds.Nodup ⟨.invalidRequest, "duplicate requested summary source"⟩
  events.foldlM (indexEvent request) {}

def sourceEntry (entry : ConversationHistoryEntry) : SourceResult ConversationAdmittedEntry :=
  match normalizedConversationMessageDigest entry.content.message 1 with
  | .error error =>
    throw ⟨if error.code = .resourceExhausted then .resourceExhausted else .invalidHistory,
      error.message⟩
  | .ok digest => return {
      completedEventId := entry.completedEventId
      eventSequence := entry.eventSequence
      entryId := entry.content.entryId
      messageId := entry.content.message.messageId
      provenance := entry.content.provenance
      order := entry.content.order
      estimatedTokens := entry.content.estimatedTokens
      kind := entry.content.kind
      messageDigest := digest }

structure SourceBuilder where
  result : PreparedConversationSummarySources
  sourceBytes : ℕ := 0

/-- One turn of the loop over the entries of a group. -/
def SourceBuilder.appendEntry (state : SourceBuilder × List ConversationAdmittedEntry)
    (entry : ConversationHistoryEntry) :
    SourceResult (SourceBuilder × List ConversationAdmittedEntry) := do
  let builder := state.1
  let content := { entry.content with order := builder.result.content.length + 1 }
  let recorded ← sourceEntry { entry with content := content }
  ensure (recorded.messageDigest.byteSize ≤ summaryMaximumSourceBytes - builder.sourceBytes)
    ⟨.resourceExhausted, "summary source bytes exceed their bound"⟩
  ensure (content.estimatedTokens ≤ uint64Max - builder.result.estimatedTokens)
    ⟨.invalidHistory, "summary source token estimates overflow"⟩
  return ({
    result := { builder.result with
      content := builder.result.content ++ [content]
      estimatedTokens := builder.result.estimatedTokens + content.estimatedTokens }
    sourceBytes := builder.sourceBytes + recorded.messageDigest.byteSize },
    state.2 ++ [recorded])

def SourceBuilder.append (builder : SourceBuilder) (group : ConversationHistoryGroup)
    (terminal : SummaryEvent) : SourceResult SourceBuilder := do
  ensure (group.entries.length ≤ summaryMaximumEntries - builder.result.content.length)
    ⟨.resourceExhausted, "too many summary source entries"⟩
  let (builder, entries) ← group.entries.foldlM SourceBuilder.appendEntry (builder, [])
  let saved : ConversationSummarySourceGroup :=
    ⟨group.runId, terminal.eventId, terminal.sequence, entries⟩
  let sources := builder.result.sources
  let sources := { sources with groups := sources.groups ++ [saved] }
  return { builder with result := { builder.result with sources := sources } }

def addGroup (index : SourceIndex) (builder : SourceBuilder) (group : ConversationHistoryGroup) :
    SourceResult SourceBuilder := do
  let terminal ← require (index.terminals group.runId)
    ⟨.invalidSources, "summary source terminal is missing"⟩
  builder.append group terminal

def sourceEvents (log : SessionLog) (snapshot : ℕ) :
    Except ConversationHistoryError (List SummaryEvent) := do
  if snapshot = 0 then return []
  ensure (snapshot ≤ log.lastSequence)
    ⟨.invalidSnapshot, "conversation snapshot is beyond the log", none⟩
  ensure (endsAt log snapshot)
    ⟨.invalidSnapshot, "conversation snapshot event is missing", none⟩
  return log.upTo snapshot

def reconstructConversationHistory (history : History) (log : SessionLog) (excluded : List RunId)
    (snapshot : ℕ) : Groups := do
  let events ← sourceEvents log snapshot
  history log.sessionId events excluded

def prepare (history : History) (request : ConversationSummarySourceRequest) :
    SourceResult PreparedConversationSummarySources := do
  let events ← snapshotEvents request
  let index ← indexSources request events
  let snapshot := (events.getLast?.map SummaryEvent.sequence).getD 0
  let groups ← (reconstructConversationHistory history request.log
    (index.excluded.sort (· ≤ ·)) snapshot).mapError historyFailure
  ensure (groups.length = request.runIds.length)
    ⟨.invalidSources,
      "requested summary source is missing or not an original terminal run"⟩
  let start : SourceBuilder := {
    result := {
      sources := {
        version := 1, estimatorVersion := conversationEstimatorVersion
        sessionId := request.log.sessionId, snapshotSequence := snapshot
        groups := [], sourceDigest := none } } }
  let builder ← groups.foldlM (addGroup index) start
  let sources ← (sealConversationSummarySources builder.result.sources).mapError summaryFailure
  return { builder.result with sources := sources }

def resolveConversationSummarySources (history : History) (log : SessionLog)
    (sources : ConversationSummarySources) (limits : ConversationHistoryLimits := {}) :
    SourceResult PreparedConversationSummarySources := do
  ensure (sources.sessionId = log.sessionId)
    ⟨.foreignScope, "summary sources belong to another session"⟩
  (validateConversationSummarySources sources).mapError summaryFailure
  let prepared ← prepare history {
    log := log
    runIds := sources.groups.map ConversationSummarySourceGroup.runId
    snapshotSequence := some sources.snapshotSequence
    limits := limits }
  ensure (prepared.sources = sources)
    ⟨.invalidSources, "summary source reconstruction differs from its seal"⟩
  return prepared

section Extended

variable {history : History} {log longer : SessionLog} {suffix : List SummaryEvent} {sequence : ℕ}
  {limits : ConversationHistoryLimits}

theorem endsAt_le (h : endsAt log sequence) : sequence ≤ log.lastSequence := by
  obtain ⟨_, hlast, rfl⟩ := Option.map_eq_some_iff.1 (of_decide_eq_true h)
  exact SessionLog.le_lastSequence
    ((List.takeWhile_prefix _).subset (List.mem_of_getLast? hlast))

section

variable (hlog : log.ExtendedBy suffix longer)

include hlog

theorem endsAt_extended (h : endsAt log sequence) : endsAt longer sequence := by
  unfold endsAt at h ⊢
  rw [upTo_extended hlog (endsAt_le h)]
  exact h

theorem snapshotEvents_extended {runIds : List RunId}
    {events : List SummaryEvent} (h : snapshotEvents
      { log := log, runIds := runIds, snapshotSequence := some sequence, limits := limits } =
      .ok events) :
    snapshotEvents
      { log := longer, runIds := runIds, snapshotSequence := some sequence, limits := limits } =
      .ok events ∧ events.getLast?.map SummaryEvent.sequence = some sequence := by
  obtain ⟨_, hends, h⟩ := bind_ok.1 h
  obtain ⟨_, hlen, h⟩ := bind_ok.1 h
  cases h
  obtain ⟨hne, hends⟩ := ensure_ok.1 hends
  have hsame : longer.upTo sequence = log.upTo sequence := upTo_extended hlog (endsAt_le hends)
  have hlen : (longer.upTo sequence).length ≤ limits.maximumEvents :=
    hsame ▸ ensure_ok.1 hlen
  refine ⟨ensured ⟨hne, endsAt_extended hlog hends⟩ ?_,
    of_decide_eq_true hends⟩
  exact ensured hlen (congrArg Except.ok hsame)

theorem sourceEvents_extended {events : List SummaryEvent}
    (h : sourceEvents log sequence = .ok events) : sourceEvents longer sequence = .ok events := by
  unfold sourceEvents at h ⊢
  split at h
  · rename_i hzero
    rw [if_pos hzero]
    exact h
  · rename_i hne
    rw [if_neg hne]
    obtain ⟨hle, h⟩ := guarded h
    obtain ⟨hends, h⟩ := guarded h
    rw [upTo_extended hlog hle]
    exact ensured (hle.trans (lastSequence_le hlog))
      (ensured (endsAt_extended hlog hends) h)

theorem reconstruct_extended {excluded : List RunId}
    {groups : List ConversationHistoryGroup}
    (h : reconstructConversationHistory history log excluded sequence = .ok groups) :
    reconstructConversationHistory history longer excluded sequence = .ok groups := by
  obtain ⟨events, hevs, h⟩ := bind_ok.1 h
  refine bind_ok.2 ⟨events, sourceEvents_extended hlog hevs, ?_⟩
  rw [hlog.session]
  exact h

/-- Only the events up to the snapshot are read, and they stay as they are. -/
theorem prepare_extended {runIds : List RunId}
    {prepared : PreparedConversationSummarySources} (h : prepare history
      { log := log, runIds := runIds, snapshotSequence := some sequence, limits := limits } =
      .ok prepared) :
    prepare history
      { log := longer, runIds := runIds, snapshotSequence := some sequence, limits := limits } =
      .ok prepared := by
  obtain ⟨events, hevs, h⟩ := bind_ok.1 h
  obtain ⟨index, hidx, h⟩ := bind_ok.1 h
  obtain ⟨groups, hgrp, h⟩ := bind_ok.1 h
  obtain ⟨hevs, _⟩ := snapshotEvents_extended hlog hevs
  refine bind_ok.2 ⟨events, hevs, bind_ok.2 ⟨index, hidx, ?_⟩⟩
  have hgrp := reconstruct_extended hlog (mapError_ok.1 hgrp)
  refine bind_ok.2 ⟨groups, mapError_ok.2 hgrp, ?_⟩
  simp only [hlog.session]
  exact h

theorem resolve_extended
    {sources : ConversationSummarySources} {prepared : PreparedConversationSummarySources}
    (h : resolveConversationSummarySources history log sources limits = .ok prepared) :
    resolveConversationSummarySources history longer sources limits = .ok prepared := by
  obtain ⟨_, hsess, h⟩ := bind_ok.1 h
  obtain ⟨_, hval, h⟩ := bind_ok.1 h
  obtain ⟨found, hprep, h⟩ := bind_ok.1 h
  refine bind_ok.2 ⟨⟨⟩, ?_, bind_ok.2 ⟨_, hval, bind_ok.2
    ⟨found, prepare_extended hlog hprep, h⟩⟩⟩
  rw [hlog.session]
  exact hsess

end

end Extended

end SourceRecovery
