import AiForge.EventProjection
import AiForge.PlanGraph
import AiForge.Staged

/-! # Project backlog

The backlog of a repository gathers tasks that several sessions promote. Each session has its
own sequence of events; the projection takes them in whatever order they are brought. -/
namespace ProjectBacklog

open Content Events EventProjection KeyedList PlanGraph SafeText Staged

abbrev ProjectBacklogItemId := String
abbrev RepositoryId := String

inductive ProjectBacklogDecisionSource where
  | user | policy

structure ProjectBacklogOrigin where
  sessionId : SessionId
  planId : PlanId
  revisionId : PlanRevisionId
  taskId : PlanTaskId
  deriving DecidableEq

structure ProjectBacklogItem where
  itemId : ProjectBacklogItemId
  repositoryId : RepositoryId
  origin : ProjectBacklogOrigin
  task : PlanTask
  source : ProjectBacklogDecisionSource

/-- A status may also be a number that the enumeration does not have. -/
inductive ProjectBacklogItemStatus where
  | open | resolved
  | other (value : ℕ)
  deriving DecidableEq

structure ProjectBacklogStatusChange where
  itemId : ProjectBacklogItemId
  repositoryId : RepositoryId
  status : ProjectBacklogItemStatus
  source : ProjectBacklogDecisionSource
  reason : Option Bytes
  expectedStatusEventId : Option EventId

structure ProjectedBacklogItem where
  item : ProjectBacklogItem
  promotionEventId : EventId
  status : ProjectBacklogItemStatus
  statusEventId : EventId
  statusReason : Option Bytes

structure ProjectBacklogLimits where
  maximumItems : ℕ := 4096
  maximumReasonBytes : ℕ := 16 * 1024

inductive ProjectBacklogErrorCode where
  | invalidLimits | invalidItem | invalidTransition | wrongRepository | duplicateIdentity
  | duplicateOrigin | staleStatus | nonMonotonicSequence | duplicateEvent | resourceExhausted
  | internalFailure

structure ProjectBacklogError where
  code : ProjectBacklogErrorCode
  message : String
  itemId : Option ProjectBacklogItemId := none

/-- The backlog events of a session; every other event only passes the envelope checks. -/
inductive BacklogEventPayload where
  | projectBacklogItemPromoted (item : ProjectBacklogItem)
  | projectBacklogItemStatusChanged (change : ProjectBacklogStatusChange)
  | unrelated (payload : RunEventPayload)

structure BacklogEvent where
  metadata : EventMetadata
  payload : BacklogEventPayload

/-- One call of `apply`: an event and the session it comes from. -/
structure BacklogCall where
  sessionId : SessionId
  event : BacklogEvent

def validLimits (limits : ProjectBacklogLimits) : Bool :=
  0 < limits.maximumItems && 0 < limits.maximumReasonBytes

def validReason (reason : Option Bytes) (limits : ProjectBacklogLimits) : Bool :=
  reason.all fun text =>
    !text.isEmpty && text.length ≤ limits.maximumReasonBytes &&
      text.all fun c => !(c == 0 || c == 0x7f || (c < 0x20 && c != 0x0a && c != 0x09))

/-- The task alone, as the only one of a plan. -/
def standaloneRevision (item : ProjectBacklogItem) : PlanRevision :=
  { planId := item.origin.planId, revisionId := item.origin.revisionId,
    supersedesRevisionId := none, goal := bytesOf "promoted project backlog task",
    sourceSnapshot := none,
    tasks := [{ item.task with parentTaskId := none, dependencyTaskIds := [] }], evidence := [] }

def validateProjectBacklogItem (item : ProjectBacklogItem) (limits : ProjectBacklogLimits) :
    Except ProjectBacklogError PUnit := do
  ensure (validLimits limits)
    ⟨.invalidLimits, "project-backlog limits must be positive", none⟩
  ensure (item.task.parentTaskId ≠ some item.task.taskId ∧
      item.task.taskId ∉ item.task.dependencyTaskIds ∧ item.task.dependencyTaskIds.Nodup ∧
      (validatePlanRevision (standaloneRevision item)).isOk)
    ⟨.invalidItem, "promoted project-backlog task is invalid", some item.itemId⟩
  ensure (item.origin.taskId = item.task.taskId)
    ⟨.invalidItem, "project-backlog origin does not match its task", some item.itemId⟩

/-- Both statuses are allowed, so only the reason is left to check. -/
def validateProjectBacklogStatusChange (change : ProjectBacklogStatusChange)
    (limits : ProjectBacklogLimits) : Except ProjectBacklogError PUnit := do
  ensure (validLimits limits)
    ⟨.invalidLimits, "project-backlog limits must be positive", none⟩
  ensure ((change.status = .open ∨ change.status = .resolved) ∧ validReason change.reason limits)
    ⟨.invalidItem, "project-backlog status change is invalid", some change.itemId⟩
  ensure (change.status = .resolved → change.reason.isSome)
    ⟨.invalidItem, "resolving a project-backlog item requires a reason", some change.itemId⟩

def ProjectedBacklogItem.id (i : ProjectedBacklogItem) : ProjectBacklogItemId := i.item.itemId

def ProjectedBacklogItem.origin (i : ProjectedBacklogItem) : ProjectBacklogOrigin := i.item.origin

def promotedItem (item : ProjectBacklogItem) (metadata : EventMetadata) : ProjectedBacklogItem :=
  ⟨item, metadata.eventId, .open, metadata.eventId, none⟩

def ProjectedBacklogItem.changed (i : ProjectedBacklogItem) (change : ProjectBacklogStatusChange)
    (metadata : EventMetadata) : ProjectedBacklogItem :=
  { i with status := change.status, statusEventId := metadata.eventId,
           statusReason := change.reason }

/-- A session that has not been seen yet is at sequence zero. -/
structure BacklogState where
  items : List ProjectedBacklogItem := []
  eventIds : Finset (SessionId × EventId) := ∅
  lastSequences : SessionId → ℕ := fun _ => 0

def BacklogState.find (s : BacklogState) (id : ProjectBacklogItemId) :
    Option ProjectedBacklogItem := lookup ProjectedBacklogItem.id id s.items

def applyPromoted (repository : RepositoryId) (limits : ProjectBacklogLimits) (s : BacklogState)
    (sessionId : SessionId) (metadata : EventMetadata) (item : ProjectBacklogItem) :
    Except ProjectBacklogError (List ProjectedBacklogItem) := do
  validateProjectBacklogItem item limits
  if item.repositoryId ≠ repository then .ok s.items
  else do
    ensure (item.origin.sessionId = sessionId)
      ⟨.invalidItem, "project-backlog origin does not match its event session", some item.itemId⟩
    ensure (s.items.length < limits.maximumItems)
      ⟨.resourceExhausted, "project-backlog item limit is exceeded", some item.itemId⟩
    ensure (∀ i ∈ s.items, i.id ≠ item.itemId)
      ⟨.duplicateIdentity, "project-backlog item identity is duplicated", some item.itemId⟩
    ensure (∀ i ∈ s.items, i.origin ≠ item.origin)
      ⟨.duplicateOrigin, "session task is already promoted", some item.itemId⟩
    return s.items ++ [promotedItem item metadata]

def applyStatusChanged (repository : RepositoryId) (limits : ProjectBacklogLimits)
    (s : BacklogState) (sessionId : SessionId) (metadata : EventMetadata)
    (change : ProjectBacklogStatusChange) :
    Except ProjectBacklogError (List ProjectedBacklogItem) := do
  validateProjectBacklogStatusChange change limits
  if change.repositoryId ≠ repository then .ok s.items
  else do
    let found ← Staged.require (s.find change.itemId)
      ⟨.invalidTransition, "project-backlog status targets an unknown item", some change.itemId⟩
    ensure (found.origin.sessionId = sessionId)
      ⟨.invalidTransition, "project-backlog status must remain in its source session",
        some change.itemId⟩
    ensure (change.expectedStatusEventId = some found.statusEventId)
      ⟨.staleStatus, "project-backlog status precondition is stale", some change.itemId⟩
    ensure (found.status ≠ change.status)
      ⟨.invalidTransition, "project-backlog status must change", some change.itemId⟩
    return updateFirst ProjectedBacklogItem.id change.itemId (·.changed change metadata) s.items

def visit (repository : RepositoryId) (limits : ProjectBacklogLimits) (s : BacklogState)
    (call : BacklogCall) : Except ProjectBacklogError (List ProjectedBacklogItem) :=
  match call.event.payload with
  | .projectBacklogItemPromoted item =>
    applyPromoted repository limits s call.sessionId call.event.metadata item
  | .projectBacklogItemStatusChanged change =>
    applyStatusChanged repository limits s call.sessionId call.event.metadata change
  | .unrelated _ => .ok s.items

/-- The sequence is compared with that of the same session only. -/
def applyChecked (repository : RepositoryId) (limits : ProjectBacklogLimits) (s : BacklogState)
    (call : BacklogCall) : Except ProjectBacklogError BacklogState := do
  let metadata := call.event.metadata
  ensure (validLimits limits)
    ⟨.invalidLimits, "project-backlog limits must be positive", none⟩
  ensure (metadata.sequence ≠ 0 ∧ s.lastSequences call.sessionId < metadata.sequence)
    ⟨.nonMonotonicSequence, "project-backlog event sequence does not increase", none⟩
  ensure ((call.sessionId, metadata.eventId) ∉ s.eventIds)
    ⟨.duplicateEvent, "project-backlog event identity is duplicated", none⟩
  let items ← visit repository limits s call
  return { items := items
           eventIds := insert (call.sessionId, metadata.eventId) s.eventIds
           lastSequences := Function.update s.lastSequences call.sessionId metadata.sequence }

def apply (repository : RepositoryId) (limits : ProjectBacklogLimits) (s : BacklogState)
    (call : BacklogCall) : Except ProjectBacklogError Unit × BacklogState :=
  match applyChecked repository limits s call with
  | .ok t => (.ok (), t)
  | .error err => (.error err, s)

def ProjectBacklogProjection (repository : RepositoryId) (limits : ProjectBacklogLimits) :
    Projection BacklogState BacklogCall ProjectBacklogError :=
  ⟨{}, apply repository limits⟩

structure ProjectBacklogSessionEvents where
  sessionId : SessionId
  events : List BacklogEvent

def callsOf (history : ProjectBacklogSessionEvents) : List BacklogCall :=
  history.events.map fun event => ⟨history.sessionId, event⟩

def rebuild (repository : RepositoryId) (histories : List ProjectBacklogSessionEvents)
    (limits : ProjectBacklogLimits) : Except ProjectBacklogError BacklogState :=
  (ProjectBacklogProjection repository limits).replay (histories.flatMap callsOf)

variable {repository : RepositoryId} {limits : ProjectBacklogLimits} {s t : BacklogState}
  {call : BacklogCall}

/-- An accepted call leaves the items as they are, adds one that its own session promotes, or
changes the status of one that its own session has promoted and whose last change it names. -/
inductive Moved (repository : RepositoryId) (s : BacklogState) (call : BacklogCall)
    (items : List ProjectedBacklogItem) : Prop where
  | kept (same : items = s.items)
      (promoted : ∀ item, call.event.payload = .projectBacklogItemPromoted item →
        item.repositoryId ≠ repository)
      (changed : ∀ change, call.event.payload = .projectBacklogItemStatusChanged change →
        change.repositoryId ≠ repository)
  | promoted (item : ProjectBacklogItem)
      (payload : call.event.payload = .projectBacklogItemPromoted item)
      (here : item.repositoryId = repository) (own : item.origin.sessionId = call.sessionId)
      (newId : ∀ i ∈ s.items, i.id ≠ item.itemId)
      (newOrigin : ∀ i ∈ s.items, i.origin ≠ item.origin)
      (grown : items = s.items ++ [promotedItem item call.event.metadata])
  | changed (change : ProjectBacklogStatusChange) (found : ProjectedBacklogItem)
      (payload : call.event.payload = .projectBacklogItemStatusChanged change)
      (here : change.repositoryId = repository) (known : s.find change.itemId = some found)
      (own : found.origin.sessionId = call.sessionId)
      (expected : change.expectedStatusEventId = some found.statusEventId)
      (updated : items = updateFirst ProjectedBacklogItem.id change.itemId
        (·.changed change call.event.metadata) s.items)

theorem visit_moved {items : List ProjectedBacklogItem}
    (h : visit repository limits s call = .ok items) : Moved repository s call items := by
  unfold visit at h
  cases hp : call.event.payload <;> rw [hp] at h <;> dsimp only at h
  case projectBacklogItemPromoted item =>
    replace h := later h
    split_ifs at h with hrepo
    · cases h
      refine .kept rfl ?_ ?_
      · intro other hoth
        obtain rfl := BacklogEventPayload.projectBacklogItemPromoted.inj (hp.symm.trans hoth)
        exact hrepo
      · intro change hchg
        rw [hp] at hchg
        cases hchg
    · obtain ⟨_, hown, h⟩ := bind_ok.1 h
      replace h := later h
      obtain ⟨hid, h⟩ := guarded h
      obtain ⟨horig, h⟩ := guarded h
      cases h
      exact .promoted item hp (not_not.1 hrepo) (ensure_ok.1 hown) hid
        horig rfl
  case projectBacklogItemStatusChanged change =>
    replace h := later h
    split_ifs at h with hrepo
    · cases h
      refine .kept rfl ?_ ?_
      · intro item hitem
        rw [hp] at hitem
        cases hitem
      · intro other hoth
        obtain rfl :=
          BacklogEventPayload.projectBacklogItemStatusChanged.inj (hp.symm.trans hoth)
        exact hrepo
    · obtain ⟨found, hfnd, h⟩ := bind_ok.1 h
      obtain ⟨hown, h⟩ := guarded h
      obtain ⟨hexp, h⟩ := guarded h
      replace h := later h
      cases h
      exact .changed change found hp (not_not.1 hrepo) (require_ok.1 hfnd)
        hown hexp rfl
  case unrelated =>
    cases h
    refine .kept rfl ?_ ?_
    · intro item hitem
      rw [hp] at hitem
      cases hitem
    · intro change hchg
      rw [hp] at hchg
      cases hchg

theorem accepts_moved (h : (ProjectBacklogProjection repository limits).Accepts s call) :
    Moved repository s call
      ((ProjectBacklogProjection repository limits).apply s call).2.items := by
  change (apply repository limits s call).1 = _ at h
  change Moved repository s call (apply repository limits s call).2.items
  unfold apply at h ⊢
  cases hc : applyChecked repository limits s call with
  | error => simp [hc] at h
  | ok =>
    replace hc := later hc
    replace hc := later hc
    replace hc := later hc
    obtain ⟨items, hv, hc⟩ := bind_ok.1 hc
    cases hc
    exact visit_moved hv

theorem apply_atomic (repository : RepositoryId) (limits : ProjectBacklogLimits) :
    (ProjectBacklogProjection repository limits).Atomic := by
  intro s call h
  change (apply repository limits s call).2 = s
  change ¬ (apply repository limits s call).1 = _ at h
  unfold apply at h ⊢
  cases hc : applyChecked repository limits s call with
  | error => rfl
  | ok => simp [hc] at h

theorem changed_id (change : ProjectBacklogStatusChange) (metadata : EventMetadata)
    (x : ProjectedBacklogItem) (hx : x.id = change.itemId) :
    (x.changed change metadata).id = change.itemId := hx

theorem changed_origin (change : ProjectBacklogStatusChange) (metadata : EventMetadata)
    (x : ProjectedBacklogItem) : (x.changed change metadata).origin = x.origin := rfl

structure Unique (items : List ProjectedBacklogItem) : Prop where
  ids : Distinct ProjectedBacklogItem.id items
  origins : Distinct ProjectedBacklogItem.origin items

theorem moved_unique {items : List ProjectedBacklogItem} (h : Moved repository s call items)
    (hs : Unique s.items) : Unique items := by
  cases h with
  | kept hsame =>
    rw [hsame]
    exact hs
  | promoted _ _ _ _ hid horig hgrown =>
    rw [hgrown]
    exact ⟨distinct_snoc hs.ids (lookup_none.2 hid),
      distinct_snoc hs.origins (lookup_none.2 horig)⟩
  | changed change _ _ _ _ _ _ hupd =>
    rw [hupd]
    refine ⟨distinct_update (changed_id change _) hs.ids, ?_⟩
    unfold Distinct
    rw [map_update (changed_origin change _)]
    exact hs.origins

theorem reachable_unique (h : (ProjectBacklogProjection repository limits).Reachable s) :
    Unique s.items := by
  refine reachable_inv (I := fun s : BacklogState => Unique s.items)
    (apply_atomic repository limits) ⟨List.nodup_nil, List.nodup_nil⟩ ?_ h
  intro s call ha hs
  exact moved_unique (accepts_moved ha) hs

/-- The call is a status change for `i`, from the session that promoted it, and knows the event
that set its status last. -/
def MayChange (i : ProjectedBacklogItem) (call : BacklogCall) (i' : ProjectedBacklogItem) : Prop :=
  ∃ change, call.event.payload = .projectBacklogItemStatusChanged change ∧
    change.itemId = i.id ∧ i.origin.sessionId = call.sessionId ∧
    change.expectedStatusEventId = some i.statusEventId ∧
    i' = i.changed change call.event.metadata

theorem apply_status {id : ProjectBacklogItemId} {i : ProjectedBacklogItem}
    (hi : s.find id = some i) (call : BacklogCall) :
    ∃ i', ((ProjectBacklogProjection repository limits).apply s call).2.find id = some i' ∧
      (i' = i ∨ MayChange i call i') := by
  by_cases ha : (ProjectBacklogProjection repository limits).Accepts s call
  · unfold BacklogState.find at hi ⊢
    cases accepts_moved ha with
    | kept hsame =>
      rw [hsame]
      exact ⟨i, hi, .inl rfl⟩
    | promoted _ _ _ _ _ _ hgrown =>
      rw [hgrown]
      exact ⟨i, lookup_snoc_of_some hi, .inl rfl⟩
    | changed change _ hp _ hknw hown hexp hupd =>
      rw [hupd]
      by_cases hid : id = change.itemId
      · subst hid
        obtain rfl := Option.some.inj (hi.symm.trans hknw)
        rw [lookup_update_self (changed_id change _), hi]
        exact ⟨_, rfl, .inr ⟨change, hp, (lookup_key hi).symm, hown, hexp, rfl⟩⟩
      · rw [lookup_update_ne (changed_id change _) hid]
        exact ⟨i, hi, .inl rfl⟩
  · rw [apply_atomic repository limits s call ha]
    exact ⟨i, hi, .inl rfl⟩

def itemsOf (sessionId : SessionId) (s : BacklogState) : List ProjectedBacklogItem :=
  s.items.filter fun i => i.origin.sessionId = sessionId

/-- What a call would do if only the items of its own session were there. -/
def sessionStep (repository : RepositoryId) (items : List ProjectedBacklogItem)
    (call : BacklogCall) : List ProjectedBacklogItem :=
  match call.event.payload with
  | .projectBacklogItemPromoted item =>
    if item.repositoryId = repository then items ++ [promotedItem item call.event.metadata]
    else items
  | .projectBacklogItemStatusChanged change =>
    if change.repositoryId = repository then
      updateFirst ProjectedBacklogItem.id change.itemId
        (·.changed change call.event.metadata) items
    else items
  | .unrelated _ => items

/-- The items of a session are moved by its own calls, and by them alone. -/
theorem itemsOf_apply {sessionId : SessionId}
    (h : (ProjectBacklogProjection repository limits).Accepts s call) :
    itemsOf sessionId ((ProjectBacklogProjection repository limits).apply s call).2 =
      if call.sessionId = sessionId then sessionStep repository (itemsOf sessionId s) call
      else itemsOf sessionId s := by
  unfold itemsOf
  cases accepts_moved h with
  | kept hsame hpromoted hchg =>
    have hstep : ∀ items, sessionStep repository items call = items := by
      intro items
      unfold sessionStep
      split
      · rename_i item hp
        exact if_neg (hpromoted item hp)
      · rename_i change hp
        exact if_neg (hchg change hp)
      · rfl
    rw [hsame, hstep, ite_self]
  | promoted item hp hhere hown _ _ hgrown =>
    have hstep : ∀ items, sessionStep repository items call =
        items ++ [promotedItem item call.event.metadata] := by
      intro items
      unfold sessionStep
      rw [hp]
      exact if_pos hhere
    have horig : (promotedItem item call.event.metadata).origin.sessionId = call.sessionId := hown
    rw [hgrown, hstep, List.filter_append]
    by_cases hsess : call.sessionId = sessionId
    · simp [hsess, horig]
    · simp [hsess, horig]
  | changed change found hp hhere hknw hown _ hupd =>
    have hstep : ∀ items, sessionStep repository items call =
        updateFirst ProjectedBacklogItem.id change.itemId
          (·.changed change call.event.metadata) items := by
      intro items
      unfold sessionStep
      rw [hp]
      exact if_pos hhere
    have horig : (found.changed change call.event.metadata).origin.sessionId =
      call.sessionId := hown
    rw [hupd, hstep]
    by_cases hsess : call.sessionId = sessionId
    · rw [if_pos hsess]
      exact filter_update hknw (by simp [hown, hsess]) (by simp [horig, hsess])
    · rw [if_neg hsess]
      exact filter_update_of_not hknw (by simp [hown, hsess])
        (by simp [horig, hsess])

/-- Two accepted orders of the same session histories end with the same items. -/
theorem accepted_converge {xs ys : List BacklogCall}
    (hxs : (ProjectBacklogProjection repository limits).Accepted
      (ProjectBacklogProjection repository limits).initial xs s)
    (hys : (ProjectBacklogProjection repository limits).Accepted
      (ProjectBacklogProjection repository limits).initial ys t)
    (hsame : SameShards BacklogCall.sessionId xs ys) : s.items.Perm t.items := by
  have hview : ∀ sessionId, itemsOf sessionId s = itemsOf sessionId t := by
    intro sessionId
    rw [accepted_shard (fun _ _ => itemsOf_apply) hxs, accepted_shard (fun _ _ => itemsOf_apply) hys,
      hsame sessionId]
  have hmem : ∀ (u : BacklogState) i, i ∈ u.items ↔ i ∈ itemsOf i.origin.sessionId u := by
    intro u i
    simp [itemsOf]
  have hs := reachable_unique ⟨xs, accepted_feed hxs⟩
  have ht := reachable_unique ⟨ys, accepted_feed hys⟩
  refine (List.perm_ext_iff_of_nodup hs.ids.of_map ht.ids.of_map).2 fun i => ?_
  rw [hmem s, hmem t, hview]

theorem apply_checked (h : applyChecked repository limits s call = .ok t) :
    (ProjectBacklogProjection repository limits).apply s call = (.ok (), t) := by
  change apply repository limits s call = _
  rw [apply, h]

theorem accepts_checked (h : (ProjectBacklogProjection repository limits).Accepts s call) :
    applyChecked repository limits s call =
      .ok ((ProjectBacklogProjection repository limits).apply s call).2 := by
  cases hc : applyChecked repository limits s call with
  | error =>
    change (apply repository limits s call).1 = _ at h
    simp [apply, hc] at h
  | ok => rw [apply_checked hc]

abbrev Held := List ProjectedBacklogItem × ℕ × Set EventId

/-- What a state holds of the events of one session. -/
def held (sessionId : SessionId) (s : BacklogState) : Held :=
  (itemsOf sessionId s, s.lastSequences sessionId, {id | (sessionId, id) ∈ s.eventIds})

def heldStep (repository : RepositoryId) (h : Held) (call : BacklogCall) : Held :=
  (sessionStep repository h.1 call, call.event.metadata.sequence,
    insert call.event.metadata.eventId h.2.2)

theorem held_apply {sessionId : SessionId}
    (h : (ProjectBacklogProjection repository limits).Accepts s call) :
    held sessionId ((ProjectBacklogProjection repository limits).apply s call).2 =
      if call.sessionId = sessionId then heldStep repository (held sessionId s) call
      else held sessionId s := by
  have hitems : itemsOf sessionId _ = _ := itemsOf_apply h
  obtain ⟨items, -, hnext⟩ := bind_ok.1 (later (later (later (accepts_checked h))))
  rw [← Except.ok.inj hnext] at hitems ⊢
  split
  · rename_i hown
    subst hown
    rw [if_pos rfl] at hitems
    refine Prod.ext hitems (Prod.ext ?_ ?_)
    · simp [held, heldStep]
    · ext id
      simp [held, heldStep]
  · rename_i hne
    rw [if_neg hne] at hitems
    refine Prod.ext hitems (Prod.ext ?_ ?_)
    · simp [held, Function.update_of_ne (Ne.symm hne)]
    · ext id
      simp [held, Ne.symm hne]

variable {xs ys : List BacklogCall}

theorem held_accepted {sessionId : SessionId}
    (h : (ProjectBacklogProjection repository limits).Accepted {} xs s) :
    held sessionId s = (xs.filter fun call => call.sessionId = sessionId).foldl
      (heldStep repository) (held sessionId {}) :=
  accepted_shard (fun _ _ => held_apply) h

def ProjectedBacklogItem.key (i : ProjectedBacklogItem) :
    ProjectBacklogItemId × ProjectBacklogOrigin := (i.id, i.origin)

open ProjectedBacklogItem (key origin)

theorem keys_foldl (repository : RepositoryId) (calls : List BacklogCall) (h : Held) :
    h.1.map key <+: (calls.foldl (heldStep repository) h).1.map key := by
  induction calls generalizing h with
  | nil => exact List.prefix_refl _
  | cons call calls ih =>
    refine List.IsPrefix.trans ?_ (ih _)
    simp only [heldStep, sessionStep]
    split
    · split
      · exact (List.prefix_append ..).map key
      · exact List.prefix_refl _
    · split
      · rw [map_update]
        exact fun _ => rfl
      · exact List.prefix_refl _
    · exact List.prefix_refl _

theorem visit_length {items : List ProjectedBacklogItem}
    (h : visit repository limits s call = .ok items) (hs : s.items.length ≤ limits.maximumItems) :
    items.length ≤ limits.maximumItems := by
  unfold visit at h
  split at h
  · replace h := later h
    split_ifs at h
    · cases h
      exact hs
    · obtain ⟨hroom, h⟩ := guarded (later h)
      cases later (later h)
      rw [List.length_append]
      exact hroom
  · replace h := later h
    split_ifs at h
    · cases h
      exact hs
    · obtain ⟨_, -, h⟩ := bind_ok.1 h
      cases later (later (later h))
      rw [← List.length_map, map_key_update (changed_id _ _), List.length_map]
      exact hs
  · cases h
    exact hs

/-- A call that one state takes is taken by any other that holds the same of its session, as long
as the items of the other sessions leave room for the one it promotes. -/
theorem visit_elsewhere {u : BacklogState} {items : List ProjectedBacklogItem}
    (h : visit repository limits s call = .ok items)
    (hsame : itemsOf call.sessionId u = itemsOf call.sessionId s)
    (hids : Distinct ProjectedBacklogItem.id u.items)
    (hroom : ∀ item, call.event.payload = .projectBacklogItemPromoted item →
      item.repositoryId = repository → item.origin.sessionId = call.sessionId →
      (∀ i ∈ u.items, i.id = item.itemId → i.origin = item.origin) ∧
        ((∀ i ∈ u.items, i.origin ≠ item.origin) → u.items.length < limits.maximumItems)) :
    ∃ items, visit repository limits u call = .ok items := by
  have hown (i : ProjectedBacklogItem) (h : i.origin.sessionId = call.sessionId) :
      i ∈ u.items ↔ i ∈ s.items := by
    have hmem : i ∈ itemsOf call.sessionId u ↔ i ∈ itemsOf call.sessionId s := by rw [hsame]
    simpa [itemsOf, h] using hmem
  unfold visit at h ⊢
  split at h
  · rename_i item hpay
    obtain ⟨_, hval, h⟩ := bind_ok.1 h
    split_ifs at h with hrepo
    · exact ⟨_, bind_ok.2 ⟨_, hval, if_pos hrepo⟩⟩
    · obtain ⟨hsess, h⟩ := guarded h
      obtain ⟨hid, h⟩ := guarded (later h)
      obtain ⟨horig, -⟩ := guarded h
      obtain ⟨hclash, hlen⟩ := hroom item hpay (not_not.1 hrepo) hsess
      have hfree (i : ProjectedBacklogItem) (hi : i ∈ u.items) : i.origin ≠ item.origin := by
        intro heq
        exact horig i ((hown i (heq ▸ hsess)).1 hi) heq
      exact ⟨_, bind_ok.2 ⟨_, hval, (if_neg hrepo).trans (ensured hsess (ensured (hlen hfree)
        (ensured (fun i hi heq => hfree i hi (hclash i hi heq)) (ensured hfree rfl))))⟩⟩
  · rename_i change _
    obtain ⟨_, hval, h⟩ := bind_ok.1 h
    split_ifs at h with hrepo
    · exact ⟨_, bind_ok.2 ⟨_, hval, if_pos hrepo⟩⟩
    · obtain ⟨found, hfound, h⟩ := bind_ok.1 h
      obtain ⟨hsess, h⟩ := guarded h
      have hknown := require_ok.1 hfound
      have hfind : u.find change.itemId = some found :=
        lookup_key hknown ▸ lookup_of_mem hids ((hown found hsess).2 (lookup_mem hknown))
      obtain ⟨hstale, h⟩ := guarded h
      obtain ⟨hmoves, -⟩ := guarded h
      exact ⟨_, bind_ok.2 ⟨_, hval, (if_neg hrepo).trans (bind_ok.2 ⟨found, require_ok.2 hfind,
        ensured hsess (ensured hstale (ensured hmoves rfl))⟩)⟩⟩
  · exact ⟨_, rfl⟩

/-- No other interleaving of the sessions is refused. -/
theorem accepted_reordered (hys : (ProjectBacklogProjection repository limits).Accepted {} ys t)
    (hsame : SameShards BacklogCall.sessionId xs ys) :
    ∃ s, (ProjectBacklogProjection repository limits).Accepted {} xs s := by
  have ht := reachable_unique ⟨ys, accepted_feed hys⟩
  -- the items of what was read so far are among those of the end
  have hkept (before : List BacklogCall) (u : BacklogState)
      (hu : (ProjectBacklogProjection repository limits).Accepted {} before u)
      (hpre : ∀ k, before.filter (fun call => call.sessionId = k) <+:
        ys.filter fun call => call.sessionId = k) : u.items.map key ⊆ t.items.map key := by
    intro _ hmem
    obtain ⟨i, hi, rfl⟩ := List.mem_map.1 hmem
    obtain ⟨rest, hrest⟩ := hpre i.origin.sessionId
    have hgrown := keys_foldl repository rest (held i.origin.sessionId u)
    rw [held_accepted hu, ← List.foldl_append, hrest, ← held_accepted hys,
      ← held_accepted hu] at hgrown
    have hown : i ∈ (held i.origin.sessionId u).1 := List.mem_filter.2 ⟨hi, by simp⟩
    obtain ⟨j, hj, hkeys⟩ := List.mem_map.1 (hgrown.subset (List.mem_map_of_mem hown))
    exact hkeys ▸ List.mem_map_of_mem (List.mem_of_mem_filter hj)
  have hlen : t.items.length ≤ limits.maximumItems := by
    refine accepted_invariant (I := fun s : BacklogState => s.items.length ≤ limits.maximumItems)
      (fun s call h hs => ?_) hys (Nat.zero_le _)
    obtain ⟨items, hvisit, hnext⟩ := bind_ok.1 (later (later (later (accepts_checked h))))
    rw [← Except.ok.inj hnext]
    exact visit_length hvisit hs
  refine accepted_interleaved hys hsame fun before past e after u v hu hv hsplit he hpre hown => ?_
  have hlocal : held e.sessionId u = held e.sessionId v := by
    rw [held_accepted hu, held_accepted hv, hown]
  obtain ⟨hlimits, hchecked⟩ := guarded (accepts_checked he)
  obtain ⟨⟨hpos, hlater⟩, hchecked⟩ := guarded hchecked
  obtain ⟨hnew, hchecked⟩ := guarded hchecked
  obtain ⟨items, hvisit, -⟩ := bind_ok.1 hchecked
  have hunique := reachable_unique ⟨before, accepted_feed hu⟩
  have hseq : u.lastSequences e.sessionId = v.lastSequences e.sessionId := congrArg (·.2.1) hlocal
  have hseen := Set.ext_iff.1 (congrArg (·.2.2) hlocal) e.event.metadata.eventId
  suffices hroom : _ by
    obtain ⟨_, hmoved⟩ := visit_elsewhere hvisit (congrArg Prod.fst hlocal) hunique.ids hroom
    exact congrArg Prod.fst (apply_checked (ensured hlimits (ensured ⟨hpos, hseq ▸ hlater⟩
      (ensured (fun hold => hnew (hseen.1 hold)) (bind_ok.2 ⟨_, hmoved, rfl⟩)))))
  intro item hpay hhere hsess
  have hgrown : itemsOf e.sessionId ((ProjectBacklogProjection repository limits).apply v e).2 =
      itemsOf e.sessionId v ++ [promotedItem item e.event.metadata] := by
    rw [itemsOf_apply he, if_pos rfl]
    simp [sessionStep, hpay, hhere]
  have hpromoted : (item.itemId, item.origin) ∈ t.items.map key := by
    refine hkept (past ++ [e]) _ (accepted_append.2 ⟨v, hv, .cons he (.nil _)⟩) (fun k => ?_)
      (List.mem_map_of_mem (f := key) (a := promotedItem item e.event.metadata)
        (List.mem_of_mem_filter (hgrown ▸ List.mem_append_right _ (List.mem_singleton_self _))))
    exact List.IsPrefix.filter _ ⟨after, by simp [hsplit]⟩
  obtain ⟨j, hj, hjkey⟩ := List.mem_map.1 hpromoted
  constructor
  · intro i hi hid
    obtain ⟨k, hk, hkkey⟩ := List.mem_map.1 (hkept before u hu hpre (List.mem_map_of_mem hi))
    have hids : k.id = j.id :=
      (congrArg Prod.fst hkkey).trans (hid.trans (congrArg Prod.fst hjkey).symm)
    obtain rfl := List.inj_on_of_nodup_map ht.ids hk hj hids
    exact congrArg Prod.snd (hkkey.symm.trans hjkey)
  · intro hfree
    have hnd : (item.origin :: u.items.map origin).Nodup :=
      List.nodup_cons.2 ⟨by simpa using hfree, hunique.origins⟩
    have hsub : item.origin :: u.items.map origin ⊆ t.items.map origin := by
      have h := List.map_subset Prod.snd (List.cons_subset.2 ⟨hpromoted, hkept before u hu hpre⟩)
      rwa [List.map_cons, List.map_map, List.map_map] at h
    have hle := (List.subperm_of_subset hnd hsub).length_le
    rw [List.length_cons, List.length_map, List.length_map] at hle
    exact Nat.lt_of_lt_of_le hle hlen

/-- Rebuilding goes through one session after the other, in whatever order they are given. It
recovers the state of every live projection that accepted the same histories interleaved. -/
theorem rebuild_recovers {histories : List ProjectBacklogSessionEvents}
    (hys : (ProjectBacklogProjection repository limits).Accepted {} ys t)
    (hsame : SameShards BacklogCall.sessionId (histories.flatMap callsOf) ys) :
    ∃ s, rebuild repository histories limits = .ok s ∧ s.items.Perm t.items ∧
      s.lastSequences = t.lastSequences ∧ s.eventIds = t.eventIds := by
  obtain ⟨s, hs⟩ := accepted_reordered hys hsame
  have hheld (sessionId : SessionId) : held sessionId s = held sessionId t := by
    rw [held_accepted hs, held_accepted hys, hsame]
  refine ⟨s, replayFrom_accepted.2 hs, accepted_converge hs hys hsame, ?_, ?_⟩
  · funext sessionId
    exact congrArg (·.2.1) (hheld sessionId)
  · ext ⟨sessionId, id⟩
    exact Set.ext_iff.1 (congrArg (·.2.2) (hheld sessionId)) id

/-- The backlog does not depend on how the histories of the sessions are interleaved. In every
reached state items are unique, a status is changed only by the session that promoted the item
and knows its last change, and a rejected call changes nothing. -/
theorem backlog_converges (repository : RepositoryId) (limits : ProjectBacklogLimits) :
    (∀ xs ys s t, (ProjectBacklogProjection repository limits).Accepted
        (ProjectBacklogProjection repository limits).initial xs s →
      (ProjectBacklogProjection repository limits).Accepted
        (ProjectBacklogProjection repository limits).initial ys t →
      SameShards BacklogCall.sessionId xs ys → s.items.Perm t.items) ∧
    ∀ s, (ProjectBacklogProjection repository limits).Reachable s →
      Distinct ProjectedBacklogItem.id s.items ∧ Distinct ProjectedBacklogItem.origin s.items ∧
      (∀ call id i, s.find id = some i → ∃ i',
        ((ProjectBacklogProjection repository limits).apply s call).2.find id = some i' ∧
        (i' = i ∨ MayChange i call i')) ∧
      ∀ call, ¬ (ProjectBacklogProjection repository limits).Accepts s call →
        ((ProjectBacklogProjection repository limits).apply s call).2 = s := by
  refine ⟨fun xs ys s t hxs hys hsame => accepted_converge hxs hys hsame, ?_⟩
  intro s hs
  have hunique := reachable_unique hs
  refine ⟨hunique.ids, hunique.origins, ?_, apply_atomic repository limits s⟩
  intro call id i hi
  exact apply_status hi call

def promotionOf (sessionId : SessionId) (itemId : ProjectBacklogItemId) : BacklogCall :=
  ⟨sessionId, ⟨⟨"promoted", "run", 1, 1, 0, none, none, none⟩, .projectBacklogItemPromoted
    ⟨itemId, "repository", ⟨sessionId, "plan", "revision", "task"⟩,
      ⟨"task", none, [], bytesOf "fix", [bytesOf "done"], [], []⟩, .user⟩⟩⟩

def resolutionOf (sessionId : SessionId) (itemId : ProjectBacklogItemId) : BacklogCall :=
  ⟨sessionId, ⟨⟨"resolved", "run", 2, 1, 0, none, none, none⟩, .projectBacklogItemStatusChanged
    ⟨itemId, "repository", .resolved, .user, some (bytesOf "fixed"), some "promoted"⟩⟩⟩

/-- Two sessions promote an item each and the first one resolves its own, before or after. -/
theorem two_sessions_converge : ((ProjectBacklogProjection "repository" {}).feed {}
      [promotionOf "a" "one", resolutionOf "a" "one", promotionOf "b" "two"]).items.Perm
    ((ProjectBacklogProjection "repository" {}).feed {}
      [promotionOf "b" "two", promotionOf "a" "one", resolutionOf "a" "one"]).items := by
  refine (backlog_converges "repository" {}).1 _ _ _ _ (accepted_of_isOk (by decide))
    (accepted_of_isOk (by decide)) ?_
  intro sessionId
  by_cases ha : "a" = sessionId
  · subst ha
    rfl
  · by_cases hb : "b" = sessionId
    · subst hb
      rfl
    · simp [promotionOf, resolutionOf, ha, hb]

/-- The live projection reads the second session between the two events of the first. -/
theorem two_sessions_recovered :
    let t := (ProjectBacklogProjection "repository" {}).feed {}
      [promotionOf "a" "one", promotionOf "b" "two", resolutionOf "a" "one"]
    ∃ s, rebuild "repository" [⟨"b", [(promotionOf "b" "two").event]⟩,
        ⟨"a", [(promotionOf "a" "one").event, (resolutionOf "a" "one").event]⟩] {} = .ok s ∧
      s.items.Perm t.items ∧ s.lastSequences = t.lastSequences ∧ s.eventIds = t.eventIds := by
  refine rebuild_recovers (accepted_of_isOk (by decide)) fun sessionId => ?_
  by_cases ha : "a" = sessionId
  · subst ha
    rfl
  · by_cases hb : "b" = sessionId
    · subst hb
      rfl
    · simp [callsOf, promotionOf, resolutionOf, ha, hb]

end ProjectBacklog
