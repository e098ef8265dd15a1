import AiForge.EventProjection
import AiForge.PlanGraph
import AiForge.Staged

/-! # Plan projection

A revision is appended under the identity of the one it supersedes, and from then on only the
last revision changes. `Revises` lists what one accepted event may do to it; everything a
projection can hold follows from that list. -/
namespace PlanProjection

open Content EventProjection Events KeyedList List PlanGraph Staged

/-- One call of the projection: an event and the limits it is read with. -/
abbrev Call := RunEvent × PlanGraphLimits

/-- The event is applied to a copy, and the copy is kept only if all of it was accepted. -/
def commit (s : PlanState) (call : Call) : Except PlanGraphError Unit × PlanState :=
  match apply s call.1 call.2 with
  | .ok candidate => (.ok (), candidate)
  | .error err => (.error err, s)

def PlanGraphProjection : Projection PlanState Call PlanGraphError := ⟨{}, commit⟩

theorem accepts_iff {s : PlanState} {call : Call} :
    PlanGraphProjection.Accepts s call ↔ ∃ t, apply s call.1 call.2 = .ok t := by
  change (commit s call).1 = .ok () ↔ _
  unfold commit
  cases apply s call.1 call.2 <;> simp

theorem apply_accepted {s t : PlanState} {call : Call} (h : apply s call.1 call.2 = .ok t) :
    (PlanGraphProjection.apply s call).2 = t := by
  change (commit s call).2 = t
  unfold commit
  rw [h]

theorem planGraph_atomic : PlanGraphProjection.Atomic := by
  intro s call h
  rw [accepts_iff] at h
  change (commit s call).2 = s
  unfold commit
  cases hc : apply s call.1 call.2 with
  | ok t => exact absurd ⟨t, hc⟩ h
  | error => rfl

/-- What an event may do to the current revision, with what has been checked before. -/
inductive Revises (event : RunEvent) : ProjectedPlanRevision → ProjectedPlanRevision → Prop where
  | decided {r : ProjectedPlanRevision} {decision} :
      event.payload = .planRevisionDecisionRecorded decision →
      decision.revisionId = r.revision.revisionId → r.decision = none →
      r.invalidationEventId = none →
      Revises event r { r with
        decisionEventId := some event.metadata.eventId
        decision := some decision }
  | invalidated {r : ProjectedPlanRevision} {invalidation} :
      event.payload = .planRevisionInvalidated invalidation →
      invalidation.revisionId = r.revision.revisionId → r.invalidationEventId = none →
      Revises event r { r with
        invalidationEventId := some event.metadata.eventId
        invalidationTriggers := invalidation.triggers }
  | materialized {r : ProjectedPlanRevision} {planId revisionId} :
      event.payload = .sessionTasksMaterialized planId revisionId →
      revisionId = r.revision.revisionId → r.state = .approved →
      r.materializationEventId = none →
      Revises event r { r with
        materializationEventId := some event.metadata.eventId
        taskExecutions := r.taskExecutions ++ r.revision.tasks.map fun task => ⟨task.taskId, []⟩ }
  | dispatched {r : ProjectedPlanRevision} {childRunId descriptor execution} :
      event.payload = .childRunCreated childRunId (some descriptor) →
      descriptor.revisionId = r.revision.revisionId →
      r.materializationEventId.isSome = true →
      validateChildRunDescriptor descriptor = .ok () →
      lookup TaskExecution.taskId descriptor.taskId r.taskExecutions = some execution →
      execution.admitsNext = true → descriptor.attempt = execution.attempts.length + 1 →
      Revises event r (changeExecution descriptor.taskId
        (· ++ [⟨childRunId, descriptor, none⟩]) r)
  | finished {r : ProjectedPlanRevision} {result execution earlier attempt} :
      event.payload = .sessionTaskResultRecorded result →
      lookup TaskExecution.taskId result.taskId r.taskExecutions = some execution →
      execution.attempts = earlier ++ [attempt] → attempt.awaits result = true →
      validateSessionTaskResult result attempt.dispatch.budget = .ok () →
      Revises event r (changeExecution result.taskId
        (·.modifyLast fun attempt => { attempt with result := some result }) r)

/-- What an event may do to the plan it belongs to. -/
inductive Changes (event : RunEvent) (limits : PlanGraphLimits) (s : PlanState) :
    PlanState → Prop where
  | proposed {revision} : event.payload = .planRevisionProposed revision →
      validatePlanRevision revision limits = .ok () →
      revision.supersedesRevisionId = s.currentRevision.map (·.revision.revisionId) →
      (∀ r ∈ s.revisions, r.revision.revisionId ≠ revision.revisionId) →
      Changes event limits s { s with
        planId := some (s.planId.getD revision.planId)
        revisions := s.revisions ++ [{ revision, proposalEventId := some event.metadata.eventId }] }
  | revised {earlier r r'} : s.revisions = earlier ++ [r] → Revises event r r' →
      Changes event limits s { s with revisions := earlier ++ [r'] }
  | inert : (∀ revision, event.payload ≠ .planRevisionProposed revision) →
      (∀ decision, event.payload ≠ .planRevisionDecisionRecorded decision) →
      (∀ invalidation, event.payload ≠ .planRevisionInvalidated invalidation) →
      (∀ planId revisionId, event.payload ≠ .sessionTasksMaterialized planId revisionId) →
      (∀ childRunId descriptor, event.payload ≠ .childRunCreated childRunId (some descriptor)) →
      Changes event limits s s

variable {event : RunEvent} {limits : PlanGraphLimits} {s t : PlanState}

theorem changeCurrent_eq {earlier : List ProjectedPlanRevision} {r : ProjectedPlanRevision}
    (h : s.revisions = earlier ++ [r]) (f : ProjectedPlanRevision → ProjectedPlanRevision) :
    s.changeCurrent f = { s with revisions := earlier ++ [f r] } := by
  unfold PlanState.changeCurrent
  rw [h, modifyLast_concat]

theorem current_split {r : ProjectedPlanRevision} (h : s.currentRevision = some r) :
    ∃ earlier, s.revisions = earlier ++ [r] := by
  obtain ⟨earlier, he⟩ := List.getLast?_eq_some_iff.1 h
  exact ⟨earlier, he⟩

theorem targeted_split {rid : PlanRevisionId} {r : ProjectedPlanRevision}
    (h : s.currentRevision.filter (fun r => r.revision.revisionId = rid) = some r) :
    (∃ earlier, s.revisions = earlier ++ [r]) ∧ rid = r.revision.revisionId := by
  obtain ⟨hr, hid⟩ := Option.filter_eq_some_iff.1 h
  exact ⟨current_split hr, (of_decide_eq_true hid).symm⟩

theorem visit_changes (h : visit s event limits = .ok t) : Changes event limits s t := by
  unfold visit at h
  split at h
  · rename_i revision hp
    obtain ⟨_, hval, h⟩ := bind_ok.1 h
    split_ifs at h with hsup hdup
    cases h
    refine .proposed hp hval (not_not.1 hsup) ?_
    intro r hr he
    exact hdup (any_eq_true.2 ⟨r, hr, decide_eq_true he⟩)
  · rename_i decision hp
    replace h := later h
    split at h
    · cases h
    · rename_i current hcur
      split_ifs at h with hid hopen
      cases h
      obtain ⟨_, he⟩ := current_split hcur
      rw [changeCurrent_eq he]
      simp only [not_or, Option.not_isSome_iff_eq_none] at hopen
      exact .revised he (.decided hp (not_not.1 hid) hopen.1 hopen.2)
  · rename_i invalidation hp
    replace h := later h
    split at h
    · cases h
    · rename_i current hcur
      split_ifs at h with hopen
      cases h
      obtain ⟨⟨_, he⟩, hid⟩ := targeted_split hcur
      rw [changeCurrent_eq he]
      simp only [not_or, Option.not_isSome_iff_eq_none] at hopen
      exact .revised he (.invalidated hp hid hopen.1)
  · rename_i planId revisionId hp
    unfold applyMaterialized at h
    split at h
    · cases h
    · rename_i current hcur
      split_ifs at h with hopen
      cases h
      obtain ⟨⟨_, he⟩, hid⟩ := targeted_split hcur
      rw [changeCurrent_eq he]
      simp only [not_or, ne_eq, not_not, Option.not_isSome_iff_eq_none] at hopen
      exact .revised he (.materialized hp hid hopen.1 hopen.2)
  · rename_i childRunId descriptor hp
    unfold applyChildCreated at h
    split at h
    · cases h
    · rename_i current hcur
      split_ifs at h with hbad
      split at h
      · cases h
      · rename_i execution hfind
        split_ifs at h with hnext
        cases h
        obtain ⟨⟨_, he⟩, hid⟩ := targeted_split hcur
        rw [changeCurrent_eq he]
        simp only [not_or] at hbad hnext
        obtain ⟨-, _, -, -, hval⟩ := hbad
        have hok : validateChildRunDescriptor descriptor = .ok () := by
          cases hv : validateChildRunDescriptor descriptor with
          | ok => rfl
          | error => exact absurd (by rw [hv]) hval
        refine .revised he (.dispatched hp hid ?_ hok hfind (not_not.1 hnext.1)
          (not_not.1 hnext.2))
        cases hm : current.materializationEventId <;> simp_all
  · rename_i result hp
    unfold applyTaskResult at h
    split at h
    · cases h
    · rename_i current hcur
      split at h
      · cases h
      · rename_i attempt hatt
        split_ifs at h with hawaits hbad
        cases h
        obtain ⟨⟨_, he⟩, hid⟩ := targeted_split hcur
        rw [changeCurrent_eq he]
        obtain ⟨execution, hfind, hlast⟩ := Option.bind_eq_some_iff.1 hatt
        obtain ⟨_, hpre⟩ := List.getLast?_eq_some_iff.1 hlast
        simp only [not_or] at hbad
        have hok : validateSessionTaskResult result attempt.dispatch.budget = .ok () := by
          cases hv : validateSessionTaskResult result attempt.dispatch.budget with
          | ok => rfl
          | error => exact absurd (by rw [hv]) hbad.1
        exact .revised he (.finished hp hfind hpre (by simpa using hawaits) hok)
  · rename_i h₁ h₂ h₃ h₄ h₅ h₆
    cases h
    exact .inert h₁ h₂ h₃ h₄ h₅

theorem apply_changes (h : apply s event limits = .ok t) :
    (∀ p q, planIdFrom event.payload = some p → s.planId = some q → p = q) ∧
      ∃ u, Changes event limits s u ∧ t = { u with
        eventIds := insert event.metadata.eventId u.eventIds
        lastSequence := event.metadata.sequence } := by
  unfold apply at h
  split_ifs at h with h₁ h₂ h₃ h₄ h₅
  obtain ⟨u, hu, h⟩ := bind_ok.1 h
  refine ⟨?_, u, visit_changes hu, (Except.ok.inj h).symm⟩
  intro p q hp hq
  by_contra hne
  apply h₅
  rw [hp, hq]
  exact ⟨rfl, rfl, fun he => hne (Option.some.inj he)⟩

/-- An attempt is one dispatch of its task under the revision, with the result it was given. -/
structure AttemptSound (revision : PlanRevision) (taskId : PlanTaskId) (a : Attempt) : Prop where
  plan : a.dispatch.planId = revision.planId
  revision_id : a.dispatch.revisionId = revision.revisionId
  task : a.dispatch.taskId = taskId
  valid : validateChildRunDescriptor a.dispatch = .ok ()
  result : ∀ result, a.result = some result →
    result.planId = a.dispatch.planId ∧ result.revisionId = a.dispatch.revisionId ∧
      result.taskId = a.dispatch.taskId ∧ result.childRunId = a.childRunId ∧
      validateSessionTaskResult result a.dispatch.budget = .ok ()

/-- The attempts at a task, one after the other, each but the last one to be retried. -/
structure ExecutionSound (revision : PlanRevision) (e : TaskExecution) : Prop where
  numbered : e.attempts.map (·.dispatch.attempt) = List.range' 1 e.attempts.length
  retried : ∀ a ∈ e.attempts.dropLast, a.retryable
  attempts : ∀ a ∈ e.attempts, AttemptSound revision e.taskId a

theorem retryable_of_admitsNext {revision : PlanRevision} {e : TaskExecution}
    (h : ExecutionSound revision e) (hn : e.admitsNext) :
    ∀ a ∈ e.attempts, a.retryable := by
  intro a ha
  rcases eq_nil_or_concat e.attempts with hnil | ⟨_, _, he⟩
  · rw [hnil] at ha
    cases ha
  · rw [concat_eq_append] at he
    rw [he, mem_append, mem_singleton] at ha
    rcases ha with ha | rfl
    · exact h.retried a (by rw [he, dropLast_concat]; exact ha)
    · unfold TaskExecution.admitsNext at hn
      rw [he, List.getLast?_concat] at hn
      exact hn

theorem ExecutionSound.dispatch {revision : PlanRevision} {e : TaskExecution} {a : Attempt}
    (h : ExecutionSound revision e) (hn : e.admitsNext)
    (ha : AttemptSound revision e.taskId a) (hnum : a.dispatch.attempt = e.attempts.length + 1) :
    ExecutionSound revision { e with attempts := e.attempts ++ [a] } := by
  constructor
  · simp only [map_append, map_cons, map_nil, length_append,
      length_singleton]
    rw [h.numbered, List.range'_concat, hnum]
    congr 2
    omega
  · simp only [dropLast_concat]
    exact retryable_of_admitsNext h hn
  · intro b hb
    rcases mem_append.1 hb with hb | hb
    · exact h.attempts b hb
    · obtain rfl := mem_singleton.1 hb
      exact ha

theorem awaits_result {a : Attempt} {result : SessionTaskResult} (h : a.awaits result) :
    a.childRunId = result.childRunId ∧ a.dispatch.planId = result.planId ∧
      a.dispatch.revisionId = result.revisionId ∧ a.dispatch.taskId = result.taskId ∧
      a.result = none := by
  unfold Attempt.awaits at h
  simp only [Bool.and_eq_true, decide_eq_true_eq, Option.isNone_iff_eq_none] at h
  tauto

theorem ExecutionSound.finish {revision : PlanRevision} {e : TaskExecution} {a : Attempt}
    {earlier : List Attempt} {result : SessionTaskResult} (h : ExecutionSound revision e)
    (he : e.attempts = earlier ++ [a]) (hr : a.awaits result)
    (hv : validateSessionTaskResult result a.dispatch.budget = .ok ()) :
    ExecutionSound revision { e with
      attempts := e.attempts.modifyLast fun a => { a with result := some result } } := by
  have hnumbered := h.numbered
  rw [he] at hnumbered
  have ha := h.attempts a (by rw [he]; simp)
  obtain ⟨hch, hplan, hrev, htask, -⟩ := awaits_result hr
  constructor
  · simpa [he, modifyLast_concat] using hnumbered
  · intro b hb
    apply h.retried
    simpa [he, modifyLast_concat] using hb
  · intro b hb
    simp only [he, modifyLast_concat, mem_append, mem_singleton] at hb
    rcases hb with hb | rfl
    · exact h.attempts b (by rw [he]; simp [hb])
    · refine ⟨ha.plan, ha.revision_id, ha.task, ha.valid, ?_⟩
      rintro _ ⟨⟩
      exact ⟨hplan.symm, hrev.symm, htask.symm, hch.symm, hv⟩

structure RevisionSound (r : ProjectedPlanRevision) : Prop where
  valid : ∃ limits, validatePlanRevision r.revision limits = .ok ()
  decision_marked : r.decisionEventId.isSome = r.decision.isSome
  decision_own : ∀ d, r.decision = some d → d.revisionId = r.revision.revisionId
  approved : r.materializationEventId.isSome →
    ∃ d, r.decision = some d ∧ d.decision = .approved
  tasks : r.taskExecutions.map TaskExecution.taskId =
    if r.materializationEventId.isSome then r.revision.tasks.map PlanTask.taskId else []
  executions : ∀ e ∈ r.taskExecutions, ExecutionSound r.revision e

theorem approved_of_state {r : ProjectedPlanRevision} (h : r.state = .approved) :
    ∃ d, r.decision = some d ∧ d.decision = .approved := by
  unfold ProjectedPlanRevision.state at h
  split_ifs at h
  cases hd : r.decision with
  | none => simp [hd] at h
  | some d =>
    rw [hd] at h
    cases hdd : d.decision with
    | approved => exact ⟨d, rfl, hdd⟩
    | revisionRequested | rejected => simp [hdd] at h

theorem RevisionSound.change {r : ProjectedPlanRevision} {taskId : PlanTaskId}
    {f : List Attempt → List Attempt} (h : RevisionSound r)
    (hf : ∀ e, lookup TaskExecution.taskId taskId r.taskExecutions = some e →
      ExecutionSound r.revision { e with attempts := f e.attempts }) :
    RevisionSound (changeExecution taskId f r) := by
  have hkey : ∀ e : TaskExecution, e.taskId = taskId →
      ({ e with attempts := f e.attempts } : TaskExecution).taskId = taskId := fun e he => he
  refine ⟨h.valid, h.decision_marked, h.decision_own, h.approved, ?_, ?_⟩
  · change (updateFirst _ _ _ _).map _ = _
    rw [map_key_update hkey]
    exact h.tasks
  · exact forall_update h.executions fun e he _ => hf e he

theorem Revises.revision {r r' : ProjectedPlanRevision} (h : Revises event r r') :
    r'.revision = r.revision := by
  cases h <;> rfl

theorem Revises.sound {r r' : ProjectedPlanRevision} (h : Revises event r r')
    (hplan : ∀ p, planIdFrom event.payload = some p → p = r.revision.planId)
    (hr : RevisionSound r) : RevisionSound r' := by
  cases h with
  | decided _ hid hnone =>
    refine ⟨hr.valid, rfl, ?_, ?_, hr.tasks, hr.executions⟩
    · rintro _ ⟨⟩
      exact hid
    · intro hm
      obtain ⟨_, hd, -⟩ := hr.approved hm
      rw [hnone] at hd
      cases hd
  | invalidated =>
    exact ⟨hr.valid, hr.decision_marked, hr.decision_own, hr.approved, hr.tasks, hr.executions⟩
  | materialized _ _ hst hnone =>
    have hemp : r.taskExecutions = [] := by
      have ht := hr.tasks
      rw [hnone] at ht
      simpa using ht
    refine ⟨hr.valid, hr.decision_marked, hr.decision_own, fun _ => approved_of_state hst,
      ?_, ?_⟩
    · simp [hemp]
    · intro e he
      simp only [hemp, nil_append, mem_map] at he
      obtain ⟨_, -, rfl⟩ := he
      exact ⟨by simp, by simp, by simp⟩
  | dispatched hp hid _ hval hfind hnext hnum =>
    refine hr.change fun e he => ?_
    obtain rfl := Option.some.inj (hfind.symm.trans he)
    refine (hr.executions _ (lookup_mem hfind)).dispatch hnext ?_ hnum
    refine ⟨hplan _ (by rw [hp]; rfl), hid, (lookup_key hfind).symm, hval, ?_⟩
    rintro _ ⟨⟩
  | _ _ hfind he hr' hv =>
    refine hr.change fun e hfnd => ?_
    obtain rfl := Option.some.inj (hfind.symm.trans hfnd)
    exact (hr.executions _ (lookup_mem hfind)).finish he hr' hv

/-- Each revision supersedes the one before it, and the first one none. -/
def Chained (revisions : List PlanRevision) : Prop :=
  ∀ earlier r later, revisions = earlier ++ r :: later →
    r.supersedesRevisionId = earlier.getLast?.map PlanRevision.revisionId

def chain (s : PlanState) : List PlanRevision := s.revisions.map (·.revision)

theorem Chained.snoc {revisions : List PlanRevision} {r : PlanRevision} (h : Chained revisions)
    (hr : r.supersedesRevisionId = revisions.getLast?.map PlanRevision.revisionId) :
    Chained (revisions ++ [r]) := by
  intro earlier x later he
  rcases eq_nil_or_concat later with rfl | ⟨later, _, rfl⟩
  · obtain ⟨rfl, hx⟩ := append_inj' he rfl
    obtain rfl := (singleton_inj.1 hx)
    exact hr
  · rw [concat_eq_append, ← cons_append, ← append_assoc] at he
    obtain ⟨hinit, -⟩ := append_inj' he rfl
    exact h earlier x later hinit

structure PlanSound (s : PlanState) : Prop where
  chained : Chained (chain s)
  distinct : ((chain s).map PlanRevision.revisionId).Nodup
  plan : ∀ r ∈ s.revisions, s.planId = some r.revision.planId
  revisions : ∀ r ∈ s.revisions, RevisionSound r

theorem proposed_sound {revision : PlanRevision} {eventId : Option EventId}
    (h : validatePlanRevision revision limits = .ok ()) :
    RevisionSound { revision, proposalEventId := eventId } :=
  ⟨⟨limits, h⟩, rfl, nofun, by simp, by simp, by simp⟩

theorem current_id (s : PlanState) : s.currentRevision.map (·.revision.revisionId) =
    (chain s).getLast?.map PlanRevision.revisionId := by
  unfold PlanState.currentRevision chain
  rw [List.getLast?_map, Option.map_map]
  rfl

theorem Changes.sound (h : Changes event limits s t)
    (hplan : ∀ p q, planIdFrom event.payload = some p → s.planId = some q → p = q)
    (hs : PlanSound s) : PlanSound t := by
  cases h with
  | @proposed revision hp hval hsup hnew =>
    have hsame : ∀ q, s.planId = some q → revision.planId = q :=
      fun q hq => hplan _ q (by rw [hp]; rfl) hq
    constructor
    · change Chained ((s.revisions ++ [_]).map _)
      rw [map_append]
      rw [current_id] at hsup
      exact hs.chained.snoc hsup
    · change (((s.revisions ++ [_]).map _).map _).Nodup
      rw [map_append, map_append]
      refine nodup_append.2 ⟨hs.distinct, by simp, ?_⟩
      intro a ha b hb hab
      obtain ⟨q, hq, rfl⟩ := mem_map.1 ha
      obtain ⟨r, hr, rfl⟩ := mem_map.1 hq
      obtain rfl : b = revision.revisionId := by simpa using hb
      exact hnew r hr hab
    · intro r hr
      rcases mem_append.1 hr with hr | hr
      · have hq := hs.plan r hr
        rw [hq]
        rfl
      · obtain rfl := mem_singleton.1 hr
        cases hq : s.planId with
        | none => simp
        | some q => simp [hsame q hq]
    · intro r hr
      rcases mem_append.1 hr with hr | hr
      · exact hs.revisions r hr
      · obtain rfl := mem_singleton.1 hr
        exact proposed_sound hval
  | @revised earlier r r' he hstep =>
    have hmem : r ∈ s.revisions := by
      rw [he]
      simp
    have hchain : (earlier ++ [r']).map (·.revision) = chain s := by
      unfold chain
      rw [he, map_append, map_append]
      simp [hstep.revision]
    have hsound := hstep.sound (fun p hp => hplan p _ hp (hs.plan r hmem)) (hs.revisions r hmem)
    have hmember : ∀ x ∈ earlier ++ [r'], x ∈ s.revisions ∨ x = r' := by
      intro x hx
      rcases mem_append.1 hx with hx | hx
      · exact .inl (by rw [he]; simp [hx])
      · exact .inr (mem_singleton.1 hx)
    constructor
    · change Chained ((earlier ++ [r']).map _)
      rw [hchain]
      exact hs.chained
    · change (((earlier ++ [r']).map _).map _).Nodup
      rw [hchain]
      exact hs.distinct
    · intro x hx
      rcases hmember x hx with hx | rfl
      · exact hs.plan x hx
      · rw [hstep.revision]
        exact hs.plan r hmem
    · intro x hx
      rcases hmember x hx with hx | rfl
      · exact hs.revisions x hx
      · exact hsound
  | inert => exact hs

theorem accepts_sound (s : PlanState) (call : Call) (h : PlanGraphProjection.Accepts s call)
    (hs : PlanSound s) : PlanSound (PlanGraphProjection.apply s call).2 := by
  obtain ⟨_, ht⟩ := accepts_iff.1 h
  obtain ⟨hplan, _, hu, he⟩ := apply_changes ht
  have hsound := hu.sound hplan hs
  rw [apply_accepted ht, he]
  exact ⟨hsound.chained, hsound.distinct, hsound.plan, hsound.revisions⟩

theorem initial_sound : PlanSound PlanGraphProjection.initial := by
  constructor
  · intro earlier r later he
    simp [chain, PlanGraphProjection] at he
  · simp [chain, PlanGraphProjection]
  · simp [PlanGraphProjection]
  · simp [PlanGraphProjection]

theorem reachable_sound (h : PlanGraphProjection.Reachable s) : PlanSound s :=
  reachable_inv planGraph_atomic initial_sound accepts_sound h

inductive Milestone where
  | decision | invalidation | materialization

/-- The revision an event is a milestone of. -/
def Milestone.subject : Milestone → RunEventPayload → Option PlanRevisionId
  | .decision, .planRevisionDecisionRecorded recorded => some recorded.revisionId
  | .invalidation, .planRevisionInvalidated invalidated => some invalidated.revisionId
  | .materialization, .sessionTasksMaterialized _ revisionId => some revisionId
  | _, _ => none

/-- The event a revision remembers as its milestone. -/
def Milestone.mark : Milestone → ProjectedPlanRevision → Option EventId
  | .decision => ProjectedPlanRevision.decisionEventId
  | .invalidation => ProjectedPlanRevision.invalidationEventId
  | .materialization => ProjectedPlanRevision.materializationEventId

def find (s : PlanState) (rid : PlanRevisionId) : Option ProjectedPlanRevision :=
  lookup (fun r => r.revision.revisionId) rid s.revisions

/-- The identities of the milestone events among the calls. -/
def milestones (m : Milestone) (rid : PlanRevisionId) (calls : List Call) : List EventId :=
  (calls.filter fun call => m.subject call.1.payload = some rid).map (·.1.metadata.eventId)

theorem milestones_snoc (m : Milestone) (rid : PlanRevisionId) (past : List Call) (call : Call) :
    milestones m rid (past ++ [call]) = milestones m rid past ++
      if m.subject call.1.payload = some rid then [call.1.metadata.eventId] else [] := by
  unfold milestones
  rw [filter_append, map_append]
  by_cases h : m.subject call.1.payload = some rid <;> simp [h]

theorem Revises.subject {r r' : ProjectedPlanRevision} (h : Revises event r r') (m : Milestone)
    {rid : PlanRevisionId} (hm : m.subject event.payload = some rid) :
    rid = r.revision.revisionId := by
  cases h with
  | decided hp | invalidated hp | materialized hp =>
    rw [hp] at hm
    cases m <;> simp_all [Milestone.subject]
  | dispatched hp | finished hp =>
    rw [hp] at hm
    cases m <;> simp [Milestone.subject] at hm

theorem Revises.mark {r r' : ProjectedPlanRevision} (h : Revises event r r')
    (hr : RevisionSound r) (m : Milestone) : (m.mark r').toList = (m.mark r).toList ++
      if m.subject event.payload = some r.revision.revisionId then [event.metadata.eventId]
      else [] := by
  cases h with
  | decided hp hid hnone =>
    have hmark : r.decisionEventId = none := by
      have hm := hr.decision_marked
      rw [hnone] at hm
      simpa using hm
    rw [hp]
    cases m <;> simp [Milestone.subject, Milestone.mark, hid, hmark]
  | invalidated hp hid hlive =>
    rw [hp]
    cases m <;> simp [Milestone.subject, Milestone.mark, hid, hlive]
  | materialized hp hid _ hnone =>
    rw [hp]
    cases m <;> simp [Milestone.subject, Milestone.mark, hid, hnone]
  | dispatched hp | finished hp =>
    rw [hp]
    cases m <;> simp [Milestone.subject, Milestone.mark, changeExecution]

def childRunIds (executions : List TaskExecution) : List RunId :=
  executions.flatMap fun e => e.attempts.map Attempt.childRunId

/-- The child run an event creates for a revision. -/
def createdRun (rid : PlanRevisionId) : RunEventPayload → Option RunId
  | .childRunCreated childRunId (some descriptor) =>
    if descriptor.revisionId = rid then some childRunId else none
  | _ => none

def dispatches (rid : PlanRevisionId) (calls : List Call) : List RunId :=
  calls.filterMap fun call => createdRun rid call.1.payload

theorem Revises.attempted {r r' : ProjectedPlanRevision} (h : Revises event r r') :
    (childRunIds r'.taskExecutions).Perm
      (childRunIds r.taskExecutions ++ (createdRun r.revision.revisionId event.payload).toList) := by
  cases h with
  | decided hp | invalidated hp =>
    rw [hp]
    simp [createdRun]
  | materialized hp =>
    rw [hp]
    have hnew : (r.revision.tasks.flatMap fun _ => ([] : List RunId)) = [] := by simp
    simp [createdRun, childRunIds, flatMap_map, hnew]
  | @dispatched childRunId descriptor execution hp hid hm hval hfind =>
    rw [hp]
    simp only [createdRun, hid, if_true, Option.toList_some]
    exact flatMap_update_perm hfind (by simp)
  | finished hp hfind he =>
    rw [hp]
    simp only [createdRun, Option.toList_none]
    exact flatMap_update_perm hfind (by simp [he, modifyLast_concat])

theorem Revises.createdRun_own {r r' : ProjectedPlanRevision} (h : Revises event r r')
    {rid : PlanRevisionId} (hne : rid ≠ r.revision.revisionId) :
    createdRun rid event.payload = none := by
  cases h with
  | decided hp | invalidated hp | materialized hp | finished hp => rw [hp]; rfl
  | dispatched hp hid =>
    rw [hp]
    simp only [createdRun]
    rw [if_neg (by rw [hid]; exact hne.symm)]

/-- What a change does to the revision under one identity. -/
inductive Sees (event : RunEvent) (rid : PlanRevisionId) :
    Option ProjectedPlanRevision → Option ProjectedPlanRevision → Prop where
  | same {x} : (∀ m : Milestone, m.subject event.payload ≠ some rid) →
      createdRun rid event.payload = none → Sees event rid x x
  | proposed {revision eventId} : event.payload = .planRevisionProposed revision →
      Sees event rid none (some { revision, proposalEventId := eventId })
  | revised {r r'} : r.revision.revisionId = rid → RevisionSound r → Revises event r r' →
      Sees event rid (some r) (some r')

theorem Changes.sees (h : Changes event limits s t) (hs : PlanSound s) (rid : PlanRevisionId) :
    Sees event rid (find s rid) (find t rid) := by
  unfold find
  cases h with
  | @proposed revision hp hval hsup hnew =>
    have hoth : ∀ m : Milestone, m.subject event.payload ≠ some rid := by
      rw [hp]
      intro m
      cases m <;> simp [Milestone.subject]
    have hnone : createdRun rid event.payload = none := by
      rw [hp]
      rfl
    cases hf : lookup (fun r : ProjectedPlanRevision => r.revision.revisionId) rid s.revisions with
    | some =>
      rw [lookup_snoc_of_some hf]
      exact .same hoth hnone
    | none =>
      rw [lookup_snoc hf]
      split_ifs
      · exact .proposed hp
      · exact .same hoth hnone
  | @revised earlier r r' he hstep =>
    have hmem : r ∈ s.revisions := by
      rw [he]
      simp
    have hdist : Distinct (fun r : ProjectedPlanRevision => r.revision.revisionId)
        s.revisions := by
      have hd := hs.distinct
      unfold chain at hd
      rw [map_map] at hd
      exact hd
    have hnone : lookup (fun r : ProjectedPlanRevision => r.revision.revisionId)
        r.revision.revisionId earlier = none := by
      rw [lookup_none]
      intro x hx hid
      unfold Distinct at hdist
      rw [he, map_append, nodup_append] at hdist
      exact hdist.2.2 _ (mem_map_of_mem hx) _ (by simp) hid
    rw [he]
    by_cases hid : rid = r.revision.revisionId
    · rw [hid, lookup_snoc hnone, lookup_snoc hnone, hstep.revision, if_pos rfl, if_pos rfl]
      exact .revised rfl (hs.revisions r hmem) hstep
    · have hoth : ∀ m : Milestone, m.subject event.payload ≠ some rid :=
        fun m hm => hid (hstep.subject m hm)
      have hsame : lookup (fun r : ProjectedPlanRevision => r.revision.revisionId) rid
          (earlier ++ [r']) =
          lookup (fun r : ProjectedPlanRevision => r.revision.revisionId) rid (earlier ++ [r]) := by
        cases hf : lookup (fun r : ProjectedPlanRevision => r.revision.revisionId) rid earlier with
        | some => rw [lookup_snoc_of_some hf, lookup_snoc_of_some hf]
        | none =>
          rw [lookup_snoc hf, lookup_snoc hf, hstep.revision, if_neg (Ne.symm hid),
            if_neg (Ne.symm hid)]
      rw [hsame]
      exact .same hoth (hstep.createdRun_own hid)
  | inert _ _ _ _ hc =>
    refine .same ?_ ?_
    · intro m
      cases m <;> cases hp : event.payload <;> simp_all [Milestone.subject]
    · unfold createdRun
      split
      · rename_i childRunId descriptor hp
        exact absurd hp (hc childRunId descriptor)
      · rfl

theorem Sees.mark {rid : PlanRevisionId} {x y : Option ProjectedPlanRevision}
    (h : Sees event rid x y) (m : Milestone) : (y.bind m.mark).toList = (x.bind m.mark).toList ++
      if m.subject event.payload = some rid then [event.metadata.eventId] else [] := by
  cases h with
  | same hoth => rw [if_neg (hoth m), append_nil]
  | proposed hp =>
    rw [hp]
    cases m <;> rfl
  | revised hid hr hstep =>
    rw [← hid]
    exact hstep.mark hr m

def attemptedRuns (x : Option ProjectedPlanRevision) : List RunId :=
  x.elim [] fun r => childRunIds r.taskExecutions

theorem Sees.attempted {rid : PlanRevisionId} {x y : Option ProjectedPlanRevision}
    (h : Sees event rid x y) : (attemptedRuns y).Perm
      (attemptedRuns x ++ (createdRun rid event.payload).toList) := by
  cases h with
  | same _ hnone =>
    rw [hnone]
    simp
  | proposed hp =>
    rw [hp]
    exact .refl _
  | revised hid _ hstep =>
    rw [← hid]
    exact hstep.attempted

theorem accepted_milestones {calls : List Call}
    (h : PlanGraphProjection.Accepted PlanGraphProjection.initial calls s) (m : Milestone)
    (rid : PlanRevisionId) : milestones m rid calls = ((find s rid).bind m.mark).toList := by
  have hrule := accepted_history (P := PlanGraphProjection)
    (J := fun past s => PlanSound s ∧
      milestones m rid past = ((find s rid).bind m.mark).toList) ?_ [] h
    ⟨initial_sound, rfl⟩
  · exact hrule.2
  · rintro past s call ha ⟨hs, hm⟩
    refine ⟨accepts_sound s call ha hs, ?_⟩
    obtain ⟨_, ht⟩ := accepts_iff.1 ha
    obtain ⟨-, _, hu, he⟩ := apply_changes ht
    have hmark := (hu.sees hs rid).mark m
    rw [milestones_snoc, hm, apply_accepted ht, he]
    exact hmark.symm

/-- The attempts of a revision are the child runs created for it. -/
theorem accepted_dispatches {calls : List Call}
    (h : PlanGraphProjection.Accepted PlanGraphProjection.initial calls s)
    (rid : PlanRevisionId) : (attemptedRuns (find s rid)).Perm (dispatches rid calls) := by
  have hrule := accepted_history (P := PlanGraphProjection)
    (J := fun past s => PlanSound s ∧ (attemptedRuns (find s rid)).Perm (dispatches rid past))
    ?_ [] h ⟨initial_sound, .refl _⟩
  · exact hrule.2
  · rintro past s call ha ⟨hs, hm⟩
    refine ⟨accepts_sound s call ha hs, ?_⟩
    obtain ⟨_, ht⟩ := accepts_iff.1 ha
    obtain ⟨-, _, hu, he⟩ := apply_changes ht
    have hstep := (hu.sees hs rid).attempted
    have hsnoc : dispatches rid (past ++ [call]) =
        dispatches rid past ++ (createdRun rid call.1.payload).toList := by
      unfold dispatches
      rw [filterMap_append]
      cases hd : createdRun rid call.1.payload <;> simp [hd]
    rw [hsnoc, apply_accepted ht, he]
    exact hstep.trans (hm.append_right _)

/-- A budget bounds the inferences, the tool invocations and the tokens of an attempt. -/
def WithinBudget (consumption : ChildRunConsumption) (budget : ChildRunBudget) : Prop :=
  consumption.inferenceCount ≤ budget.maximumInferences ∧
    consumption.toolInvocationCount ≤ budget.maximumToolInvocations ∧
    consumption.usage.inputTokens ≤ budget.maximumInputTokens ∧
    consumption.usage.outputTokens ≤ budget.maximumOutputTokens

theorem withinBudget_of_valid {result : SessionTaskResult} {budget : ChildRunBudget}
    (h : validateSessionTaskResult result budget = .ok ()) :
    WithinBudget result.consumption budget := by
  unfold validateSessionTaskResult at h
  dsimp only at h
  split_ifs at h with hbad
  unfold WithinBudget
  simp only [not_or, not_lt] at hbad
  tauto

theorem retryable_result {a : Attempt} (h : a.retryable) :
    ∃ result error, a.result = some result ∧ result.outcome = .unavailable ∧
      result.error = some error ∧ error.retryable := by
  obtain ⟨result, hres, h⟩ := (Option.any_eq_true _ _).1 h
  rw [Bool.and_eq_true, decide_eq_true_eq] at h
  obtain ⟨error, herr, hretry⟩ := (Option.any_eq_true _ _).1 h.2
  exact ⟨result, error, hres, h.1, herr, hretry⟩

structure PlanInvariant (s : PlanState) : Prop where
  chained : Chained (chain s)
  distinct : ((chain s).map PlanRevision.revisionId).Nodup
  materialized_approved : ∀ r ∈ s.revisions, r.materializationEventId.isSome →
    ∃ d, r.decision = some d ∧ d.revisionId = r.revision.revisionId ∧ d.decision = .approved
  attempts_numbered : ∀ r ∈ s.revisions, ∀ e ∈ r.taskExecutions,
    e.attempts.map (·.dispatch.attempt) = List.range' 1 e.attempts.length
  attempts_retried : ∀ r ∈ s.revisions, ∀ e ∈ r.taskExecutions, ∀ a ∈ e.attempts.dropLast,
    ∃ result error, a.result = some result ∧ result.outcome = .unavailable ∧
      result.error = some error ∧ error.retryable
  results_within : ∀ r ∈ s.revisions, ∀ e ∈ r.taskExecutions, ∀ a ∈ e.attempts,
    ∀ result, a.result = some result → WithinBudget result.consumption a.dispatch.budget

theorem PlanSound.invariant (h : PlanSound s) : PlanInvariant s := by
  refine ⟨h.chained, h.distinct, ?_, ?_, ?_, ?_⟩
  · intro r hr hm
    obtain ⟨d, hd, happr⟩ := (h.revisions r hr).approved hm
    exact ⟨d, hd, (h.revisions r hr).decision_own d hd, happr⟩
  · intro r hr e he
    exact ((h.revisions r hr).executions e he).numbered
  · intro r hr e he a ha
    exact retryable_result (((h.revisions r hr).executions e he).retried a ha)
  · intro r hr e he a ha result hres
    have hsound := ((h.revisions r hr).executions e he).attempts a ha
    exact withinBudget_of_valid (hsound.result result hres).2.2.2.2

/-- Whatever calls a plan graph projection has seen, accepted or not: its revisions form one
chain, a revision has passed each milestone at most once, namely at the event it remembers, and
the attempts at its tasks are numbered, retried and paid for as they should be. A call that is
refused leaves the projection as it was. -/
theorem plan_graph_invariant : (∀ calls : List Call,
      PlanInvariant (PlanGraphProjection.feed PlanGraphProjection.initial calls) ∧
      ∀ (m : Milestone) (rid : PlanRevisionId),
        milestones m rid (PlanGraphProjection.acceptedEvents PlanGraphProjection.initial calls) =
          ((find (PlanGraphProjection.feed PlanGraphProjection.initial calls) rid).bind
            m.mark).toList ∧
        (milestones m rid (PlanGraphProjection.acceptedEvents PlanGraphProjection.initial
          calls)).length ≤ 1) ∧
    (∀ s call, ¬ PlanGraphProjection.Accepts s call → (PlanGraphProjection.apply s call).2 = s) := by
  refine ⟨fun calls => ⟨(reachable_sound ⟨calls, rfl⟩).invariant, fun m rid => ?_⟩,
    planGraph_atomic⟩
  have hmarks := accepted_milestones
    (accepted_acceptedEvents planGraph_atomic PlanGraphProjection.initial calls) m rid
  refine ⟨hmarks, ?_⟩
  rw [hmarks]
  exact Option.length_toList_le

end PlanProjection
