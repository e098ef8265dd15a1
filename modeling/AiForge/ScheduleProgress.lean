import AiForge.ScheduleAnalysis

/-! # Progress of a schedule

A task that waits has an unfinished dependency that is neither failed nor blocked. Following
such dependencies down an acyclic graph ends at a task that runs or may be dispatched, and the
first task that may be dispatched next to nothing is. -/
namespace ScheduleProgress

open Content Events KeyedList PlanGraph PlanOrder PlanProjection ScheduleAnalysis
  Sweeps TaskScheduler
open List Staged TaskReadiness

section Settled

variable {tasks : List PlanTask} {σ₀ σ : States}

theorem settled_iff {state : TaskReadinessState} :
    state.settled ↔ state = .running ∨ state = .completed ∨ state = .failed := by
  cases state <;> simp [TaskReadinessState.settled]

theorem settled_cases (hv : ValidTasks tasks)
    (hs : Settled (rule tasks σ₀) (tasks.map PlanTask.taskId) σ) {task : PlanTask}
    (ht : task ∈ tasks) : ((σ₀ task.taskId).settled ∧ σ task.taskId = σ₀ task.taskId) ∨
      σ task.taskId = classify task.dependencyTaskIds σ := by
  have hrule := hs task.taskId (mem_map_of_mem ht)
  unfold rule at hrule
  rw [show lookup PlanTask.taskId task.taskId tasks = some task from
    lookup_of_mem hv.distinct ht] at hrule
  split_ifs at hrule with hsettled
  · exact .inl ⟨hsettled, hrule⟩
  · exact .inr hrule

theorem classify_waiting {dependencies : List PlanTaskId}
    (h : classify dependencies σ = .waitingForDependencies) :
    ∃ j ∈ dependencies, σ j ≠ .completed ∧ σ j ≠ .failed ∧ σ j ≠ .blockedByDependency := by
  unfold classify at h
  split_ifs at h with hdone hstuck
  push Not at hdone hstuck
  obtain ⟨j, hj, hc⟩ := hdone
  exact ⟨j, hj, hc, hstuck j hj⟩

theorem classify_blocked {dependencies : List PlanTaskId}
    (h : classify dependencies σ = .blockedByDependency) :
    ∃ j ∈ dependencies, σ j = .failed ∨ σ j = .blockedByDependency := by
  unfold classify at h
  split_ifs at h with hdone hstuck
  exact hstuck

theorem classify_open (dependencies : List PlanTaskId) (σ : States) :
    classify dependencies σ = .ready ∨ classify dependencies σ = .blockedByDependency ∨
      classify dependencies σ = .waitingForDependencies := by
  unfold classify
  split_ifs
  · exact .inl rfl
  · exact .inr (.inl rfl)
  · exact .inr (.inr rfl)

section

variable (hv : ValidTasks tasks) (hs : Settled (rule tasks σ₀) (tasks.map PlanTask.taskId) σ)

include hv hs

theorem no_waiting (hrdy : ∀ task ∈ tasks, σ task.taskId ≠ .ready)
    (hrun : ∀ task ∈ tasks, σ task.taskId ≠ .running) :
    ∀ task ∈ tasks, σ task.taskId ≠ .waitingForDependencies := by
  have hall : ∀ id, ∀ task ∈ tasks, task.taskId = id →
      σ task.taskId ≠ .waitingForDependencies := by
    intro id
    induction id using hv.wellFounded.induction with
    | _ _ ih =>
      rintro task ht rfl hwaiting
      rcases settled_cases hv hs ht with ⟨hsettled, hsame⟩ | hcls
      · rw [← hsame, hwaiting] at hsettled
        cases hsettled
      · obtain ⟨j, hj, hc, hf, hb⟩ := classify_waiting (hcls.symm.trans hwaiting)
        obtain ⟨other, hoth, rfl⟩ := mem_map.1 (hv.known task ht j hj)
        have hblw := ih other.taskId ⟨task, ht, rfl, hj⟩ other hoth rfl
        rcases settled_cases hv hs hoth with ⟨hsettled, hsame⟩ | hcls'
        · rw [← hsame] at hsettled
          rcases settled_iff.1 hsettled with h | h | h
          · exact hrun other hoth h
          · exact hc h
          · exact hf h
        · have hopen := classify_open other.dependencyTaskIds σ
          rw [← hcls'] at hopen
          rcases hopen with h | h | h
          · exact hrdy other hoth h
          · exact hb h
          · exact hblw h
  exact fun task ht => hall task.taskId task ht rfl

theorem no_blocked (hfail : ∀ task ∈ tasks, σ task.taskId ≠ .failed) :
    ∀ task ∈ tasks, σ task.taskId ≠ .blockedByDependency := by
  have hall : ∀ id, ∀ task ∈ tasks, task.taskId = id →
      σ task.taskId ≠ .blockedByDependency := by
    intro id
    induction id using hv.wellFounded.induction with
    | _ _ ih =>
      rintro task ht rfl hblk
      rcases settled_cases hv hs ht with ⟨hsettled, hsame⟩ | hcls
      · rw [← hsame, hblk] at hsettled
        cases hsettled
      · obtain ⟨j, hj, hstuck⟩ := classify_blocked (hcls.symm.trans hblk)
        obtain ⟨other, hoth, rfl⟩ := mem_map.1 (hv.known task ht j hj)
        rcases hstuck with hf | hb
        · exact hfail other hoth hf
        · exact ih other.taskId ⟨task, ht, rfl, hj⟩ other hoth rfl hb
  exact fun task ht => hall task.taskId task ht rfl

end

end Settled

section Selection

variable {tasks : List PlanTask} {readiness : List TaskReadiness} {x : TaskReadiness}

theorem stateOf_mem (hd : Distinct taskId readiness)
    (hx : x ∈ readiness) : stateOf readiness x.taskId = x.state := by
  unfold stateOf
  rw [show findReadiness readiness x.taskId = some x from lookup_of_mem hd hx]
  rfl

theorem mem_tasksInState (h : Aligned tasks readiness)
    (hd : Distinct taskId readiness) {state : TaskReadinessState} {task : PlanTask} :
    task ∈ tasksInState tasks readiness state ↔
      task ∈ tasks ∧ stateOf readiness task.taskId = state := by
  have hlen : readiness.length = tasks.length := by
    simpa using congrArg List.length h
  have hsame : ∀ pair ∈ tasks.zip readiness, pair.2.taskId = pair.1.taskId := by
    intro pair hp
    obtain ⟨i, hi, rfl⟩ := getElem_of_mem hp
    rw [length_zip] at hi
    have hids := congrArg (·[i]?) h
    simp only [List.getElem?_map] at hids
    rw [List.getElem?_eq_getElem (by omega), List.getElem?_eq_getElem (by omega)] at hids
    simpa using hids
  constructor
  · intro hmem
    obtain ⟨pair, hp, rfl⟩ := mem_map.1 hmem
    obtain ⟨hp, hst⟩ := mem_filter.1 hp
    have hzip : (pair.1, pair.2) ∈ tasks.zip readiness := hp
    refine ⟨(of_mem_zip hzip).1, ?_⟩
    rw [← hsame pair hp, stateOf_mem hd (of_mem_zip hzip).2]
    exact of_decide_eq_true hst
  · rintro ⟨ht, hst⟩
    obtain ⟨i, hi, rfl⟩ := getElem_of_mem ht
    have hz : i < (tasks.zip readiness).length := by
      rw [length_zip]
      omega
    have hzip : (tasks[i], readiness[i]) ∈ tasks.zip readiness := by
      have hpair : (tasks.zip readiness)[i] = (tasks[i], readiness[i]) := getElem_zip
      rw [← hpair]
      exact getElem_mem hz
    refine mem_map.2 ⟨(tasks[i], readiness[i]), mem_filter.2 ⟨hzip, ?_⟩, rfl⟩
    rw [← hsame _ hzip, stateOf_mem hd (of_mem_zip hzip).2] at hst
    exact decide_eq_true hst

variable {running : List PlanTask} {available : ℕ}

theorem select_keeps {acc : Selection} {task : PlanTask}
    (hd : Distinct taskId acc.readiness) (hx : x ∈ acc.readiness)
    (hne : x.taskId ≠ task.taskId) : x ∈ (select running available acc task).readiness ∧
      Distinct taskId (select running available acc task).readiness := by
  unfold select
  dsimp only
  split_ifs
  · exact ⟨mem_update_ne (fun _ hk => hk) hd hx hne, distinct_update (fun _ hk => hk) hd⟩
  · exact ⟨mem_update_ne (fun _ hk => hk) hd hx hne, distinct_update (fun _ hk => hk) hd⟩
  · exact ⟨hx, hd⟩

theorem selects_keep (eligible : List PlanTask) {acc : Selection}
    (hd : Distinct taskId acc.readiness) (hx : x ∈ acc.readiness)
    (hne : ∀ task ∈ eligible, x.taskId ≠ task.taskId) :
    x ∈ (eligible.foldl (select running available) acc).readiness := by
  induction eligible generalizing acc with
  | nil => exact hx
  | cons task _ ih =>
    have hkept : x ∈ (select running available acc task).readiness ∧
        Distinct taskId (select running available acc task).readiness :=
      select_keeps hd hx (hne task (by simp))
    exact ih hkept.2 hkept.1 fun t ht => hne t (by simp [ht])

theorem selected_mono (eligible : List PlanTask) (acc : Selection) (h : acc.selected ≠ []) :
    (eligible.foldl (select running available) acc).selected ≠ [] := by
  induction eligible generalizing acc with
  | nil => exact h
  | cons _ _ ih =>
    apply ih
    unfold select
    dsimp only
    split_ifs
    · exact h
    · exact h
    · simp

/-- Next to nothing, the first eligible task without blockers is selected. -/
theorem selects_first (task : PlanTask) (rest : List PlanTask)
    (hblockers : (findReadiness readiness task.taskId).elim [] blockers = [])
    (havail : 0 < available) :
    ((task :: rest).foldl (select [] available) { readiness }).selected ≠ [] := by
  rw [foldl_cons]
  apply selected_mono
  unfold select
  rw [hblockers]
  simp [havail.ne']

end Selection

section Rollup

variable {policy : TaskSchedulingPolicy} {rollup next : TaskScheduleRollup}

theorem rollupAttempt_counts {attempt : Attempt} (h : rollupAttempt rollup attempt = .ok next) :
    next.completedTasks = rollup.completedTasks ∧ next.failedTasks = rollup.failedTasks := by
  unfold rollupAttempt at h
  split at h
  · cases h
    exact ⟨rfl, rfl⟩
  · split at h
    · cases h
    · cases h
      exact ⟨rfl, rfl⟩

theorem rollupAttempts_counts {attempts : List Attempt}
    (h : attempts.foldlM rollupAttempt rollup = .ok next) :
    next.completedTasks = rollup.completedTasks ∧ next.failedTasks = rollup.failedTasks := by
  induction attempts generalizing rollup with
  | nil =>
    cases h
    exact ⟨rfl, rfl⟩
  | cons _ _ ih =>
    rw [foldlM_cons] at h
    obtain ⟨_, hm, h⟩ := bind_ok.1 h
    obtain ⟨h₁, h₂⟩ := rollupAttempt_counts hm
    obtain ⟨h₃, h₄⟩ := ih h
    exact ⟨h₃.trans h₁, h₄.trans h₂⟩

theorem rollupExecution_counts {execution : TaskExecution}
    (h : rollupExecution policy rollup execution = .ok next) :
    next.completedTasks = rollup.completedTasks +
        (if attemptState execution policy = .completed then 1 else 0) ∧
      next.failedTasks = rollup.failedTasks +
        (if attemptState execution policy = .failed then 1 else 0) := by
  obtain ⟨h₁, h₂⟩ := rollupAttempts_counts h
  rw [h₁, h₂]
  unfold attemptState
  cases hlast : execution.attempts.getLast? with
  | none => simp
  | some attempt =>
    cases hres : attempt.result with
    | none => simp [hres]
    | some result =>
      by_cases hc : result.outcome = .completed
      · simp [hres, hc]
      · by_cases hr : retryable execution policy
        · simp [hres, hc, hr]
        · simp [hres, hc, hr]

theorem rollup_counts {executions : List TaskExecution}
    (h : executions.foldlM (rollupExecution policy) rollup = .ok next) :
    next.completedTasks = rollup.completedTasks +
        executions.countP (fun e => attemptState e policy = .completed) ∧
      next.failedTasks = rollup.failedTasks +
        executions.countP (fun e => attemptState e policy = .failed) := by
  induction executions generalizing rollup with
  | nil =>
    cases h
    simp
  | cons _ _ ih =>
    rw [foldlM_cons] at h
    obtain ⟨_, hm, h⟩ := bind_ok.1 h
    obtain ⟨h₁, h₂⟩ := rollupExecution_counts hm
    obtain ⟨h₃, h₄⟩ := ih h
    rw [h₃, h₄, h₁, h₂, countP_cons, countP_cons]
    simp only [decide_eq_true_eq]
    constructor <;> omega

end Rollup

section Progress

variable {r : ProjectedPlanRevision} {policy : TaskSchedulingPolicy}
  {readiness : List TaskReadiness} (h : Materialized r)
  (hpassing : Passing r.revision.tasks (stateOf (r.revision.tasks.map (entryOf r policy))) readiness)
include h

theorem stateOf_execution (policy : TaskSchedulingPolicy) {e : TaskExecution}
    (he : e ∈ r.taskExecutions) : ∃ task ∈ r.revision.tasks,
      stateOf (r.revision.tasks.map (entryOf r policy)) task.taskId = attemptState e policy := by
  have hid : e.taskId ∈ r.revision.tasks.map PlanTask.taskId := by
    rw [← h.ids]
    exact mem_map_of_mem he
  obtain ⟨task, ht, hid⟩ := mem_map.1 hid
  obtain ⟨_, -, hfnd, hst⟩ := stateOf_initial h policy ht
  have hsame : findExecution r e.taskId = some e := lookup_of_mem h.distinct he
  rw [hid, hsame] at hfnd
  cases hfnd
  exact ⟨task, ht, hst⟩

section

variable
  (hsettled : Settled (rule r.revision.tasks (stateOf (r.revision.tasks.map (entryOf r policy))))
    (r.revision.tasks.map PlanTask.taskId) (stateOf readiness))

include hsettled

/-- Where nothing runs and nothing may be dispatched, every task is completed, failed or
blocked for good. -/
theorem idle_closed (hrun : ∀ task ∈ r.revision.tasks,
      stateOf (r.revision.tasks.map (entryOf r policy)) task.taskId ≠ .running)
    (hrdy : ∀ task ∈ r.revision.tasks, stateOf readiness task.taskId ≠ .ready) :
    ∀ task ∈ r.revision.tasks, stateOf readiness task.taskId = .completed ∨
      stateOf readiness task.taskId = .failed ∨
      stateOf readiness task.taskId = .blockedByDependency := by
  have hv := h.validTasks
  have hidle : ∀ task ∈ r.revision.tasks, stateOf readiness task.taskId ≠ .running := by
    intro task ht hr
    rcases settled_cases hv hsettled ht with ⟨-, hsame⟩ | hcls
    · exact hrun task ht (hsame.symm.trans hr)
    · have hopen := classify_open task.dependencyTaskIds (stateOf readiness)
      rw [← hcls, hr] at hopen
      simp at hopen
  have hnone := no_waiting hv hsettled hrdy hidle
  intro task ht
  rcases settled_cases hv hsettled ht with ⟨hdec, hsame⟩ | hcls
  · rw [← hsame] at hdec
    rcases settled_iff.1 hdec with hr | hc | hf
    · exact absurd hr (hidle task ht)
    · exact .inl hc
    · exact .inr (.inl hf)
  · have hopen := classify_open task.dependencyTaskIds (stateOf readiness)
    rw [← hcls] at hopen
    rcases hopen with hr | hb | hw
    · exact absurd hr (hrdy task ht)
    · exact .inr (.inr hb)
    · exact absurd hw (hnone task ht)

/-- Where every task is closed and none has failed, every task is completed. -/
theorem closed_completed
    (hshut : ∀ task ∈ r.revision.tasks, stateOf readiness task.taskId = .completed ∨
      stateOf readiness task.taskId = .failed ∨
      stateOf readiness task.taskId = .blockedByDependency)
    (hfail : ∀ e ∈ r.taskExecutions, attemptState e policy ≠ .failed) :
    ∀ e ∈ r.taskExecutions, attemptState e policy = .completed := by
  have hv := h.validTasks
  have hnone : ∀ task ∈ r.revision.tasks, stateOf readiness task.taskId ≠ .failed := by
    intro task ht hf
    rcases settled_cases hv hsettled ht with ⟨-, hsame⟩ | hcls
    · obtain ⟨e, he, -, hst⟩ := stateOf_initial h policy ht
      exact hfail e he (hst.symm.trans (hsame.symm.trans hf))
    · have hopen := classify_open task.dependencyTaskIds (stateOf readiness)
      rw [← hcls, hf] at hopen
      simp at hopen
  have hblk := no_blocked hv hsettled hnone
  intro e he
  obtain ⟨task, ht, hst⟩ := stateOf_execution h policy he
  have hdone : stateOf readiness task.taskId = .completed := by
    rcases hshut task ht with hc | hf | hb
    · exact hc
    · exact absurd hf (hnone task ht)
    · exact absurd hb (hblk task ht)
  rcases settled_cases hv hsettled ht with ⟨-, hsame⟩ | hcls
  · rw [← hst, ← hsame, hdone]
  · have hopen := classify_open task.dependencyTaskIds (stateOf readiness)
    rw [← hcls, hdone] at hopen
    simp at hopen

end

include hpassing

/-- A task found running at first is still shown running after the selection. -/
theorem running_shown {running : List PlanTask} {available : ℕ} {task : PlanTask}
    (ht : task ∈ tasksInState r.revision.tasks (r.revision.tasks.map (entryOf r policy)) .running) :
    ∃ t ∈ ((tasksInState r.revision.tasks readiness .ready).foldl (select running available)
      { readiness }).readiness, t.state = .running := by
  have hv := h.validTasks
  have hinit := passing_initial r policy
  obtain ⟨hmem, hst⟩ := (mem_tasksInState hinit.aligned (hinit.distinct hv)).1 ht
  have hstill : stateOf readiness task.taskId = .running := by
    rw [hpassing.decided task.taskId (by rw [hst]; rfl), hst]
  obtain ⟨x, hx, hid⟩ : ∃ x ∈ readiness, x.taskId = task.taskId := by
    have hid : task.taskId ∈ readiness.map taskId := by
      rw [show readiness.map _ = r.revision.tasks.map _ from hpassing.aligned]
      exact mem_map_of_mem hmem
    exact mem_map.1 hid
  have hd := hpassing.distinct hv
  have hrun : x.state = .running := by
    rw [← stateOf_mem hd hx, hid, hstill]
  refine ⟨x, selects_keep _ hd hx ?_, hrun⟩
  intro other hoth he
  have hrdy := ((mem_tasksInState hpassing.aligned hd).1 hoth).2
  rw [← he, stateOf_mem hd hx, hrun] at hrdy
  cases hrdy

theorem eligible_unblocked {task : PlanTask}
    (ht : task ∈ tasksInState r.revision.tasks readiness .ready) :
    (findReadiness readiness task.taskId).elim [] blockers = [] := by
  have hd := hpassing.distinct h.validTasks
  obtain ⟨-, hst⟩ := (mem_tasksInState hpassing.aligned hd).1 ht
  cases hfnd : findReadiness readiness task.taskId with
  | none => rfl
  | some x =>
    unfold stateOf at hst
    rw [hfnd] at hst
    exact hpassing.unblocked x (lookup_mem hfnd) hst

end Progress

theorem mem_entries {tasks : List PlanTask} {readiness : List TaskReadiness}
    (h : Aligned tasks readiness) {x : TaskReadiness} (hx : x ∈ readiness) :
    ∃ task ∈ tasks, task.taskId = x.taskId := by
  have hid : x.taskId ∈ tasks.map PlanTask.taskId := by
    rw [← show readiness.map _ = tasks.map _ from h]
    exact mem_map_of_mem hx
  exact mem_map.1 hid

/-- A schedule in progress runs a task or can dispatch one. -/
theorem materialized_progress {r : ProjectedPlanRevision} {policy : TaskSchedulingPolicy}
    {analysis : TaskScheduleAnalysis} (h : Materialized r)
    (ha : analyzeTaskSchedule r policy = .ok analysis)
    (hprog : analysis.rollup.state = .inProgress)
    (hidle : ∀ t ∈ analysis.tasks, t.state ≠ .running) : analysis.dispatchableTaskIds ≠ [] := by
  have hp : policy.inBounds := by
    by_contra hp
    unfold analyzeTaskSchedule at ha
    rw [if_pos hp] at ha
    cases ha
  have hn : (childRunIds r.taskExecutions).Nodup := by
    by_contra hn
    rw [analyze_duplicated h hp hn] at ha
    cases ha
  obtain ⟨readiness, hpassing, hsettled, heq⟩ := analyze_eq h hp hn
  rw [heq] at ha
  obtain ⟨rollup, hrollup, ha⟩ := bind_ok.1 ha
  cases ha
  have hnone : tasksInState r.revision.tasks (r.revision.tasks.map (entryOf r policy)) .running =
      [] := by
    by_contra hne
    obtain ⟨task, ht⟩ := exists_mem_of_ne_nil _ hne
    obtain ⟨t, ht, hr⟩ := running_shown h hpassing ht
    exact hidle t ht hr
  have hinit := passing_initial r policy
  have hrun : ∀ task ∈ r.revision.tasks,
      stateOf (r.revision.tasks.map (entryOf r policy)) task.taskId ≠ .running := by
    intro task ht hr
    have hmem := (mem_tasksInState hinit.aligned (hinit.distinct h.validTasks)).2 ⟨ht, hr⟩
    rw [hnone] at hmem
    cases hmem
  simp only [ne_eq, map_eq_nil_iff] at hprog ⊢
  cases helig : tasksInState r.revision.tasks readiness .ready with
  | cons task rest =>
    have hmem : task ∈ tasksInState r.revision.tasks readiness .ready := by
      rw [helig]
      simp
    rw [hnone]
    exact selects_first task rest (eligible_unblocked h hpassing hmem)
      (Nat.pos_of_ne_zero hp.1)
  | nil =>
    exfalso
    have hd := hpassing.distinct h.validTasks
    have hrdy : ∀ task ∈ r.revision.tasks, stateOf readiness task.taskId ≠ .ready := by
      intro task ht hr
      have hmem := (mem_tasksInState hpassing.aligned hd).2 ⟨ht, hr⟩
      rw [helig] at hmem
      cases hmem
    have hshut := idle_closed h hsettled hrun hrdy
    have hpend : (readiness.any fun x => x.state.pending) = false := by
      rw [any_eq_false]
      intro x hx
      obtain ⟨task, ht, hid⟩ := mem_entries hpassing.aligned hx
      have hc := hshut task ht
      rw [hid, stateOf_mem hd hx] at hc
      rcases hc with hc | hc | hc <;> simp [hc, TaskReadinessState.pending]
    rw [helig] at hprog
    obtain ⟨hcompleted, _⟩ := rollup_counts hrollup
    unfold rollupState at hprog
    simp only [foldl_nil, hpend] at hprog
    split_ifs at hprog with hall hsome
    -- nothing is pending, so that nothing has failed, so that everything is completed
    have hzero : r.taskExecutions.countP (fun e => attemptState e policy = .failed) = 0 := by
      simp only [and_true, not_not] at hsome
      omega
    have hdone := closed_completed h hsettled hshut fun e he hf =>
      countP_eq_zero.1 hzero e he (decide_eq_true hf)
    have hcnt : r.taskExecutions.countP (fun e => attemptState e policy = .completed) =
        r.taskExecutions.length :=
      countP_eq_length.2 fun e he => decide_eq_true (hdone e he)
    have hlen : r.taskExecutions.length = r.revision.tasks.length := by
      simpa using congrArg List.length h.ids
    apply hall
    calc rollup.completedTasks
        = 0 + r.taskExecutions.countP (fun e => attemptState e policy = .completed) := hcompleted
      _ = r.revision.tasks.length := by omega

/-- In every state an event stream leads to, the schedule of a materialized revision that is in
progress with no task running has a task to dispatch. -/
theorem scheduler_progress {s : PlanState} {r : ProjectedPlanRevision}
    {policy : TaskSchedulingPolicy} {analysis : TaskScheduleAnalysis}
    (h : PlanGraphProjection.Reachable s) (hr : r ∈ s.revisions)
    (hm : r.materializationEventId.isSome) (ha : analyzeTaskSchedule r policy = .ok analysis)
    (hprogress : analysis.rollup.state = .inProgress)
    (hidle : ∀ t ∈ analysis.tasks, t.state ≠ .running) : analysis.dispatchableTaskIds ≠ [] :=
  materialized_progress ⟨(reachable_sound h).revisions r hr, hm⟩ ha hprogress hidle

theorem materialized_plan_progress : ∃ r ∈ (planAfter materializedPlan).revisions, ∃ analysis,
      r.materializationEventId.isSome ∧ analyzeTaskSchedule r {} = .ok analysis ∧
      analysis.rollup.state = .inProgress ∧ (∀ t ∈ analysis.tasks, t.state ≠ .running) ∧
      analysis.dispatchableTaskIds ≠ [] := by
  have hsome : (planAfter materializedPlan).revisions.any (fun r =>
      r.materializationEventId.isSome && (match analyzeTaskSchedule r {} with
        | .ok analysis => decide (analysis.rollup.state = .inProgress) &&
            analysis.tasks.all fun t => decide (t.state ≠ .running)
        | .error _ => false)) = true := by
    decide +kernel
  obtain ⟨r, hr, hall⟩ := any_eq_true.1 hsome
  obtain ⟨hm, hall⟩ := Bool.and_eq_true_iff.1 hall
  cases ha : analyzeTaskSchedule r {} with
  | error =>
    rw [ha] at hall
    cases hall
  | ok analysis =>
    rw [ha] at hall
    simp only [Bool.and_eq_true, decide_eq_true_eq, all_eq_true] at hall
    exact ⟨r, hr, analysis, hm, ha, hall.1, hall.2,
      scheduler_progress ⟨materializedPlan, rfl⟩ hr hm ha hall.1 hall.2⟩

end ScheduleProgress
