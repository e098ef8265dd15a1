import AiForge.PlanOrder
import AiForge.PlanProjection
import AiForge.Sweeps
import AiForge.TaskScheduler

/-! # Schedules of projected plans

The scheduler checks the attempt history of a revision once more before it classifies the
tasks. On a revision that a projection has built, its passes are sweeps over the dependency
graph, so they end with every task in the state its dependencies give it. -/
namespace ScheduleAnalysis

open Function

open Content EventProjection Events KeyedList List PlanGraph PlanOrder PlanProjection Staged Sweeps
  TaskScheduler

abbrev States := PlanTaskId → TaskReadinessState

def stateOf (readiness : List TaskReadiness) : States := fun id =>
  ((findReadiness readiness id).map TaskReadiness.state).getD .ready

/-- The state that the dependencies of an undecided task give it. -/
def classify (dependencies : List PlanTaskId) (σ : States) : TaskReadinessState :=
  if ∀ j ∈ dependencies, σ j = .completed then .ready
  else if ∃ j ∈ dependencies, σ j = .failed ∨ σ j = .blockedByDependency then .blockedByDependency
  else .waitingForDependencies

/-- The state of a task by its own attempts, if they decide it, and else by its dependencies. -/
def rule (tasks : List PlanTask) (σ₀ : States) (id : PlanTaskId) (σ : States) :
    TaskReadinessState :=
  if (σ₀ id).settled then σ₀ id
  else classify ((lookup PlanTask.taskId id tasks).elim [] PlanTask.dependencyTaskIds) σ

theorem classify_congr {dependencies : List PlanTaskId} {σ τ : States}
    (h : ∀ j ∈ dependencies, σ j = τ j) : classify dependencies σ = classify dependencies τ := by
  have hdone : (∀ j ∈ dependencies, σ j = .completed) ↔ ∀ j ∈ dependencies, τ j = .completed := by
    constructor
    · intro hall j hj
      rw [← h j hj]
      exact hall j hj
    · intro hall j hj
      rw [h j hj]
      exact hall j hj
  have hstuck : (∃ j ∈ dependencies, σ j = .failed ∨ σ j = .blockedByDependency) ↔
      ∃ j ∈ dependencies, τ j = .failed ∨ τ j = .blockedByDependency := by
    constructor
    · rintro ⟨j, hj, _⟩
      exact ⟨j, hj, by rwa [← h j hj]⟩
    · rintro ⟨j, hj, _⟩
      exact ⟨j, hj, by rwa [h j hj]⟩
  unfold classify
  simp only [hdone, hstuck]

theorem rule_local (tasks : List PlanTask) (σ₀ : States) :
    Local (DependsOn tasks) (rule tasks σ₀) := by
  intro i σ τ h
  unfold rule
  split_ifs
  · rfl
  · apply classify_congr
    cases ht : lookup PlanTask.taskId i tasks with
    | none => simp
    | some task =>
      intro j hj
      exact h j ⟨task, lookup_mem ht, lookup_key ht, hj⟩

/-- The readiness entries stand in the order of the tasks and have their identities. -/
def Aligned (tasks : List PlanTask) (readiness : List TaskReadiness) : Prop :=
  readiness.map TaskReadiness.taskId = tasks.map PlanTask.taskId

variable {tasks : List PlanTask} {readiness : List TaskReadiness}

theorem findReadiness_known
    (h : Aligned tasks readiness) {id : PlanTaskId} (hid : id ∈ tasks.map PlanTask.taskId) :
    ∃ r, findReadiness readiness id = some r ∧ r.state = stateOf readiness id := by
  rw [← show readiness.map _ = tasks.map _ from h] at hid
  obtain ⟨r, hr, rfl⟩ := mem_map.1 hid
  have hfnd : ∃ x, findReadiness readiness r.taskId = some x := lookup_isSome hr
  obtain ⟨x, hx⟩ := hfnd
  refine ⟨x, hx, ?_⟩
  unfold stateOf
  rw [hx]
  rfl

theorem dependencyBlockers_eq (h : Aligned tasks readiness) {dependencies : List PlanTaskId}
    (hknw : ∀ j ∈ dependencies, j ∈ tasks.map PlanTask.taskId) :
    dependencyBlockers readiness dependencies =
      .ok (dependencies.filter (fun j => stateOf readiness j ≠ .completed),
        dependencies.any fun j => stateOf readiness j = .failed ||
          stateOf readiness j = .blockedByDependency) := by
  induction dependencies with
  | nil => rfl
  | cons j _ ih =>
    obtain ⟨_, hr, hst⟩ := findReadiness_known h (hknw j (by simp))
    have hrest := ih fun k hk => hknw k (by simp [hk])
    simp only [dependencyBlockers, hr, hrest, hst, bind, Except.bind]
    by_cases hc : stateOf readiness j = .completed
    · simp [hc, pure, Except.pure]
    · simp [hc, pure, Except.pure, Bool.or_comm, Bool.or_assoc]

/-- What reassessing one entry does. -/
structure Reassessed (tasks : List PlanTask) (readiness : List TaskReadiness) (task : PlanTask)
    (current next : TaskReadiness) : Prop where
  id : next.taskId = current.taskId
  state : next.state = if current.state.settled then current.state
    else classify task.dependencyTaskIds (stateOf readiness)
  unblocked : (current.state = .ready → current.blockers = []) → next.state = .ready →
    next.blockers = []

theorem reassess_spec (h : Aligned tasks readiness) (task : PlanTask) (current : TaskReadiness)
    (hknw : ∀ j ∈ task.dependencyTaskIds, j ∈ tasks.map PlanTask.taskId) :
    ∃ next, reassess readiness task current = .ok next ∧
      Reassessed tasks readiness task current next := by
  unfold reassess
  by_cases hs : current.state.settled
  · refine ⟨current, by rw [if_pos hs], rfl, by rw [if_pos hs], fun hc => hc⟩
  · rw [if_neg hs, dependencyBlockers_eq h hknw]
    refine ⟨_, rfl, rfl, ?_, ?_⟩
    · rw [if_neg hs]
      unfold classify
      simp only [filter_eq_nil_iff, any_eq_true, Bool.or_eq_true, decide_eq_true_eq,
        ne_eq, not_not]
    · intro _ hrdy
      split_ifs at hrdy with hemp
      exact hemp

theorem stateOf_write {current next : TaskReadiness}
    (hd : Distinct TaskReadiness.taskId readiness) {index : ℕ}
    (hcur : readiness[index]? = some current) (hid : next.taskId = current.taskId) :
    stateOf (readiness.set index next) =
      update (stateOf readiness) current.taskId next.state := by
  have hkey : ∀ x : TaskReadiness, x.taskId = current.taskId → next.taskId = current.taskId :=
    fun _ _ => hid
  have hlook : findReadiness readiness current.taskId = some current :=
    lookup_of_mem hd (mem_of_getElem? hcur)
  funext id
  unfold stateOf findReadiness
  rw [set_eq_update hd hcur]
  by_cases he : id = current.taskId
  · rw [he, lookup_update_self hkey, show lookup _ _ readiness = _ from hlook,
      update_self]
    rfl
  · rw [lookup_update_ne hkey he, update_of_ne he]

/-- What holds between two passes: the entries belong to the tasks, the decided ones are as
they were at first, and no entry is ready with a blocker. -/
structure Passing (tasks : List PlanTask) (σ₀ : States) (readiness : List TaskReadiness) :
    Prop where
  aligned : Aligned tasks readiness
  decided : ∀ id, (σ₀ id).settled → stateOf readiness id = σ₀ id
  undecided : ∀ id, (σ₀ id).settled = false → (stateOf readiness id).settled = false
  unblocked : ∀ r ∈ readiness, r.state = .ready → r.blockers = []

theorem classify_undecided (dependencies : List PlanTaskId) (σ : States) :
    (classify dependencies σ).settled = false := by
  unfold classify
  split_ifs <;> rfl

section Pass

variable {tasks : List PlanTask} {σ₀ : States} {readiness : List TaskReadiness}
  (hv : ValidTasks tasks)
include hv

section

variable (h : Passing tasks σ₀ readiness)

include h

theorem Passing.distinct : Distinct TaskReadiness.taskId readiness := by
  unfold Distinct
  rw [show readiness.map _ = tasks.map _ from h.aligned]
  exact hv.distinct

theorem rule_at {task : PlanTask} (ht : task ∈ tasks) :
    rule tasks σ₀ task.taskId (stateOf readiness) =
      if (stateOf readiness task.taskId).settled then stateOf readiness task.taskId
      else classify task.dependencyTaskIds (stateOf readiness) := by
  have hlook : lookup PlanTask.taskId task.taskId tasks = some task := lookup_of_mem hv.distinct ht
  unfold rule
  rw [hlook]
  cases hs : (σ₀ task.taskId).settled with
  | true => simp [hs, h.decided _ hs]
  | false => simp [h.undecided _ hs]

/-- One task of a pass is one step of a sweep. -/
theorem reassessAt_spec {index : ℕ} {task : PlanTask}
    (ht : tasks[index]? = some task) (changed : Bool) :
    ∃ next flag, reassessAt tasks (readiness, changed) index = .ok (next, flag) ∧
      Passing tasks σ₀ next ∧ stateOf next = update (stateOf readiness) task.taskId
        (rule tasks σ₀ task.taskId (stateOf readiness)) ∧
      (flag = false → changed = false ∧
        rule tasks σ₀ task.taskId (stateOf readiness) = stateOf readiness task.taskId) := by
  have hd := h.distinct hv
  have hmem : task ∈ tasks := mem_of_getElem? ht
  have hlen : readiness.length = tasks.length := by
    simpa using congrArg List.length h.aligned
  obtain ⟨_, -⟩ := List.getElem?_eq_some_iff.1 ht
  have hcur : readiness[index]? = some (readiness[index]) :=
    List.getElem?_eq_getElem (by omega)
  have hid : (readiness[index]).taskId = task.taskId := by
    have hi := congrArg (·[index]?) h.aligned
    simpa [ht, hcur] using hi
  have hst : (readiness[index]).state = stateOf readiness task.taskId := by
    have hlook : findReadiness readiness task.taskId = some (readiness[index]) := by
      rw [← hid]
      exact lookup_of_mem hd (mem_of_getElem? hcur)
    unfold stateOf
    rw [hlook]
    rfl
  obtain ⟨next, hnext, hspec⟩ := reassess_spec h.aligned task readiness[index]
    (hv.known task hmem)
  have hval : next.state = rule tasks σ₀ task.taskId (stateOf readiness) := by
    rw [rule_at hv h hmem, hspec.state, hst]
  have hwr := stateOf_write hd hcur hspec.id
  rw [hid, hval] at hwr
  refine ⟨readiness.set index next, changed || decide (next.state ≠ (readiness[index]).state),
    ?_, ?_, hwr, ?_⟩
  · simp only [reassessAt, ht, hcur, hnext]
    rfl
  · constructor
    · unfold Aligned
      rw [map_set, hspec.id, ← show readiness.map _ = tasks.map _ from h.aligned]
      apply ext_getElem?
      intro i
      by_cases hi : index = i
      · rw [← hi, List.getElem?_set_self (by simp; omega), List.getElem?_map, hcur]
        rfl
      · rw [List.getElem?_set_ne hi]
    · intro id hs
      rw [hwr]
      by_cases he : id = task.taskId
      · rw [he, update_self]
        rw [he] at hs
        unfold rule
        rw [if_pos hs]
      · rw [update_of_ne he]
        exact h.decided id hs
    · intro id hs
      rw [hwr]
      by_cases he : id = task.taskId
      · rw [he, update_self]
        rw [he] at hs
        unfold rule
        rw [if_neg (by simp [hs])]
        exact classify_undecided _ _
      · rw [update_of_ne he]
        exact h.undecided id hs
    · intro r hr hrdy
      rcases mem_or_eq_of_mem_set hr with hr | rfl
      · exact h.unblocked r hr hrdy
      · exact hspec.unblocked (h.unblocked _ (mem_of_getElem? hcur)) hrdy
  · intro hflag
    simp only [Bool.or_eq_false_iff, decide_eq_false_iff_not, ne_eq, not_not] at hflag
    refine ⟨hflag.1, ?_⟩
    rw [← hval, hflag.2, hst]

end

def idAt (tasks : List PlanTask) (index : ℕ) : PlanTaskId :=
  (tasks[index]?.map PlanTask.taskId).getD ""

omit hv in
theorem idAt_range : (List.range tasks.length).map (idAt tasks) = tasks.map PlanTask.taskId := by
  apply List.ext_getElem (by simp)
  intro i h₁ h₂
  simp only [List.length_map] at h₂
  simp [idAt, List.getElem?_eq_getElem h₂]

theorem foldPass_spec (indices : List ℕ) (hi : ∀ i ∈ indices, i < tasks.length)
    (h : Passing tasks σ₀ readiness) (changed : Bool) :
    ∃ next flag, indices.foldlM (reassessAt tasks) (readiness, changed) = .ok (next, flag) ∧
      Passing tasks σ₀ next ∧
      stateOf next = sweep (rule tasks σ₀) (indices.map (idAt tasks)) (stateOf readiness) ∧
      (flag = false → changed = false ∧ stateOf next = stateOf readiness ∧
        Settled (rule tasks σ₀) (indices.map (idAt tasks)) (stateOf readiness)) := by
  induction indices generalizing readiness changed with
  | nil =>
    refine ⟨readiness, changed, rfl, h, rfl, ?_⟩
    intro hflag
    refine ⟨hflag, rfl, ?_⟩
    intro i hmem
    simp at hmem
  | cons index _ ih =>
    have hlt := hi index (by simp)
    have ht := List.getElem?_eq_getElem hlt
    have hid : idAt tasks index = (tasks[index]).taskId := by simp [idAt, ht]
    obtain ⟨_, flag, hstep, hpass, hst, hquiet⟩ := reassessAt_spec hv h ht changed
    obtain ⟨next, final, hrest, hpass', hst', hquiet'⟩ :=
      ih (fun i hmem => hi i (by simp [hmem])) hpass flag
    refine ⟨next, final, ?_, hpass', ?_, ?_⟩
    · rw [foldlM_cons, hstep]
      exact hrest
    · rw [hst', hst, map_cons, sweep_cons, hid]
    · intro hfin
      obtain ⟨hflag, hsame, hset⟩ := hquiet' hfin
      obtain ⟨hchg, hfixed⟩ := hquiet hflag
      rw [hfixed, update_eq_self] at hst
      rw [hst] at hsame hset
      refine ⟨hchg, hsame, ?_⟩
      intro i hmem
      rcases mem_cons.1 hmem with rfl | hmem
      · rw [hid]
        exact hfixed.symm
      · exact hset i hmem

theorem passes_spec (n : ℕ) (h : Passing tasks σ₀ readiness) :
    ∃ next, passes tasks n readiness = .ok next ∧ Passing tasks σ₀ next ∧
      (Settled (rule tasks σ₀) (tasks.map PlanTask.taskId) (stateOf next) ∨
        stateOf next =
          (sweep (rule tasks σ₀) (tasks.map PlanTask.taskId))^[n] (stateOf readiness)) := by
  induction n generalizing readiness with
  | zero => exact ⟨readiness, rfl, h, .inr rfl⟩
  | succ n ih =>
    obtain ⟨middle, flag, hfold, hpass, hst, hquiet⟩ :=
      foldPass_spec hv (List.range tasks.length) (fun i hi => mem_range.1 hi) h false
    rw [idAt_range] at hst hquiet
    have hrun : passes tasks (n + 1) readiness =
        if flag then passes tasks n middle else .ok middle := by
      simp only [passes, TaskScheduler.pass, hfold, bind, Except.bind, pure, Except.pure]
    cases flag with
    | true =>
      obtain ⟨next, hnext, hpass', hres⟩ := ih hpass
      refine ⟨next, by rw [hrun, if_pos rfl, hnext], hpass', ?_⟩
      rcases hres with hset | hswept
      · exact .inl hset
      · right
        rw [hswept, hst, iterate_succ_apply]
    | false =>
      obtain ⟨-, hsame, hset⟩ := hquiet rfl
      refine ⟨middle, by rw [hrun, if_neg (by simp)], hpass, .inl ?_⟩
      rw [hsame]
      exact hset

/-- The passes the scheduler makes are enough. -/
theorem passes_settle (h : Passing tasks σ₀ readiness) :
    ∃ next, passes tasks readiness.length readiness = .ok next ∧ Passing tasks σ₀ next ∧
      Settled (rule tasks σ₀) (tasks.map PlanTask.taskId) (stateOf next) := by
  obtain ⟨next, hnext, hpass, hres⟩ := passes_spec hv readiness.length h
  refine ⟨next, hnext, hpass, ?_⟩
  rcases hres with hset | hswept
  · exact hset
  · have hlen : readiness.length = (tasks.map PlanTask.taskId).length := by
      simpa using congrArg List.length h.aligned
    rw [hswept, hlen]
    have : Nonempty TaskReadinessState := ⟨.ready⟩
    apply sweeps_settle hv.wellFounded (rule_local tasks σ₀)
    rintro _ - j ⟨task, ht, -, hj⟩
    exact hv.known task ht j hj

end Pass

variable {revision : PlanRevision}

/-- On a sound history only an identity that has been seen before is refused. -/
theorem checkAttempts_eq {taskId : PlanTaskId} {attempts : List Attempt}
    (index : ℕ) (seen : List RunId)
    (hnumbered : attempts.map (·.dispatch.attempt) = List.range' (index + 1) attempts.length)
    (hretried : ∀ a ∈ attempts.dropLast, a.retryable)
    (hsound : ∀ a ∈ attempts, AttemptSound revision taskId a) (hseen : seen.Nodup) :
    checkAttempts revision taskId index attempts seen =
      if ((attempts.map Attempt.childRunId).reverse ++ seen).Nodup then
        .ok ((attempts.map Attempt.childRunId).reverse ++ seen)
      else .error (invalidProjection "task scheduling attempt history is invalid") := by
  induction attempts generalizing index seen with
  | nil => simp [checkAttempts, hseen]
  | cons a rest ih =>
    have ha := hsound a (by simp)
    rw [map_cons, length_cons, List.range'_succ] at hnumbered
    obtain ⟨hnum, hrest⟩ := List.cons.inj hnumbered
    have happ : ((a :: rest).map Attempt.childRunId).reverse ++ seen =
        (rest.map Attempt.childRunId).reverse ++ a.childRunId :: seen := by simp
    rw [happ]
    unfold checkAttempts
    by_cases hmem : a.childRunId ∈ seen
    · have hdup : ¬ ((rest.map Attempt.childRunId).reverse ++ a.childRunId :: seen).Nodup := by
        intro hn
        exact (nodup_cons.1 (nodup_append.1 hn).2.1).1 hmem
      rw [if_pos (.inl hmem), if_neg hdup]
    · have hlast : ¬ (rest ≠ [] ∧ a.retryable = false) := by
        rintro ⟨hne, hr⟩
        have hin : a ∈ (a :: rest).dropLast := by
          rw [dropLast_cons_of_ne_nil hne]
          simp
        rw [hretried a hin] at hr
        cases hr
      have hval := isOk_iff.2 ⟨(), ha.valid⟩
      have hres : (a.result.any fun result =>
          result.planId != a.dispatch.planId || result.revisionId != a.dispatch.revisionId ||
            result.taskId != a.dispatch.taskId || result.childRunId != a.childRunId ||
            !(validateSessionTaskResult result a.dispatch.budget).isOk) = false := by
        cases hr : a.result with
        | none => rfl
        | some result =>
          obtain ⟨h₁, h₂, h₃, h₄, h₅⟩ := ha.result result hr
          simp [h₁, h₂, h₃, h₄, isOk_iff.2 ⟨(), h₅⟩]
      rw [if_neg (by simp [hmem, ha.plan, ha.revision_id, ha.task, hnum, hval, hlast]),
        if_neg (by simp [hres])]
      refine ih (index + 1) (a.childRunId :: seen) hrest ?_ ?_
        (nodup_cons.2 ⟨hmem, hseen⟩)
      · intro b hb
        apply hretried
        by_cases hne : rest = []
        · rw [hne] at hb
          cases hb
        · rw [dropLast_cons_of_ne_nil hne]
          exact mem_cons_of_mem _ hb
      · intro b hb
        exact hsound b (by simp [hb])

theorem attempts_bounded {e : TaskExecution}
    (h : ExecutionSound revision e) : e.attempts.length ≤ TaskScheduler.maximumAttempts := by
  rcases eq_nil_or_concat e.attempts with hnil | ⟨earlier, last, he⟩
  · simp [hnil]
  · rw [concat_eq_append] at he
    have hn := h.numbered
    rw [he, map_append, length_append, length_singleton, List.range'_concat] at hn
    have hnum := (append_inj' hn (by simp)).2
    have hlast : last.dispatch.attempt = 1 + earlier.length := by simpa using hnum
    have hval := (h.attempts last (by rw [he]; simp)).valid
    unfold validateChildRunDescriptor at hval
    dsimp only at hval
    split_ifs at hval with hbud
    simp only [not_or, not_lt] at hbud
    rw [he, length_append, length_singleton]
    unfold TaskScheduler.maximumAttempts
    omega

theorem checkExecutions_eq {executions : List TaskExecution}
    {ids : List PlanTaskId} (seen : List RunId)
    (hsound : ∀ e ∈ executions, ExecutionSound revision e)
    (hids : (executions.map TaskExecution.taskId).Nodup)
    (hnew : ∀ e ∈ executions, e.taskId ∉ ids) (hseen : seen.Nodup) :
    checkExecutions revision executions ids seen =
      if ((childRunIds executions).reverse ++ seen).Nodup then
        .ok ((childRunIds executions).reverse ++ seen)
      else .error (invalidProjection "task scheduling attempt history is invalid") := by
  induction executions generalizing ids seen with
  | nil => simp [checkExecutions, childRunIds, hseen]
  | cons e rest ih =>
    have he := hsound e (by simp)
    obtain ⟨hfresh, hrest⟩ := nodup_cons.1 hids
    have hchk := checkAttempts_eq 0 seen (by simpa using he.numbered) he.retried
      he.attempts hseen
    have happ : (childRunIds (e :: rest)).reverse ++ seen =
        (childRunIds rest).reverse ++ ((e.attempts.map Attempt.childRunId).reverse ++ seen) := by
      simp [childRunIds]
    unfold checkExecutions
    rw [if_neg (by simp [hnew e (by simp), attempts_bounded he]), hchk, happ]
    by_cases hn : ((e.attempts.map Attempt.childRunId).reverse ++ seen).Nodup
    · rw [if_pos hn]
      refine ih _ (fun x hx => hsound x (by simp [hx])) hrest ?_ hn
      intro x hx hmem
      rcases mem_cons.1 hmem with hid | hmem
      · exact hfresh (hid ▸ mem_map_of_mem hx)
      · exact hnew x (by simp [hx]) hmem
    · rw [if_neg hn, if_neg fun hall => hn (nodup_append.1 hall).2.1]
      rfl

/-- A revision with its tasks materialized, as a projection builds it. -/
structure Materialized (r : ProjectedPlanRevision) : Prop where
  sound : RevisionSound r
  done : r.materializationEventId.isSome

section Materialized

variable {r : ProjectedPlanRevision} {policy : TaskSchedulingPolicy} (h : Materialized r)
include h

theorem Materialized.validTasks : ValidTasks r.revision.tasks := by
  obtain ⟨_, hval⟩ := h.sound.valid
  exact validTasks_of_validate hval

theorem Materialized.ids :
    r.taskExecutions.map TaskExecution.taskId = r.revision.tasks.map PlanTask.taskId := by
  rw [h.sound.tasks, if_pos h.done]

theorem Materialized.distinct : Distinct TaskExecution.taskId r.taskExecutions := by
  unfold Distinct
  rw [h.ids]
  exact h.validTasks.distinct

theorem Materialized.execution {task : PlanTask} (ht : task ∈ r.revision.tasks) :
    ∃ e ∈ r.taskExecutions, findExecution r task.taskId = some e := by
  have hid : task.taskId ∈ r.taskExecutions.map TaskExecution.taskId := by
    rw [h.ids]
    exact mem_map_of_mem ht
  obtain ⟨e, he, hid⟩ := mem_map.1 hid
  have hfnd := lookup_of_mem h.distinct he
  rw [hid] at hfnd
  exact ⟨e, he, hfnd⟩

end Materialized

def entryOf (r : ProjectedPlanRevision) (policy : TaskSchedulingPolicy) (task : PlanTask) :
    TaskReadiness :=
  let execution := (findExecution r task.taskId).getD ⟨task.taskId, []⟩
  ⟨task.taskId, attemptState execution policy, [], execution.attempts.length + 1⟩

variable {r : ProjectedPlanRevision}

theorem initialReadiness_ok (h : Materialized r)
    (policy : TaskSchedulingPolicy) : r.revision.tasks.mapM (initialReadiness r policy) =
      .ok (r.revision.tasks.map (entryOf r policy)) := by
  apply Staged.mapM_map
  intro task ht
  obtain ⟨_, -, he⟩ := h.execution ht
  simp [initialReadiness, entryOf, he]

theorem stateOf_initial (h : Materialized r)
    (policy : TaskSchedulingPolicy) {task : PlanTask} (ht : task ∈ r.revision.tasks) :
    ∃ e ∈ r.taskExecutions, findExecution r task.taskId = some e ∧
      stateOf (r.revision.tasks.map (entryOf r policy)) task.taskId = attemptState e policy := by
  obtain ⟨e, he, hfnd⟩ := h.execution ht
  refine ⟨e, he, hfnd, ?_⟩
  have hlook : findReadiness (r.revision.tasks.map (entryOf r policy)) task.taskId =
      some (entryOf r policy task) := by
    have hl : findReadiness (r.revision.tasks.map (entryOf r policy)) task.taskId =
        (lookup PlanTask.taskId task.taskId r.revision.tasks).map (entryOf r policy) :=
      lookup_map fun _ => rfl
    rw [lookup_of_mem h.validTasks.distinct ht] at hl
    exact hl
  unfold stateOf
  rw [hlook]
  simp [entryOf, hfnd]

theorem passing_initial (r : ProjectedPlanRevision) (policy : TaskSchedulingPolicy) :
    Passing r.revision.tasks (stateOf (r.revision.tasks.map (entryOf r policy)))
      (r.revision.tasks.map (entryOf r policy)) := by
  refine ⟨?_, fun id _ => rfl, fun id hs => hs, ?_⟩
  · unfold Aligned
    rw [map_map]
    rfl
  · intro x hx _
    obtain ⟨_, -, rfl⟩ := mem_map.1 hx
    rfl

variable {policy : TaskSchedulingPolicy}

/-- The analysis of a revision whose attempts are told apart: what is left to fail is only the
sum of what the attempts have used. -/
theorem analyze_eq (h : Materialized r) (hp : policy.inBounds)
    (hn : (childRunIds r.taskExecutions).Nodup) : ∃ readiness, Passing r.revision.tasks
        (stateOf (r.revision.tasks.map (entryOf r policy))) readiness ∧
      Settled (rule r.revision.tasks (stateOf (r.revision.tasks.map (entryOf r policy))))
        (r.revision.tasks.map PlanTask.taskId) (stateOf readiness) ∧
      analyzeTaskSchedule r policy = (do
        let running := tasksInState r.revision.tasks (r.revision.tasks.map (entryOf r policy))
          .running
        let selection := (tasksInState r.revision.tasks readiness .ready).foldl
          (select running (policy.maximumConcurrency - running.length)) { readiness }
        let rollup ← r.taskExecutions.foldlM (rollupExecution policy) {}
        let rollup := { rollup with
          blockedTasks := selection.readiness.countP fun r : TaskReadiness =>
            r.state = TaskReadinessState.blockedByDependency }
        return ⟨selection.readiness, selection.selected.map PlanTask.taskId,
          { rollup with
            state := rollupState r.revision.tasks.length selection.readiness rollup }⟩) := by
  obtain ⟨readiness, hrdy, hpass, hset⟩ :=
    passes_settle h.validTasks (passing_initial r policy)
  refine ⟨readiness, hpass, hset, ?_⟩
  have hlen : r.revision.tasks.length = r.taskExecutions.length := by
    simpa using (congrArg List.length h.ids).symm
  have hchk := checkExecutions_eq [] h.sound.executions h.distinct
    (fun _ _ => not_mem_nil) nodup_nil
  rw [append_nil, if_pos (nodup_reverse.2 hn)] at hchk
  unfold analyzeTaskSchedule
  rw [if_neg (not_not.2 hp), if_neg (not_not.2 hlen), hchk, initialReadiness_ok h]
  simp only [bind, Except.bind]
  rw [hrdy]

theorem rollupAttempt_error {rollup : TaskScheduleRollup} {attempt : Attempt}
    {err : TaskSchedulingError} (h : rollupAttempt rollup attempt = .error err) :
    err.code = .resourceExhausted := by
  unfold rollupAttempt at h
  split at h
  · cases h
  · split at h
    · obtain rfl := Except.error.inj h
      rfl
    · cases h

theorem analyze_duplicated (h : Materialized r) (hp : policy.inBounds)
    (hn : ¬ (childRunIds r.taskExecutions).Nodup) : analyzeTaskSchedule r policy =
      .error (invalidProjection "task scheduling attempt history is invalid") := by
  have hlen : r.revision.tasks.length = r.taskExecutions.length := by
    simpa using (congrArg List.length h.ids).symm
  have hchk := checkExecutions_eq [] h.sound.executions h.distinct
    (fun _ _ => not_mem_nil) nodup_nil
  rw [append_nil, if_neg fun hr => hn (nodup_reverse.1 hr)] at hchk
  unfold analyzeTaskSchedule
  rw [if_neg (not_not.2 hp), if_neg (not_not.2 hlen), hchk]
  rfl

theorem analyze_code (h : Materialized r) (hp : policy.inBounds)
    (hn : (childRunIds r.taskExecutions).Nodup) {err : TaskSchedulingError}
    (he : analyzeTaskSchedule r policy = .error err) : err.code = .resourceExhausted := by
  obtain ⟨_, -, -, heq⟩ := analyze_eq h hp hn
  rw [heq] at he
  cases hr : r.taskExecutions.foldlM (rollupExecution policy) {} with
  | error e =>
    rw [hr] at he
    obtain rfl := Except.error.inj he
    exact foldlM_error (P := fun e : TaskSchedulingError => e.code = .resourceExhausted)
      (fun _ _ _ hx => foldlM_error (P := fun e : TaskSchedulingError =>
        e.code = .resourceExhausted) (fun _ _ _ ha => rollupAttempt_error ha) hx) hr
  | ok =>
    rw [hr] at he
    cases he

theorem current_materialized {s : PlanState} (hs : PlanSound s)
    (hr : s.currentRevision = some r) (hm : r.materializationEventId.isSome) :
    Materialized r :=
  ⟨hs.revisions r (mem_of_getLast? hr), hm⟩

theorem find_current {s : PlanState} (hs : PlanSound s)
    (hr : s.currentRevision = some r) : find s r.revision.revisionId = some r := by
  have hd : Distinct (fun r : ProjectedPlanRevision => r.revision.revisionId) s.revisions := by
    have hchain := hs.distinct
    unfold chain at hchain
    rw [map_map] at hchain
    exact hchain
  exact lookup_of_mem hd (mem_of_getLast? hr)

/-- The scheduler takes the current revision of an accepted stream, under any policy within
bounds, exactly when no two child runs created for the revision have the same identity. -/
theorem projection_schedulable_iff {calls : List Call} {s : PlanState}
    {r : ProjectedPlanRevision} {policy : TaskSchedulingPolicy}
    (h : PlanGraphProjection.Accepted PlanGraphProjection.initial calls s)
    (hr : s.currentRevision = some r) (hm : r.materializationEventId.isSome)
    (hp : policy.inBounds) :
    (∀ err, analyzeTaskSchedule r policy = .error err → err.code ≠ .invalidProjection) ↔
      (dispatches r.revision.revisionId calls).Nodup := by
  have hs : PlanSound s := accepted_invariant accepts_sound h initial_sound
  have hmat := current_materialized hs hr hm
  have hperm := accepted_dispatches h r.revision.revisionId
  rw [find_current hs hr] at hperm
  have hnodup : (childRunIds r.taskExecutions).Nodup ↔
      (dispatches r.revision.revisionId calls).Nodup := hperm.nodup_iff
  rw [← hnodup]
  constructor
  · intro hcode
    by_contra hn
    exact hcode _ (analyze_duplicated hmat hp hn) rfl
  · intro hn err he hcode
    rw [analyze_code hmat hp hn he] at hcode
    cases hcode

/-! A plan of two tasks, approved and materialized. -/

def draftTask (taskId : PlanTaskId) (dependencies : List PlanTaskId) : PlanTask :=
  ⟨taskId, none, dependencies, [0x74], [[0x63]], [.read], []⟩

def draftRevision : PlanRevision :=
  ⟨"plan", "draft", none, [0x67], none, [draftTask "read" [], draftTask "report" ["read"]], []⟩

def planCall (eventId : EventId) (sequence : ℕ) (runId : RunId) (parent : Option RunId)
    (payload : RunEventPayload) : Call :=
  (⟨⟨eventId, runId, sequence, 1, 0, none, parent, none⟩, payload⟩, {})

def materializedPlan : List Call :=
  [planCall "proposed" 1 "parent" none (.planRevisionProposed draftRevision),
    planCall "approved" 2 "parent" none
      (.planRevisionDecisionRecorded ⟨"plan", "draft", .approved, .user, none⟩),
    planCall "materialized" 3 "parent" none (.sessionTasksMaterialized "plan" "draft")]

def childCall (eventId : EventId) (sequence : ℕ) (child : RunId) (taskId : PlanTaskId) : Call :=
  planCall eventId sequence child (some "parent") (.childRunCreated child (some
    ⟨"parent", "plan", "draft", taskId,
      ⟨"parcel", ⟨"repository", ⟨"sha256", "00", 1⟩⟩, ["evidence"], 1, 1⟩,
      ⟨1, 1, 1, 1, 1000⟩, [], [], 1, none⟩))

def sharedChild : List Call :=
  materializedPlan ++ [childCall "first" 4 "child" "read", childCall "second" 5 "child" "report"]

def ownChildren : List Call :=
  materializedPlan ++ [childCall "first" 4 "child" "read", childCall "second" 5 "other" "report"]

def planAfter (calls : List Call) : PlanState :=
  PlanGraphProjection.feed PlanGraphProjection.initial calls

/-- Two tasks attempted by one child run are accepted by the projection, and no schedule of
the plan is ever analyzed again. -/
theorem shared_child_unschedulable : ¬ ∀ calls s r policy,
      PlanGraphProjection.Accepted PlanGraphProjection.initial calls s →
      s.currentRevision = some r → r.materializationEventId.isSome → policy.inBounds →
      ∀ err, analyzeTaskSchedule r policy = .error err → err.code ≠ .invalidProjection := by
  intro h
  have haccepted : PlanGraphProjection.Accepted PlanGraphProjection.initial sharedChild
      (planAfter sharedChild) := replayFrom_accepted.1 (by decide +kernel)
  have hcurrent : ∃ r, (planAfter sharedChild).currentRevision = some r ∧
      r.materializationEventId.isSome ∧ analyzeTaskSchedule r {} =
        .error (invalidProjection "task scheduling attempt history is invalid") := by
    have hsome : (planAfter sharedChild).currentRevision.any (fun r =>
        r.materializationEventId.isSome && decide (analyzeTaskSchedule r {} =
          .error (invalidProjection "task scheduling attempt history is invalid"))) = true := by
      decide +kernel
    obtain ⟨r, hr, hall⟩ := (Option.any_eq_true _ _).1 hsome
    simp only [Bool.and_eq_true, decide_eq_true_eq] at hall
    exact ⟨r, hr, hall⟩
  obtain ⟨r, hr, hm, he⟩ := hcurrent
  exact h sharedChild _ r {} haccepted hr hm (by decide) _ he rfl

theorem own_children_schedulable : ∃ r, (planAfter ownChildren).currentRevision = some r ∧
      ∀ err, analyzeTaskSchedule r {} = .error err → err.code ≠ .invalidProjection := by
  have haccepted : PlanGraphProjection.Accepted PlanGraphProjection.initial ownChildren
      (planAfter ownChildren) := replayFrom_accepted.1 (by decide +kernel)
  have hsome : (planAfter ownChildren).currentRevision.any (fun r =>
      r.materializationEventId.isSome && r.revision.revisionId = "draft") = true := by
    decide +kernel
  obtain ⟨r, hr, hall⟩ := (Option.any_eq_true _ _).1 hsome
  simp only [Bool.and_eq_true, decide_eq_true_eq] at hall
  refine ⟨r, hr, (projection_schedulable_iff haccepted hr hall.1 (by decide)).2 ?_⟩
  rw [hall.2]
  decide

end ScheduleAnalysis
