import AiForge.PlanCycles
import AiForge.ScheduleProgress

/-! # Dispatch of tasks

What the scheduler says about tasks apart from making progress: two tasks that may run side by
side, the states the passes end with, and the tasks it hands out. -/
namespace TaskDispatch

open Content Events KeyedList PlanCycles PlanGraph PlanOrder ScheduleAnalysis ScheduleProgress Sweeps
  TaskScheduler
open Staged

theorem pathOverlaps_comm (left right : String) :
    pathOverlaps left right = pathOverlaps right left := by
  unfold pathOverlaps
  rw [Bool.or_assoc, Bool.or_assoc, Bool.or_comm (isAncestor _ _), Bool.beq_comm]

theorem intentRelation_comm (left right : PlanResourceIntent) :
    intentRelation left right = intentRelation right left := by
  unfold intentRelation
  rw [pathOverlaps_comm, Bool.or_comm (!validRepositoryPath left.value),
    Bool.or_comm (!validComponent left.value)]
  simp only [and_comm, eq_comm]

/-- Two intents that are not told apart, although one of them does more than read. -/
def Clash (left right : PlanResourceIntent) : Prop :=
  ¬ (left.effect = .read ∧ right.effect = .read) ∧ intentRelation left right ≠ .disjoint

theorem clash_comm {left right : PlanResourceIntent} : Clash left right ↔ Clash right left := by
  unfold Clash
  rw [intentRelation_comm, and_comm (a := left.effect = .read)]

/-- A task that does more than read and says of nothing what it does it to. -/
def Undeclared (task : PlanTask) : Prop := mutates task ∧ task.resourceIntents = []

theorem taskResourceConflict_iff {left right : PlanTask} :
    taskResourceConflict left right ↔ (mutates left ∨ mutates right) ∧
      (Undeclared left ∨ Undeclared right ∨
        ∃ i ∈ left.resourceIntents, ∃ j ∈ right.resourceIntents, Clash i j) := by
  unfold taskResourceConflict Undeclared
  by_cases hquiet : (!mutates left && !mutates right) = true
  · rw [if_pos hquiet]
    simp_all
  · rw [if_neg hquiet]
    have hloud : mutates left ∨ mutates right := by
      by_contra hnot
      simp_all
    have hclash : (left.resourceIntents.any fun i => right.resourceIntents.any fun j =>
        !(decide (i.effect = .read) && decide (j.effect = .read)) &&
          intentRelation i j != .disjoint) = true ↔
        ∃ i ∈ left.resourceIntents, ∃ j ∈ right.resourceIntents, Clash i j := by
      simp [Clash, imp_iff_not_or]
    split_ifs with hmiss
    · simp only [Bool.or_eq_true, Bool.and_eq_true, List.isEmpty_iff] at hmiss
      refine iff_of_true rfl ⟨hloud, ?_⟩
      rcases hmiss with hleft | hright
      · exact .inl hleft
      · exact .inr (.inl hright)
    · simp only [Bool.or_eq_true, Bool.and_eq_true, List.isEmpty_iff, not_or] at hmiss
      rw [hclash]
      constructor
      · exact fun h => ⟨hloud, .inr (.inr h)⟩
      · rintro ⟨-, hleft | hright | h⟩
        · exact absurd hleft hmiss.1
        · exact absurd hright hmiss.2
        · exact h

theorem taskResourceConflict_comm (left right : PlanTask) :
    taskResourceConflict left right = taskResourceConflict right left := by
  have hhalf : ∀ a b : PlanTask, taskResourceConflict a b →
      taskResourceConflict b a := by
    intro a b h
    rw [taskResourceConflict_iff] at h ⊢
    obtain ⟨hloud, hwhy⟩ := h
    refine ⟨hloud.symm, ?_⟩
    rcases hwhy with ha | hb | ⟨i, hi, j, hj, hclash⟩
    · exact .inr (.inl ha)
    · exact .inl hb
    · exact .inr (.inr ⟨j, hj, i, hi, clash_comm.1 hclash⟩)
  rw [Bool.eq_iff_iff]
  exact ⟨hhalf left right, hhalf right left⟩

def Declares (task : PlanTask) (effect : Effect) : Prop :=
  ∃ intent ∈ task.resourceIntents, intent.effect = effect

/-- Every two effects that are not both reads are declared. -/
def Covered (left right : PlanTask) : Prop :=
  ∀ e ∈ left.intendedEffects, ∀ f ∈ right.intendedEffects, ¬ (e = .read ∧ f = .read) →
    Declares left e ∧ Declares right f

/-- Every two effects that are not both reads are declared, and to be on disjoint resources. -/
def Independent (left right : PlanTask) : Prop :=
  ∀ e ∈ left.intendedEffects, ∀ f ∈ right.intendedEffects, ¬ (e = .read ∧ f = .read) →
    Declares left e ∧ Declares right f ∧
      ∀ i ∈ left.resourceIntents, ∀ j ∈ right.resourceIntents, i.effect = e → j.effect = f →
        intentRelation i j = .disjoint

variable {task : PlanTask}

theorem mutates_of_effect {effect : Effect} (h : effect ∈ task.intendedEffects)
    (hne : effect ≠ .read) : mutates task := by
  unfold mutates
  rw [List.any_eq_true]
  exact ⟨effect, h, by simpa using hne⟩

/-- Tasks that are found not to conflict are proved independent exactly if their effects are
declared or something else gives the conflict away. -/
theorem independence_proved_iff (left right : PlanTask) :
    ((taskResourceConflict left right = false → Independent left right) ∧
      taskResourceConflict left right = taskResourceConflict right left) ↔
    (Covered left right ∨ Undeclared left ∨ Undeclared right ∨
      ∃ i ∈ left.resourceIntents, ∃ j ∈ right.resourceIntents, Clash i j) := by
  constructor
  · rintro ⟨hproved, -⟩
    by_cases hconflict : taskResourceConflict left right
    · exact .inr (taskResourceConflict_iff.1 hconflict).2
    · left
      intro e he f hf hne
      obtain ⟨hleft, hright, -⟩ := hproved (Bool.eq_false_iff.2 hconflict) e he f hf hne
      exact ⟨hleft, hright⟩
  · intro hcondition
    refine ⟨?_, taskResourceConflict_comm left right⟩
    intro hfree e he f hf hne
    have hloud : mutates left ∨ mutates right := by
      by_cases hread : e = .read
      · exact .inr (mutates_of_effect hf fun hfr => hne ⟨hread, hfr⟩)
      · exact .inl (mutates_of_effect he hread)
    have hquiet : ¬ (Undeclared left ∨ Undeclared right ∨
        ∃ i ∈ left.resourceIntents, ∃ j ∈ right.resourceIntents, Clash i j) := by
      intro hwhy
      rw [taskResourceConflict_iff.2 ⟨hloud, hwhy⟩] at hfree
      cases hfree
    rcases hcondition with hcovered | hwhy
    · obtain ⟨hleft, hright⟩ := hcovered e he f hf hne
      refine ⟨hleft, hright, ?_⟩
      rintro i hi j hj rfl rfl
      by_contra hrelation
      exact hquiet (.inr (.inr ⟨i, hi, j, hj, hne, hrelation⟩))
    · exact absurd hwhy hquiet

/-- A task that writes below a path and one that reads something it does not tell. -/
theorem silent_reader_unproved :
    ¬ ∀ left right, (taskResourceConflict left right = false → Independent left right) ∧
      taskResourceConflict left right = taskResourceConflict right left := by
  intro h
  let writer : PlanTask :=
    ⟨"writer", none, [], [0x74], [[0x63]], [.write], [⟨.write, "repository_path", "src"⟩]⟩
  let reader : PlanTask := ⟨"reader", none, [], [0x74], [[0x63]], [.read], []⟩
  have hfree : taskResourceConflict writer reader = false := by decide
  obtain ⟨-, ⟨_, hmem, -⟩, -⟩ := (h writer reader).1 hfree .write (by decide) .read (by decide)
    (by decide)
  cases hmem

/-- What a task's own attempts make of it. -/
def ownState (r : ProjectedPlanRevision) (policy : TaskSchedulingPolicy) : States := fun id =>
  ((findExecution r id).map fun execution => attemptState execution policy).getD .ready

/-- A task without a final result, some way below which a task has failed. -/
inductive Blocked (tasks : List PlanTask) (own : States) : PlanTaskId → Prop where
  | failed {i j : PlanTaskId} : (own i).settled = false → DependsOn tasks j i →
      own j = .failed → Blocked tasks own i
  | blocked {i j : PlanTaskId} : (own i).settled = false → DependsOn tasks j i →
      Blocked tasks own j → Blocked tasks own i

open Classical in
/-- The state a task is in, whatever order the tasks are listed in. -/
noncomputable def specified (tasks : List PlanTask) (own : States) (id : PlanTaskId) :
    TaskReadinessState :=
  if (own id).settled then own id
  else if Blocked tasks own id then .blockedByDependency
  else if ∃ j, DependsOn tasks j id ∧ own j ≠ .completed then .waitingForDependencies
  else .ready

variable {tasks tasks' : List PlanTask}

theorem dependsOn_perm (h : tasks'.Perm tasks) :
    PlanOrder.DependsOn tasks' = PlanOrder.DependsOn tasks := by
  funext j i
  unfold PlanOrder.DependsOn
  simp only [h.mem_iff]

variable {id : PlanTaskId}

theorem blocked_perm {own : States} (h : tasks'.Perm tasks)
    (hb : Blocked tasks own id) : Blocked tasks' own id := by
  induction hb with
  | failed hopen _ hfail => exact .failed hopen (by rwa [dependsOn_perm h]) hfail
  | blocked hopen _ _ ih => exact .blocked hopen (by rwa [dependsOn_perm h]) ih

theorem specified_perm (h : tasks'.Perm tasks) (own : States) :
    specified tasks' own = specified tasks own := by
  funext id
  have hblk : Blocked tasks' own id ↔ Blocked tasks own id :=
    ⟨blocked_perm h.symm, blocked_perm h⟩
  unfold specified
  rw [dependsOn_perm h]
  by_cases hb : Blocked tasks own id
  · rw [if_pos hb, if_pos (hblk.2 hb)]
  · rw [if_neg hb, if_neg fun hb' => hb (hblk.1 hb')]

section Specified

variable {tasks : List PlanTask} {own σ : States} (hv : ValidTasks tasks)
  (hs : Settled (rule tasks own) (tasks.map PlanTask.taskId) σ)
include hv

theorem dependsOn_iff (ht : task ∈ tasks) {j : PlanTaskId} :
    DependsOn tasks j task.taskId ↔ j ∈ task.dependencyTaskIds := by
  constructor
  · rintro ⟨_, hoth, hid, hj⟩
    rwa [task_unique hv.distinct hoth ht hid] at hj
  · exact fun hj => ⟨task, ht, rfl, hj⟩

include hs

theorem settled_at (ht : task ∈ tasks) :
    σ task.taskId = if (own task.taskId).settled then own task.taskId
      else classify task.dependencyTaskIds σ := by
  have hrule := hs task.taskId (List.mem_map_of_mem ht)
  unfold rule at hrule
  rwa [show lookup PlanTask.taskId task.taskId tasks = some task from
    lookup_of_mem hv.distinct ht] at hrule

theorem final_iff (hid : id ∈ tasks.map PlanTask.taskId)
    {state : TaskReadinessState} (hfin : state.settled) : σ id = state ↔ own id = state := by
  obtain ⟨task, ht, rfl⟩ := List.mem_map.1 hid
  rw [settled_at hv hs ht]
  split_ifs with hown
  · rfl
  · constructor
    · intro h
      have hopen := classify_undecided task.dependencyTaskIds σ
      rw [h, hfin] at hopen
      cases hopen
    · intro h
      rw [h] at hown
      exact absurd hfin hown

theorem blocked_of_state (hid : id ∈ tasks.map PlanTask.taskId)
    (hst : σ id = .blockedByDependency) : Blocked tasks own id := by
  induction id using hv.wellFounded.induction with
  | _ _ ih =>
    obtain ⟨task, ht, rfl⟩ := List.mem_map.1 hid
    have hopen : (own task.taskId).settled = false := by
      rw [← Bool.not_eq_true]
      intro hown
      have hsame := (final_iff hv hs hid hown).2 rfl
      rw [← hsame, hst] at hown
      cases hown
    rw [settled_at hv hs ht, hopen, if_neg (by simp)] at hst
    obtain ⟨j, hj, hstuck⟩ := classify_blocked hst
    have hknw := hv.known task ht j hj
    have hdep : DependsOn tasks j task.taskId := ⟨task, ht, rfl, hj⟩
    rcases hstuck with hfail | hblk
    · exact .failed hopen hdep ((final_iff hv hs hknw rfl).1 hfail)
    · exact .blocked hopen hdep (ih j hdep hknw hblk)

theorem state_of_blocked (hb : Blocked tasks own id) : σ id = .blockedByDependency := by
  have hstuck : ∀ {i j : PlanTaskId}, (own i).settled = false → DependsOn tasks j i →
      σ j = .failed ∨ σ j = .blockedByDependency → σ i = .blockedByDependency := by
    rintro i j hopen ⟨task, ht, rfl, hj⟩ hj'
    rw [settled_at hv hs ht, hopen, if_neg (by simp)]
    unfold classify
    rw [if_neg, if_pos ⟨j, hj, hj'⟩]
    intro hall
    rw [hall j hj] at hj'
    rcases hj' with h | h <;> cases h
  induction hb with
  | failed hopen hdep hfail =>
    obtain ⟨task, ht, hid, hj⟩ := hdep
    exact hstuck hopen ⟨task, ht, hid, hj⟩
      (.inl ((final_iff hv hs (hv.known task ht _ hj) rfl).2 hfail))
  | blocked hopen hdep _ ih => exact hstuck hopen hdep (.inr ih)

theorem settled_specified (ht : task ∈ tasks) :
    σ task.taskId = specified tasks own task.taskId := by
  unfold specified
  by_cases hown : (own task.taskId).settled
  · rw [if_pos hown, settled_at hv hs ht, if_pos hown]
  · rw [if_neg hown]
    split_ifs with hblk hwaiting
    · exact state_of_blocked hv hs hblk
    · obtain ⟨j, hdep, hj⟩ := hwaiting
      rw [dependsOn_iff hv ht] at hdep
      rw [settled_at hv hs ht, if_neg hown]
      unfold classify
      rw [if_neg, if_neg]
      · rintro ⟨k, hk, hstuck⟩
        apply hblk
        have hopen : σ task.taskId = .blockedByDependency := by
          rw [settled_at hv hs ht, if_neg hown]
          unfold classify
          rw [if_neg, if_pos ⟨k, hk, hstuck⟩]
          intro hall
          rw [hall k hk] at hstuck
          rcases hstuck with h | h <;> cases h
        exact blocked_of_state hv hs (List.mem_map_of_mem ht) hopen
      · intro hall
        exact hj ((final_iff hv hs (hv.known task ht j hdep) rfl).1 (hall j hdep))
    · rw [settled_at hv hs ht, if_neg hown]
      unfold classify
      rw [if_pos]
      intro j hj
      rw [final_iff hv hs (hv.known task ht j hj) rfl]
      by_contra hne
      exact hwaiting ⟨j, ⟨task, ht, rfl, hj⟩, hne⟩

end Specified

def labels (readiness : List TaskReadiness) : List (PlanTaskId × TaskReadinessState) :=
  readiness.map fun entry => (entry.taskId, entry.state)

variable {r : ProjectedPlanRevision} {initial : List TaskReadiness}

theorem initial_entries {policy : TaskSchedulingPolicy}
    (h : tasks.mapM (initialReadiness r policy) = .ok initial) :
    ∀ task ∈ tasks, initialReadiness r policy task = .ok (entryOf r policy task) := by
  intro task ht
  obtain ⟨i, hi, rfl⟩ := List.getElem_of_mem ht
  have hall := mapM_eq_ok.1 h
  have hfnd := hall.get hi (hall.length_eq ▸ hi)
  rw [List.get_eq_getElem] at hfnd
  unfold initialReadiness at hfnd ⊢
  cases hexec : findExecution r tasks[i].taskId with
  | none => simp [hexec] at hfnd
  | some => simp [entryOf, hexec]

theorem stateOf_entries (hv : ValidTasks r.revision.tasks) (policy : TaskSchedulingPolicy)
    (hid : id ∈ r.revision.tasks.map PlanTask.taskId) :
    stateOf (r.revision.tasks.map (entryOf r policy)) id = ownState r policy id := by
  obtain ⟨task, ht, rfl⟩ := List.mem_map.1 hid
  have hlook : findReadiness (r.revision.tasks.map (entryOf r policy)) task.taskId =
      (lookup PlanTask.taskId task.taskId r.revision.tasks).map (entryOf r policy) :=
    lookup_map fun _ => rfl
  rw [lookup_of_mem hv.distinct ht] at hlook
  unfold stateOf ownState
  rw [hlook]
  cases hfnd : findExecution r task.taskId <;> simp [entryOf, hfnd, attemptState]

theorem passes_specified {policy : TaskSchedulingPolicy} (hv : ValidTasks r.revision.tasks)
    (h : r.revision.tasks.mapM (initialReadiness r policy) = .ok initial) :
    ∃ final, passes r.revision.tasks initial.length initial = .ok final ∧
      labels final = r.revision.tasks.map fun task =>
        (task.taskId, specified r.revision.tasks (ownState r policy) task.taskId) := by
  obtain rfl := Except.ok.inj (h.symm.trans (mapM_map (initial_entries h)))
  obtain ⟨final, hfin, hpass, hset⟩ := passes_settle hv (passing_initial r policy)
  refine ⟨final, hfin, ?_⟩
  have hown : Settled (rule r.revision.tasks (ownState r policy))
      (r.revision.tasks.map PlanTask.taskId) (stateOf final) := by
    intro id hid
    have hrule := hset id hid
    unfold rule at hrule ⊢
    rwa [stateOf_entries hv policy hid] at hrule
  have hstates : labels final = (final.map TaskReadiness.taskId).map fun id =>
      (id, specified r.revision.tasks (ownState r policy) id) := by
    rw [List.map_map]
    apply List.map_congr_left
    intro x hx
    have hid : x.taskId ∈ r.revision.tasks.map PlanTask.taskId := by
      rw [← show final.map _ = r.revision.tasks.map _ from hpass.aligned]
      exact List.mem_map_of_mem hx
    obtain ⟨task, ht, htask⟩ := List.mem_map.1 hid
    have hst := settled_specified hv hown ht
    rw [htask, stateOf_mem (hpass.distinct hv) hx] at hst
    exact congrArg (Prod.mk x.taskId) hst
  rw [hstates, show final.map _ = r.revision.tasks.map _ from hpass.aligned, List.map_map]
  rfl

/-- The passes end with the specified states, and where the same tasks are listed in another
order, with the same attempts, they end with the same states. -/
theorem readiness_exact {r : ProjectedPlanRevision} {policy : TaskSchedulingPolicy}
    (hv : ValidTasks r.revision.tasks) {initial : List TaskReadiness}
    (h : r.revision.tasks.mapM (initialReadiness r policy) = .ok initial) :
    ∃ final, passes r.revision.tasks initial.length initial = .ok final ∧
      labels final = (r.revision.tasks.map fun task =>
        (task.taskId, specified r.revision.tasks (ownState r policy) task.taskId)) ∧
      ∀ other : ProjectedPlanRevision, other.revision.tasks.Perm r.revision.tasks →
        (∀ id, findExecution other id = findExecution r id) →
        ∃ initial' final', other.revision.tasks.mapM (initialReadiness other policy) =
            .ok initial' ∧
          passes other.revision.tasks initial'.length initial' = .ok final' ∧
          (labels final').Perm (labels final) := by
  obtain ⟨final, hfinal, hlabels⟩ := passes_specified hv h
  refine ⟨final, hfinal, hlabels, ?_⟩
  intro other hperm hsame
  have hinitial : other.revision.tasks.mapM (initialReadiness other policy) =
      .ok (other.revision.tasks.map (entryOf r policy)) := by
    apply mapM_map
    intro task ht
    rw [← initial_entries h task (hperm.mem_iff.1 ht)]
    unfold initialReadiness
    rw [hsame]
  obtain ⟨final', hfinal', hlabels'⟩ := passes_specified (validTasks_perm hperm hv) hinitial
  refine ⟨_, final', hinitial, hfinal', ?_⟩
  have hown : ownState other policy = ownState r policy := by
    funext id
    unfold ownState
    rw [hsame]
  rw [hlabels', hlabels, hown, specified_perm hperm]
  exact hperm.map _

/-! A plan half way: of the tasks attempted one is done, one runs and one has failed; of the others
one is blocked by the failure, one waits for what runs, and one writes below what it writes. -/

def halfTask (taskId : PlanTaskId) (dependencies : List PlanTaskId) (path : String) : PlanTask :=
  ⟨taskId, none, dependencies, [0x74], [[0x63]], [.write], [⟨.write, "repository_path", path⟩]⟩

def halfRevision : PlanRevision :=
  ⟨"plan", "half", none, [0x67], none,
    [halfTask "announce" ["deploy"] "news", halfTask "survey" [] "notes",
      halfTask "build" ["survey"] "src", halfTask "deploy" [] "site",
      halfTask "release" ["build"] "dist", halfTask "format" ["survey"] "src/lib",
      halfTask "docs" ["survey"] "docs", halfTask "tests" ["survey"] "tests"], []⟩

def attempted (taskId : PlanTaskId) (outcome : Option SessionTaskOutcome) : TaskExecution :=
  ⟨taskId, [⟨taskId,
    ⟨"parent", "plan", "half", taskId,
      ⟨"parcel", ⟨"repository", ⟨"sha256", "00", 1⟩⟩, ["evidence"], 1, 1⟩,
      ⟨1, 1, 1, 1, 1000⟩, [], [], 1, none⟩,
    outcome.map fun outcome => ⟨"plan", "half", taskId, taskId, outcome, ⟨1, 0, {}⟩, [], [],
      if outcome = .completed then none else some ⟨.unavailable, "refused", false⟩⟩⟩]⟩

def half : ProjectedPlanRevision where
  revision := halfRevision
  proposalEventId := some "proposed"
  taskExecutions := [⟨"announce", []⟩, attempted "survey" (some .completed),
    attempted "build" none, attempted "deploy" (some .failed), ⟨"release", []⟩, ⟨"format", []⟩,
    ⟨"docs", []⟩, ⟨"tests", []⟩]

theorem half_exact : ∃ final,
    passes halfRevision.tasks 8 (halfRevision.tasks.map (entryOf half {})) = .ok final ∧
      labels final = [("announce", .blockedByDependency), ("survey", .completed),
        ("build", .running), ("deploy", .failed), ("release", .waitingForDependencies),
        ("format", .ready), ("docs", .ready), ("tests", .ready)] ∧
      labels final = halfRevision.tasks.map fun task =>
        (task.taskId, specified halfRevision.tasks (ownState half {}) task.taskId) := by
  have hv : ValidTasks half.revision.tasks := ⟨by decide, by decide, by decide⟩
  have hentries : half.revision.tasks.mapM (initialReadiness half {}) =
      .ok (halfRevision.tasks.map (entryOf half {})) := by decide +kernel
  obtain ⟨final, hfinal, hlabels, -⟩ := readiness_exact hv hentries
  have hshown : (passes halfRevision.tasks 8 (halfRevision.tasks.map (entryOf half {}))).map
      labels = .ok [("announce", .blockedByDependency), ("survey", .completed),
        ("build", .running), ("deploy", .failed), ("release", .waitingForDependencies),
        ("format", .ready), ("docs", .ready), ("tests", .ready)] := by decide +kernel
  refine ⟨final, hfinal, ?_, hlabels⟩
  rw [show passes halfRevision.tasks 8 _ = .ok final from hfinal] at hshown
  exact Except.ok.inj hshown

/-- The entry is the one that was there at first, and has got no final state since. -/
def Continues (first current : TaskReadiness) : Prop :=
  current.taskId = first.taskId ∧ current.nextAttempt = first.nextAttempt ∧
    (first.state.settled ∨ current.state.settled → current.state = first.state)

/-- A task all of whose dependencies are completed. -/
def Supplied (initial : List TaskReadiness) (task : PlanTask) : Prop :=
  ∀ j ∈ task.dependencyTaskIds, ∃ first, findReadiness initial j = some first ∧
    first.state = .completed

theorem forall₂_set {α β : Type} {R : α → β → Prop} {xs : List α} {ys : List β}
    (h : List.Forall₂ R xs ys) {i : ℕ} {y z : β} (hy : ys[i]? = some y)
    (hz : ∀ x, R x y → R x z) : List.Forall₂ R xs (ys.set i z) := by
  induction h generalizing i with
  | nil => exact .nil
  | cons hxy htail ih =>
    cases i with
    | zero =>
      cases hy
      exact .cons (hz _ hxy) htail
    | succ => exact .cons hxy (ih hy)

variable {readiness : List TaskReadiness}

theorem find_continues {current : TaskReadiness} (h : List.Forall₂ Continues initial readiness)
    (hfnd : findReadiness readiness id = some current) :
    ∃ first, findReadiness initial id = some first ∧ Continues first current := by
  unfold findReadiness lookup at hfnd ⊢
  induction h with
  | nil => cases hfnd
  | @cons a b _ _ hab _ ih =>
    by_cases hid : a.taskId = id
    · rw [List.find?_cons_of_pos (by simpa [hab.1] using hid)] at hfnd
      cases hfnd
      exact ⟨a, List.find?_cons_of_pos (by simpa using hid), hab⟩
    · rw [List.find?_cons_of_neg (by simpa [hab.1] using hid)] at hfnd
      rw [List.find?_cons_of_neg (by simpa using hid)]
      exact ih hfnd

theorem supplied_of_unblocked
    (h : List.Forall₂ Continues initial readiness) {dependencies : List PlanTaskId} {stuck : Bool}
    (hnone : dependencyBlockers readiness dependencies = .ok ([], stuck)) :
    ∀ j ∈ dependencies, ∃ first, findReadiness initial j = some first ∧
      first.state = .completed := by
  induction dependencies generalizing stuck with
  | nil => exact fun j hj => absurd hj List.not_mem_nil
  | cons next _ ih =>
    unfold dependencyBlockers at hnone
    cases hfnd : findReadiness readiness next with
    | none =>
      rw [hfnd] at hnone
      cases hnone
    | some =>
      rw [hfnd] at hnone
      obtain ⟨⟨_, _⟩, hrest, hnone⟩ := bind_ok.1 hnone
      split_ifs at hnone with hdone
      · obtain ⟨rfl, -⟩ := Prod.mk.inj (Except.ok.inj hnone)
        intro j hj
        rcases List.mem_cons.1 hj with rfl | hj
        · obtain ⟨first, hfst, hsame⟩ := find_continues h hfnd
          exact ⟨first, hfst, (hsame.2.2 (.inr (by rw [hdone]; rfl))).symm.trans hdone⟩
        · exact ih hrest j hj
      · cases Except.ok.inj hnone

section Passes

variable {tasks : List PlanTask} {initial readiness : List TaskReadiness}

theorem reassess_continues (h : List.Forall₂ Continues initial readiness)
    {current next : TaskReadiness} (hnext : reassess readiness task current = .ok next) :
    (∀ first, Continues first current → Continues first next) ∧
      (next.state = .ready → Supplied initial task) := by
  unfold reassess at hnext
  split_ifs at hnext with hfin
  · cases hnext
    refine ⟨fun first hfst => hfst, ?_⟩
    intro hrdy
    rw [hrdy] at hfin
    cases hfin
  · obtain ⟨⟨_, _⟩, hblockers, hnext⟩ := bind_ok.1 hnext
    cases hnext
    constructor
    · rintro first ⟨hid, hatt, hsame⟩
      refine ⟨hid, hatt, ?_⟩
      rintro (hfst | hnext)
      · rw [hsame (.inl hfst)] at hfin
        exact absurd hfst hfin
      · split_ifs at hnext <;> cases hnext
    · split_ifs with hnone hstuck
      · intro _
        rw [hnone] at hblockers
        exact supplied_of_unblocked h hblockers
      · exact fun hrdy => nomatch hrdy
      · exact fun hrdy => nomatch hrdy

/-- Between two steps of a pass: the tasks before the next one are ready only if supplied. -/
def Reassigned (tasks : List PlanTask) (initial readiness : List TaskReadiness) (n : ℕ) : Prop :=
  List.Forall₂ Continues initial readiness ∧ ∀ i < n, ∀ task current, tasks[i]? = some task →
    readiness[i]? = some current → current.state = .ready → Supplied initial task

theorem pass_reassigned (h : List.Forall₂ Continues initial readiness) {n : ℕ} {changed : Bool}
    {after : List TaskReadiness × Bool}
    (hpass : (List.range n).foldlM (reassessAt tasks) (readiness, changed) = .ok after) :
    Reassigned tasks initial after.1 n := by
  induction n generalizing after with
  | zero =>
    cases hpass
    exact ⟨h, fun i hi => absurd hi (Nat.not_lt_zero i)⟩
  | succ n ih =>
    rw [List.range_succ] at hpass
    obtain ⟨before, hpre, hstep⟩ := foldlM_append_ok.1 hpass
    obtain ⟨hcont, hsupplied⟩ := ih hpre
    have hstep : reassessAt tasks before n = .ok after := by simpa using hstep
    unfold reassessAt at hstep
    split at hstep
    · rename_i task current htask hcur
      obtain ⟨_, hnext, hstep⟩ := bind_ok.1 hstep
      cases hstep
      obtain ⟨hkeeps, hrdy⟩ := reassess_continues hcont hnext
      refine ⟨forall₂_set hcont hcur hkeeps, fun i hi other now ht hc => ?_⟩
      rcases Nat.lt_succ_iff_lt_or_eq.1 hi with hi | rfl
      · rw [List.getElem?_set_ne (by omega)] at hc
        exact hsupplied i hi other now ht hc
      · obtain ⟨hlt, -⟩ := List.getElem?_eq_some_iff.1 hcur
        rw [List.getElem?_set_self hlt] at hc
        cases hc
        obtain rfl := Option.some.inj (htask.symm.trans ht)
        exact hrdy
    · rename_i hmiss
      cases hstep
      refine ⟨hcont, fun i hi task current ht hc => ?_⟩
      rcases Nat.lt_succ_iff_lt_or_eq.1 hi with hi | rfl
      · exact hsupplied i hi task current ht hc
      · exact (hmiss task current ht hc).elim

/-- After the last pass a task is ready only if it is supplied. -/
theorem passes_reassigned {n : ℕ} {final : List TaskReadiness}
    (h : Reassigned tasks initial readiness (if n = 0 then tasks.length else 0))
    (hpasses : passes tasks n readiness = .ok final) :
    Reassigned tasks initial final tasks.length := by
  induction n generalizing readiness with
  | zero =>
    cases hpasses
    exact h
  | succ _ ih =>
    obtain ⟨⟨_, _⟩, hpass, hpasses⟩ := bind_ok.1 hpasses
    have hnext := pass_reassigned h.1 hpass
    dsimp only at hpasses
    split_ifs at hpasses
    · refine ih ?_ hpasses
      split_ifs
      · exact hnext
      · exact ⟨hnext.1, fun i hi => absurd hi (Nat.not_lt_zero i)⟩
    · cases hpasses
      exact hnext

end Passes

section Selection

variable {running : List PlanTask} {available : ℕ}

/-- Nothing that is selected conflicts with what runs or with anything else that is selected. -/
structure Clear (running : List PlanTask) (available : ℕ) (selected : List PlanTask) : Prop where
  free : ∀ task ∈ selected, ∀ active ∈ running, taskResourceConflict task active = false
  apart : selected.Pairwise fun task other => taskResourceConflict task other = false
  capacity : selected.length ≤ available

def attempt (entry : TaskReadiness) : PlanTaskId × ℕ := (entry.taskId, entry.nextAttempt)

theorem select_clear {acc : Selection} (task : PlanTask) (h : Clear running available acc.selected) :
    Clear running available (select running available acc task).selected ∧
      (∃ more, more.Sublist [task] ∧
        (select running available acc task).selected = acc.selected ++ more) ∧
      (select running available acc task).readiness.map attempt = acc.readiness.map attempt := by
  have hsame : ∀ state blockers, (updateFirst TaskReadiness.taskId task.taskId
      (fun r : TaskReadiness => { r with state, blockers }) acc.readiness).map attempt =
        acc.readiness.map attempt := fun _ _ => map_update fun _ => rfl
  unfold select
  dsimp only
  split_ifs with hblk hfull
  · exact ⟨h, ⟨[], List.nil_sublist _, (List.append_nil _).symm⟩, hsame _ _⟩
  · exact ⟨h, ⟨[], List.nil_sublist _, (List.append_nil _).symm⟩, hsame _ _⟩
  · rw [not_not, List.append_eq_nil_iff, List.map_eq_nil_iff, List.filter_eq_nil_iff] at hblk
    have hfree : ∀ active, active ∈ running ∨ active ∈ acc.selected →
        taskResourceConflict task active = false := fun active hact =>
      Bool.eq_false_iff.2 (hblk.2 active (List.mem_append.2 hact))
    refine ⟨⟨?_, ?_, ?_⟩, ⟨[task], List.Sublist.refl _, rfl⟩, rfl⟩
    · intro other hoth active hact
      rcases List.mem_append.1 hoth with hoth | hlast
      · exact h.free other hoth active hact
      · rw [List.mem_singleton.1 hlast]
        exact hfree active (.inl hact)
    · refine List.pairwise_append.2 ⟨h.apart, List.pairwise_singleton _ _, ?_⟩
      intro other hoth last hlast
      rw [List.mem_singleton.1 hlast, taskResourceConflict_comm]
      exact hfree other (.inr hoth)
    · rw [List.length_append, List.length_singleton]
      omega

theorem selects_clear (eligible : List PlanTask) {acc : Selection}
    (h : Clear running available acc.selected) :
    Clear running available (eligible.foldl (select running available) acc).selected ∧
      (∃ more, more.Sublist eligible ∧
        (eligible.foldl (select running available) acc).selected = acc.selected ++ more) ∧
      (eligible.foldl (select running available) acc).readiness.map attempt =
        acc.readiness.map attempt := by
  induction eligible generalizing acc with
  | nil => exact ⟨h, ⟨[], List.Sublist.refl _, (List.append_nil _).symm⟩, rfl⟩
  | cons task _ ih =>
    obtain ⟨hclear, ⟨more, hmore, heq⟩, hsame⟩ := select_clear task h
    obtain ⟨hclear', ⟨more', hmore', heq'⟩, hsame'⟩ := ih hclear
    refine ⟨hclear', ⟨more ++ more', hmore.append hmore', ?_⟩, hsame'.trans hsame⟩
    rw [List.foldl_cons, heq', heq, List.append_assoc]

end Selection

theorem tasksInState_map (tasks : List PlanTask) (f : PlanTask → TaskReadiness)
    (state : TaskReadinessState) :
    tasksInState tasks (tasks.map f) state = tasks.filter fun task => (f task).state = state := by
  unfold tasksInState
  rw [← List.map_prod_left_eq_zip, List.filter_map, List.map_map]
  simp [Function.comp_def]

theorem tasksInState_sublist (h : tasks.length ≤ readiness.length) (state : TaskReadinessState) :
    (tasksInState tasks readiness state).Sublist tasks := by
  have hsub := (List.filter_sublist (p := fun pair => pair.2.state = state)
    (l := tasks.zip readiness)).map Prod.fst
  rwa [List.map_fst_zip h] at hsub

theorem exists_of_mem_tasksInState
    {state : TaskReadinessState} (h : task ∈ tasksInState tasks readiness state) :
    ∃ (i : ℕ) (current : TaskReadiness), tasks[i]? = some task ∧ readiness[i]? = some current ∧
      current.state = state := by
  obtain ⟨⟨_, current⟩, hpair, rfl⟩ := List.mem_map.1 h
  obtain ⟨hmem, hst⟩ := List.mem_filter.1 hpair
  obtain ⟨i, hi⟩ := List.mem_iff_getElem?.1 hmem
  obtain ⟨ht, hc⟩ := List.getElem?_zip_eq_some.1 hi
  exact ⟨i, current, ht, hc, of_decide_eq_true hst⟩

section Dispatch

variable {r : ProjectedPlanRevision} {policy : TaskSchedulingPolicy}

theorem entry_found (h : r.revision.tasks.mapM (initialReadiness r policy) = .ok initial)
    (ht : task ∈ r.revision.tasks) : ∃ e, findExecution r task.taskId = some e ∧
      entryOf r policy task = ⟨task.taskId, attemptState e policy, [], e.attempts.length + 1⟩ := by
  have hent := initial_entries h task ht
  unfold initialReadiness at hent
  cases hfnd : findExecution r task.taskId with
  | none =>
    rw [hfnd] at hent
    cases hent
  | some e =>
    rw [hfnd] at hent
    exact ⟨e, rfl, (Except.ok.inj hent).symm⟩

theorem ready_of_open {e : TaskExecution} (hp : policy.inBounds)
    (hopen : (attemptState e policy).settled = false) :
    attemptState e policy = .ready ∧ e.attempts.length + 1 ≤ policy.maximumAttempts := by
  obtain ⟨-, -, hpos, -⟩ := hp
  unfold attemptState at hopen ⊢
  cases hlast : e.attempts.getLast? with
  | none =>
    rw [List.getLast?_eq_none_iff.1 hlast]
    exact ⟨rfl, Nat.pos_of_ne_zero hpos⟩
  | some =>
    rw [hlast] at hopen
    dsimp only at hopen ⊢
    split at hopen
    · cases hopen
    · split_ifs at hopen ⊢ with hdone hretry
      · cases hopen
      · cases hopen
      · refine ⟨rfl, ?_⟩
        have hretry : retryable e policy := by simpa using hretry
        unfold retryable at hretry
        rw [hlast] at hretry
        exact of_decide_eq_true (Bool.and_eq_true_iff.1 hretry).1

def runningTasks (r : ProjectedPlanRevision) (policy : TaskSchedulingPolicy) : List PlanTask :=
  r.revision.tasks.filter fun task => ownState r policy task.taskId = .running

/-- The entries before and after the passes of an analysis. -/
structure Assessed (r : ProjectedPlanRevision) (policy : TaskSchedulingPolicy)
    (initial readiness : List TaskReadiness) : Prop where
  bounds : policy.inBounds
  entries : r.revision.tasks.mapM (initialReadiness r policy) = .ok initial
  reassigned : Reassigned r.revision.tasks initial readiness r.revision.tasks.length

theorem initial_eq (h : r.revision.tasks.mapM (initialReadiness r policy) = .ok initial) :
    initial = r.revision.tasks.map (entryOf r policy) :=
  Except.ok.inj (h.symm.trans (mapM_map (initial_entries h)))

theorem running_eq (h : r.revision.tasks.mapM (initialReadiness r policy) = .ok initial) :
    tasksInState r.revision.tasks initial .running = runningTasks r policy := by
  rw [initial_eq h, tasksInState_map]
  apply List.filter_congr
  intro task ht
  obtain ⟨e, hfound, hentry⟩ := entry_found h ht
  simp [ownState, hfound, hentry]

/-- An analysis selects, beside the running tasks, among those that the passes leave ready. -/
theorem analysis_assessed {analysis : TaskScheduleAnalysis}
    (h : analyzeTaskSchedule r policy = .ok analysis) :
    ∃ initial readiness selection, Assessed r policy initial readiness ∧
      selection = (tasksInState r.revision.tasks readiness .ready).foldl
        (select (runningTasks r policy)
          (policy.maximumConcurrency - (runningTasks r policy).length)) { readiness } ∧
      analysis.tasks = selection.readiness ∧
      analysis.dispatchableTaskIds = selection.selected.map PlanTask.taskId := by
  unfold analyzeTaskSchedule at h
  dsimp only at h
  split_ifs at h with hp hlength
  obtain ⟨-, -, h⟩ := bind_ok.1 h
  obtain ⟨initial, hinitial, h⟩ := bind_ok.1 h
  obtain ⟨readiness, hpasses, h⟩ := bind_ok.1 h
  obtain ⟨_, -, h⟩ := bind_ok.1 h
  cases h
  have hstart : Reassigned r.revision.tasks initial initial
      (if initial.length = 0 then r.revision.tasks.length else 0) := by
    refine ⟨List.forall₂_same.2 fun x _ => ⟨rfl, rfl, fun _ => rfl⟩, fun i hi => ?_⟩
    split_ifs at hi with hempty
    · rw [initial_eq hinitial, List.length_map] at hempty
      omega
    · omega
  refine ⟨initial, readiness, _, ⟨hp, hinitial, passes_reassigned hstart hpasses⟩, rfl, ?_⟩
  rw [running_eq hinitial]
  exact ⟨rfl, rfl⟩

section Assessed

variable (h : Assessed r policy initial readiness)
include h

theorem Assessed.length : readiness.length = r.revision.tasks.length := by
  rw [← h.reassigned.1.length_eq, initial_eq h.entries, List.length_map]

theorem Assessed.attempts :
    readiness.map attempt = r.revision.tasks.map (attempt ∘ entryOf r policy) := by
  rw [← List.map_map, ← initial_eq h.entries, eq_comm, ← List.forall₂_eq_eq_eq,
    List.forall₂_map_left_iff, List.forall₂_map_right_iff]
  exact h.reassigned.1.imp fun first current hsame => Prod.ext hsame.1.symm hsame.2.1.symm

variable {i : ℕ} {current : TaskReadiness} (ht : r.revision.tasks[i]? = some task)
  (hc : readiness[i]? = some current) (hready : current.state = .ready)
include ht hc hready

/-- What a ready task depends on is completed. -/
theorem Assessed.supplied : ∀ j ∈ task.dependencyTaskIds, ∃ e, findExecution r j = some e ∧
    attemptState e policy = .completed := by
  obtain ⟨hlt, -⟩ := List.getElem?_eq_some_iff.1 ht
  intro j hj
  obtain ⟨first, hfirst, hdone⟩ := h.reassigned.2 i hlt task current ht hc hready j hj
  rw [initial_eq h.entries] at hfirst
  obtain ⟨other, hother, rfl⟩ := List.mem_map.1 (lookup_mem hfirst)
  obtain ⟨e, hfound, hentry⟩ := entry_found h.entries hother
  rw [hentry] at hdone
  have hid : (entryOf r policy other).taskId = j := lookup_key hfirst
  exact ⟨e, hid ▸ hfound, hdone⟩

/-- A ready task is neither running nor finished, and has attempts left. -/
theorem Assessed.attemptable : ∃ e, findExecution r task.taskId = some e ∧
    attemptState e policy = .ready ∧ e.attempts.length + 1 ≤ policy.maximumAttempts ∧
    attempt (entryOf r policy task) = (task.taskId, e.attempts.length + 1) := by
  obtain ⟨e, hfound, hentry⟩ := entry_found h.entries (List.mem_of_getElem? ht)
  have hfirst : initial[i]? = some (entryOf r policy task) := by
    rw [initial_eq h.entries, List.getElem?_map, ht]
    rfl
  obtain ⟨hi, hget⟩ := List.getElem?_eq_some_iff.1 hfirst
  obtain ⟨hi', hget'⟩ := List.getElem?_eq_some_iff.1 hc
  have hsame := h.reassigned.1.get hi hi'
  rw [List.get_eq_getElem, List.get_eq_getElem, hget, hget', hentry] at hsame
  have hopen : (attemptState e policy).settled = false := by
    rw [← Bool.not_eq_true]
    intro hfinal
    have hstate : attemptState e policy = .ready := (hsame.2.2 (.inl hfinal)).symm.trans hready
    rw [hstate] at hfinal
    cases hfinal
  obtain ⟨hstate, hleft⟩ := ready_of_open h.bounds hopen
  exact ⟨e, hfound, hstate, hleft, by rw [hentry]; rfl⟩

end Assessed

/-- What may be dispatched is supplied, is neither running nor finished, has attempts left and
conflicts with nothing that runs besides it, for any revision that can be analyzed. -/
theorem dispatch_safe {analysis : TaskScheduleAnalysis}
    (h : analyzeTaskSchedule r policy = .ok analysis) :
    ∃ dispatched : List PlanTask, dispatched.Sublist r.revision.tasks ∧
      analysis.dispatchableTaskIds = dispatched.map PlanTask.taskId ∧ (∀ task ∈ dispatched,
        (∀ j ∈ task.dependencyTaskIds, ∃ e, findExecution r j = some e ∧
          attemptState e policy = .completed) ∧
        ∃ e, findExecution r task.taskId = some e ∧ attemptState e policy = .ready ∧
          e.attempts.length + 1 ≤ policy.maximumAttempts ∧
          ∃ entry ∈ analysis.tasks, entry.taskId = task.taskId ∧
            entry.nextAttempt = e.attempts.length + 1) ∧
      (∀ task ∈ dispatched, ∀ active ∈ runningTasks r policy,
        taskResourceConflict task active = false) ∧
      (dispatched.Pairwise fun task other => taskResourceConflict task other = false) ∧
      ((runningTasks r policy).length < policy.maximumConcurrency →
        (runningTasks r policy).length + dispatched.length ≤ policy.maximumConcurrency) := by
  obtain ⟨initial, readiness, _, hassessed, rfl, hentries, hids⟩ := analysis_assessed h
  have hnone : Clear (runningTasks r policy)
      (policy.maximumConcurrency - (runningTasks r policy).length)
      ({ readiness } : Selection).selected := ⟨by simp, by simp, Nat.zero_le _⟩
  obtain ⟨hclear, ⟨dispatched, hsub, hselected⟩, hkept⟩ :=
    selects_clear (tasksInState r.revision.tasks readiness .ready) hnone
  rw [List.nil_append] at hselected
  rw [hselected] at hclear hids
  refine ⟨dispatched, hsub.trans (tasksInState_sublist hassessed.length.ge _), hids, ?_,
    hclear.free, hclear.apart, ?_⟩
  · intro task htask
    obtain ⟨i, current, ht, hc, hready⟩ := exists_of_mem_tasksInState (hsub.subset htask)
    obtain ⟨e, hfound, hstate, hleft, hnext⟩ := hassessed.attemptable ht hc hready
    refine ⟨hassessed.supplied ht hc hready, e, hfound, hstate, hleft, ?_⟩
    have hpair : attempt (entryOf r policy task) ∈ readiness.map attempt := by
      rw [hassessed.attempts]
      exact List.mem_map_of_mem (f := attempt ∘ entryOf r policy) (List.mem_of_getElem? ht)
    rw [← hkept, hnext] at hpair
    obtain ⟨entry, hmem, hsame⟩ := List.mem_map.1 hpair
    exact ⟨entry, hentries ▸ hmem, congrArg Prod.fst hsame, congrArg Prod.snd hsame⟩
  · intro hbelow
    have hcapacity := hclear.capacity
    omega

end Dispatch

/-- Beside the building, two tasks may be dispatched where three may run. -/
theorem half_dispatch : ∃ dispatched : List PlanTask,
    dispatched.map PlanTask.taskId = ["docs", "tests"] ∧
      (∀ task ∈ dispatched, ∀ active ∈ runningTasks half ⟨3, 1⟩,
        taskResourceConflict task active = false) ∧
      (dispatched.Pairwise fun task other => taskResourceConflict task other = false) ∧
      (runningTasks half ⟨3, 1⟩).map PlanTask.taskId = ["build"] ∧
      (runningTasks half ⟨3, 1⟩).length + dispatched.length ≤ 3 := by
  have hsome : (analyzeTaskSchedule half ⟨3, 1⟩).toOption.any
      (fun analysis => analysis.dispatchableTaskIds = ["docs", "tests"]) = true := by
    decide +kernel
  have hrunning : (runningTasks half ⟨3, 1⟩).map PlanTask.taskId = ["build"] := by
    decide +kernel
  have hlength : (runningTasks half ⟨3, 1⟩).length = 1 := by
    simpa using congrArg List.length hrunning
  cases h : analyzeTaskSchedule half ⟨3, 1⟩ with
  | error =>
    rw [h] at hsome
    cases hsome
  | ok =>
    rw [h] at hsome
    obtain ⟨dispatched, -, hids, -, hfree, hapart, hcapacity⟩ := dispatch_safe h
    refine ⟨dispatched, hids.symm.trans (of_decide_eq_true hsome), hfree, hapart, hrunning, ?_⟩
    exact hcapacity (by rw [hlength]; decide)

end TaskDispatch
