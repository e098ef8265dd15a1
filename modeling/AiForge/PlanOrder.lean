import AiForge.PlanGraph
import AiForge.Staged

/-! # The order of plan tasks

What a validated revision says about its tasks: their identities differ, what they depend on
is there, and no task depends on itself through others. The depth-first search finishes a task
only after all its targets, so a finished task has no infinite chain below it. -/
namespace PlanOrder

open Content Events List PlanGraph Staged PlanTask

section Search

variable {tasks : List PlanTask} {edges : PlanTask → List PlanTaskId}

/-- The place of a target of the task at a place. -/
def Target (tasks : List PlanTask) (edges : PlanTask → List PlanTaskId) (j i : ℕ) : Prop :=
  ∃ task target, tasks[i]? = some task ∧ target ∈ edges task ∧
    tasks.findIdx? (fun t => t.taskId = target) = some j

/-- No infinite chain of targets starts at a completed task. -/
def Grounded (tasks : List PlanTask) (edges : PlanTask → List PlanTaskId)
    (visits : List Visit) : Prop :=
  ∀ i : ℕ, visits[i]? = some .complete → Acc (Target tasks edges) i

/-- Between two moments of a search, completed tasks stay completed. -/
structure Onward (tasks : List PlanTask) (edges : PlanTask → List PlanTaskId)
    (before after : List Visit) : Prop where
  grounded : Grounded tasks edges after
  length : after.length = before.length
  kept : ∀ i : ℕ, before[i]? = some .complete → after[i]? = some .complete

variable {visits : List Visit}

theorem Onward.refl (h : Grounded tasks edges visits) :
    Onward tasks edges visits visits := ⟨h, rfl, fun _ hi => hi⟩

theorem Onward.trans {u v w : List Visit} (h : Onward tasks edges u v)
    (h' : Onward tasks edges v w) : Onward tasks edges u w :=
  ⟨h'.grounded, h'.length.trans h.length, fun i hi => h'.kept i (h.kept i hi)⟩

/-- A search in pieces: each piece goes onward and completes its own place. -/
theorem search_fold {α : Type} (place : α → Option ℕ)
    {step : Bool × List Visit → α → Bool × List Visit}
    (hstop : ∀ visits x, step (true, visits) x = (true, visits))
    (hstep : ∀ visits x after, Grounded tasks edges visits → visits.length = tasks.length →
      step (false, visits) x = (false, after) → Onward tasks edges visits after ∧
        ∀ j, place x = some j → after[j]? = some .complete)
    (xs : List α) {after : List Visit} (hv : Grounded tasks edges visits)
    (hlen : visits.length = tasks.length) (h : xs.foldl step (false, visits) = (false, after)) :
    Onward tasks edges visits after ∧
      ∀ x ∈ xs, ∀ j, place x = some j → after[j]? = some .complete := by
  induction xs generalizing visits with
  | nil =>
    obtain rfl := (Prod.mk.inj h).2
    exact ⟨.refl hv, by simp⟩
  | cons x xs ih =>
    rw [foldl_cons] at h
    rcases hx : step (false, visits) x with ⟨found, middle⟩
    rw [hx] at h
    cases found with
    | true =>
      have hstuck : xs.foldl step (true, middle) = (true, middle) := by
        clear h ih
        induction xs with
        | nil => rfl
        | cons _ _ ihys => rw [foldl_cons, hstop, ihys]
      rw [hstuck] at h
      cases (Prod.mk.inj h).1
    | false =>
      obtain ⟨hon, hplace⟩ := hstep visits x middle hv hlen hx
      obtain ⟨hrest, hall⟩ := ih hon.grounded (hon.length.trans hlen) h
      refine ⟨hon.trans hrest, ?_⟩
      intro y hy j hj
      rcases mem_cons.1 hy with rfl | hy
      · exact hrest.kept j (hplace j hj)
      · exact hall y hy j hj

theorem visitTask_onward {depth index : ℕ} {after : List Visit}
    (hv : Grounded tasks edges visits) (hlength : visits.length = tasks.length)
    (h : visitTask tasks edges depth index visits = (false, after)) :
    Onward tasks edges visits after ∧
      (index < tasks.length → after[index]? = some .complete) := by
  induction depth generalizing index visits after with
  | zero => simp [visitTask] at h
  | succ _ ih =>
    unfold visitTask at h
    split at h
    · cases (Prod.mk.inj h).1
    · rename_i task hunseen htask
      dsimp only at h
      rcases hf : (edges task).foldl _ (false, visits.set index .active) with ⟨_, visited⟩
      rw [hf] at h
      obtain ⟨rfl, haft⟩ := Prod.mk.inj h
      rw [if_neg (by simp)] at haft
      obtain rfl := haft
      have hlt : index < visits.length := (List.getElem?_eq_some_iff.1 hunseen).1
      have hact : Grounded tasks edges (visits.set index .active) := by
        intro i hi
        by_cases hii : index = i
        · rw [hii, List.getElem?_set_self (hii ▸ hlt)] at hi
          simp at hi
        · rw [List.getElem?_set_ne hii] at hi
          exact hv i hi
      obtain ⟨hon, htargets⟩ := search_fold
        (fun target => tasks.findIdx? fun t => t.taskId = target)
        (fun visits x => by simp)
        (fun visits x middle hm hl hx => by
          simp only [Bool.false_eq_true, if_false] at hx
          split at hx
          · rename_i next hnext
            obtain ⟨ho, hc⟩ := ih hm hl hx
            refine ⟨ho, ?_⟩
            intro j hj
            obtain rfl := Option.some.inj (hnext.symm.trans hj)
            exact hc (List.findIdx?_eq_some_iff_getElem.1 hnext).1
          · rename_i hnone
            obtain rfl := (Prod.mk.inj hx).2
            refine ⟨.refl hm, ?_⟩
            intro j hj
            rw [hnone] at hj
            cases hj)
        (edges task) hact (by rw [length_set, hlength]) hf
      have hlen : visited.length = visits.length := by
        rw [hon.length, length_set]
      have hground : Acc (Target tasks edges) index := by
        refine .intro index fun j hj => ?_
        obtain ⟨_, target, htask', htgt, hplace⟩ := hj
        obtain rfl := Option.some.inj (htask.symm.trans htask')
        exact hon.grounded j (htargets target htgt j hplace)
      have hself : (visited.set index .complete)[index]? = some .complete :=
        List.getElem?_set_self (by omega)
      refine ⟨⟨?_, by rw [length_set, hlen], ?_⟩, fun _ => hself⟩
      · intro i hi
        by_cases hii : index = i
        · rw [← hii]
          exact hground
        · rw [List.getElem?_set_ne hii] at hi
          exact hon.grounded i hi
      · intro i hi
        by_cases hii : index = i
        · rw [← hii]
          exact hself
        · rw [List.getElem?_set_ne hii]
          apply hon.kept
          rw [List.getElem?_set_ne hii]
          exact hi
    · rename_i hact hunseen
      obtain rfl := (Prod.mk.inj h).2
      refine ⟨.refl hv, fun hlt => ?_⟩
      cases hvis : visits[index]? with
      | none =>
        rw [List.getElem?_eq_none_iff] at hvis
        omega
      | some visit =>
        cases visit with
        | complete => rfl
        | active => exact (hact hvis).elim
        | unseen => exact absurd (List.getElem?_eq_getElem hlt) (hunseen _ hvis)

theorem acc_of_hasCycle (h : hasCycle tasks edges = false) {i : ℕ} (hi : i < tasks.length) :
    Acc (Target tasks edges) i := by
  unfold hasCycle at h
  rcases hf : (List.range tasks.length).foldl _ (false, tasks.map fun _ => Visit.unseen)
    with ⟨found, after⟩
  rw [hf] at h
  obtain rfl : found = false := h
  have hinit : Grounded tasks edges (tasks.map fun _ => Visit.unseen) := by
    intro j hj
    rw [List.getElem?_map] at hj
    cases htask : tasks[j]? <;> simp [htask] at hj
  obtain ⟨hon, hall⟩ := search_fold (fun x => if x < tasks.length then some x else none)
    (fun visits x => by simp)
    (fun visits x after hv hl hx => by
      obtain ⟨ho, hc⟩ := visitTask_onward hv hl hx
      refine ⟨ho, ?_⟩
      intro j hj
      split_ifs at hj with hlt
      cases hj
      exact hc hlt)
    (List.range tasks.length) hinit (by simp) hf
  exact hon.grounded i (hall i (mem_range.2 hi) i (if_pos hi))

end Search

/-- A task depends on another one directly. -/
def DependsOn (tasks : List PlanTask) (j i : PlanTaskId) : Prop :=
  ∃ task ∈ tasks, task.taskId = i ∧ j ∈ task.dependencyTaskIds

structure ValidTasks (tasks : List PlanTask) : Prop where
  distinct : (tasks.map PlanTask.taskId).Nodup
  known : ∀ task ∈ tasks, ∀ j ∈ task.dependencyTaskIds, j ∈ tasks.map PlanTask.taskId
  acyclic : hasCycle tasks PlanTask.dependencyTaskIds = false

variable {tasks : List PlanTask}

theorem task_unique (h : (tasks.map taskId).Nodup)
    {t u : PlanTask} (ht : t ∈ tasks) (hu : u ∈ tasks) (he : t.taskId = u.taskId) : t = u :=
  inj_on_of_nodup_map h ht hu he

/-- A task is a target of another one. -/
def Points (edges : PlanTask → List PlanTaskId) (tasks : List PlanTask) (j i : PlanTaskId) : Prop :=
  ∃ task ∈ tasks, task.taskId = i ∧ j ∈ edges task

theorem wellFounded_points {edges : PlanTask → List PlanTaskId}
    (hdist : (tasks.map taskId).Nodup) (hacyclic : hasCycle tasks edges = false) :
    WellFounded (Points edges tasks) := by
  have hunk : ∀ id, id ∉ tasks.map taskId → Acc (Points edges tasks) id := by
    intro id hid
    refine .intro _ fun j hj => ?_
    obtain ⟨task, hmem, rfl, -⟩ := hj
    exact absurd (mem_map_of_mem hmem) hid
  have hplaced : ∀ i, Acc (Target tasks edges) i →
      ∀ task, tasks[i]? = some task → Acc (Points edges tasks) task.taskId := by
    intro i hi
    induction hi with
    | intro _ _ ih =>
      intro task htask
      have hmem := mem_of_getElem? htask
      refine .intro _ fun j hj => ?_
      obtain ⟨_, hmem', hid, hdep⟩ := hj
      obtain rfl := task_unique hdist hmem' hmem hid
      cases hplace : tasks.findIdx? (fun t => t.taskId = j) with
      | none =>
        apply hunk
        rw [List.findIdx?_eq_none_iff] at hplace
        intro hj
        obtain ⟨other, hoth, hoid⟩ := mem_map.1 hj
        simpa [hoid] using hplace other hoth
      | some k =>
        obtain ⟨hk, hkid, -⟩ := List.findIdx?_eq_some_iff_getElem.1 hplace
        have hacc := ih k ⟨_, j, htask, hdep, hplace⟩ tasks[k] (List.getElem?_eq_getElem hk)
        rwa [of_decide_eq_true hkid] at hacc
  refine ⟨fun id => ?_⟩
  by_cases hid : id ∈ tasks.map taskId
  · obtain ⟨task, hmem, rfl⟩ := mem_map.1 hid
    obtain ⟨i, hi, htask⟩ := getElem_of_mem hmem
    exact hplaced i (acc_of_hasCycle hacyclic hi) task (htask ▸ List.getElem?_eq_getElem hi)
  · exact hunk id hid

theorem ValidTasks.wellFounded (h : ValidTasks tasks) :
    WellFounded (DependsOn tasks) := wellFounded_points h.distinct h.acyclic

theorem duplicatedTask_none {seen : List PlanTaskId} (h : duplicatedTask tasks seen = none) :
    (tasks.map taskId).Nodup ∧ ∀ task ∈ tasks, task.taskId ∉ seen := by
  induction tasks generalizing seen with
  | nil => simp
  | cons _ _ ih =>
    unfold duplicatedTask at h
    split_ifs at h with hseen
    obtain ⟨hnd, hnew⟩ := ih h
    refine ⟨nodup_cons.2 ⟨?_, hnd⟩, ?_⟩
    · intro hmem
      obtain ⟨other, hoth, hid⟩ := mem_map.1 hmem
      exact hnew other hoth (by simp [hid])
    · intro other hoth
      rcases mem_cons.1 hoth with rfl | hoth
      · exact hseen
      · exact fun hs => hnew other hoth (mem_cons_of_mem _ hs)

theorem checkDependencies_ok {refused : PlanGraphErrorCode → String → Except PlanGraphError Unit}
    (hr : ∀ code message, refused code message ≠ .ok ()) {task : PlanTask}
    {dependencies seen : List PlanTaskId}
    (h : checkDependencies refused tasks task dependencies seen = .ok ()) :
    ∀ j ∈ dependencies, j ∈ tasks.map taskId := by
  induction dependencies generalizing seen with
  | nil => simp
  | cons _ _ ih =>
    unfold checkDependencies at h
    split_ifs at h with hmiss hseen
    · exact absurd h (hr _ _)
    · exact absurd h (hr _ _)
    · intro j hj
      rcases mem_cons.1 hj with rfl | hj
      · simp only [not_or, not_not] at hmiss
        obtain ⟨t, ht, hid⟩ := any_eq_true.1 hmiss.2
        exact mem_map.2 ⟨t, ht, of_decide_eq_true hid⟩
      · exact ih h j hj

theorem foldlM_round {ε α β : Type} {f : β → α → Except ε β} {xs : List α} {b c : β}
    (h : xs.foldlM f b = .ok c) : ∀ x ∈ xs, ∃ b' c', f b' x = .ok c' := by
  induction xs generalizing b with
  | nil => simp
  | cons _ _ ih =>
    rw [foldlM_cons] at h
    obtain ⟨b', hb', h⟩ := bind_ok.1 h
    intro y hy
    rcases mem_cons.1 hy with rfl | hy
    · exact ⟨b, b', hb'⟩
    · exact ih h y hy

theorem of_ite_ok {ε α : Type} {c : Prop} [Decidable c] {err : ε} {x : Except ε α} {a : α}
    (h : (if c then .error err else x) = .ok a) : ¬ c ∧ x = .ok a := by
  split_ifs at h with hc
  exact ⟨hc, h⟩

variable {limits : PlanGraphLimits} {revision : PlanRevision}

theorem checkTask_known {task : PlanTask}
    {total total' : ℕ} (h : checkTask limits revision total task = .ok total') :
    ∀ j, j ∈ parentEdges task ∨ j ∈ task.dependencyTaskIds →
      j ∈ revision.tasks.map taskId := by
  unfold checkTask at h
  split at h
  · cases h
  · split at h
    · cases h
    · obtain ⟨_, hdeps, h⟩ := bind_ok.1 h
      obtain ⟨hpar, -⟩ := of_ite_ok h
      rintro j (hj | hj)
      · have hsome : task.parentTaskId = some j := Option.mem_toList.1 hj
        simp only [hsome, not_or, not_and, not_not, Option.isSome_some, forall_const] at hpar
        obtain ⟨t, ht, hid⟩ := any_eq_true.1 hpar.2
        exact mem_map.2 ⟨t, ht, Option.some.inj (of_decide_eq_true hid)⟩
      · exact checkDependencies_ok (by simp) hdeps j hj

/-- Every reference of a checked revision is to a task of it, and no task is there twice. -/
theorem otherChecks_tasks (h : otherChecks revision limits = .ok ()) :
    (revision.tasks.map taskId).Nodup ∧ ∀ task ∈ revision.tasks,
      ∀ j, j ∈ parentEdges task ∨ j ∈ task.dependencyTaskIds →
        j ∈ revision.tasks.map taskId := by
  unfold otherChecks at h
  obtain ⟨_, h⟩ := of_ite_ok h
  obtain ⟨_, h⟩ := of_ite_ok h
  obtain ⟨_, h⟩ := of_ite_ok h
  obtain ⟨_, h⟩ := of_ite_ok h
  split at h
  · cases h
  · obtain ⟨_, -, h⟩ := bind_ok.1 h
    split at h
    · cases h
    · rename_i hdist
      obtain ⟨_, hchk, -⟩ := bind_ok.1 h
      refine ⟨(duplicatedTask_none hdist).1, ?_⟩
      intro task htask
      obtain ⟨_, _, hround⟩ := foldlM_round hchk task htask
      exact checkTask_known hround

theorem validTasks_of_validate
    (h : validatePlanRevision revision limits = .ok ()) : ValidTasks revision.tasks := by
  obtain ⟨⟨⟩, hchk, h⟩ := bind_ok.1 h
  obtain ⟨hcycle, -⟩ := of_ite_ok h
  simp only [Bool.or_eq_true, not_or, Bool.not_eq_true] at hcycle
  obtain ⟨hdist, hknw⟩ := otherChecks_tasks hchk
  exact ⟨hdist, fun task ht j hj => hknw task ht j (.inr hj), hcycle.2⟩

end PlanOrder
