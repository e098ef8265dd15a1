import AiForge.PlanOrder

/-! # Cycles among plan tasks

The search goes down from task to target. The active tasks lie on the way from the root to the
task that is searched, so that an active target closes a cycle, and each of them is on it once,
so that no way is longer than the list of tasks. -/
namespace PlanCycles

open Content Events List PlanGraph PlanOrder Relation Staged

section Search

variable (tasks : List PlanTask) (edges : PlanTask → List PlanTaskId)

/-- The search, without an answer where it has to go deeper than allowed. -/
def searchTask : ℕ → ℕ → List Visit → Option (Bool × List Visit)
  | 0, _, _ => none
  | depth + 1, index, visits =>
    match visits[index]?, tasks[index]? with
    | some .active, _ => some (true, visits)
    | some .unseen, some task =>
      let searchTarget (found : Bool × List Visit) (target : PlanTaskId) :
          Option (Bool × List Visit) :=
        if found.1 then some found
        else
          match tasks.findIdx? fun task => task.taskId = target with
          | some next => searchTask depth next found.2
          | none => some found
      ((edges task).foldlM searchTarget (false, visits.set index .active)).map fun found =>
        (found.1, if found.1 then found.2 else found.2.set index .complete)
    | _, _ => some (false, visits)

def searchCycle : Option Bool :=
  ((List.range tasks.length).foldlM (fun (found : Bool × List Visit) index =>
      if found.1 then some found else searchTask tasks edges (tasks.length + 1) index found.2)
    (false, tasks.map fun _ => Visit.unseen)).map Prod.fst

/-- What a search leaves: a cycle, or the tasks that were active before. -/
def Searched (before : List Visit) (found : Bool × List Visit) : Prop :=
  if found.1 then ∃ i, TransGen (Target tasks edges) i i
  else found.2.map (· == .active) = before.map (· == .active)

variable {tasks edges} {before visits : List Visit} {index : ℕ}

theorem active_iff (h : visits.map (· == .active) = before.map (· == .active)) {i : ℕ} :
    visits[i]? = some .active ↔ before[i]? = some .active := by
  have hi := congrArg (·[i]?) h
  simp only [List.getElem?_map] at hi
  cases hv : visits[i]? <;> cases hb : before[i]? <;> simp_all

theorem count_active (h : visits.map (· == .active) = before.map (· == .active)) :
    visits.count .active = before.count .active := by
  have hcnt : ∀ v : List Visit, v.count .active = (v.map (· == .active)).count true := by
    intro v
    simp [List.count, countP_map, Function.comp_def]
  rw [hcnt, hcnt, h]

/-- Where the active tasks all lead to the task at the index, and are as many as the search is
deep, it answers, and what it calls a cycle is one. -/
theorem searchTask_searched (depth : ℕ) (hlen : visits.length = tasks.length)
    (hidx : index < tasks.length)
    (hpath : ∀ i, visits[i]? = some .active → TransGen (Target tasks edges) index i)
    (hdepth : tasks.length < depth + visits.count .active) :
    searchTask tasks edges depth index visits = some (visitTask tasks edges depth index visits) ∧
      Searched tasks edges visits (visitTask tasks edges depth index visits) := by
  induction depth generalizing index visits with
  | zero =>
    have hle : visits.count .active ≤ visits.length := count_le_length
    omega
  | succ depth ih =>
    have hlt : index < visits.length := hlen ▸ hidx
    obtain ⟨task, htask⟩ : ∃ task, tasks[index]? = some task :=
      ⟨_, List.getElem?_eq_getElem hidx⟩
    obtain ⟨visit, hvis⟩ : ∃ visit, visits[index]? = some visit :=
      ⟨_, List.getElem?_eq_getElem hlt⟩
    unfold searchTask visitTask
    rw [hvis, htask]
    cases visit with
    | active => exact ⟨rfl, index, hpath index hvis⟩
    | complete => exact ⟨rfl, rfl⟩
    | unseen =>
      dsimp only
      have hbeg : Searched tasks edges (visits.set index .active)
          (false, visits.set index .active) := rfl
      have hfold := foldlM_some (f := fun found target =>
          if found.1 then some found
          else
            match tasks.findIdx? fun task => task.taskId = target with
            | some next => searchTask tasks edges depth next found.2
            | none => some found)
        (g := fun found target =>
          if found.1 then found
          else
            match tasks.findIdx? fun task => task.taskId = target with
            | some next => visitTask tasks edges depth next found.2
            | none => found)
        (I := Searched tasks edges (visits.set index .active))
        (fun target (htgt : target ∈ edges task) found hfnd => ?_) hbeg
      · rw [hfold.1]
        refine ⟨rfl, ?_⟩
        have hend := hfold.2
        generalize (edges task).foldl _ _ = found at hend ⊢
        obtain ⟨cyclic, _⟩ := found
        unfold Searched at hend ⊢
        cases cyclic with
        | true => exact hend
        | false =>
          simp only [Bool.false_eq_true, if_false] at hend ⊢
          rw [map_set, hend, map_set, set_set]
          apply ext_getElem?
          intro i
          by_cases hi : index = i
          · subst hi
            rw [List.getElem?_set_self (by simpa using hlt), List.getElem?_map, hvis]
            rfl
          · rw [List.getElem?_set_ne hi]
      · by_cases hcyc : found.1
        · simp only [hcyc, if_true, true_and]
          exact hfnd
        · simp only [hcyc, Bool.false_eq_true, if_false]
          cases hnext : tasks.findIdx? fun task => task.taskId = target with
          | none => exact ⟨rfl, hfnd⟩
          | some next =>
            unfold Searched at hfnd
            rw [if_neg hcyc] at hfnd
            have hedge : Target tasks edges next index := ⟨task, target, htask, htgt, hnext⟩
            have hcnt : (visits.set index .active).count .active =
                visits.count .active + 1 := by
              have hunseen : visits[index] = .unseen :=
                (List.getElem?_eq_some_iff.1 hvis).2
              rw [count_set hlt, hunseen]
              simp
            have hdown : ∀ i, found.2[i]? = some .active →
                TransGen (Target tasks edges) next i := by
              intro i hi
              rw [active_iff hfnd] at hi
              by_cases hii : index = i
              · exact hii ▸ .single hedge
              · rw [List.getElem?_set_ne hii] at hi
                exact .head hedge (hpath i hi)
            have hlen' : found.2.length = tasks.length := by
              simpa [hlen] using congrArg List.length hfnd
            obtain ⟨hans, hleft⟩ := ih hlen'
              (List.findIdx?_eq_some_iff_getElem.1 hnext).1 hdown
              (by rw [count_active hfnd, hcnt]; omega)
            refine ⟨hans, ?_⟩
            unfold Searched at hleft ⊢
            rwa [hfnd] at hleft

/-- The search answers for every list of tasks, and what it calls a cycle is one. -/
theorem searchCycle_answers (tasks : List PlanTask) (edges : PlanTask → List PlanTaskId) :
    searchCycle tasks edges = some (hasCycle tasks edges) ∧
      (hasCycle tasks edges → ∃ i, TransGen (Target tasks edges) i i) := by
  have hnone : ∀ i : ℕ, ¬ (tasks.map fun _ => Visit.unseen)[i]? = some .active := by
    intro i hi
    rw [List.getElem?_map] at hi
    cases htask : tasks[i]? <;> simp [htask] at hi
  have hbeg : Searched tasks edges (tasks.map fun _ => Visit.unseen)
      (false, tasks.map fun _ => Visit.unseen) := rfl
  obtain ⟨hans, hend⟩ := foldlM_some (f := fun (found : Bool × List Visit) index =>
      if found.1 then some found else searchTask tasks edges (tasks.length + 1) index found.2)
    (g := fun found index =>
      if found.1 then found else visitTask tasks edges (tasks.length + 1) index found.2)
    (I := Searched tasks edges (tasks.map fun _ => Visit.unseen))
    (fun index (hidx : index ∈ List.range tasks.length) found hfnd => by
      by_cases hcyc : found.1 = true
      · simp only [hcyc, if_true, true_and]
        exact hfnd
      · simp only [hcyc, Bool.false_eq_true, if_false]
        unfold Searched at hfnd
        rw [if_neg hcyc] at hfnd
        have hlen : found.2.length = tasks.length := by
          simpa using congrArg List.length hfnd
        have hpath : ∀ i, found.2[i]? = some .active → TransGen (Target tasks edges) index i :=
          fun i hi => absurd ((active_iff hfnd).1 hi) (hnone i)
        obtain ⟨hans, hleft⟩ := searchTask_searched (tasks.length + 1) hlen
          (mem_range.1 hidx) hpath (by omega)
        refine ⟨hans, ?_⟩
        unfold Searched at hleft ⊢
        rwa [hfnd] at hleft) hbeg
  constructor
  · unfold searchCycle hasCycle
    rw [hans]
    rfl
  · intro hcycle
    unfold hasCycle at hcycle
    unfold Searched at hend
    rwa [if_pos hcycle] at hend

theorem irrefl_of_acc {α : Type} {r : α → α → Prop} {a : α} (h : Acc r a) : ¬ r a a := by
  induction h with
  | intro a _ ih => exact fun hself => ih a hself hself

theorem hasCycle_iff : hasCycle tasks edges ↔ ∃ i, TransGen (Target tasks edges) i i := by
  refine ⟨(searchCycle_answers tasks edges).2, ?_⟩
  rintro ⟨i, hcycle⟩
  by_contra hnot
  have hlt : i < tasks.length := by
    obtain ⟨_, -, _, _, htask, -⟩ := TransGen.tail'_iff.1 hcycle
    exact (List.getElem?_eq_some_iff.1 htask).1
  have hacc := acc_of_hasCycle (Bool.eq_false_iff.2 hnot) hlt
  exact irrefl_of_acc hacc.transGen hcycle

/-- On tasks that are told apart the search decides whether the edges lead in a circle. -/
theorem hasCycle_points (hdist : (tasks.map PlanTask.taskId).Nodup) :
    hasCycle tasks edges ↔ ∃ id, TransGen (Points edges tasks) id id := by
  constructor
  · intro h
    obtain ⟨i, hcycle⟩ := hasCycle_iff.1 h
    let idAt (i : ℕ) : PlanTaskId := (tasks[i]?.map PlanTask.taskId).getD ""
    have hlift : ∀ j i, Target tasks edges j i → Points edges tasks (idAt j) (idAt i) := by
      rintro j i ⟨task, target, htask, htgt, hplace⟩
      obtain ⟨hj, hid, -⟩ := List.findIdx?_eq_some_iff_getElem.1 hplace
      have hjid : idAt j = target := by
        simpa [idAt, List.getElem?_eq_getElem hj] using hid
      rw [hjid]
      exact ⟨task, mem_of_getElem? htask, by simp [idAt, htask], htgt⟩
    exact ⟨idAt i, TransGen.lift (p := Points edges tasks) idAt hlift i i hcycle⟩
  · rintro ⟨id, hcycle⟩
    by_contra hnot
    have hwf := wellFounded_points hdist (Bool.eq_false_iff.2 hnot)
    exact irrefl_of_acc (hwf.apply id).transGen hcycle

theorem validTasks_perm {tasks' : List PlanTask} (hp : tasks'.Perm tasks) (h : ValidTasks tasks) :
    ValidTasks tasks' := by
  have hdist : (tasks'.map PlanTask.taskId).Nodup :=
    (hp.map PlanTask.taskId).nodup_iff.2 h.distinct
  refine ⟨hdist, ?_, ?_⟩
  · intro task ht j hj
    exact (hp.map PlanTask.taskId).mem_iff.2 (h.known task (hp.mem_iff.1 ht) j hj)
  · rw [← Bool.not_eq_true, hasCycle_points hdist]
    rintro ⟨id, hcycle⟩
    have hsame : Points PlanTask.dependencyTaskIds tasks' =
        Points PlanTask.dependencyTaskIds tasks := by
      funext j i
      unfold Points
      simp only [hp.mem_iff]
    rw [hsame] at hcycle
    exact irrefl_of_acc (h.wellFounded.apply id).transGen hcycle

end Search

/-- Whatever is well-founded can be listed with everything behind what it depends on. -/
theorem exists_order {α : Type} {r : α → α → Prop} (wf : WellFounded r) (xs : List α) :
    ∃ ys : List α, ys.Perm xs ∧ ys.Pairwise fun a b => ¬ r b a := by
  classical
  have : IsWellFounded α r := ⟨wf⟩
  refine ⟨xs.mergeSort fun a b => decide (IsWellFounded.rank r a ≤ IsWellFounded.rank r b),
    mergeSort_perm _ _, ?_⟩
  refine (pairwise_mergeSort ?_ ?_ xs).imp ?_
  · intro a b c hab hbc
    simp only [decide_eq_true_eq] at hab hbc ⊢
    exact hab.trans hbc
  · intro a b
    simpa using le_total (IsWellFounded.rank r a) (IsWellFounded.rank r b)
  · intro a b hab hba
    exact (of_decide_eq_true hab).not_gt (IsWellFounded.rank_lt_of_rel hba)

/-- The tasks lead nowhere in a circle, by the parents they name or by what they depend on. -/
def Circular (tasks : List PlanTask) : Prop :=
  (∃ id, TransGen (Points parentEdges tasks) id id) ∨ ∃ id, TransGen (DependsOn tasks) id id

/-- A listing of the tasks with every task behind its targets. -/
def Ordered (edges : PlanTask → List PlanTaskId) (tasks : List PlanTask) : Prop :=
  ∃ order : List PlanTaskId, order.Perm (tasks.map PlanTask.taskId) ∧
    order.Pairwise fun a b => ¬ Points edges tasks b a

/-- A revision that passes the other checks is called cyclic exactly if it is, an accepted one
can be listed in order, and the search answers for every list of tasks. -/
theorem validation_decides_cycles (revision : PlanRevision) (limits : PlanGraphLimits) :
    (otherChecks revision limits = .ok () →
      ((∃ err, validatePlanRevision revision limits = .error err ∧ err.code = .cyclicGraph) ↔
        Circular revision.tasks)) ∧
    (validatePlanRevision revision limits = .ok () →
      (revision.tasks.map PlanTask.taskId).Nodup ∧
      (∀ task ∈ revision.tasks, ∀ j, j ∈ parentEdges task ∨ j ∈ task.dependencyTaskIds →
        j ∈ revision.tasks.map PlanTask.taskId) ∧
      Ordered parentEdges revision.tasks ∧ Ordered PlanTask.dependencyTaskIds revision.tasks) ∧
    ∀ tasks edges, searchCycle tasks edges = some (hasCycle tasks edges) := by
  refine ⟨?_, ?_, fun tasks edges => (searchCycle_answers tasks edges).1⟩
  · intro h
    have hdistinct := (otherChecks_tasks h).1
    have hcycle : (hasCycle revision.tasks parentEdges ||
        hasCycle revision.tasks PlanTask.dependencyTaskIds) ↔ Circular revision.tasks := by
      rw [Bool.or_eq_true, hasCycle_points hdistinct, hasCycle_points hdistinct]
      rfl
    rw [validatePlanRevision, h, Staged.ok_bind, ← hcycle]
    split_ifs with hfound
    · exact iff_of_true ⟨_, rfl, rfl⟩ hfound
    · refine iff_of_false ?_ hfound
      rintro ⟨err, herr, -⟩
      cases herr
  · intro h
    obtain ⟨⟨⟩, hchecks, h⟩ := bind_ok.1 h
    obtain ⟨hcycle, -⟩ := of_ite_ok h
    simp only [Bool.or_eq_true, not_or, Bool.not_eq_true] at hcycle
    obtain ⟨hdistinct, hknown⟩ := otherChecks_tasks hchecks
    exact ⟨hdistinct, hknown, exists_order (wellFounded_points hdistinct hcycle.1) _,
      exists_order (wellFounded_points hdistinct hcycle.2) _⟩

end PlanCycles
