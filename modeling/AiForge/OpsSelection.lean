import AiForge.OpsLives

/-! # Selected targets

A selection fences the observations of a session: it comes after everything that was started
under the selection before it, and nothing of that kind comes after it. -/
namespace OpsHistory

open Content Events LaunchPolicy List OpsEvidence OpsTarget Staged

variable {format : OpsObservation → Option (List ContentBlock)} {session : SessionId}
  {s s' : Validator} {e : Event} {v : InvocationId} {state state' : InvocationState}
  {record record' : RecordedOpsInvocation} {events : List Event}

def selectionOf (e : Event) : Option (OpsTargetBinding × ℕ) :=
  match e.payload with
  | .opsTargetSelected target generation => some (target, generation)
  | _ => none

def selections (events : List Event) : List (OpsTargetBinding × ℕ) :=
  events.filterMap selectionOf

/-- The generation that an event shows: that of a selection, or of a proposed observation. -/
def generationOf (e : Event) : Option ℕ :=
  match e.payload with
  | .opsTargetSelected _ generation => some generation
  | .toolProposed p => p.observationRequest.map OpsObservationRequest.selectionGeneration
  | _ => none

def generations (events : List Event) : List ℕ := events.filterMap generationOf

def proposedIdOf (e : Event) : Option InvocationId :=
  match e.payload with
  | .toolProposed p => some p.invocationId
  | _ => none

theorem sequence_pos {n : ℕ} (h : OpsTarget.sequence n) : n ≠ 0 := by
  simp only [OpsTarget.sequence, Bool.and_eq_true, decide_eq_true_eq] at h
  exact h.1

variable {request : OpsObservationRequest}

theorem recordedRequest_generation
    (h : (validateRecordedOpsRequest request).isOk) : request.selectionGeneration ≠ 0 := by
  apply sequence_pos
  by_contra hs
  simp only [Bool.not_eq_true] at hs
  simp [validateRecordedOpsRequest, hs, throw, throwThe, MonadExceptOf.throw, bind, Except.bind,
    Except.isOk, Except.toBool] at h

theorem selections_snoc :
    selections (events ++ [e]) = selections events ++ (selectionOf e).toList := by
  cases h : selectionOf e <;> simp [selections, h]

theorem generations_snoc :
    generations (events ++ [e]) = generations events ++ (generationOf e).toList := by
  cases h : generationOf e <;> simp [generations, h]

variable {selection : OpsTargetBinding × ℕ}

theorem selection_generation
    (h : selection ∈ selections events) : selection.2 ∈ generations events := by
  obtain ⟨x, hx, hs⟩ := mem_filterMap.1 h
  refine mem_filterMap.2 ⟨x, hx, ?_⟩
  unfold selectionOf at hs
  split at hs
  · rename_i target generation hp
    cases hs
    simp only [generationOf, hp]
  · cases hs

/-- What the snapshot says about selections is what the log says. -/
structure Selected (events : List Event) (s : Validator) : Prop where
  latest : (s.snapshot.latestSelection.map fun x => (x.target, x.selectionGeneration)) =
    (selections events).getLast?
  bound : ∀ n ∈ generations events, n ≤ s.snapshot.maximumSelectionGeneration
  reached : generations events = [] ∧ s.snapshot.maximumSelectionGeneration = 0 ∨
    s.snapshot.maximumSelectionGeneration ∈ generations events
  positive : ∀ n ∈ generations events, n ≠ 0
  increasing : (selections events).Pairwise fun a b => a.2 < b.2
  proposed : s.proposed = (events.filterMap proposedIdOf).reverse
  fresh : (events.filterMap proposedIdOf).Nodup

theorem Selected.quiet (h : Selected events s) (hs : selectionOf e = none)
    (hg : generationOf e = none) (hp : proposedIdOf e = none)
    (hlast : s'.snapshot.latestSelection = s.snapshot.latestSelection)
    (hmax : s'.snapshot.maximumSelectionGeneration = s.snapshot.maximumSelectionGeneration)
    (hprop : s'.proposed = s.proposed) : Selected (events ++ [e]) s' := by
  have hsel : selections (events ++ [e]) = selections events := by simp [selections_snoc, hs]
  have hgen : generations (events ++ [e]) = generations events := by simp [generations_snoc, hg]
  have hids : (events ++ [e]).filterMap proposedIdOf = events.filterMap proposedIdOf := by
    simp [hp]
  constructor
  · rw [hsel, hlast]
    exact h.latest
  · rw [hgen, hmax]
    exact h.bound
  · rw [hgen, hmax]
    exact h.reached
  · rw [hgen]
    exact h.positive
  · rw [hsel]
    exact h.increasing
  · rw [hids, hprop]
    exact h.proposed
  · rw [hids]
    exact h.fresh

theorem Selected.below (h : Selected events s) {generation : ℕ}
    (hm : s.snapshot.maximumSelectionGeneration = 0 ∨
      generation = s.snapshot.maximumSelectionGeneration + 1) :
    ∀ n ∈ generations events, n < generation := by
  intro n hn
  have hle := h.bound n hn
  have hpos := h.positive n hn
  rcases hm with hm | hm
  · omega
  · omega

variable {p : ToolProposed}

theorem Selected.proposes (h : Selected events s)
    (hp : e.payload = .toolProposed p) (hf : p.invocationId ∉ s.proposed) :
    p.invocationId :: s.proposed = ((events ++ [e]).filterMap proposedIdOf).reverse ∧
      ((events ++ [e]).filterMap proposedIdOf).Nodup := by
  have hid : proposedIdOf e = some p.invocationId := by simp only [proposedIdOf, hp]
  rw [h.proposed, mem_reverse] at hf
  constructor
  · simp [hid, h.proposed]
  · rw [filterMap_append]
    refine nodup_append.2 ⟨h.fresh, by simp [hid], ?_⟩
    intro a ha b hb heq
    simp only [filterMap_cons, hid, filterMap_nil, mem_singleton] at hb
    exact hf (hb ▸ heq ▸ ha)

theorem Transition.selected_next (h : Transition format s e s') (hs : Selected events s) :
    Selected (events ++ [e]) s' := by
  have inner {run : RunState} (hc : InnerChecks s e run) :
      selectionOf e = none ∧ generationOf e = none ∧ proposedIdOf e = none := by
    have hinner := hc.inner
    rcases e with ⟨_, payload⟩
    cases payload <;> first | exact ⟨rfl, rfl, rfl⟩ | cases hinner
  cases h with
  | unknown hp | started _ hp | intended _ hp =>
    refine hs.quiet ?_ ?_ ?_ rfl rfl rfl
    · simp only [selectionOf, hp]
    · simp only [generationOf, hp]
    · simp only [proposedIdOf, hp]
  | routed v state state' record record' hc | passed hc =>
    obtain ⟨h1, h2, h3⟩ := inner hc
    exact hs.quiet h1 h2 h3 rfl rfl rfl
  | selected target generation hp _ hg hm =>
    have hsel : selections (events ++ [e]) = selections events ++ [(target, generation)] := by
      simp [selections_snoc, selectionOf, hp]
    have hgen : generations (events ++ [e]) = generations events ++ [generation] := by
      simp [generations_snoc, generationOf, hp]
    have hids : (events ++ [e]).filterMap proposedIdOf = events.filterMap proposedIdOf := by
      simp [proposedIdOf, hp]
    have hblw := hs.below hm
    constructor
    · rw [hsel, List.getLast?_concat]
      rfl
    · rw [hgen]
      intro n hn
      rcases mem_append.1 hn with hn | hn
      · exact (hblw n hn).le
      · exact (mem_singleton.1 hn).le
    · right
      rw [hgen]
      exact mem_append_right _ (mem_singleton.2 rfl)
    · rw [hgen]
      intro n hn
      rcases mem_append.1 hn with hn | hn
      · exact hs.positive n hn
      · exact mem_singleton.1 hn ▸ hg
    · rw [hsel, pairwise_append]
      refine ⟨hs.increasing, pairwise_singleton _ _, ?_⟩
      intro a ha b hb
      obtain rfl := mem_singleton.1 hb
      exact hblw a.2 (selection_generation ha)
    · rw [hids]
      exact hs.proposed
    · rw [hids]
      exact hs.fresh
  | otherProposed _ hp hf hn =>
    have hsel : selections (events ++ [e]) = selections events := by
      simp [selections_snoc, selectionOf, hp]
    have hgen : generations (events ++ [e]) = generations events := by
      simp [generations_snoc, generationOf, hp, hn]
    obtain ⟨hprop, hnew⟩ := hs.proposes hp hf
    exact ⟨hsel ▸ hs.latest, hgen ▸ hs.bound, hgen ▸ hs.reached, hgen ▸ hs.positive,
      hsel ▸ hs.increasing, hprop, hnew⟩
  | proposed _ request _ _ _ hp hf hq _ _ _ hv =>
    have hsel : selections (events ++ [e]) = selections events := by
      simp [selections_snoc, selectionOf, hp]
    have hgen : generations (events ++ [e]) =
        generations events ++ [request.selectionGeneration] := by
      simp [generations_snoc, generationOf, hp, hq]
    obtain ⟨hprop, hnew⟩ := hs.proposes hp hf
    refine ⟨hsel ▸ hs.latest, ?_, ?_, ?_, hsel ▸ hs.increasing, hprop, hnew⟩
    · rw [hgen]
      intro n hn
      rcases mem_append.1 hn with hn | hn
      · exact le_max_of_le_left (hs.bound n hn)
      · exact le_max_of_le_right (mem_singleton.1 hn).le
    · right
      rw [hgen]
      change max s.snapshot.maximumSelectionGeneration request.selectionGeneration ∈ _
      rcases max_choice s.snapshot.maximumSelectionGeneration request.selectionGeneration with
        hmax | hmax
      · rw [hmax]
        rcases hs.reached with ⟨-, _⟩ | hmem
        · have hpos := recordedRequest_generation hv
          omega
        · exact mem_append_left _ hmem
      · rw [hmax]
        exact mem_append_right _ (mem_singleton.2 rfl)
    · rw [hgen]
      intro n hn
      rcases mem_append.1 hn with hn | hn
      · exact hs.positive n hn
      · exact mem_singleton.1 hn ▸ recordedRequest_generation hv

theorem replay_selected (h : replay format session events = .ok s) : Selected events s := by
  refine replay_induction (motive := Selected) ?_ ?_ h
  · refine ⟨?_, ?_, ?_, ?_, ?_, ?_, ?_⟩
    all_goals simp [selections, generations]
  · intro events e s s' hs ht
    exact ht.selected_next hs

/-- Observations belong to manual runs and to conversations, never to a run that selects. -/
def Purposed (s : Validator) : Prop :=
  ∀ (k : ℕ) (record : RecordedOpsInvocation), s.snapshot.invocations[k]? = some record →
    ∃ start, (s.run record.runId).start = some start ∧
      (start.started.manualObservationRequired ∨ start.started.purpose = .conversation)

theorem boundTool_purpose {run : RunState} {start : Start}
    {tool : ToolProvenanceEntry} {policy : PolicyProvenance}
    (h : boundTool run start p request = .ok (tool, policy)) :
    start.started.manualObservationRequired ∨ start.started.purpose = .conversation := by
  unfold boundTool at h
  split_ifs at h with hm
  · exact .inl hm
  · split at h
    · split at h
      · split_ifs at h with hc
        simp only [Bool.and_eq_true, beq_iff_eq] at hc
        exact .inr hc.1
      · cases h
    · cases h

theorem Transition.purposed (h : Transition format s e s') (hi : Indexed s) (hp : Purposed s) :
    Purposed s' := by
  intro k record' hk
  rcases h.record_cases hi hk with ⟨_, _, start, hprop, -, rfl⟩ | ⟨record, hrec, hkept⟩
  · obtain ⟨_, _, hb, -⟩ := hprop.bound
    exact ⟨start, h.start_kept hprop.started, boundTool_purpose hb⟩
  · obtain ⟨start, hbeg, hpurp⟩ := hp k record hrec
    rw [hkept.run]
    exact ⟨start, h.start_kept hbeg, hpurp⟩

theorem replay_purposed (h : replay format session events = .ok s) : Purposed s := by
  have hboth : Indexed s ∧ Purposed s := by
    refine replay_induction (motive := fun _ s => Indexed s ∧ Purposed s) ?_ ?_ h
    · refine ⟨⟨?_, ?_, ?_⟩, ?_⟩
      all_goals simp [Purposed]
    · intro events e s s' hi ht
      exact ⟨ht.indexed hi.1, ht.purposed hi.1 hi.2⟩
  exact hboth.2

variable {t : Validator}

/-- Whatever follows, the record of an ended run does not change any more. -/
theorem closed_record_kept {rest : List Event} {k : ℕ} (hi : Indexed s)
    (h : rest.foldlM (apply format session) s = .ok t)
    (hk : s.snapshot.invocations[k]? = some record) (hc : (s.run record.runId).closed) :
    t.snapshot.invocations[k]? = some record ∧ (t.run record.runId).closed := by
  have hkeeps := foldlM_keeps (I := fun s => Indexed s ∧
      s.snapshot.invocations[k]? = some record ∧ (s.run record.runId).closed = true)
    (f := apply format session) ?_ ⟨hi, hk, hc⟩ h
  · exact hkeeps.2
  · rintro _ - _ _ ⟨hib, hkb, hcb⟩ he
    have ht := apply_transition he
    refine ⟨ht.indexed hib, ?_, ?_⟩
    · obtain ⟨_, hk', rfl | ⟨-, hrun, hopen, -⟩⟩ := ht.record_kept hib hkb
      · exact hk'
      · rw [hrun, hopen] at hcb
        cases hcb
    · rw [ht.run_next record.runId]
      split_ifs with hr
      · rw [next_closed, ← hr, hcb, Bool.true_or]
      · exact hcb

theorem Course.has_end {xs : List Event} {stage : Stage}
    (h : Course format v p xs stage) (ht : stage.terminal) :
    ∃ x ∈ xs, x.payload.endsInvocation := by
  cases h with
  | proposed => cases ht
  | @move xs x _ _ _ hm => exact ⟨x, by simp, hm.ends.trans ht⟩

variable {before : List Event}

theorem replay_split {after : List Event}
    (h : replay format session (before ++ e :: after) = .ok t) :
    ∃ s s', replay format session before = .ok s ∧ Transition format s e s' ∧
      (e :: after).foldlM (apply format session) s = .ok t := by
  rw [replay] at h
  obtain ⟨s, hs, h⟩ := foldlM_append_ok.1 h
  obtain ⟨s', hs', -⟩ := foldlM_cons_ok.1 h
  exact ⟨s, s', hs, apply_transition hs', h⟩

theorem othersClosed_run {r r' : RunId} (h : s.othersClosed r) (hne : r' ≠ r)
    (hs : (s.run r').start.isSome) : (s.run r').closed := by
  cases hr : s.runs[r']? with
  | none => simp [Validator.run, hr] at hs
  | some run =>
    have hmem : (r', run) ∈ s.runs.toList := Std.ExtTreeMap.mem_toList_iff_getElem?_eq_some.2 hr
    have hrun : s.run r' = run := by rw [Validator.run, hr, Option.getD_some]
    have hall := all_eq_true.1 h (r', run) hmem
    rw [hrun] at hs ⊢
    obtain ⟨start, hbeg⟩ := Option.isSome_iff_exists.1 hs
    simpa [hne, hbeg] using hall

/-- A run that may select a target has no observations of its own. -/
theorem Purposed.not_selecting (h : Purposed s) {k : ℕ} {r : RunId}
    (hk : s.snapshot.invocations[k]? = some record) (hr : selectingRun (s.run r)) :
    record.runId ≠ r := by
  rintro rfl
  obtain ⟨_, hbeg, hpurp⟩ := h k record hk
  simp only [selectingRun, hbeg, Option.any_some, Bool.and_eq_true, beq_iff_eq,
    Bool.not_eq_true'] at hr
  rcases hpurp with hm | hc
  · cases hm.symm.trans hr.1.1.1.1.1.1.1.2
  · cases hc.symm.trans hr.1.1.1.1.1.1.1.1.1.1.1.1.2

/-- What stands before a selection: its generation is one above every generation seen so far,
every other run that started has ended, and every observation that was proposed has ended. -/
structure SelectedAlone (before : List Event) (e : Event) (generation : ℕ) : Prop where
  next : generations before ≠ [] → ∃ m ∈ generations before,
    (∀ n ∈ generations before, n ≤ m) ∧ generation = m + 1
  closed : ∀ x ∈ before, ∀ started, x.payload = .runStarted started → x.runId ≠ e.runId →
    ∃ y ∈ before, y.runId = x.runId ∧ y.payload.closesRun
  finished : ∀ xs x ys p request, before = xs ++ x :: ys → x.payload = .toolProposed p →
    p.observationRequest = some request → ∃ y ∈ ys, endsLife p.invocationId y

/-- An event that proposes, records or completes an observation of a request. -/
inductive Handles (before : List Event) (e : Event) : OpsObservationRequest → Prop where
  | proposes (p : ToolProposed) (request : OpsObservationRequest)
      (hp : e.payload = .toolProposed p) (hq : p.observationRequest = some request) :
      Handles before e request
  | records (v : InvocationId) (observation : OpsObservation)
      (hp : e.payload = .opsObservationRecorded v observation) :
      Handles before e observation.request
  | completes (v : InvocationId) (content : List ContentBlock) (message : Option MessageId)
      (x : Event) (p : ToolProposed) (request : OpsObservationRequest)
      (hp : e.payload = .toolResultRecorded v content message) (hx : x ∈ before)
      (hxp : x.payload = .toolProposed p) (hv : p.invocationId = v)
      (hq : p.observationRequest = some request) : Handles before e request

/-- The proposal of an observation is the one that its life starts with, and the life has ended
when its run is closed for good. -/
theorem finished_before {rest : List Event} {snapshot : OpsHistorySnapshot}
    (hs : replay format session before = .ok s)
    (hrest : rest.foldlM (apply format session) s = .ok t) (hf : finish t = .ok snapshot)
    {xs ys : List Event} {x : Event}
    (hsplit : before = xs ++ x :: ys) (hp : x.payload = .toolProposed p)
    (hq : p.observationRequest = some request) (hc : (s.run x.runId).closed) :
    ∃ y ∈ ys, endsLife p.invocationId y := by
  have hacc := replay_accounted hs
  obtain ⟨record, hr, hid, hrun, -⟩ :=
    replay_allRecorded hs x (by rw [hsplit]; simp) p request hp hq
  obtain ⟨k, hk⟩ := mem_iff_getElem?.1 hr
  obtain ⟨state, hst, rfl⟩ := hacc.indexed.recorded k record hk
  -- the record is the one of the end of the log, where it is terminal
  have hterm : record.phase.terminal := by
    rw [← hrun] at hc
    obtain ⟨hkept, hshut⟩ := closed_record_kept hacc.indexed hrest hk hc
    have htot : replay format session (before ++ rest) = .ok t :=
      foldlM_append_ok.2 ⟨s, hs, hrest⟩
    have hall := replay_accounted htot
    refine hall.closed_terminal hf ?_ ((hall.sourced.closed record.runId).1 hshut)
    rw [finish_records hf]
    exact mem_of_getElem? hkept
  obtain ⟨-, hpid, -⟩ := hacc.indexed.described ⟨hst, hk⟩
  obtain ⟨_, u, _, _, hlife_split, hlife⟩ := hacc.lived _ state record ⟨hst, hk⟩
  have hx : proposedIdOf x = some record.invocationId := by simp only [proposedIdOf, hp, hid]
  have hu : proposedIdOf u = some record.invocationId := by
    simp only [proposedIdOf, hlife.proposal, hpid]
  obtain ⟨rfl, rfl, rfl⟩ := KeyedList.filterMap_split_unique (replay_selected hs).fresh hsplit
    hlife_split hx hu
  obtain ⟨y, hy, hend⟩ := hlife.course.has_end (hlife.stands.terminal.symm.trans hterm)
  obtain ⟨hy, hroute⟩ := mem_filter.1 hy
  refine ⟨y, hy, ?_⟩
  rw [← hid]
  simp [endsLife, hend, concerns, hroute]

theorem selectedAlone {after : List Event} {snapshot : OpsHistorySnapshot}
    {target : OpsTargetBinding} {generation : ℕ}
    (h : replay format session (before ++ e :: after) = .ok t) (hf : finish t = .ok snapshot)
    (hp : e.payload = .opsTargetSelected target generation) :
    SelectedAlone before e generation := by
  obtain ⟨s, _, hs, htrans, hrest⟩ := replay_split h
  have hacc := replay_accounted hs
  have hsel := replay_selected hs
  obtain ⟨hr, hm, ho⟩ : selectingRun (s.run e.runId) ∧
      (s.snapshot.maximumSelectionGeneration = 0 ∨
        generation = s.snapshot.maximumSelectionGeneration + 1) ∧
      s.othersClosed e.runId := by
    cases htrans with
    | selected _ _ hp' hr _ hm ho =>
      cases hp.symm.trans hp'
      exact ⟨hr, hm, ho⟩
    | unknown hp' | started _ hp' | intended _ hp' | otherProposed _ hp' | proposed _ _ _ _ _ hp' =>
      cases hp.symm.trans hp'
    | routed _ _ _ _ _ hi | passed hi =>
      have hinner := hi.inner
      rw [hp] at hinner
      cases hinner
  constructor
  · intro hne
    rcases hsel.reached with ⟨hnil, -⟩ | hmem
    · exact absurd hnil hne
    · refine ⟨_, hmem, hsel.bound, ?_⟩
      exact hm.resolve_left (hsel.positive _ hmem)
  · intro x hx started hxp hne
    obtain ⟨_, hbeg, -⟩ := hacc.sourced.started x hx started hxp
    exact (hacc.sourced.closed x.runId).1 (othersClosed_run ho hne (by rw [hbeg]; rfl))
  · intro xs x ys p request hsplit hxp hq
    refine finished_before hs hrest hf hsplit hxp hq ?_
    obtain ⟨record, hrec, -, hrun, -⟩ :=
      replay_allRecorded hs x (by rw [hsplit]; simp) p request hxp hq
    obtain ⟨k, hk⟩ := mem_iff_getElem?.1 hrec
    have hne := (replay_purposed hs).not_selecting hk hr
    rw [← hrun]
    exact othersClosed_run ho hne (hacc.manual.begun k record hk)

/-- What is proposed, recorded or completed passed the check against the current selection. -/
theorem Transition.handles (h : Transition format s e s')
    (hi : Indexed s) (ha : AllRecorded events s) (hh : Handles events e request) :
    s.currentSelectionMatches request := by
  cases hh with
  | proposes _ _ hp hq =>
    cases h with
    | proposed _ _ _ _ _ hp' _ hq' _ _ _ _ hsel =>
      cases hp.symm.trans hp'
      obtain rfl := Option.some.inj (hq.symm.trans hq')
      exact hsel
    | otherProposed _ hp' _ hn =>
      cases hp.symm.trans hp'
      cases hq.symm.trans hn
    | unknown hp' | started _ hp' | selected _ _ hp' | intended _ hp' => cases hp.symm.trans hp'
    | routed _ _ _ _ _ hc | passed hc =>
      have hinner := hc.inner
      rw [hp] at hinner
      cases hinner
  | records _ _ hp =>
    cases h with
    | routed _ _ _ _ _ _ _ _ _ hadv =>
      cases advance_cases hadv with
      | observed _ hp' _ _ _ _ hreq hsel =>
        cases hp.symm.trans hp'
        rw [hreq]
        exact hsel
      | denied _ hp' | allowed _ hp' | deferred _ hp' | policyFailed _ hp' | asked _ hp'
      | approved _ _ hp' | refused _ _ hp' | started _ hp' | result _ _ _ hp' | errored _ hp' =>
        cases hp.symm.trans hp'
    | passed _ _ ho =>
      rw [hp] at ho
      cases ho
    | unknown hp' | started _ hp' | selected _ _ hp' | intended _ hp' | otherProposed _ hp'
    | proposed _ _ _ _ _ hp' => cases hp.symm.trans hp'
  | completes _ _ _ x p _ hp hx hxp hv hq =>
    obtain ⟨record, hr, hid, -, rfl⟩ := ha x hx p request hxp hq
    obtain ⟨k, hk⟩ := mem_iff_getElem?.1 hr
    obtain ⟨_, hst, rfl⟩ := hi.recorded k record hk
    have hn : e.payload.invocationId = some record.invocationId := by
      rw [hp, hid, hv]
      rfl
    rcases h.keeps hi ⟨hst, hk⟩ with ⟨hroute, -⟩ | ⟨_, _, -, -, hadv, -⟩
    · -- an event that carries the identity of the invocation is routed to it
      cases h with
      | routed _ _ _ _ _ hc => cases hroute.symm.trans (hc.routes ⟨hst, hk⟩ hn)
      | passed hc => cases hroute.symm.trans (hc.routes ⟨hst, hk⟩ hn)
      | unknown hp' | started _ hp' | selected _ _ hp' | intended _ hp' | otherProposed _ hp'
      | proposed _ _ _ _ _ hp' => cases hp.symm.trans hp'
    · cases hadv with
      | result _ _ _ _ _ _ _ _ hsel => exact hsel
      | observed _ hp' | denied _ hp' | allowed _ hp' | deferred _ hp' | policyFailed _ hp'
      | asked _ hp' | approved _ _ hp' | refused _ _ hp' | started _ hp' | errored _ hp' =>
        cases hp.symm.trans hp'

theorem Selected.matches (h : Selected events s) (hm : s.currentSelectionMatches request)
    (hl : (selections events).getLast? = some selection) :
    request.target = selection.1 ∧ request.selectionGeneration = selection.2 := by
  rw [← h.latest] at hl
  obtain ⟨latest, hlast, rfl⟩ := Option.map_eq_some_iff.1 hl
  simpa [Validator.currentSelectionMatches, hlast] using hm

theorem Selected.newest {other : OpsTargetBinding × ℕ} (h : Selected events s)
    (hl : (selections events).getLast? = some selection) (ho : other ∈ selections events) :
    other.2 ≤ selection.2 := by
  obtain ⟨_, hxs⟩ := List.getLast?_eq_some_iff.1 hl
  have hinc := h.increasing
  rw [hxs] at ho hinc
  rcases mem_append.1 ho with ho | ho
  · exact ((pairwise_append.1 hinc).2.2 other ho selection (mem_singleton.2 rfl)).le
  · obtain rfl := mem_singleton.1 ho
    exact le_rfl

theorem target_selection_fences {log suffix : List Event} {stop : ℕ → Bool}
    {snapshot : OpsHistorySnapshot}
    (h : recordedOpsObservations format session log suffix stop = .ok snapshot) :
    ((selections (log ++ suffix)).Pairwise fun a b => a.2 < b.2) ∧
    ∀ before e after, log ++ suffix = before ++ e :: after →
      (∀ target generation, e.payload = .opsTargetSelected target generation →
        SelectedAlone before e generation) ∧
      ∀ request, Handles before e request → ∀ selection,
        (selections before).getLast? = some selection →
        request.target = selection.1 ∧ request.selectionGeneration = selection.2 ∧
          ∀ other ∈ selections before, other.2 ≤ request.selectionGeneration := by
  obtain ⟨_, ht, hf⟩ := recorded_replay h
  refine ⟨(replay_selected ht).increasing, ?_⟩
  intro before e after hsplit
  rw [hsplit] at ht
  refine ⟨?_, ?_⟩
  · intro target generation hp
    exact selectedAlone ht hf hp
  · intro request hh selection hl
    obtain ⟨_, _, hs, htrans, -⟩ := replay_split ht
    have hmatch := htrans.handles (replay_accounted hs).indexed (replay_allRecorded hs) hh
    obtain ⟨htarget, hgeneration⟩ := (replay_selected hs).matches hmatch hl
    refine ⟨htarget, hgeneration, ?_⟩
    intro other ho
    rw [hgeneration]
    exact (replay_selected hs).newest hl ho

theorem sampleLog_fenced : ∃ snapshot,
    recordedOpsObservations OpsContent.formatOpsObservationContent "session" sampleLog []
      (fun _ => false) = .ok snapshot ∧
    (selections sampleLog).Pairwise fun a b => a.2 < b.2 := by
  obtain ⟨snapshot, h⟩ := isOk_iff.1 sampleLog_accepted
  have hfenced := (target_selection_fences h).1
  rw [append_nil] at hfenced
  exact ⟨snapshot, h, hfenced⟩

end OpsHistory
