import AiForge.ContextOrder

/-! # What the selection admits

The rounds over the ranked candidates keep their sums in step with their records. A required
candidate comes before every optional one, so that none of these can have taken the place of
its group. -/
namespace ContextSelection

open Content ContextBuilder Events List SafeText SortedBy SourceRecovery Staged

def tokens (xs : List CandidateState) : ℕ := (xs.map (·.content.estimatedTokens)).sum

/-- What the records and the counters say of the candidates and of those `taken` among them. -/
structure Selected (request : ContextSelectionRequest) (candidates taken : List CandidateState)
    (usage : ContextBudgetClass → ℕ) (decisions : List ContextSelectionDecisionRecord) : Prop where
  among : ∀ c ∈ taken, c ∈ candidates
  required : ∀ c ∈ candidates, c.required → c ∈ taken
  sums : ∀ cls, usage cls = tokens (taken.filter (·.budgetClass = cls))
  budget : ∀ cls, ∀ limit ∈ request.budgets cls, usage cls ≤ limit
  alternatives : (taken.filterMap (·.alternativeGroup)).Nodup
  admitted : (decisions.filter (·.decision = .admitted)).Perm (taken.map (makeRecord · .admitted))

section Rounds

variable {request : ContextSelectionRequest} {done rest taken : List CandidateState}
  {s t : Admitting} {c p : CandidateState}

structure Admits (request : ContextSelectionRequest) (done taken : List CandidateState)
    (s : Admitting) : Prop extends Selected request done taken s.usage s.decisions where
  groups : s.groups = taken.filterMap (·.alternativeGroup)
  contents : s.selected = taken.map (·.content)

theorem admits_start (total : ℕ) {decisions : List ContextSelectionDecisionRecord}
    (h : decisions.filter (·.decision = .admitted) = []) :
    Admits request [] [] { total := total, decisions := decisions } := by
  refine ⟨⟨?_, ?_, ?_, ?_, nodup_nil, by rw [h]; rfl⟩, rfl, rfl⟩ <;> simp [tokens]

theorem Admits.omit (h : Admits request done taken s) (hc : c.required = false)
    {decision : ContextSelectionDecision} (hd : decision ≠ .admitted) :
    Admits request (done ++ [c]) taken (s.omit c decision) :=
  { h with
    among := fun d hd => mem_append_left _ (h.among d hd)
    required := by
      intro d hd hreq
      rcases mem_append.1 hd with hd | hd
      · exact h.required d hd hreq
      · rw [mem_singleton.1 hd, hc] at hreq
        cases hreq
    admitted := by
      have hnone : [makeRecord c decision].filter (·.decision = .admitted) = [] := by
        simp [makeRecord, hd]
      rw [Admitting.omit, filter_append, hnone, append_nil]
      exact h.admitted }

theorem usageClass_known {cls : ContextBudgetClass} (h : cls ≠ .unknown) : usageClass cls = cls := by
  cases cls <;> first | rfl | exact absurd rfl h

theorem Admits.enter (h : Admits request done taken s) (hcls : c.budgetClass ≠ .unknown)
    (hgrp : ∀ group ∈ c.alternativeGroup, group ∉ s.groups)
    (hfits : ∀ limit ∈ request.budgets c.budgetClass,
      s.usage c.budgetClass + c.content.estimatedTokens ≤ limit) (total : ℕ) :
    Admits request (done ++ [c]) (taken ++ [c])
      (s.enter c (s.usage c.budgetClass + c.content.estimatedTokens) total) := by
  unfold Admitting.enter
  rw [usageClass_known hcls]
  constructor
  case toSelected =>
    constructor
    case among =>
      intro d hd
      exact mem_append.2 ((mem_append.1 hd).imp_left (h.among d))
    case required =>
      intro d hd hreq
      exact mem_append.2 ((mem_append.1 hd).imp_left fun hd => h.required d hd hreq)
    case sums =>
      intro cls
      by_cases hb : cls = c.budgetClass
      · subst hb
        simp [h.sums, tokens]
      · simp [Function.update_of_ne hb, h.sums, tokens, Ne.symm hb]
    case budget =>
      intro cls limit hlim
      by_cases hb : cls = c.budgetClass
      · subst hb
        simpa using hfits limit hlim
      · simpa [Function.update_of_ne hb] using h.budget cls limit hlim
    case alternatives =>
      rw [filterMap_append, ← h.groups, nodup_append]
      refine ⟨h.groups ▸ h.alternatives, ?_, ?_⟩
      · cases hc : c.alternativeGroup <;> simp [hc]
      · intro a ha b hb
        exact ne_of_mem_of_not_mem ha (hgrp b (by simpa using hb))
    case admitted =>
      simpa [makeRecord] using h.admitted.append_right [makeRecord c .admitted]
  case groups =>
    rw [h.groups, filterMap_append]
    cases hc : c.alternativeGroup <;> simp [hc]
  case contents => simp [h.contents]

theorem addChecked_some {total value sum : ℕ}
    (h : ContextBuilder.addChecked total value = some sum) : sum = total + value := by
  unfold ContextBuilder.addChecked at h
  split at h
  · cases h
  · exact (Option.some.inj h).symm

theorem admitCandidate_admits (h : Admits request done taken s) (hcls : c.budgetClass ≠ .unknown)
    (hfree : c.required → ∀ p ∈ taken, p.alternativeGroup = c.alternativeGroup →
      c.alternativeGroup = none)
    (hstep : admitCandidate request s c = .ok t) :
    ∃ taken', Admits request (done ++ [c]) taken' t := by
  unfold admitCandidate at hstep
  split at hstep
  next hgrp =>
    cases hstep
    refine ⟨taken, h.omit ?_ (by decide)⟩
    obtain ⟨group, hc, hmem⟩ := (Option.any_eq_true _ _).1 hgrp
    rw [contains_iff_mem, h.groups, mem_filterMap] at hmem
    obtain ⟨p, hp, hsame⟩ := hmem
    by_contra hreq
    have hnone := hfree (by simpa using hreq) p hp (hsame.trans hc.symm)
    rw [hnone] at hc
    cases hc
  next hgrp =>
    obtain ⟨_, hsum, hstep⟩ := bind_ok.1 hstep
    obtain ⟨total, -, hstep⟩ := bind_ok.1 hstep
    obtain rfl := addChecked_some (require_ok.1 hsum)
    rw [usageClass_known hcls] at hstep
    dsimp only at hstep
    split at hstep
    next hfits =>
      cases hstep
      refine ⟨taken ++ [c], h.enter hcls ?_ ?_ total⟩
      · intro group hc hmem
        exact hgrp (by simp [Option.mem_def.1 hc, hmem])
      · intro limit hlim
        have hall := hfits.1
        rw [Option.mem_def.1 hlim] at hall
        simpa using hall
    next =>
      obtain ⟨hreq, hstep⟩ := guarded hstep
      cases hstep
      refine ⟨taken, h.omit hreq ?_⟩
      split <;> decide

/-- All rounds. What was taken before a required candidate was required itself, and no two
required candidates are in one group. -/
theorem admissions_admit (hrank : (done ++ rest).Pairwise fun a b =>
      (b.required → a.required) ∧ Compatible a b)
    (hcls : ∀ c ∈ rest, c.budgetClass ≠ .unknown) (h : Admits request done taken s)
    (hrun : rest.foldlM (admitCandidate request) s = .ok t) :
    ∃ taken', Admits request (done ++ rest) taken' t := by
  induction rest generalizing done taken s with
  | nil =>
    cases hrun
    exact ⟨taken, by simpa using h⟩
  | cons c rest ih =>
    obtain ⟨_, hstep, hrun⟩ := foldlM_cons_ok.1 hrun
    obtain ⟨hc, hrest⟩ := forall_mem_cons.1 hcls
    obtain ⟨taken', hnext⟩ := admitCandidate_admits h hc (by
      intro hreq p hp hsame
      obtain ⟨hpre, hcompat⟩ :=
        (pairwise_append.1 hrank).2.2 p (h.among p hp) c mem_cons_self
      exact hsame ▸ hcompat.groups (hpre hreq) hreq hsame) hstep
    rw [append_cons] at hrank ⊢
    exact ih hrank hrest hnext hrun

end Rounds

theorem addTokens_total {entries : List ContextEntry} {start total : ℕ}
    (h : entries.foldlM addTokens start = .ok total) :
    total = start + (entries.map (·.estimatedTokens)).sum := by
  induction entries generalizing start with
  | nil => simpa using (Except.ok.inj h).symm
  | cons entry entries ih =>
    obtain ⟨_, hstep, hrest⟩ := foldlM_cons_ok.1 h
    rw [ih hrest, addChecked_some (require_ok.1 hstep), map_cons, sum_cons]
    omega

theorem build_total {input : ContextBuildInput} {context : ConstructedContext}
    (h : build input = .ok context) : ∃ r, resolveInstructions input.instructions = .ok r ∧
      context.estimatedInputTokens = input.capacity.reservedInputTokens +
        ((instructionEntries r).map (·.estimatedTokens)).sum +
        (input.content.map (·.estimatedTokens)).sum ∧
      context.estimatedInputTokens + input.capacity.reservedOutputTokens ≤
        input.capacity.contextWindowTokens := by
  obtain ⟨_, hcap, h⟩ := bind_ok.1 h
  obtain ⟨-, hcap⟩ := guarded hcap
  obtain ⟨_, hresv, _⟩ := ensure_ok.1 hcap
  obtain ⟨_, hseen, h⟩ := bind_ok.1 h
  obtain ⟨-, h⟩ := guarded h
  obtain ⟨r, hr, h⟩ := bind_ok.1 h
  obtain ⟨content, hcont, h⟩ := bind_ok.1 h
  obtain ⟨_, hfst, h⟩ := bind_ok.1 h
  obtain ⟨_, htot, h⟩ := bind_ok.1 h
  obtain ⟨_, h⟩ := guarded h
  cases h
  rw [contentEntries_ok (checkEntries_valid hseen).content] at hcont
  cases hcont
  have hresv := addChecked_some hresv
  refine ⟨r, hr, ?_, ?_⟩
  · rw [addTokens_total htot, addTokens_total hfst,
      ((sortBy_perm _ _).map _).sum_eq, map_map]
    rfl
  · dsimp only
    omega

theorem built_ok {α : Type} {message : String} {context : Build α} {a : α}
    (h : built message context = .ok a) : context = .ok a := by
  cases context with
  | ok => exact congrArg Except.ok (Except.ok.inj h)
  | error => cases h

/-- What a selection promises about the candidates of the caller and of the parcels. -/
structure Sound (request : ContextSelectionRequest) (result : ContextSelectionResult)
    (candidates taken : List CandidateState) : Prop extends
    Selected request candidates taken result.usage result.decisions where
  distinct : (candidates.map (·.entryId)).Nodup
  decided : (result.decisions.map (·.entryId)).Perm (candidates.map (·.entryId))
  total : ∃ r, resolveInstructions request.instructions = .ok r ∧
    result.context.estimatedInputTokens = request.capacity.reservedInputTokens +
      ((instructionEntries r).map (·.estimatedTokens)).sum + tokens taken
  fits : result.context.estimatedInputTokens + request.capacity.reservedOutputTokens ≤
    request.capacity.contextWindowTokens
  fresh : ∀ c ∈ taken, eligibleFreshness c.freshness request.phase
  editing : request.phase = .editing → ∃ c ∈ taken, isRequiredCurrentExact c

def SelectsSoundly (request : ContextSelectionRequest) (result : ContextSelectionResult) : Prop :=
  ∃ scan taken, request.parcels.foldlM (scanParcel request) {} = .ok scan ∧
    Sound request result (request.candidates.map ofCandidate ++ scan.items) taken

theorem omission_none {phase : TaskPhase} {c : CandidateState} (h : omission phase c = none) :
    c.budgetClass ≠ .unknown ∧ eligibleFreshness c.freshness phase := by
  unfold omission at h
  split_ifs at h with hunsupported hnew
  refine ⟨?_, hnew⟩
  intro hcls
  simp [unsupportedCandidate, hcls] at hunsupported

theorem omitted_admitted (phase : TaskPhase) (xs : List CandidateState) :
    (omitted phase xs).filter (·.decision = .admitted) = [] := by
  rw [filter_eq_nil_iff]
  intro record hrec
  obtain ⟨_, -, hc⟩ := mem_filterMap.1 hrec
  obtain ⟨decision, hdecision, rfl⟩ := Option.map_eq_some_iff.1 hc
  unfold omission decisionForFreshness at hdecision
  split_ifs at hdecision <;> obtain rfl := Option.some.inj hdecision <;>
    simp [makeRecord]

theorem selectRanked_sound {request : ContextSelectionRequest} {prepared : Prepared}
    {ranked : List CandidateState} {result : ContextSelectionResult}
    (hprep : prepare request = .ok prepared) (hrank : Arranged prepared.selectable ranked)
    (h : selectRanked request prepared ranked = .ok result) : SelectsSoundly request result := by
  obtain ⟨-, hp⟩ := guarded hprep
  obtain ⟨-, hp⟩ := guarded hp
  obtain ⟨-, hp⟩ := guarded hp
  obtain ⟨mandatory, -, hp⟩ := bind_ok.1 hp
  obtain ⟨scan, hscan, hp⟩ := bind_ok.1 hp
  obtain ⟨candidates, hchk, hp⟩ := bind_ok.1 hp
  obtain ⟨hediting, hp⟩ := guarded hp
  obtain ⟨_, hcls, hp⟩ := bind_ok.1 hp
  obtain ⟨hxs, -, -, hpairs⟩ := checks_ok.1 hchk
  obtain ⟨hkept, rfl⟩ := classify_ok.1 hcls
  cases hp
  rw [nil_append] at hxs
  obtain ⟨_, hrun, h⟩ := bind_ok.1 h
  obtain ⟨_, hbuilt, h⟩ := bind_ok.1 h
  cases h
  rw [← hxs] at hpairs
  have hmem : ∀ c, c ∈ ranked ↔ c ∈ candidates ∧ omission request.phase c = none := by
    intro c
    rw [hrank.perm.mem_iff]
    simp [ranking]
  have hcompat : ranked.Pairwise Compatible :=
    (hrank.perm.pairwise_iff Compatible.symm).2 (hpairs.sublist (by simp [ranking]))
  have hbeg : Admits request [] [] _ :=
    admits_start mandatory.estimatedInputTokens (omitted_admitted request.phase candidates)
  obtain ⟨taken, hadm⟩ := admissions_admit (by exact hrank.required.and hcompat)
    (fun c hc => (omission_none ((hmem c).1 hc).2).1) hbeg hrun
  refine ⟨scan, taken, hscan, ?_⟩
  rw [← hxs]
  obtain ⟨r, hr, htot, hfits⟩ := build_total (built_ok hbuilt)
  have hrequired : ∀ c ∈ candidates, c.required → c ∈ taken := by
    intro c hc hreq
    refine hadm.required c ((hmem c).2 ⟨hc, ?_⟩) hreq
    by_contra ho
    rw [hkept c hc ho] at hreq
    cases hreq
  exact {
    among := fun c hc => ((hmem c).1 (hadm.among c hc)).1
    required := hrequired
    sums := hadm.sums
    budget := hadm.budget
    alternatives := hadm.alternatives
    admitted := ((sortBy_perm _ _).filter _).trans hadm.admitted
    distinct := pairwise_map.2 (hpairs.imp fun h => h.entryIds)
    decided := by
      refine ((sortBy_perm _ _).map _).trans ?_
      rw [admissions_records hrun]
      exact ((hrank.perm.map _).append_left _).trans (split_ids request.phase candidates)
    total := ⟨r, hr, by rw [htot, hadm.contents, map_map]; rfl⟩
    fits := hfits
    fresh := fun c hc => (omission_none ((hmem c).1 (hadm.among c hc)).2).2
    editing := by
      intro he
      obtain ⟨c, hc, hcur⟩ := any_eq_true.1 (hediting he)
      refine ⟨c, hrequired c hc ?_, hcur⟩
      simp only [isRequiredCurrentExact, Bool.and_eq_true] at hcur
      exact hcur.1.1.1 }

theorem required_first {phase : TaskPhase} {a b : CandidateState} (h : before phase b a = false)
    (hb : b.required) : a.required := by
  by_contra ha
  simp [before, hb, ha] at h

/-- Neighbours in the order of the comparator are enough: this is where a sort stops, also where
the comparator is cyclic and no arrangement is sorted throughout. -/
theorem arranged_of_neighbours {phase : TaskPhase} {selectable ranked : List CandidateState}
    (hperm : ranked.Perm selectable)
    (hsort : ranked.IsChain fun a b => before phase b a = false) :
    Arranged selectable ranked where
  perm := hperm
  required := by
    have hchain := hsort.imp fun a b (h : before phase b a = false) => required_first h
    have : IsTrans CandidateState fun a b => b.required → a.required :=
      ⟨fun _ _ _ hab hbc hc => hab (hbc hc)⟩
    exact isChain_iff_pairwise.1 hchain

/-- A selection by a sort is one of the answers. -/
theorem answers_of_selects {request : ContextSelectionRequest}
    {result : Selection ContextSelectionResult}
    (hweak : ∀ prepared, prepare request = .ok prepared →
      StrictWeakOn (before request.phase) prepared.selectable)
    (h : SelectsAndBuilds request result) : Answers request result := by
  unfold SelectsAndBuilds at h
  unfold Answers
  split at h
  next => exact h
  next prepared hprepared =>
    obtain ⟨ranked, hranked, hsorted, hresult⟩ := h (hweak prepared hprepared)
    exact ⟨ranked, arranged_of_neighbours hranked hsorted.isChain, hresult⟩

theorem selection_admission (request : ContextSelectionRequest) (result : ContextSelectionResult)
    (h : Answers request (.ok result)) : SelectsSoundly request result := by
  unfold Answers at h
  split at h
  next => cases h
  next prepared hprepared =>
    obtain ⟨ranked, hranked, hresult⟩ := h
    exact selectRanked_sound hprepared hranked hresult.symm

def sampleSnapshot : RepositorySnapshotIdentity := ⟨"repository", ⟨"sha256", "tree", 3⟩⟩

/-- An edit: the source is required, of a draft and the note made of it one can be shown, and
the conversation may take three tokens. -/
def sampleEdit : ContextSelectionRequest where
  phase := .editing
  capacity := ⟨30, 10, 5⟩
  instructions := [sampleInstruction "runtime" .applicationRuntime .add none 1]
  candidates := [sampleCandidate "question" .conversation 1,
    { sampleCandidate "draft" .conversation 2 with alternativeGroup := some (bytesOf "note") },
    { sampleCandidate "note" .conversation 3 with alternativeGroup := some (bytesOf "note") },
    sampleCandidate "listing" .attachment 4]
  parcels := [⟨⟨"parcel", .editing, sampleSnapshot, [⟨"evidence",
      .exactSource ⟨sampleSnapshot, bytesOf "main.cpp", ⟨"sha256", "file", 8⟩, none⟩, .current,
      some sampleSnapshot, [.text (bytesOf "int main")], 4⟩], none⟩,
    [{ evidenceId := "evidence", entryId := "source", messageId := "source", sourceId := "tree",
       order := 5, required := true }]⟩]
  budgets := fun budgetClass => if budgetClass = .conversation then some 3 else none

theorem sampleEdit_admission : ∃ result, Answers sampleEdit (.ok result) ∧
    result.decisions.map (fun d => (d.entryId, d.decision)) =
      [("draft", .omittedAlternative), ("listing", .admitted), ("note", .admitted),
        ("question", .omittedClassBudget), ("source", .admitted)] ∧
    SelectsSoundly sampleEdit result := by
  let ranked (prepared : Prepared) := prepared.selectable.insertionSort fun a b =>
    before .editing b a = false
  have hrun : ((prepare sampleEdit).bind fun prepared =>
      (selectRanked sampleEdit prepared (ranked prepared)).map fun result =>
        (decide ((ranked prepared).IsChain fun a b => before .editing b a = false),
          result.decisions.map fun d => (d.entryId, d.decision))).toOption =
      some (true, [("draft", .omittedAlternative), ("listing", .admitted), ("note", .admitted),
        ("question", .omittedClassBudget), ("source", .admitted)]) := by decide +kernel
  cases hprepared : prepare sampleEdit with
  | error =>
    rw [hprepared] at hrun
    cases hrun
  | ok prepared =>
    cases hresult : selectRanked sampleEdit prepared (ranked prepared) with
    | error =>
      simp only [hprepared, Except.bind, hresult] at hrun
      cases hrun
    | ok result =>
      simp only [hprepared, Except.bind, hresult] at hrun
      obtain ⟨hsorted, hdecisions⟩ := Prod.mk.inj (Option.some.inj hrun)
      have hanswer : Answers sampleEdit (.ok result) := by
        unfold Answers
        rw [hprepared]
        exact ⟨ranked prepared, arranged_of_neighbours (perm_insertionSort _ _)
          (of_decide_eq_true hsorted), hresult.symm⟩
      exact ⟨result, hanswer, hdecisions, selection_admission sampleEdit result hanswer⟩

end ContextSelection
