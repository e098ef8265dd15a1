import AiForge.ContextSelection

/-! # The order of the candidates

The comparator takes conversation newest first and everything else oldest first, and no rank
keeps the two apart where the ranks of their classes agree. It is a strict weak order on
candidates of distinct identities exactly if no candidate of another class stands between two
conversation candidates it ties with; there the selection does not depend on the order in which
the candidates are given. -/
namespace ContextSelection

open ContextSelectionDecisionRecord Admitting

open Admission ContextBuilder List SortedBy SourceRecovery Staged

section Comparator

variable {phase : TaskPhase} {xs ys : List CandidateState} {a b c : CandidateState}

def rankKey (phase : TaskPhase) (c : CandidateState) : ℕ ×ₗ ℕ ×ₗ ℕ ×ₗ ℕ ×ₗ ℕ ×ₗ ℕ :=
  toLex (if c.required then 0 else 1, toLex (classRank c.budgetClass phase,
    toLex (evidenceKindRank c.reference phase, toLex (c.relevanceRank,
      toLex (representationRank c.representation phase, c.content.estimatedTokens)))))

def orderKey (c : CandidateState) : ℕ ×ₗ ContextEntryId := toLex (c.content.order, c.entryId)

/-- How candidates of one rank are told apart. -/
def TieBefore (left right : CandidateState) : Prop :=
  if left.budgetClass = .conversation ∧ right.budgetClass = .conversation ∧
      left.content.order ≠ right.content.order then right.content.order < left.content.order
  else orderKey left < orderKey right

theorem cascade_iff {m n : ℕ} {rest : Bool} :
    (if m ≠ n then decide (m < n) else rest) = true ↔ m < n ∨ m = n ∧ rest := by
  by_cases h : m = n
  · simp [h]
  · simp [h]

theorem tieBefore_iff :
    (if a.budgetClass = .conversation ∧ b.budgetClass = .conversation ∧
        a.content.order ≠ b.content.order then decide (b.content.order < a.content.order)
      else if a.content.order ≠ b.content.order then decide (a.content.order < b.content.order)
      else decide (a.entryId < b.entryId)) = true ↔ TieBefore a b := by
  unfold TieBefore orderKey
  split_ifs <;> simp_all [Prod.Lex.toLex_lt_toLex]

theorem before_iff : before phase a b ↔
    rankKey phase a < rankKey phase b ∨ rankKey phase a = rankKey phase b ∧ TieBefore a b := by
  have hreq : ∀ rest : Bool, (if a.required ≠ b.required then a.required else rest) = true ↔
      (if a.required then 0 else 1) < (if b.required then 0 else 1) ∨
        (if a.required then 0 else 1) = (if b.required then 0 else 1) ∧ rest := by
    intro rest
    cases a.required <;> cases b.required <;> simp
  unfold before rankKey
  rw [hreq, cascade_iff, cascade_iff, cascade_iff, cascade_iff, cascade_iff, tieBefore_iff]
  simp only [Prod.Lex.toLex_lt_toLex, EmbeddingLike.apply_eq_iff_eq, Prod.mk.injEq]
  tauto

theorem before_rank (h : before phase a b) : rankKey phase a ≤ rankKey phase b := by
  rcases before_iff.1 h with hlt | ⟨heq, -⟩
  · exact hlt.le
  · exact heq.le

theorem tieBefore_asymm (h : TieBefore a b) : ¬ TieBefore b a := by
  unfold TieBefore at h ⊢
  split_ifs at h ⊢ with hab hba
  · omega
  · exact absurd ⟨hab.2.1, hab.1, Ne.symm hab.2.2⟩ hba
  · rename_i hba
    exact absurd ⟨hba.2.1, hba.1, Ne.symm hba.2.2⟩ hab
  · exact h.asymm

theorem tieBefore_total (h : a.entryId ≠ b.entryId) : TieBefore a b ∨ TieBefore b a := by
  unfold TieBefore
  split_ifs with hab hba
  · omega
  · exact absurd ⟨hab.2.1, hab.1, Ne.symm hab.2.2⟩ hba
  · rename_i hba
    exact absurd ⟨hba.2.1, hba.1, Ne.symm hba.2.2⟩ hab
  · refine lt_or_gt_of_ne fun heq => h ?_
    exact congrArg (fun k => (ofLex k).2) heq

theorem before_asymm (h : before phase a b) : before phase b a = false := by
  rw [← Bool.not_eq_true]
  intro hba
  have hrank := le_antisymm (before_rank h) (before_rank hba)
  rcases before_iff.1 h with hlt | ⟨-, htie⟩
  · exact absurd hrank hlt.ne
  · rcases before_iff.1 hba with hlt | ⟨-, htie'⟩
    · exact absurd hrank.symm hlt.ne
    · exact tieBefore_asymm htie htie'

theorem before_irrefl : before phase a a = false := by
  by_contra h
  rw [Bool.not_eq_false] at h
  rw [before_asymm h] at h
  cases h

theorem before_total (h : a.entryId ≠ b.entryId) :
    before phase a b ∨ before phase b a := by
  rw [before_iff, before_iff]
  rcases lt_trichotomy (rankKey phase a) (rankKey phase b) with hlt | heq | hgt
  · exact .inl (.inl hlt)
  · rcases tieBefore_total h with htie | htie
    · exact .inl (.inr ⟨heq, htie⟩)
    · exact .inr (.inr ⟨heq.symm, htie⟩)
  · exact .inr (.inl hgt)

/-- A candidate of another class ties in rank with two of the conversation and stands between
them in their order. -/
def Tangled (phase : TaskPhase) (xs : List CandidateState) : Prop :=
  ∃ older ∈ xs, ∃ other ∈ xs, ∃ newer ∈ xs, older.budgetClass = .conversation ∧
    newer.budgetClass = .conversation ∧ other.budgetClass ≠ .conversation ∧
    rankKey phase older = rankKey phase other ∧ rankKey phase other = rankKey phase newer ∧
    older.content.order ≠ newer.content.order ∧ orderKey older < orderKey other ∧
    orderKey other < orderKey newer

theorem orderKey_ne (hids : (xs.map CandidateState.entryId).Nodup) (ha : a ∈ xs) (hb : b ∈ xs)
    (h : a.budgetClass ≠ b.budgetClass) : orderKey a ≠ orderKey b := by
  intro heq
  obtain rfl := inj_on_of_nodup_map hids ha hb (congrArg (fun k => (ofLex k).2) heq)
  exact h rfl

theorem order_le (h : orderKey a < orderKey b) : a.content.order ≤ b.content.order := by
  rcases Prod.Lex.toLex_lt_toLex.1 h with hlt | ⟨heq, -⟩
  · exact hlt.le
  · exact heq.le

theorem tieBefore_conversation (ha : a.budgetClass = .conversation)
    (hb : b.budgetClass = .conversation) : TieBefore a b ↔
      b.content.order < a.content.order ∨
        a.content.order = b.content.order ∧ a.entryId < b.entryId := by
  unfold TieBefore orderKey
  by_cases h : a.content.order = b.content.order
  · simp [ha, hb, h, Prod.Lex.toLex_lt_toLex]
  · simp [ha, hb, h]

theorem tieBefore_other (h : ¬ (a.budgetClass = .conversation ∧ b.budgetClass = .conversation)) :
    TieBefore a b ↔ orderKey a < orderKey b := by
  unfold TieBefore
  rw [if_neg fun hall => h ⟨hall.1, hall.2.1⟩]

section

variable (hids : (xs.map CandidateState.entryId).Nodup)

include hids

/-- Where nothing is tangled, ties are broken transitively. The cases are about which of the
three belong to the conversation; with two of them the third must not stand between. -/
theorem tieBefore_trans (h : ¬ Tangled phase xs)
    (ha : a ∈ xs) (hb : b ∈ xs) (hc : c ∈ xs) (hab : rankKey phase a = rankKey phase b)
    (hbc : rankKey phase b = rankKey phase c) (h₁ : TieBefore a b) (h₂ : TieBefore b c) :
    TieBefore a c := by
  by_cases hca : a.budgetClass = .conversation <;> by_cases hcb : b.budgetClass = .conversation <;>
    by_cases hcc : c.budgetClass = .conversation
  · rw [tieBefore_conversation hca hcb] at h₁
    rw [tieBefore_conversation hcb hcc] at h₂
    rw [tieBefore_conversation hca hcc]
    rcases h₁ with h₁ | ⟨e₁, h₁⟩ <;> rcases h₂ with h₂ | ⟨e₂, h₂⟩
    · exact .inl (h₂.trans h₁)
    · exact .inl (e₂ ▸ h₁)
    · exact .inl (e₁ ▸ h₂)
    · exact .inr ⟨e₁.trans e₂, h₁.trans h₂⟩
  · rw [tieBefore_other (by simp [hcc])] at h₂ ⊢
    by_contra hnot
    have hne := orderKey_ne hids hc ha (by simp [hca, hcc])
    have hbetween := lt_of_le_of_ne (not_lt.1 hnot) hne
    refine h ⟨b, hb, c, hc, a, ha, hcb, hca, hcc, hbc, (hab.trans hbc).symm, ?_, h₂, hbetween⟩
    intro heq
    rcases (tieBefore_conversation hca hcb).1 h₁ with hlt | ⟨hsame, hid⟩
    · omega
    · have hlt : orderKey a < orderKey b := Prod.Lex.toLex_lt_toLex.2 (.inr ⟨hsame, hid⟩)
      exact absurd (hlt.trans (h₂.trans hbetween)) (lt_irrefl _)
  · rw [tieBefore_other (by simp [hcb])] at h₁ h₂
    rw [tieBefore_conversation hca hcc]
    have hlt := h₁.trans h₂
    by_cases hsame : a.content.order = c.content.order
    · rcases Prod.Lex.toLex_lt_toLex.1 hlt with _ | ⟨-, hid⟩
      · omega
      · exact .inr ⟨hsame, hid⟩
    · exact absurd ⟨a, ha, b, hb, c, hc, hca, hcc, hcb, hab, hbc, hsame, h₁, h₂⟩ h
  · rw [tieBefore_other (by simp [hcb])] at h₁ h₂
    rw [tieBefore_other (by simp [hcc])]
    exact h₁.trans h₂
  · rw [tieBefore_other (by simp [hca])] at h₁ ⊢
    by_contra hnot
    have hne := orderKey_ne hids hc ha fun he => hca (he.symm.trans hcc)
    have hbetween := lt_of_le_of_ne (not_lt.1 hnot) hne
    refine h ⟨c, hc, a, ha, b, hb, hcc, hcb, hca, (hab.trans hbc).symm, hab, ?_, hbetween, h₁⟩
    intro heq
    rcases (tieBefore_conversation hcb hcc).1 h₂ with hlt | ⟨hsame, hid⟩
    · omega
    · have hlt : orderKey b < orderKey c := Prod.Lex.toLex_lt_toLex.2 (.inr ⟨hsame, hid⟩)
      exact absurd (hlt.trans (hbetween.trans h₁)) (lt_irrefl _)
  · rw [tieBefore_other (by simp [hca])] at h₁ ⊢
    rw [tieBefore_other (by simp [hcc])] at h₂
    exact h₁.trans h₂
  all_goals
    rw [tieBefore_other (by simp [hca])] at h₁ ⊢
    rw [tieBefore_other (by simp [hcb])] at h₂
    exact h₁.trans h₂

theorem strictWeakOn_iff : StrictWeakOn (before phase) xs ↔ ¬ Tangled phase xs := by
  constructor
  · rintro h ⟨older, ho, other, hx, newer, hn, hco, hcn, hcx, hr₁, hr₂, hne, hlt₁, hlt₂⟩
    have hle := order_le (hlt₁.trans hlt₂)
    have hfst : before phase newer older :=
      before_iff.2 (.inr ⟨(hr₁.trans hr₂).symm,
        (tieBefore_conversation hcn hco).2 (.inl (by omega))⟩)
    have hsnd : before phase older other :=
      before_iff.2 (.inr ⟨hr₁, (tieBefore_other (by simp [hcx])).2 hlt₁⟩)
    have hthird : before phase other newer :=
      before_iff.2 (.inr ⟨hr₂, (tieBefore_other (by simp [hcx])).2 hlt₂⟩)
    have hback := h.trans newer hn older ho other hx hfst hsnd
    rw [before_asymm hthird] at hback
    cases hback
  · intro h
    have heq : ∀ a ∈ xs, ∀ b ∈ xs, before phase a b = false → before phase b a = false → a = b := by
      intro a ha b hb hab hba
      by_contra hne
      have hid : a.entryId ≠ b.entryId := fun he =>
        hne (inj_on_of_nodup_map hids ha hb he)
      obtain ht | ht : before phase a b = true ∨ before phase b a = true := before_total hid
      · rw [hab] at ht
        cases ht
      · rw [hba] at ht
        cases ht
    refine ⟨fun a _ => before_irrefl, ?_, ?_⟩
    · intro a ha b hb c hc hab hbc
      rcases before_iff.1 hab with hlt | ⟨hr₁, ht₁⟩
      · exact before_iff.2 (.inl (hlt.trans_le (before_rank hbc)))
      · rcases before_iff.1 hbc with hlt | ⟨hr₂, ht₂⟩
        · exact before_iff.2 (.inl ((before_rank hab).trans_lt hlt))
        · exact before_iff.2 (.inr ⟨hr₁.trans hr₂,
            tieBefore_trans hids h ha hb hc hr₁ hr₂ ht₁ ht₂⟩)
    · intro a ha b hb c hc hab hba hbc hcb
      obtain rfl := heq a ha b hb hab hba
      exact ⟨hbc, hcb⟩

theorem ranked_unique
    {first second : List CandidateState} (hp : first.Perm xs) (hq : second.Perm xs)
    (hfst : first.Pairwise fun a b => before phase b a = false)
    (hsnd : second.Pairwise fun a b => before phase b a = false) : first = second := by
  refine List.Perm.eq_of_pairwise (fun a b ha hb hab hba => ?_) hfst hsnd (hp.trans hq.symm)
  by_contra hne
  have hid : a.entryId ≠ b.entryId := fun he =>
    hne (inj_on_of_nodup_map hids (hp.mem_iff.1 ha) (hq.mem_iff.1 hb) he)
  obtain ht | ht : before phase a b = true ∨ before phase b a = true := before_total hid
  · rw [hba] at ht
    cases ht
  · rw [hab] at ht
    cases ht

end

end Comparator

section Preparation

variable {limits : ContextSelectionLimits} {phase : TaskPhase}
variable {previous xs ys : List CandidateState} {c : CandidateState}

structure CandidateOk (limits : ContextSelectionLimits) (c : CandidateState) : Prop where
  reference : validReferenceRepresentation c
  numbers : c.content.order ≠ 0 ∧
    (c.content.estimatedTokens = 0 → c.freshness = .unavailable) ∧
    validGroup c.alternativeGroup limits.maximumAlternativeGroupBytes

/-- What is asked of two candidates, whichever comes first. -/
structure Compatible (a b : CandidateState) : Prop where
  entryIds : a.entryId ≠ b.entryId
  messageIds : a.content.message.messageId ≠ b.content.message.messageId
  evidenceIds : a.evidenceId = b.evidenceId → a.evidenceId = none
  groups : a.required → b.required → a.alternativeGroup = b.alternativeGroup →
    a.alternativeGroup = none
  locations : sameExactLocation a b = false

theorem sameExactLocation_comm (a b : CandidateState) :
    sameExactLocation a b = sameExactLocation b a := by
  unfold sameExactLocation
  split
  · rename_i x y hx hy
    simp only [hx, hy, eq_comm]
  · rename_i hnot
    split
    · rename_i x y hx hy
      exact absurd hx (hnot y x hy)
    · rfl

theorem Compatible.symm {a b : CandidateState} (h : Compatible a b) : Compatible b a where
  entryIds := h.entryIds.symm
  messageIds := h.messageIds.symm
  evidenceIds he := he.trans (h.evidenceIds he.symm)
  groups hb ha he := he.trans (h.groups ha hb he.symm)
  locations := by
    rw [sameExactLocation_comm]
    exact h.locations

theorem checkCandidate_ok {u : PUnit} : checkCandidate limits previous c = .ok u ↔
    CandidateOk limits c ∧ ∀ p ∈ previous, Compatible p c := by
  constructor
  · intro h
    obtain ⟨href, h⟩ := guarded h
    obtain ⟨hids, h⟩ := guarded h
    obtain ⟨hnum, h⟩ := guarded h
    obtain ⟨hgrp, h⟩ := guarded h
    refine ⟨⟨href, hnum⟩, fun p hp => ?_⟩
    obtain ⟨hent, hmsg, hev⟩ := hids p hp
    refine ⟨hent, hmsg, ?_, ?_, ?_⟩
    · intro he
      by_contra hne
      exact hev (he ▸ hne) he
    · intro hreq hreq' he
      by_contra hne
      exact hgrp ⟨hreq', he ▸ hne, p, hp, hreq, he⟩
    · cases hfind : previous.find? (sameExactLocation c) with
      | none =>
        rw [sameExactLocation_comm, ← Bool.not_eq_true]
        exact List.find?_eq_none.1 hfind p hp
      | some =>
        rw [hfind] at h
        cases h
  · rintro ⟨hok, hall⟩
    have hfind : previous.find? (sameExactLocation c) = none := by
      refine List.find?_eq_none.2 fun p hp hsame => ?_
      rw [sameExactLocation_comm, (hall p hp).locations] at hsame
      cases hsame
    refine ensured hok.reference (ensured ?_ ?_)
    · intro p hp
      refine ⟨(hall p hp).entryIds, (hall p hp).messageIds, fun hne he => hne ?_⟩
      exact he.symm.trans ((hall p hp).evidenceIds he)
    refine ensured hok.numbers (ensured ?_ ?_)
    · rintro ⟨hreq, hsome, p, hp, hreq', he⟩
      exact hsome (he.symm.trans ((hall p hp).groups hreq' hreq he))
    · rw [hfind]
      rfl

/-- The loop of the checks accepts a list as a whole, whatever its order. -/
theorem checks_ok {out : List CandidateState} : xs.foldlM (addChecked limits) previous = .ok out ↔
    out = previous ++ xs ∧ (∀ c ∈ xs, CandidateOk limits c) ∧
      (∀ p ∈ previous, ∀ c ∈ xs, Compatible p c) ∧ xs.Pairwise Compatible := by
  induction xs generalizing previous with
  | nil => simp [pure, Except.pure, eq_comm]
  | cons c _ ih =>
    rw [foldlM_cons_ok, pairwise_cons]
    constructor
    · rintro ⟨_, hstep, hrest⟩
      obtain ⟨_, hchk, hnext⟩ := bind_ok.1 hstep
      cases hnext
      obtain ⟨hok, hprev⟩ := checkCandidate_ok.1 hchk
      obtain ⟨rfl, hall, hacross, hpairs⟩ := ih.1 hrest
      refine ⟨by simp, forall_mem_cons.2 ⟨hok, hall⟩, ?_, ?_, hpairs⟩
      · intro p hp
        refine forall_mem_cons.2 ⟨hprev p hp, ?_⟩
        exact hacross p (mem_append_left _ hp)
      · exact hacross c (by simp)
    · rintro ⟨rfl, hall, hacross, hfst, hpairs⟩
      obtain ⟨hok, hall⟩ := forall_mem_cons.1 hall
      have hchk := (checkCandidate_ok (u := ⟨⟩)).2
        ⟨hok, fun p hp => hacross p hp c mem_cons_self⟩
      refine ⟨previous ++ [c], bind_ok.2 ⟨⟨⟩, hchk, rfl⟩, ih.2 ⟨by simp, hall, ?_, hpairs⟩⟩
      intro p hp d hd
      rcases mem_append.1 hp with hp | hp
      · exact hacross p hp d (mem_cons_of_mem _ hd)
      · rw [mem_singleton.1 hp]
        exact hfst d hd

theorem checks_perm (hp : xs.Perm ys) {out : List CandidateState}
    (h : xs.foldlM (addChecked limits) [] = .ok out) :
    out = xs ∧ ys.foldlM (addChecked limits) [] = .ok ys := by
  obtain ⟨rfl, hall, -, hpairs⟩ := checks_ok.1 h
  refine ⟨rfl, checks_ok.2 ⟨rfl, fun c hc => hall c (hp.mem_iff.2 hc), by simp, ?_⟩⟩
  exact (hp.pairwise_iff Compatible.symm).1 hpairs

def ranking (phase : TaskPhase) (xs : List CandidateState) : List CandidateState :=
  xs.filter fun c => omission phase c = none

def omitted (phase : TaskPhase) (xs : List CandidateState) : List ContextSelectionDecisionRecord :=
  xs.filterMap fun c => (omission phase c).map (makeRecord c)

theorem classify_ok {found out : List CandidateState × List ContextSelectionDecisionRecord} :
    xs.foldlM (classify phase) found = .ok out ↔
      (∀ c ∈ xs, omission phase c ≠ none → c.required = false) ∧
      out = (found.1 ++ ranking phase xs, found.2 ++ omitted phase xs) := by
  induction xs generalizing found with
  | nil =>
    constructor
    · intro h
      cases h
      simp [ranking, omitted]
    · rintro ⟨-, rfl⟩
      simp [ranking, omitted, pure, Except.pure]
  | cons c _ ih =>
    rw [foldlM_cons_ok, forall_mem_cons]
    cases ho : omission phase c with
    | none =>
      have hstep : classify phase found c = .ok (found.1 ++ [c], found.2) := by
        unfold classify
        rw [ho]
        rfl
      simp [hstep, ih, ranking, omitted, ho]
    | some decision =>
      by_cases hreq : c.required = false
      · have hstep : classify phase found c = .ok (found.1, found.2 ++ [makeRecord c decision]) := by
          unfold classify
          rw [ho]
          exact ensured hreq rfl
        simp [hstep, ih, ranking, omitted, ho, hreq]
      · refine iff_of_false ?_ fun h => hreq (h.1.1 nofun)
        rintro ⟨_, hstep, -⟩
        unfold classify at hstep
        rw [ho] at hstep
        exact hreq (guarded hstep).1

theorem split_ids (phase : TaskPhase) (xs : List CandidateState) :
    ((omitted phase xs).map entryId ++
      (ranking phase xs).map CandidateState.entryId).Perm (xs.map CandidateState.entryId) := by
  induction xs with
  | nil => exact .nil
  | cons c _ ih =>
    cases ho : omission phase c with
    | none =>
      simp only [omitted, ranking, filterMap_cons, ho, Option.map_none, filter_cons,
        decide_true, if_true, map_cons]
      exact (perm_middle.trans (ih.cons _))
    | some =>
      simp only [omitted, ranking, filterMap_cons, ho, Option.map_some, filter_cons,
        reduceCtorEq, decide_false, Bool.false_eq_true, if_false, map_cons, cons_append]
      exact ih.cons _

end Preparation

section Selection

variable {request : ContextSelectionRequest} {others : List ContextSelectionCandidate}

theorem scanParcel_perm (hp : request.candidates.Perm others) :
    scanParcel { request with candidates := others } = scanParcel request := by
  funext scan selection
  unfold scanParcel
  rw [hp.length_eq]

/-- What the preparations leave on a rearranged list. -/
structure SamePrepared (first second : Prepared) : Prop where
  mandatory : second.mandatory = first.mandatory
  selectable : first.selectable.Perm second.selectable
  decisions : first.decisions.Perm second.decisions
  distinct : (first.decisions.map ContextSelectionDecisionRecord.entryId ++
    first.selectable.map CandidateState.entryId).Nodup

theorem prepare_rearranged (hp : request.candidates.Perm others) {prepared : Prepared}
    (h : prepare request = .ok prepared) :
    ∃ again, prepare { request with candidates := others } = .ok again ∧
      SamePrepared prepared again := by
  obtain ⟨hph, h⟩ := guarded h
  obtain ⟨hlim, h⟩ := guarded h
  obtain ⟨hlen, h⟩ := guarded h
  obtain ⟨mandatory, hmand, h⟩ := bind_ok.1 h
  obtain ⟨scan, hscan, h⟩ := bind_ok.1 h
  obtain ⟨candidates, hcand, h⟩ := bind_ok.1 h
  obtain ⟨hediting, h⟩ := guarded h
  obtain ⟨⟨_, _⟩, hcls, h⟩ := bind_ok.1 h
  cases h
  have hall : (request.candidates.map ofCandidate ++ scan.items).Perm
      (others.map ofCandidate ++ scan.items) := (hp.map _).append_right _
  have hpairs := (checks_ok.1 hcand).2.2.2
  obtain ⟨rfl, hagain⟩ := checks_perm hall hcand
  obtain ⟨hreq, hsplit⟩ := classify_ok.1 hcls
  obtain ⟨rfl, rfl⟩ := Prod.mk.inj hsplit
  refine ⟨⟨mandatory, ranking request.phase (others.map ofCandidate ++ scan.items),
    omitted request.phase (others.map ofCandidate ++ scan.items)⟩, ?_,
    ⟨rfl, hall.filter _, hall.filterMap _, ?_⟩⟩
  · refine ensured hph (ensured hlim ?_)
    refine ensured ⟨hp.length_eq ▸ hlen.1, hlen.2⟩ ?_
    refine bind_ok.2 ⟨mandatory, hmand, bind_ok.2 ⟨scan, ?_, ?_⟩⟩
    · rw [scanParcel_perm hp]
      exact hscan
    · refine bind_ok.2 ⟨_, hagain, ensured ?_ ?_⟩
      · intro he
        rw [← hall.any_eq]
        exact hediting he
      · have hsplit : (others.map ofCandidate ++ scan.items).foldlM (classify request.phase)
            ([], []) = .ok ([] ++ ranking request.phase _, [] ++ omitted request.phase _) :=
          classify_ok.2 ⟨fun c hc => hreq c (hall.mem_iff.2 hc), rfl⟩
        exact bind_ok.2 ⟨_, hsplit, rfl⟩
  · refine (split_ids request.phase _).nodup_iff.2 ?_
    exact pairwise_map.2 (hpairs.imp fun h => h.entryIds)

def Admitting.behind (decisions : List ContextSelectionDecisionRecord) (s : Admitting) :
    Admitting := { s with decisions := decisions ++ s.decisions }

theorem admitCandidate_behind (decisions : List ContextSelectionDecisionRecord) (s : Admitting)
    (c : CandidateState) : admitCandidate request (s.behind decisions) c =
      (admitCandidate request s c).map (Admitting.behind decisions) := by
  unfold admitCandidate
  by_cases hgrp : (c.alternativeGroup.any fun group => s.groups.contains group) = true
  · have hpost : (c.alternativeGroup.any fun group =>
        (s.behind decisions).groups.contains group) = true := hgrp
    rw [if_pos hpost, if_pos hgrp]
    simp [Admitting.behind, Admitting.omit, Except.map, pure, Except.pure]
  · have hpost : ¬ (c.alternativeGroup.any fun group =>
        (s.behind decisions).groups.contains group) = true := hgrp
    rw [if_neg hpost, if_neg hgrp]
    simp only [Admitting.behind]
    cases ContextBuilder.addChecked (s.usage (usageClass c.budgetClass))
      c.content.estimatedTokens with
    | none => rfl
    | some classTotal =>
      cases ContextBuilder.addChecked s.total c.content.estimatedTokens with
      | none => rfl
      | some =>
        simp only [Staged.require, pure, Except.pure, bind, Except.bind]
        split_ifs <;> by_cases hreq : c.required = false <;>
          simp [hreq, ensure, Admitting.behind, Admitting.enter, Admitting.omit, Except.map,
            throw, throwThe, MonadExceptOf.throw, pure, Except.pure]

theorem admissions_behind (decisions : List ContextSelectionDecisionRecord)
    (ranked : List CandidateState) (s : Admitting) :
    ranked.foldlM (admitCandidate request) (s.behind decisions) =
      (ranked.foldlM (admitCandidate request) s).map (behind decisions) := by
  induction ranked generalizing s with
  | nil => rfl
  | cons c _ ih =>
    rw [foldlM_cons, foldlM_cons, admitCandidate_behind]
    cases admitCandidate request s c with
    | error => rfl
    | ok next => exact ih next

theorem admitCandidate_records {s t : Admitting} {c : CandidateState}
    (h : admitCandidate request s c = .ok t) :
    t.decisions.map entryId =
      s.decisions.map entryId ++ [c.entryId] := by
  unfold admitCandidate at h
  by_cases hgrp : (c.alternativeGroup.any fun group => s.groups.contains group) = true
  · rw [if_pos hgrp] at h
    cases h
    simp [Admitting.omit, makeRecord]
  · rw [if_neg hgrp] at h
    obtain ⟨classTotal, -, h⟩ := bind_ok.1 h
    obtain ⟨total, -, h⟩ := bind_ok.1 h
    by_cases hfits : ((if c.budgetClass = .unknown then none
        else request.budgets c.budgetClass).all fun limit => classTotal ≤ limit) = true ∧
        total ≤ request.capacity.contextWindowTokens - request.capacity.reservedOutputTokens
    · rw [if_pos hfits] at h
      cases h
      simp [Admitting.enter, makeRecord]
    · rw [if_neg hfits] at h
      obtain ⟨-, h⟩ := guarded h
      cases h
      simp [Admitting.omit, makeRecord]

theorem admissions_records {ranked : List CandidateState} {s t : Admitting}
    (h : ranked.foldlM (admitCandidate request) s = .ok t) :
    t.decisions.map entryId =
      s.decisions.map entryId ++
        ranked.map CandidateState.entryId := by
  induction ranked generalizing s with
  | nil =>
    cases h
    simp
  | cons _ _ ih =>
    obtain ⟨_, hstep, hrest⟩ := foldlM_cons_ok.1 h
    rw [ih hrest, admitCandidate_records hstep, append_assoc]
    rfl

theorem selectRanked_rearranged {first second : Prepared} (h : SamePrepared first second)
    {ranked : List CandidateState} (hrank : ranked.Perm first.selectable) :
    selectRanked { request with candidates := others } second ranked =
      selectRanked request first ranked := by
  have hsplit (decisions : List ContextSelectionDecisionRecord) :
      ranked.foldlM (admitCandidate request)
        { total := first.mandatory.estimatedInputTokens, decisions := decisions } =
      (ranked.foldlM (admitCandidate request)
        { total := first.mandatory.estimatedInputTokens, decisions := [] }).map
          (behind decisions) := by
    rw [← admissions_behind]
    simp [behind]
  have hsame : admitCandidate { request with candidates := others } = admitCandidate request := rfl
  unfold selectRanked
  rw [hsame, h.mandatory, hsplit first.decisions, hsplit second.decisions]
  cases hrun : ranked.foldlM (admitCandidate request)
      { total := first.mandatory.estimatedInputTokens, decisions := [] } with
  | error err => rfl
  | ok s =>
    have hids := admissions_records hrun
    have hnd : ((first.decisions ++ s.decisions).map
        entryId).Nodup := by
      rw [map_append, hids]
      exact ((hrank.map _).append_left _).nodup_iff.2 h.distinct
    have hsort := sortBy_eq_of_perm (h.decisions.append_right s.decisions) hnd
    simp only [Except.map, behind, Staged.ok_bind, hsort]

/-- The answer of the selection is one for all orders of the candidates. -/
def OrderFree (request : ContextSelectionRequest) : Prop :=
  ∀ others, request.candidates.Perm others → ∀ first second,
    SelectsAndBuilds request first →
    SelectsAndBuilds { request with candidates := others } second →
    ∀ result, first = .ok result ↔ second = .ok result

theorem tangled_perm {phase : TaskPhase} {xs ys : List CandidateState} (hp : xs.Perm ys)
    (h : Tangled phase xs) : Tangled phase ys := by
  obtain ⟨older, ho, other, hx, newer, hn, h⟩ := h
  exact ⟨older, hp.mem_iff.1 ho, other, hp.mem_iff.1 hx, newer, hp.mem_iff.1 hn, h⟩

theorem selectable_distinct {prepared : Prepared} (h : prepare request = .ok prepared) :
    (prepared.selectable.map CandidateState.entryId).Nodup := by
  obtain ⟨_, -, hsame⟩ := prepare_rearranged (List.Perm.refl _) h
  exact hsame.distinct.of_append_right

theorem selection_order_free (request : ContextSelectionRequest) :
    ((∀ prepared, prepare request = .ok prepared →
        StrictWeakOn (before request.phase) prepared.selectable) ∧ OrderFree request) ↔
      ∀ prepared, prepare request = .ok prepared → ¬ Tangled request.phase prepared.selectable := by
  constructor
  · rintro ⟨hweak, -⟩ prepared hprepared
    exact (strictWeakOn_iff (selectable_distinct hprepared)).1 (hweak prepared hprepared)
  · intro htangled
    have hweak : ∀ prepared, prepare request = .ok prepared →
        StrictWeakOn (before request.phase) prepared.selectable :=
      fun prepared hprepared => (strictWeakOn_iff (selectable_distinct hprepared)).2
        (htangled prepared hprepared)
    refine ⟨hweak, fun others hp first second hfirst hsecond result => ?_⟩
    unfold SelectsAndBuilds at hfirst hsecond
    cases hprepared : prepare request with
    | error =>
      rw [hprepared] at hfirst
      cases hagain : prepare { request with candidates := others } with
      | error =>
        rw [hagain] at hsecond
        rw [hfirst, hsecond]
        exact iff_of_false nofun nofun
      | ok =>
        obtain ⟨back, hback, -⟩ := prepare_rearranged hp.symm hagain
        have heq : prepare request = .ok back := hback
        rw [hprepared] at heq
        cases heq
    | ok prepared =>
      obtain ⟨again, hagain, hsame⟩ := prepare_rearranged hp hprepared
      rw [hprepared] at hfirst
      rw [hagain] at hsecond
      have hids := selectable_distinct hprepared
      have hids' := (hsame.selectable.map CandidateState.entryId).nodup_iff.1 hids
      have hweak' : StrictWeakOn (before request.phase) again.selectable :=
        (strictWeakOn_iff hids').2 fun h =>
          htangled prepared hprepared (tangled_perm hsame.selectable.symm h)
      obtain ⟨_, hranked, hsorted, rfl⟩ := hfirst (hweak prepared hprepared)
      obtain ⟨_, hranked', hsorted', rfl⟩ := hsecond hweak'
      obtain rfl := ranked_unique hids hranked (hranked'.trans hsame.selectable.symm) hsorted hsorted'
      rw [selectRanked_rearranged hsame hranked]

def sampleCandidate (id : ContextEntryId) (budgetClass : ContextBudgetClass) (order : ℕ) :
    ContextSelectionCandidate where
  content := ⟨id, .conversation, ⟨id, .user, [.text [0x68]], none, []⟩, ⟨"session", none, none⟩,
    order, 2⟩
  budgetClass := budgetClass

def sampleReview : ContextSelectionRequest where
  phase := .review
  capacity := ⟨20, 10, 5⟩
  instructions := [sampleInstruction "runtime" .applicationRuntime .add none 1]
  candidates := [sampleCandidate "question" .conversation 1, sampleCandidate "listing" .attachment 2,
    sampleCandidate "answer" .conversation 3]
  parcels := []
  budgets := fun _ => none

def admittedIds (result : ContextSelectionResult) : List ContextEntryId :=
  (result.decisions.filter (·.decision = .admitted)).map entryId

theorem sampleReview_prepared : ∃ prepared, prepare sampleReview = .ok prepared ∧
    prepared.selectable = sampleReview.candidates.map ofCandidate := by
  have hsel : (prepare sampleReview).toOption.map Prepared.selectable =
      some (sampleReview.candidates.map ofCandidate) := by decide +kernel
  cases hprep : prepare sampleReview with
  | error =>
    rw [hprep] at hsel
    cases hsel
  | ok prepared =>
    rw [hprep] at hsel
    exact ⟨prepared, rfl, Option.some.inj hsel⟩

/-- The answer comes before the question, the question before the listing and the listing before
the answer: the comparator that the sort is given is no strict weak order. -/
theorem sampleReview_unordered {prepared : Prepared}
    (h : prepared.selectable = sampleReview.candidates.map ofCandidate) :
    ¬ StrictWeakOn (before .review) prepared.selectable := by
  rw [h]
  intro hweak
  have hcycle := hweak.trans (ofCandidate (sampleCandidate "answer" .conversation 3))
    (by simp [sampleReview]) (ofCandidate (sampleCandidate "question" .conversation 1))
    (by simp [sampleReview]) (ofCandidate (sampleCandidate "listing" .attachment 2))
    (by simp [sampleReview]) (by decide +kernel) (by decide +kernel)
  exact absurd hcycle (by decide +kernel)

/-- Two arrangements of the three have every two neighbours in order, and there is room for one
candidate: a sort may stop at either, and the answers differ. -/
theorem review_ranking_cyclic :
    (∃ prepared first second, prepare sampleReview = .ok prepared ∧
      first.Perm prepared.selectable ∧ second.Perm prepared.selectable ∧
      first.IsChain (fun a b => before .review b a = false) ∧
      second.IsChain (fun a b => before .review b a = false) ∧
      (selectRanked sampleReview prepared first).toOption.map admittedIds = some ["question"] ∧
      (selectRanked sampleReview prepared second).toOption.map admittedIds = some ["answer"]) ∧
    ¬ ∀ request : ContextSelectionRequest,
      (∀ prepared, prepare request = .ok prepared →
        StrictWeakOn (before request.phase) prepared.selectable) ∧ OrderFree request := by
  obtain ⟨prepared, hprepared, hselectable⟩ := sampleReview_prepared
  constructor
  · have hanswers (ranked : List CandidateState) :
        ((prepare sampleReview).bind (selectRanked sampleReview · ranked)).toOption.map
          admittedIds = (selectRanked sampleReview prepared ranked).toOption.map admittedIds := by
      rw [hprepared]
      rfl
    refine ⟨prepared, sampleReview.candidates.map ofCandidate,
      (sampleReview.candidates.rotate 2).map ofCandidate, hprepared, ?_⟩
    rw [← hanswers, ← hanswers, hselectable]
    exact ⟨.rfl, ((rotate_perm _ _).map _), by decide +kernel, by decide +kernel,
      by decide +kernel, by decide +kernel⟩
  · intro h
    exact sampleReview_unordered hselectable ((h sampleReview).1 prepared hprepared)

end Selection

end ContextSelection
