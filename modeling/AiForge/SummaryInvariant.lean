import AiForge.SummaryProjection

/-! # What holds of every snapshot

The active summaries are apart from one another, and the candidates of a summary are a line of
edits that starts at the text of a recorded intent. -/
namespace SummaryInvariant

open Admission SourceRecovery Summary SummaryDraft SummaryLog SummaryProjection
  SummaryReplacement
open List Staged

/-- Versions counted from one, each of them made from the one before it. -/
structure Lineage {α : Type} (revision : α → ℕ) (origin : α → Prop) (edit : α → α → Prop)
    (versions : List α) : Prop where
  revisions : versions.map revision = List.range' 1 versions.length
  first : ∀ version ∈ versions.head?, origin version
  later : versions.IsChain edit

namespace Lineage

variable {α : Type} {revision : α → ℕ} {origin origin' : α → Prop} {edit : α → α → Prop}
  {versions : List α} {version last : α}

theorem nil : Lineage revision origin edit [] := ⟨rfl, nofun, .nil⟩

theorem imp (h : Lineage revision origin edit versions)
    (horig : ∀ version, origin version → origin' version) :
    Lineage revision origin' edit versions :=
  ⟨h.revisions, fun version hv => horig version (h.first version hv), h.later⟩

theorem start (hone : revision version = 1) (horig : origin version) :
    Lineage revision origin edit [version] := by
  refine ⟨by simp [hone], ?_, .singleton _⟩
  rintro _ ⟨⟩
  exact horig

section

variable (h : Lineage revision origin edit versions)

include h

theorem last_revision
    (hlast : versions.getLast? = some last) : revision last = versions.length := by
  have hmap := congrArg List.getLast? h.revisions
  rw [List.getLast?_map, hlast, List.getLast?_range'] at hmap
  have hne : versions.length ≠ 0 := by
    rintro hzero
    rw [length_eq_zero_iff.1 hzero] at hlast
    cases hlast
  rw [if_neg hne] at hmap
  have := Option.some.inj hmap
  omega

theorem append (hlast : versions.getLast? = some last) (hedit : edit last version)
    (hnext : revision version = revision last + 1) :
    Lineage revision origin edit (versions ++ [version]) := by
  have hlen := h.last_revision hlast
  refine ⟨?_, ?_, ?_⟩
  · rw [map_append, h.revisions, length_append, length_singleton,
      ← List.range'_append_1, map_singleton, hnext, hlen]
    rw [Nat.add_comm]
    rfl
  · intro first hfst
    have hne : versions ≠ [] := by
      rintro rfl
      cases hlast
    rw [List.head?_append_of_ne_nil _ hne] at hfst
    exact h.first first hfst
  · refine isChain_append.2 ⟨h.later, .singleton _, ?_⟩
    intro x hx y hy
    rw [hlast] at hx
    cases hx
    cases hy
    exact hedit

theorem increasing : (versions.map revision).Pairwise (· < ·) := by
  rw [h.revisions]
  exact pairwise_lt_range'

end

end Lineage

/-- A text of the model, read back from the run of a recorded intent. -/
def Generated (log : SessionLog) (intents : List ConversationSummaryIntent)
    (candidate : ConversationSummaryCandidate) : Prop :=
  candidate.author = .model ∧ ∃ intent ∈ intents, intent.summaryId = candidate.summaryId ∧
    intent.intentDigest = some candidate.intentDigest ∧
    ∃ draft, recoverConversationSummaryDraft log intent (some candidate.createdSequence) =
      .ok draft ∧ draft.text = candidate.text

/-- A text of the user that names the candidate it was made from. -/
def EditOf (previous candidate : ConversationSummaryCandidate) : Prop :=
  candidate.author = .userEdit ∧ ∃ digest, previous.candidateDigest = some digest ∧
    candidate.editedFrom = some (candidateVersion previous digest)

def candidatesOf (summary : ConversationSummaryId)
    (candidates : List ConversationSummaryCandidate) : List ConversationSummaryCandidate :=
  candidates.filter fun candidate => decide (candidate.summaryId = summary)

def SummaryLineage (log : SessionLog) (catalog : Catalog) (summary : ConversationSummaryId) :
    Prop :=
  Lineage ConversationSummaryCandidate.revision (Generated log catalog.intents) EditOf
    (candidatesOf summary catalog.candidates)

structure CatalogInvariant (log : SessionLog) (catalog : Catalog) : Prop where
  summaries : (catalog.active.map summaryOf).Nodup
  runs : (catalog.active.flatMap ConversationSummaryActivation.coveredRunIds).Nodup
  bound : catalog.active.length ≤ summaryMaximumActive
  published : ∀ active ∈ catalog.active, ∃ candidate ∈ catalog.candidates,
    candidate.candidateDigest.map (candidateVersion candidate) = some active.candidate
  recorded : ∀ intent ∈ catalog.intents, ∃ event ∈ log.events,
    event.payload = .conversationSummaryGenerationIntentRecorded intent
  lineages : ∀ summary, SummaryLineage log catalog summary

theorem CatalogInvariant.empty (log : SessionLog) : CatalogInvariant log {} :=
  ⟨nodup_nil, nodup_nil, Nat.zero_le _, nofun, nofun, fun _ => Lineage.nil⟩

section Steps

variable {history : History} {log : SessionLog} {events : List SummaryEvent}
  {state next : Replay} {catalog result : Catalog} {event : SummaryEvent} {index : ℕ}

variable {intent : ConversationSummaryIntent}

theorem addIntent_catalog (h : addIntent history log events state index intent = .ok next) :
    next.catalog = { state.catalog with intents := state.catalog.intents ++ [intent] } := by
  replace h := later h
  replace h := later h
  obtain ⟨_, -, h⟩ := bind_ok.1 h
  obtain ⟨_, -, h⟩ := bind_ok.1 h
  replace h := later h
  cases h
  rfl

theorem CatalogInvariant.addIntent (hi : CatalogInvariant log catalog) (hev : event ∈ log.events)
    (hpay : event.payload = .conversationSummaryGenerationIntentRecorded intent) :
    CatalogInvariant log { catalog with intents := catalog.intents ++ [intent] } := by
  refine ⟨hi.summaries, hi.runs, hi.bound, hi.published, ?_, ?_⟩
  · intro other hoth
    rcases mem_append.1 hoth with hoth | hoth
    · exact hi.recorded other hoth
    · rw [mem_singleton.1 hoth]
      exact ⟨event, hev, hpay⟩
  · intro summary
    refine (hi.lineages summary).imp ?_
    rintro _ ⟨hauth, origin, horig, hrest⟩
    exact ⟨hauth, origin, mem_append_left _ horig, hrest⟩

theorem activate_ok {action : ConversationSummaryActivated}
    (h : activate catalog action event = .ok result) :
    (∃ candidate ∈ catalog.candidates, candidate.candidateDigest.map (candidateVersion candidate) =
      some action.activation.candidate) ∧
    ReplacementOk catalog.active action.replacedVersions action.activation ∧ result = { catalog with
      active := remaining catalog.active action.replacedVersions ++ [action.activation] } := by
  obtain ⟨candidate, hcand, h⟩ := bind_ok.1 h
  replace h := later h
  replace h := later h
  obtain ⟨_, -, h⟩ := bind_ok.1 h
  obtain ⟨hcov, h⟩ := guarded h
  cases h
  have hrepl := replacement_ok.1 hcov.2
  have hfnd := require_ok.1 hcand
  refine ⟨⟨candidate, mem_of_find?_eq_some hfnd, ?_⟩, hrepl, ?_⟩
  · simpa using List.find?_some hfnd
  · rw [hrepl.erase_eq]

theorem CatalogInvariant.activate {action : ConversationSummaryActivated}
    (hi : CatalogInvariant log catalog) (h : activate catalog action event = .ok result) :
    CatalogInvariant log result := by
  obtain ⟨hcand, hrepl, rfl⟩ := activate_ok h
  refine ⟨hrepl.result.summaries, hrepl.result.runs, hrepl.result_length,
    ?_, hi.recorded, hi.lineages⟩
  intro active hact
  rcases mem_append.1 hact with hact | hact
  · exact hi.published active (mem_of_mem_filter hact)
  · rw [mem_singleton.1 hact]
    exact hcand

theorem CatalogInvariant.disable {action : ConversationSummaryDisabled}
    (hi : CatalogInvariant log catalog) (h : disable catalog action = .ok result) :
    CatalogInvariant log result := by
  replace h := later h
  cases h
  have hsub : (catalog.active.eraseP (isActivation action)).Sublist catalog.active :=
    eraseP_sublist
  refine ⟨hi.summaries.sublist (hsub.map _), hi.runs.sublist (hsub.flatMap _),
    hsub.length_le.trans hi.bound, ?_, hi.recorded, hi.lineages⟩
  intro active hact
  exact hi.published active (hsub.subset hact)

variable {candidate : ConversationSummaryCandidate} {parent : Option ConversationSummaryCandidate}

/-- The search goes on from the candidate it has, which is older than those to come. -/
theorem parentFold_eq {priors : List ConversationSummaryCandidate}
    {start : Option ConversationSummaryCandidate}
    (hinc : ((start.toList ++ candidatesOf candidate.summaryId priors).map
      ConversationSummaryCandidate.revision).Pairwise (· < ·))
    (h : priors.foldlM (parentStep candidate) start = .ok parent) :
    parent = (start.toList ++ candidatesOf candidate.summaryId priors).getLast? := by
  induction priors generalizing start with
  | nil =>
    cases h
    cases parent <;> rfl
  | cons prior priors ih =>
    obtain ⟨following, hstep, hrest⟩ := foldlM_cons_ok.1 h
    unfold parentStep at hstep
    by_cases hsame : prior.summaryId = candidate.summaryId
    · have hcons : candidatesOf candidate.summaryId (prior :: priors) =
          prior :: candidatesOf candidate.summaryId priors :=
        filter_cons_of_pos (decide_eq_true hsame)
      rw [hcons] at hinc ⊢
      rw [if_neg (not_not.2 hsame)] at hstep
      replace hstep := later hstep
      have hnext : following = some prior := by
        cases start with
        | none =>
          cases hstep
          rfl
        | some best =>
          have hlt : best.revision < prior.revision :=
            (pairwise_cons.1 hinc).1 _ mem_cons_self
          simp only [if_pos hlt] at hstep
          cases hstep
          rfl
      subst hnext
      rw [map_append] at hinc
      have htail : (((some prior).toList ++ candidatesOf candidate.summaryId priors).map
          ConversationSummaryCandidate.revision).Pairwise (· < ·) :=
        (pairwise_append.1 hinc).2.1
      rw [ih htail hrest, List.getLast?_append_of_ne_nil _ (cons_ne_nil _ _)]
      rfl
    · have hcons : candidatesOf candidate.summaryId (prior :: priors) =
          candidatesOf candidate.summaryId priors :=
        filter_cons_of_neg (by simpa using hsame)
      rw [hcons] at hinc ⊢
      rw [if_pos hsame] at hstep
      cases hstep
      exact ih hinc hrest

/-- The parent that the search finds is the last candidate of the summary so far. -/
theorem findParent_eq (hline : SummaryLineage log catalog candidate.summaryId)
    (h : findParent catalog candidate = .ok parent) :
    parent = (candidatesOf candidate.summaryId catalog.candidates).getLast? := by
  have hinc : ((none.toList ++ candidatesOf candidate.summaryId catalog.candidates).map
      ConversationSummaryCandidate.revision).Pairwise (· < ·) := hline.increasing
  exact parentFold_eq hinc h

/-- A valid candidate is either generated and has no parent, or an edit of its parent. -/
theorem validCandidate_cases
    (h : validateConversationSummaryCandidate candidate intent parent = .ok ()) :
    intent.intentDigest = some candidate.intentDigest ∧
    ((candidate.author = .model ∧ parent = none ∧ candidate.revision = 1) ∨
      ∃ previous, parent = some previous ∧ EditOf previous candidate ∧
        candidate.revision = previous.revision + 1) := by
  obtain ⟨_, hlink, -⟩ := bind_ok.1 h
  replace hlink := later hlink
  obtain ⟨_, hshp, hlink⟩ := bind_ok.1 hlink
  obtain ⟨_, -, hshp⟩ := bind_ok.1 hshp
  obtain ⟨intended, hintended, hshp⟩ := bind_ok.1 hshp
  replace hshp := later hshp
  replace hshp := later hshp
  obtain ⟨hprod, hshp⟩ := guarded hshp
  replace hshp := later hshp
  replace hshp := later hshp
  have hauth := later hshp
  have hdig : candidate.intentDigest = intended := hprod.2.2.1
  refine ⟨by rw [require_ok.1 hintended, hdig], ?_⟩
  unfold authorShape at hauth
  cases hkind : candidate.author with
  | model =>
    rw [hkind] at hauth hlink
    cases parent with
    | none => exact .inl ⟨rfl, rfl, (ensure_ok.1 hauth).1⟩
    | some => cases hlink
  | userEdit =>
    rw [hkind] at hauth hlink
    cases parent with
    | none => cases hlink
    | some previous =>
      refine .inr ⟨previous, rfl, ?_⟩
      replace hlink := later hlink
      replace hlink := later hlink
      obtain ⟨hsome, hver, -⟩ := ensure_ok.1 hlink
      obtain ⟨_, hedited⟩ := Option.isSome_iff_exists.1 hsome
      rw [hedited] at hver hauth
      obtain ⟨digest, hdig, hnamed⟩ := Option.map_eq_some_iff.1 hver.symm
      refine ⟨⟨hkind, digest, hdig, by rw [hedited, hnamed]⟩, ?_⟩
      have hnext := ensure_ok.1 hauth
      simp only [Option.any_some, Bool.and_eq_true, decide_eq_true_eq] at hnext
      rw [hnext.2, ← hnamed]
      rfl

theorem addCandidate_ok (h : addCandidate log state event candidate = .ok next) :
    ∃ intent ∈ state.catalog.intents, ∃ parent, intent.summaryId = candidate.summaryId ∧
      candidate.createdSequence = event.sequence ∧ findParent state.catalog candidate = .ok parent ∧
      validateConversationSummaryCandidate candidate intent parent = .ok () ∧
      checkDraft log intent candidate event.sequence = .ok () ∧ next.catalog = { state.catalog with
        candidates := state.catalog.candidates ++ [candidate] } := by
  replace h := later h
  obtain ⟨intent, hint, h⟩ := bind_ok.1 h
  obtain ⟨henv, h⟩ := guarded h
  obtain ⟨parent, hpar, h⟩ := bind_ok.1 h
  obtain ⟨hval, h⟩ := guarded h
  obtain ⟨_, hdrf, h⟩ := bind_ok.1 h
  cases h
  have hfnd := require_ok.1 hint
  refine ⟨intent, mem_of_find?_eq_some hfnd, parent, ?_, henv.2,
    hpar, hval, hdrf, rfl⟩
  simpa using List.find?_some hfnd

theorem checkDraft_generated {sequence : ℕ} (hauth : candidate.author = .model)
    (h : checkDraft log intent candidate sequence = .ok ()) :
    ∃ draft, recoverConversationSummaryDraft log intent (some sequence) = .ok draft ∧
      draft.text = candidate.text := by
  unfold checkDraft at h
  rw [hauth] at h
  obtain ⟨draft, hdrf, h⟩ := bind_ok.1 h
  exact ⟨draft, mapError_ok.1 hdrf, (ensure_ok.1 h).2.2⟩

theorem candidatesOf_append (summary : ConversationSummaryId)
    (candidates : List ConversationSummaryCandidate) (candidate : ConversationSummaryCandidate) :
    candidatesOf summary (candidates ++ [candidate]) =
      if candidate.summaryId = summary then candidatesOf summary candidates ++ [candidate]
      else candidatesOf summary candidates := by
  unfold candidatesOf
  rw [filter_append]
  by_cases hsame : candidate.summaryId = summary <;> simp [hsame]

theorem CatalogInvariant.addCandidate (hi : CatalogInvariant log state.catalog)
    (h : addCandidate log state event candidate = .ok next) :
    CatalogInvariant log next.catalog := by
  obtain ⟨intent, hint, _, hsum, hseq, hpar, hval, hdrf, hnext⟩ :=
    addCandidate_ok h
  rw [hnext]
  refine ⟨hi.summaries, hi.runs, hi.bound, ?_, hi.recorded, ?_⟩
  · intro active hact
    obtain ⟨published, hpub, heq⟩ := hi.published active hact
    exact ⟨published, mem_append_left _ hpub, heq⟩
  · intro summary
    unfold SummaryLineage
    rw [candidatesOf_append]
    split
    · rename_i hsame
      subst hsame
      have hline := hi.lineages candidate.summaryId
      have hlast := findParent_eq hline hpar
      obtain ⟨hdig, ⟨hauth, hnone, hone⟩ | ⟨_, hprev, hedit, hnum⟩⟩ :=
        validCandidate_cases hval
      · have hemp : candidatesOf candidate.summaryId state.catalog.candidates = [] :=
          List.getLast?_eq_none_iff.1 (hlast.symm.trans hnone)
        rw [hemp, nil_append]
        refine Lineage.start hone ⟨hauth, intent, hint, hsum, hdig, ?_⟩
        rw [hseq]
        exact checkDraft_generated hauth hdrf
      · exact hline.append (hlast.symm.trans hprev) hedit hnum
    · exact hi.lineages summary

theorem CatalogInvariant.step {item : SummaryEvent × ℕ} (hi : CatalogInvariant log state.catalog)
    (hev : item.1 ∈ log.events) (h : summaryStep history log events state item = .ok next) :
    CatalogInvariant log next.catalog := by
  replace h := later h
  unfold applySummaryEvent at h
  split at h
  · rename_i intent hpay
    rw [addIntent_catalog h]
    exact hi.addIntent hev hpay
  · replace h := later h
    exact hi.addCandidate h
  · replace h := later h
    obtain ⟨catalog, hcat, h⟩ := bind_ok.1 h
    cases h
    exact hi.activate hcat
  · replace h := later h
    obtain ⟨catalog, hcat, h⟩ := bind_ok.1 h
    cases h
    exact hi.disable hcat
  · cases h
    exact hi

theorem CatalogInvariant.replay (hsub : events ⊆ log.events)
    (h : events.zipIdx.foldlM (summaryStep history log events) {} = .ok next) :
    CatalogInvariant log next.catalog := by
  refine Staged.foldlM_keeps (I := fun state => CatalogInvariant log state.catalog) ?_
    (CatalogInvariant.empty log) h
  rintro ⟨_, _⟩ hitem state next hi hstep
  exact hi.step (hsub ((mem_zipIdx' hitem).2 ▸ getElem_mem _)) hstep

end Steps

structure SnapshotInvariant (log : SessionLog) (snapshot : ConversationSummarySnapshot) :
    Prop where
  summaries : (snapshot.active.map summaryOf).Nodup
  coverage : snapshot.active.Pairwise fun first second =>
    first.coveredRunIds.Disjoint second.coveredRunIds
  bound : snapshot.active.length ≤ summaryMaximumActive
  published : ∀ active ∈ snapshot.active, ∃ candidate ∈ snapshot.candidates,
    candidate.summaryId = summaryOf active ∧
      candidate.candidateDigest.map (candidateVersion candidate) = some active.candidate
  recorded : ∀ intent ∈ snapshot.intents, ∃ event ∈ log.events,
    event.payload = .conversationSummaryGenerationIntentRecorded intent
  lineages : ∀ summary, SummaryLineage log snapshot.toCatalog summary

theorem eventPrefix_subset {log : SessionLog} {snapshotSequence : Option ℕ}
    {events : List SummaryEvent} (h : eventPrefix log snapshotSequence = .ok events) :
    events ⊆ log.events := by
  obtain ⟨-, -, rfl⟩ := snapshot_ok.1 h
  exact ( takeWhile_prefix _).subset

/-- Whatever the log holds, the snapshot read from it is sound. -/
theorem recorded_summaries_invariant (history : History) (log : SessionLog)
    (snapshotSequence : Option ℕ) (snapshot : ConversationSummarySnapshot)
    (h : recordedConversationSummaries history log snapshotSequence = .ok snapshot) :
    SnapshotInvariant log snapshot := by
  obtain ⟨_, _, replay, hevents, -, hreplay, rfl⟩ := recorded_eq_ok.1 h
  have hi := CatalogInvariant.replay (eventPrefix_subset hevents) hreplay
  have hperm := sortActive_perm replay.catalog.active
  refine ⟨?_, ?_, ?_, ?_, hi.recorded, hi.lineages⟩
  · exact (hperm.map _).nodup_iff.2 hi.summaries
  · exact (nodup_flatMap.1 ((hperm.flatMap_right _).nodup_iff.2 hi.runs)).2
  · rw [hperm.length_eq]
    exact hi.bound
  · intro active hactive
    obtain ⟨candidate, hcandidate, hversion⟩ := hi.published active (hperm.mem_iff.1 hactive)
    obtain ⟨_, -, hnamed⟩ := Option.map_eq_some_iff.1 hversion
    refine ⟨candidate, hcandidate, ?_, hversion⟩
    rw [summaryOf, ← hnamed]
    rfl

end SummaryInvariant
