import AiForge.ConversationSummary

/-! # Replacing active summaries

An activation joins the active summaries and may push exact versions out. The check walks over
the active summaries in the order they stand in; what it accepts does not depend on that
order. -/
namespace SummaryReplacement

open Admission Content List Staged Summary ConversationSummaryVersion

abbrev Activation := ConversationSummaryActivation
abbrev Version := ConversationSummaryVersion

def summaryOf (value : Activation) : ConversationSummaryId := value.candidate.summaryId

structure ActivationSet where
  summaries : Finset ConversationSummaryId := ∅
  runs : Finset RunId := ∅
  events : Finset EventId := ∅

def insertRun (runs : Finset RunId) (run : RunId) : Status (Finset RunId) :=
  require (insertNew run runs) ⟨.overlap, "active summary source coverage overlaps"⟩

def ActivationSet.add (session : SessionId) (set : ActivationSet) (value : Activation) :
    Status ActivationSet := do
  validateConversationSummaryActivation value
  ensure (value.sessionId = session)
    ⟨.foreignScope, "active summaries have different sessions"⟩
  let duplicated : ConversationSummaryError :=
    ⟨.invalidActivation, "active summary identity is duplicated"⟩
  let summaries ← require (insertNew (summaryOf value) set.summaries) duplicated
  let events ← require (insertNew value.activationEventId set.events) duplicated
  let runs ← value.coveredRunIds.foldlM insertRun set.runs
  return ⟨summaries, runs, events⟩

def activeVersion (active : List Activation) (version : Version) : Bool :=
  active.any fun value => decide (value.candidate = version)

def removeVersion (active : List Activation) (replacement : Activation)
    (removed : Finset ConversationSummaryId) (version : Version) :
    Status (Finset ConversationSummaryId) := do
  let missing : ConversationSummaryError :=
    ⟨.staleRevision, "summary replacement version is missing or stale"⟩
  ensure (versionShape version) missing
  let removed ← require (insertNew version.summaryId removed) missing
  ensure (activeVersion active version) missing
  ensure (¬ (version.summaryId = summaryOf replacement ∧
      replacement.candidate.revision ≤ version.revision))
    ⟨.staleRevision, "summary replacement revision must advance"⟩
  return removed

def removedVersions (active : List Activation) (replaced : List Version)
    (replacement : Activation) : Status (Finset ConversationSummaryId) :=
  replaced.foldlM (removeVersion active replacement) ∅

def validateConversationSummaryReplacement (active : List Activation) (replaced : List Version)
    (replacement : Activation) : Status Unit := do
  ensure (active.length ≤ summaryMaximumActive ∧ replaced.length ≤ summaryMaximumActive)
    ⟨.resourceExhausted, "summary replacement set exceeds its bound"⟩
  let original ← active.foldlM (ActivationSet.add replacement.sessionId) {}
  ensure (replacement.activationEventId ∉ original.events ∧
      ∀ value ∈ active, value.activationSequence < replacement.activationSequence)
    ⟨.invalidActivation, "summary replacement activation must be new"⟩
  let removed ← removedVersions active replaced replacement
  ensure (active.length - removed.card < summaryMaximumActive)
    ⟨.resourceExhausted, "too many active summaries after replacement"⟩
  let final ← active.foldlM (fun (set : ActivationSet) value =>
    if decide (summaryOf value ∉ removed) then set.add replacement.sessionId value
    else pure set) {}
  let _ ← final.add replacement.sessionId replacement

section Sets

variable {α : Type} [DecidableEq α]

theorem insertNew_some {value : α} {values result : Finset α} :
    insertNew value values = some result ↔ value ∉ values ∧ result = insert value values := by
  unfold insertNew
  split
  · rename_i hmem
    exact iff_of_false nofun fun h => h.1 hmem
  · rename_i hmem
    rw [Option.some.injEq, eq_comm]
    exact (and_iff_right hmem).symm

theorem insertRuns_ok {runs : List RunId} {set result : Finset RunId} :
    runs.foldlM insertRun set = .ok result ↔
      runs.Nodup ∧ (∀ run ∈ runs, run ∉ set) ∧ result = set ∪ runs.toFinset := by
  induction runs generalizing set with
  | nil =>
    rw [foldlM_nil]
    constructor
    · rintro ⟨⟩
      exact ⟨nodup_nil, nofun, by simp⟩
    · rintro ⟨-, -, rfl⟩
      simp [pure, Except.pure]
  | cons run _ ih =>
    rw [foldlM_cons_ok]
    constructor
    · rintro ⟨_, hrun, hrest⟩
      obtain ⟨hnew, rfl⟩ := insertNew_some.1 (require_ok.1 hrun)
      obtain ⟨hnd, hfresh, rfl⟩ := ih.1 hrest
      refine ⟨nodup_cons.2 ⟨?_, hnd⟩, ?_, ?_⟩
      · intro hmem
        exact hfresh run hmem (Finset.mem_insert_self _ _)
      · intro r hr
        rcases mem_cons.1 hr with rfl | hr
        · exact hnew
        · intro hmem
          exact hfresh r hr (Finset.mem_insert_of_mem hmem)
      · rw [toFinset_cons, Finset.insert_union, Finset.union_insert]
    · rintro ⟨hnd, hfresh, rfl⟩
      obtain ⟨hnot, hnd⟩ := nodup_cons.1 hnd
      refine ⟨insert run set, require_ok.2 (insertNew_some.2
        ⟨hfresh run mem_cons_self, rfl⟩), ih.2 ⟨hnd, ?_, ?_⟩⟩
      · intro r hr hmem
        rcases Finset.mem_insert.1 hmem with rfl | hmem
        · exact hnot hr
        · exact hfresh r (mem_cons_of_mem _ hr) hmem
      · rw [toFinset_cons, Finset.insert_union, Finset.union_insert]

end Sets

/-- Activations that can be active together in a session. -/
structure Compatible (session : SessionId) (values : List Activation) : Prop where
  valid : ∀ value ∈ values, validateConversationSummaryActivation value = .ok () ∧
    value.sessionId = session
  summaries : (values.map summaryOf).Nodup
  events : (values.map ConversationSummaryActivation.activationEventId).Nodup
  runs : (values.flatMap ConversationSummaryActivation.coveredRunIds).Nodup

/-- None of the activations is in the set yet. -/
structure ActivationSet.Free (set : ActivationSet) (values : List Activation) : Prop where
  summaries : ∀ value ∈ values, summaryOf value ∉ set.summaries
  events : ∀ value ∈ values, value.activationEventId ∉ set.events
  runs : ∀ run ∈ values.flatMap ConversationSummaryActivation.coveredRunIds, run ∉ set.runs

def ActivationSet.extend (set : ActivationSet) (values : List Activation) : ActivationSet where
  summaries := set.summaries ∪ (values.map summaryOf).toFinset
  runs := set.runs ∪ (values.flatMap ConversationSummaryActivation.coveredRunIds).toFinset
  events := set.events ∪ (values.map ConversationSummaryActivation.activationEventId).toFinset

theorem extend_singleton (set : ActivationSet) (value : Activation) : set.extend [value] =
    ⟨insert (summaryOf value) set.summaries, set.runs ∪ value.coveredRunIds.toFinset,
      insert value.activationEventId set.events⟩ := by
  simp [ActivationSet.extend]

variable {session : SessionId} {set : ActivationSet} {value : Activation}

theorem add_ok {result : ActivationSet} : set.add session value = .ok result ↔
      (validateConversationSummaryActivation value = .ok () ∧ value.sessionId = session) ∧
      value.coveredRunIds.Nodup ∧ set.Free [value] ∧ result = set.extend [value] := by
  constructor
  · intro h
    obtain ⟨_, hval, h⟩ := bind_ok.1 h
    obtain ⟨_, hsess, h⟩ := bind_ok.1 h
    obtain ⟨_, hsum, h⟩ := bind_ok.1 h
    obtain ⟨_, hevs, h⟩ := bind_ok.1 h
    obtain ⟨_, hruns, h⟩ := bind_ok.1 h
    cases h
    obtain ⟨hsummary, rfl⟩ := insertNew_some.1 (require_ok.1 hsum)
    obtain ⟨hev, rfl⟩ := insertNew_some.1 (require_ok.1 hevs)
    obtain ⟨hnd, hnew, rfl⟩ := insertRuns_ok.1 hruns
    refine ⟨⟨hval, ensure_ok.1 hsess⟩, hnd, ⟨?_, ?_, ?_⟩, ?_⟩
    · simpa using hsummary
    · simpa using hev
    · simpa using hnew
    · rw [extend_singleton]
  · rintro ⟨⟨hval, hsess⟩, hnd, ⟨hsummary, hev, hnew⟩, rfl⟩
    refine bind_ok.2 ⟨(), hval, ensured hsess ?_⟩
    refine bind_ok.2 ⟨_, require_ok.2 (insertNew_some.2
      ⟨hsummary value mem_cons_self, rfl⟩), ?_⟩
    refine bind_ok.2 ⟨_, require_ok.2 (insertNew_some.2
      ⟨hev value mem_cons_self, rfl⟩), ?_⟩
    refine bind_ok.2 ⟨_, insertRuns_ok.2 ⟨hnd, by simpa using hnew, rfl⟩, ?_⟩
    rw [extend_singleton]
    rfl

theorem extend_cons (set : ActivationSet) (value : Activation) (values : List Activation) :
    (set.extend [value]).extend values = set.extend (value :: values) := by
  simp [ActivationSet.extend, Finset.insert_union, Finset.union_assoc]

variable {values : List Activation}

theorem free_cons : set.Free (value :: values) ↔ set.Free [value] ∧ set.Free values := by
  constructor
  · rintro ⟨hs, he, hr⟩
    refine ⟨⟨?_, ?_, ?_⟩, ?_, ?_, ?_⟩
    · intro v hv
      exact hs v (by simp_all)
    · intro v hv
      exact he v (by simp_all)
    · intro run hrun
      exact hr run (by simp_all)
    · intro v hv
      exact hs v (mem_cons_of_mem _ hv)
    · intro v hv
      exact he v (mem_cons_of_mem _ hv)
    · intro run hrun
      exact hr run (by rw [flatMap_cons]; exact mem_append_right _ hrun)
  · rintro ⟨⟨hs, he, hr⟩, hs', he', hr'⟩
    refine ⟨?_, ?_, ?_⟩
    · exact forall_mem_cons.2 ⟨hs value mem_cons_self, hs'⟩
    · exact forall_mem_cons.2 ⟨he value mem_cons_self, he'⟩
    · intro run hrun
      rcases mem_append.1 (flatMap_cons ▸ hrun) with hrun | hrun
      · exact hr run (by simpa using hrun)
      · exact hr' run hrun

theorem free_extend : (set.extend [value]).Free values ↔ set.Free values ∧
      (∀ v ∈ values, summaryOf v ≠ summaryOf value) ∧
      (∀ v ∈ values, v.activationEventId ≠ value.activationEventId) ∧
      (∀ run ∈ values.flatMap ConversationSummaryActivation.coveredRunIds,
        run ∉ value.coveredRunIds) := by
  rw [extend_singleton]
  constructor
  · rintro ⟨hs, he, hr⟩
    refine ⟨⟨?_, ?_, ?_⟩, ?_, ?_, ?_⟩
    · exact fun v hv hm => hs v hv (Finset.mem_insert_of_mem hm)
    · exact fun v hv hm => he v hv (Finset.mem_insert_of_mem hm)
    · exact fun run hrun hm => hr run hrun (Finset.mem_union_left _ hm)
    · intro v hv heq
      exact hs v hv (heq ▸ Finset.mem_insert_self _ _)
    · intro v hv heq
      exact he v hv (heq ▸ Finset.mem_insert_self _ _)
    · exact fun run hrun hm => hr run hrun (Finset.mem_union_right _ (mem_toFinset.2 hm))
  · rintro ⟨⟨hs, he, hr⟩, hs', he', hr'⟩
    refine ⟨?_, ?_, ?_⟩
    · intro v hv hm
      rcases Finset.mem_insert.1 hm with heq | hm
      · exact hs' v hv heq
      · exact hs v hv hm
    · intro v hv hm
      rcases Finset.mem_insert.1 hm with heq | hm
      · exact he' v hv heq
      · exact he v hv hm
    · intro run hrun hm
      rcases Finset.mem_union.1 hm with hm | hm
      · exact hr run hrun hm
      · exact hr' run hrun (mem_toFinset.1 hm)

theorem compatible_cons : Compatible session (value :: values) ↔
      (validateConversationSummaryActivation value = .ok () ∧ value.sessionId = session) ∧
      value.coveredRunIds.Nodup ∧ Compatible session values ∧
      (∀ v ∈ values, summaryOf v ≠ summaryOf value) ∧
      (∀ v ∈ values, v.activationEventId ≠ value.activationEventId) ∧
      (∀ run ∈ values.flatMap ConversationSummaryActivation.coveredRunIds,
        run ∉ value.coveredRunIds) := by
  constructor
  · rintro ⟨hval, hs, he, hr⟩
    obtain ⟨hv, hvs⟩ := forall_mem_cons.1 hval
    obtain ⟨hs, hss⟩ := nodup_cons.1 hs
    obtain ⟨he, hes⟩ := nodup_cons.1 he
    obtain ⟨hr, hrs, hdisj⟩ := nodup_append'.1 (flatMap_cons ▸ hr)
    refine ⟨hv, hr, ⟨hvs, hss, hes, hrs⟩, ?_, ?_, ?_⟩
    · intro v hmem heq
      exact hs (heq ▸ mem_map_of_mem hmem)
    · intro v hmem heq
      exact he (heq ▸ mem_map_of_mem hmem)
    · intro run hrun hmem
      exact hdisj hmem hrun
  · rintro ⟨hv, hr, ⟨hvs, hss, hes, hrs⟩, hs, he, hdisj⟩
    refine ⟨forall_mem_cons.2 ⟨hv, hvs⟩, nodup_cons.2 ⟨?_, hss⟩,
      nodup_cons.2 ⟨?_, hes⟩, ?_⟩
    · intro hmem
      obtain ⟨v, hmem, heq⟩ := mem_map.1 hmem
      exact hs v hmem heq
    · intro hmem
      obtain ⟨v, hmem, heq⟩ := mem_map.1 hmem
      exact he v hmem heq
    · rw [flatMap_cons]
      exact nodup_append'.2 ⟨hr, hrs, fun run hrun hmem => hdisj run hmem hrun⟩

/-- Adding activations one after the other succeeds exactly when they are compatible with one
another and none is in the set yet. -/
theorem addAll_ok {result : ActivationSet} :
    values.foldlM (ActivationSet.add session) set = .ok result ↔
      Compatible session values ∧ set.Free values ∧ result = set.extend values := by
  induction values generalizing set with
  | nil =>
    have hextend : set.extend [] = set := by simp [ActivationSet.extend]
    rw [foldlM_nil, hextend]
    constructor
    · rintro ⟨⟩
      exact ⟨⟨nofun, nodup_nil, nodup_nil, nodup_nil⟩, ⟨nofun, nofun, nofun⟩, rfl⟩
    · rintro ⟨-, -, rfl⟩
      rfl
  | cons value values ih =>
    rw [foldlM_cons_ok]
    constructor
    · rintro ⟨_, hadd, hrest⟩
      obtain ⟨hval, hnd, hfree, rfl⟩ := add_ok.1 hadd
      obtain ⟨hcompat, hlat, rfl⟩ := ih.1 hrest
      obtain ⟨hfrees, hs, he, hr⟩ := free_extend.1 hlat
      exact ⟨compatible_cons.2 ⟨hval, hnd, hcompat, hs, he, hr⟩,
        free_cons.2 ⟨hfree, hfrees⟩, extend_cons set value values⟩
    · rintro ⟨hcompat, hfree, rfl⟩
      obtain ⟨hval, hnd, hcompat, hs, he, hr⟩ := compatible_cons.1 hcompat
      obtain ⟨hfree, hfrees⟩ := free_cons.1 hfree
      exact ⟨set.extend [value], add_ok.2 ⟨hval, hnd, hfree, rfl⟩,
        ih.2 ⟨hcompat, free_extend.2 ⟨hfrees, hs, he, hr⟩,
          (extend_cons set value values).symm⟩⟩

/-- A version that may be replaced: active as it stands, and older than what replaces it. -/
def Replaceable (active : List Activation) (replacement : Activation) (version : Version) : Prop :=
  versionShape version ∧ (∃ value ∈ active, value.candidate = version) ∧
    (version.summaryId = summaryOf replacement →
      version.revision < replacement.candidate.revision)

variable {active : List Activation} {replacement : Activation}
  {removed : Finset ConversationSummaryId}

theorem removeVersion_ok {result : Finset ConversationSummaryId} {version : Version} :
    removeVersion active replacement removed version = .ok result ↔
      Replaceable active replacement version ∧ version.summaryId ∉ removed ∧
        result = insert version.summaryId removed := by
  constructor
  · intro h
    obtain ⟨_, hshp, h⟩ := bind_ok.1 h
    obtain ⟨_, hnext, h⟩ := bind_ok.1 h
    obtain ⟨_, hact, h⟩ := bind_ok.1 h
    obtain ⟨hadv, h⟩ := guarded h
    cases h
    obtain ⟨hnew, rfl⟩ := insertNew_some.1 (require_ok.1 hnext)
    refine ⟨⟨ensure_ok.1 hshp, ?_, ?_⟩, hnew, rfl⟩
    · simpa [activeVersion] using ensure_ok.1 hact
    · intro hsame
      by_contra hle
      exact hadv ⟨hsame, by omega⟩
  · rintro ⟨⟨hshp, hact, hadv⟩, hnew, rfl⟩
    refine ensured hshp ?_
    refine bind_ok.2 ⟨_, require_ok.2 (insertNew_some.2 ⟨hnew, rfl⟩), ?_⟩
    refine ensured (by simpa [activeVersion] using hact) ?_
    refine ensured ?_ rfl
    rintro ⟨hsame, hle⟩
    have := hadv hsame
    omega

variable {replaced : List Version}

theorem removeVersions_ok {result : Finset ConversationSummaryId} :
    replaced.foldlM (removeVersion active replacement) removed = .ok result ↔
      (∀ version ∈ replaced, Replaceable active replacement version) ∧
      (replaced.map summaryId).Nodup ∧
      (∀ version ∈ replaced, version.summaryId ∉ removed) ∧
      result = removed ∪ (replaced.map summaryId).toFinset := by
  induction replaced generalizing removed with
  | nil =>
    rw [foldlM_nil]
    constructor
    · rintro ⟨⟩
      exact ⟨nofun, nodup_nil, nofun, by simp⟩
    · rintro ⟨-, -, -, rfl⟩
      simp [pure, Except.pure]
  | cons version _ ih =>
    rw [foldlM_cons_ok]
    have hunion : ∀ rest : Finset ConversationSummaryId,
        insert version.summaryId removed ∪ rest = removed ∪ insert version.summaryId rest := by
      intro rest
      rw [Finset.insert_union, Finset.union_insert]
    constructor
    · rintro ⟨_, hver, hrest⟩
      obtain ⟨hreplaceable, hnew, rfl⟩ := removeVersion_ok.1 hver
      obtain ⟨hall, hnd, hfresh, rfl⟩ := ih.1 hrest
      refine ⟨forall_mem_cons.2 ⟨hreplaceable, hall⟩, nodup_cons.2 ⟨?_, hnd⟩,
        forall_mem_cons.2 ⟨hnew, ?_⟩, ?_⟩
      · intro hmem
        obtain ⟨v, hv, heq⟩ := mem_map.1 hmem
        exact hfresh v hv (heq ▸ Finset.mem_insert_self _ _)
      · exact fun v hv hmem => hfresh v hv (Finset.mem_insert_of_mem hmem)
      · rw [map_cons, toFinset_cons, hunion]
    · rintro ⟨hall, hnd, hfresh, rfl⟩
      obtain ⟨hreplaceable, hall⟩ := forall_mem_cons.1 hall
      obtain ⟨hnot, hnd⟩ := nodup_cons.1 hnd
      obtain ⟨hnew, hfresh⟩ := forall_mem_cons.1 hfresh
      refine ⟨_, removeVersion_ok.2 ⟨hreplaceable, hnew, rfl⟩,
        ih.2 ⟨hall, hnd, ?_, ?_⟩⟩
      · intro v hv hmem
        rcases Finset.mem_insert.1 hmem with heq | hmem
        · exact hnot (heq ▸ mem_map_of_mem hv)
        · exact hfresh v hv hmem
      · rw [map_cons, toFinset_cons, hunion]

/-- The active summaries that no replaced version belongs to. -/
def remaining (active : List Activation) (replaced : List Version) : List Activation :=
  active.filter fun value =>
    decide (summaryOf value ∉ replaced.map ConversationSummaryVersion.summaryId)

/-- Everything that the check asks for, without an order of the active summaries. -/
structure ReplacementOk (active : List Activation) (replaced : List Version)
    (replacement : Activation) : Prop where
  activeBound : active.length ≤ summaryMaximumActive
  replacedBound : replaced.length ≤ summaryMaximumActive
  compatible : Compatible replacement.sessionId active
  newEvent : ∀ value ∈ active, value.activationEventId ≠ replacement.activationEventId
  later : ∀ value ∈ active, value.activationSequence < replacement.activationSequence
  replaceable : ∀ version ∈ replaced, Replaceable active replacement version
  distinct : (replaced.map ConversationSummaryVersion.summaryId).Nodup
  room : active.length - replaced.length < summaryMaximumActive
  result : Compatible replacement.sessionId (remaining active replaced ++ [replacement])

theorem empty_free (values : List Activation) : ActivationSet.Free {} values :=
  ⟨fun _ _ => Finset.notMem_empty _, fun _ _ => Finset.notMem_empty _,
    fun _ _ => Finset.notMem_empty _⟩

theorem finalSet_eq (h : removed = (replaced.map summaryId).toFinset) :
    active.foldlM (fun (set : ActivationSet) value =>
      if decide (summaryOf value ∉ removed) then set.add session value else pure set) {} =
    (remaining active replaced).foldlM (ActivationSet.add session) {} := by
  rw [remaining, foldlM_filter]
  subst h
  simp only [mem_toFinset]

theorem replacement_ok :
    validateConversationSummaryReplacement active replaced replacement = .ok () ↔
      ReplacementOk active replaced replacement := by
  constructor
  · intro h
    obtain ⟨hbd, h⟩ := guarded h
    obtain ⟨_, horiginal, h⟩ := bind_ok.1 h
    obtain ⟨hnew, h⟩ := guarded h
    obtain ⟨_, hrem, h⟩ := bind_ok.1 h
    obtain ⟨hroom, h⟩ := guarded h
    obtain ⟨final, hfin, h⟩ := bind_ok.1 h
    obtain ⟨last, hlast, -⟩ := bind_ok.1 h
    obtain ⟨hcompat, -, rfl⟩ := addAll_ok.1 horiginal
    obtain ⟨hall, hnd, -, hset⟩ := removeVersions_ok.1 hrem
    rw [Finset.empty_union] at hset
    rw [finalSet_eq hset] at hfin
    obtain ⟨hact, hrepl⟩ := hbd
    obtain ⟨hev, hlat⟩ := hnew
    have hres : (remaining active replaced ++ [replacement]).foldlM
        (ActivationSet.add replacement.sessionId) {} = .ok last := by
      refine foldlM_append_ok.2 ⟨final, hfin, foldlM_cons_ok.2 ⟨last, hlast, rfl⟩⟩
    refine ⟨hact, hrepl, hcompat, ?_, hlat, hall, hnd, ?_,
      (addAll_ok.1 hres).1⟩
    · intro value hv heq
      apply hev
      simp only [ActivationSet.extend, Finset.empty_union, mem_toFinset]
      exact heq ▸ mem_map_of_mem hv
    · rw [hset, toFinset_card_of_nodup hnd, length_map] at hroom
      exact hroom
  · rintro ⟨hact, hrepl, hcompat, hev, hlat, hall, hnd, hroom, hres⟩
    have hset : (∅ : Finset ConversationSummaryId) ∪
        (replaced.map summaryId).toFinset =
        (replaced.map summaryId).toFinset := Finset.empty_union _
    have hadd := addAll_ok.2 ⟨hres, empty_free _, rfl⟩
    obtain ⟨final, hfin, hlast⟩ := foldlM_append_ok.1 hadd
    obtain ⟨last, hlast, -⟩ := foldlM_cons_ok.1 hlast
    refine ensured ⟨hact, hrepl⟩ ?_
    refine bind_ok.2 ⟨_, addAll_ok.2 ⟨hcompat, empty_free _, rfl⟩, ?_⟩
    refine ensured ⟨?_, hlat⟩ ?_
    · simp only [ActivationSet.extend, Finset.empty_union, mem_toFinset]
      intro hmem
      obtain ⟨value, hv, heq⟩ := mem_map.1 hmem
      exact hev value hv heq
    refine bind_ok.2 ⟨_, removeVersions_ok.2
      ⟨hall, hnd, fun _ _ => Finset.notMem_empty _, rfl⟩, ?_⟩
    refine ensured ?_ ?_
    · rw [hset, toFinset_card_of_nodup hnd, length_map]
      exact hroom
    refine bind_ok.2 ⟨final, ?_, bind_ok.2 ⟨last, hlast, rfl⟩⟩
    rw [finalSet_eq hset, hfin]

theorem Compatible.perm {first second : List Activation}
    (h : Compatible session first) (hp : first.Perm second) : Compatible session second := by
  refine ⟨?_, ?_, ?_, ?_⟩
  · intro value hv
    exact h.valid value (hp.mem_iff.2 hv)
  · exact (hp.map _).nodup_iff.1 h.summaries
  · exact (hp.map _).nodup_iff.1 h.events
  · exact (hp.flatMap_right _).nodup_iff.1 h.runs

theorem ReplacementOk.perm {first second : List Activation}
    (h : ReplacementOk first replaced replacement)
    (hp : first.Perm second) : ReplacementOk second replaced replacement := by
  have hmem : ∀ value ∈ second, value ∈ first := fun value hv => hp.mem_iff.2 hv
  refine ⟨hp.length_eq ▸ h.activeBound, h.replacedBound, h.compatible.perm hp,
    fun value hv => h.newEvent value (hmem value hv), fun value hv => h.later value (hmem value hv),
    ?_, h.distinct, hp.length_eq ▸ h.room, h.result.perm ((hp.filter _).append_right _)⟩
  intro version hv
  obtain ⟨hshp, ⟨value, hval, heq⟩, hadv⟩ := h.replaceable version hv
  exact ⟨hshp, ⟨value, hp.mem_iff.1 hval, heq⟩, hadv⟩

section

variable (h : ReplacementOk active replaced replacement)

include h

theorem ReplacementOk.erase_eq :
    active.filter (fun value => decide (value.candidate ∉ replaced)) =
      remaining active replaced := by
  apply filter_congr
  intro value hv
  simp only [decide_eq_decide]
  constructor
  · intro hnot hmem
    obtain ⟨version, hver, hsame⟩ := mem_map.1 hmem
    obtain ⟨-, ⟨other, hoth, heq⟩, -⟩ := h.replaceable version hver
    have hid : summaryOf other = summaryOf value := by rw [summaryOf, heq, hsame]
    have hwho := inj_on_of_nodup_map h.compatible.summaries hoth hv hid
    exact hnot (hwho ▸ heq ▸ hver)
  · intro hnot hmem
    exact hnot (mem_map_of_mem hmem)

/-- Every replaced version makes room for one activation. -/
theorem ReplacementOk.remaining_length :
    (remaining active replaced).length + replaced.length ≤ active.length := by
  have hsplit := length_eq_length_filter_add (l := active) fun value =>
    decide (summaryOf value ∉ replaced.map summaryId)
  have hrem : replaced.map summaryId ⊆
      (active.filter fun value => !decide (summaryOf value ∉
        replaced.map summaryId)).map summaryOf := by
    intro id hid
    obtain ⟨version, hver, rfl⟩ := mem_map.1 hid
    obtain ⟨-, ⟨value, hval, heq⟩, -⟩ := h.replaceable version hver
    have hsum : summaryOf value = version.summaryId := by rw [summaryOf, heq]
    refine mem_map.2 ⟨value, mem_filter.2 ⟨hval, ?_⟩, hsum⟩
    simpa [hsum] using ⟨version, hver, rfl⟩
  have hle := (h.distinct.subperm hrem).length_le
  rw [length_map, length_map] at hle
  rw [remaining]
  omega

theorem ReplacementOk.result_length :
    (remaining active replaced ++ [replacement]).length ≤ summaryMaximumActive := by
  have hlen := h.remaining_length
  have hroom := h.room
  rw [length_append, length_singleton]
  omega

end

end SummaryReplacement
