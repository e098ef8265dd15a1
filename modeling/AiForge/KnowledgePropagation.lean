import AiForge.RepositoryKnowledge

/-! # Invalidation along dependencies

The passes of an update mark a record once, when one of its dependencies has changed. What is
marked in the end is what depends on an operation of the update, directly or through other
records, whatever the order of the records. -/
namespace Knowledge

open KeyedList List Money Staged RepositoryKnowledgeRecord

/-- A record with the identity `a` was derived from `b`. -/
def DependsOn (records : List RepositoryKnowledgeRecord) (a b : KnowledgeRecordId) : Prop :=
  ∃ record ∈ records, record.recordId = a ∧ b ∈ record.inputs

/-- A record that depends, directly or through other records, on one of the operations. -/
def Reaches (records : List RepositoryKnowledgeRecord) (operations : Finset KnowledgeRecordId)
    (recordId : KnowledgeRecordId) : Prop :=
  ∃ target ∈ operations, Relation.TransGen (DependsOn records) recordId target

variable {operations removed : Finset KnowledgeRecordId}
variable {base records : List RepositoryKnowledgeRecord} {record : RepositoryKnowledgeRecord}

theorem reaches_of_input {input : KnowledgeRecordId} (hr : record ∈ records)
    (hinp : input ∈ record.inputs) (h : input ∈ operations ∨ Reaches records operations input) :
    Reaches records operations record.recordId := by
  have hedge : DependsOn records record.recordId input := ⟨record, hr, rfl, hinp⟩
  rcases h with hop | ⟨target, htgt, hpath⟩
  · exact ⟨input, hop, .single hedge⟩
  · exact ⟨target, htgt, .head hedge hpath⟩

/-- A set that every record enters with one of its dependencies has all that reach it. -/
theorem reaches_closed {marks : Finset KnowledgeRecordId}
    (hshut : ∀ record ∈ records, record.recordId ∉ operations → record.recordId ∉ marks →
      ∀ input ∈ record.inputs, input ∉ operations ∧ input ∉ marks)
    {recordId : KnowledgeRecordId} (hnot : recordId ∉ operations)
    (h : Reaches records operations recordId) : recordId ∈ marks := by
  obtain ⟨_, htgt, hpath⟩ := h
  induction hpath using Relation.TransGen.head_induction_on with
  | single hedge =>
    obtain ⟨record, hr, rfl, hinp⟩ := hedge
    by_contra hunmarked
    exact (hshut record hr hnot hunmarked _ hinp).1 htgt
  | @head a b hedge hpath ih =>
    obtain ⟨record, hr, rfl, hinp⟩ := hedge
    by_contra hunmarked
    have hnext := hshut record hr hnot hunmarked b hinp
    exact hnext.2 (ih hnext.1)

/-- Only the dependencies of records that are no operations matter. -/
theorem reaches_transfer {others : List RepositoryKnowledgeRecord}
    (hsame : ∀ record ∈ records, record.recordId ∉ operations → record ∈ others)
    {recordId : KnowledgeRecordId} (hnot : recordId ∉ operations)
    (h : Reaches records operations recordId) : Reaches others operations recordId := by
  obtain ⟨_, htgt, hpath⟩ := h
  induction hpath using Relation.TransGen.head_induction_on with
  | single hedge =>
    obtain ⟨record, hr, rfl, hinp⟩ := hedge
    exact reaches_of_input (hsame record hr hnot) hinp (.inl htgt)
  | @head a b hedge hpath ih =>
    obtain ⟨record, hr, rfl, hinp⟩ := hedge
    refine reaches_of_input (hsame record hr hnot) hinp ?_
    by_cases hb : b ∈ operations
    · exact .inl hb
    · exact .inr (ih hb)

theorem worseFreshness_stale (freshness : KnowledgeFreshness) :
    worseFreshness (worseFreshness freshness .stale) .stale = worseFreshness freshness .stale := by
  cases freshness <;> rfl

theorem worseFreshness_unavailable (freshness : KnowledgeFreshness) :
    worseFreshness freshness .unavailable = .unavailable := by
  cases freshness <;> rfl

theorem unavailable_worseFreshness (freshness : KnowledgeFreshness) :
    worseFreshness .unavailable freshness = .unavailable := by
  cases freshness <;> rfl

/-- What an update leaves of a record that depends on it. -/
def RepositoryKnowledgeRecord.invalidated (record : RepositoryKnowledgeRecord)
    (removed : Finset KnowledgeRecordId) : RepositoryKnowledgeRecord :=
  { record with
    revision := record.revision + 1
    freshness :=
      if ∃ input ∈ record.inputs, input ∈ removed then .unavailable
      else worseFreshness record.freshness .stale }

section Freshness

variable {changed : Finset KnowledgeRecordId}

/-- The fold over the inputs of `nextFreshness`, from any freshness on. -/
theorem foldl_freshness (hsub : removed ⊆ changed) (inputs : List KnowledgeRecordId)
    (freshness : KnowledgeFreshness) :
    inputs.foldl (fun freshness input =>
      if input ∈ changed then
        worseFreshness freshness (if input ∈ removed then .unavailable else .stale)
      else freshness) freshness =
    if ∃ input ∈ inputs, input ∈ removed then .unavailable
    else if ∃ input ∈ inputs, input ∈ changed then worseFreshness freshness .stale
    else freshness := by
  induction inputs generalizing freshness with
  | nil => simp
  | cons input _ ih =>
    rw [foldl_cons, ih]
    by_cases hrem : input ∈ removed
    · have hchg := hsub hrem
      simp [hrem, hchg, worseFreshness_unavailable, unavailable_worseFreshness]
    · by_cases hchg : input ∈ changed
      · simp [hrem, hchg, worseFreshness_stale]
      · simp [hrem, hchg]

theorem nextFreshness_eq (hsub : removed ⊆ changed)
    (hany : ∃ input ∈ record.inputs, input ∈ changed) :
    record.nextFreshness changed removed = (record.invalidated removed).freshness := by
  unfold nextFreshness
  rw [foldl_freshness hsub, if_pos hany]
  rfl

end Freshness

def mark (removed marks : Finset KnowledgeRecordId) (record : RepositoryKnowledgeRecord) :
    RepositoryKnowledgeRecord :=
  if record.recordId ∈ marks then record.invalidated removed else record

@[simp] theorem mark_recordId (marks : Finset KnowledgeRecordId) :
    (mark removed marks record).recordId = record.recordId := by
  unfold mark
  split <;> rfl

@[simp] theorem mark_inputs (marks : Finset KnowledgeRecordId) :
    (mark removed marks record).inputs = record.inputs := by
  unfold mark
  split <;> rfl

def Affected (base : List RepositoryKnowledgeRecord) (operations : Finset KnowledgeRecordId)
    (recordId : KnowledgeRecordId) : Prop :=
  recordId ∉ operations ∧ Reaches base operations recordId

def Blocked (base : List RepositoryKnowledgeRecord) (operations : Finset KnowledgeRecordId) :
    Prop :=
  ∃ record ∈ base, Affected base operations record.recordId ∧ record.revision = uint64Max

/-- Every mark is due, and a marked record had a next revision. -/
structure Marking (operations : Finset KnowledgeRecordId) (base : List RepositoryKnowledgeRecord)
    (p : Propagation) : Prop where
  changed : p.changed = operations ∪ p.invalidated
  due : ∀ recordId ∈ p.invalidated, ∃ record ∈ base, record.recordId = recordId ∧
    Affected base operations recordId ∧ record.revision ≠ uint64Max

/-- The state of a pass that began with the marks `old` and has passed the records `before`. -/
structure Passing (operations removed : Finset KnowledgeRecordId)
    (base : List RepositoryKnowledgeRecord) (old : Finset KnowledgeRecordId)
    (before : List RepositoryKnowledgeRecord) (q : Propagation) : Prop
    extends Marking operations base q where
  records : q.records = before.map (mark removed q.invalidated)
  grown : old ⊆ q.invalidated
  passed : ∀ recordId ∈ q.invalidated,
    recordId ∈ old ∨ recordId ∈ before.map RepositoryKnowledgeRecord.recordId
  closed : ∀ record ∈ before, record.recordId ∉ operations → record.recordId ∉ q.invalidated →
    ∀ input ∈ record.inputs, input ∉ operations ∧ input ∉ old
  progress : q.progress ↔ old ≠ q.invalidated

section Pass

variable {old : Finset KnowledgeRecordId} {before : List RepositoryKnowledgeRecord}
variable {q next : Propagation}

/-- A pass goes on as one that has passed one record more, or the update is blocked. -/
def Goes (operations removed : Finset KnowledgeRecordId) (base : List RepositoryKnowledgeRecord)
    (old : Finset KnowledgeRecordId) (before : List RepositoryKnowledgeRecord) :
    Result Propagation → Prop
  | .ok q => Passing operations removed base old before q
  | .error _ => Blocked base operations

section

variable (h : Passing operations removed base old before q)
  (hnew : record.recordId ∉ before.map RepositoryKnowledgeRecord.recordId)

include h hnew

theorem marked_iff : record.recordId ∈ q.invalidated ↔ record.recordId ∈ old := by
  constructor
  · intro hmark
    rcases h.passed _ hmark with hold | hpre
    · exact hold
    · exact absurd hpre hnew
  · exact fun hold => h.grown hold

theorem passing_kept (hkept : record.recordId ∈ operations ∨ record.recordId ∈ q.invalidated ∨
      ∀ input ∈ record.inputs, input ∉ q.changed) :
    Passing operations removed base old (before ++ [record])
      { q with records := q.records ++ [mark removed old record] } where
  changed := h.changed
  due := h.due
  records := by
    have hsame : mark removed old record = mark removed q.invalidated record := by
      simp only [mark, marked_iff h hnew]
    rw [map_append, h.records, hsame]
    rfl
  grown := h.grown
  passed := by
    intro recordId hmark
    rcases h.passed recordId hmark with hold | hpre
    · exact .inl hold
    · right
      rw [map_append]
      exact mem_append_left _ hpre
  closed := by
    intro other hoth hnot hunmarked input hinp
    rcases mem_append.1 hoth with hoth | hoth
    · exact h.closed other hoth hnot hunmarked input hinp
    · obtain rfl := mem_singleton.1 hoth
      rcases hkept with hop | hmark | hunchanged
      · exact absurd hop hnot
      · exact absurd hmark hunmarked
      · have hinp := hunchanged input hinp
        rw [h.changed, Finset.mem_union, not_or] at hinp
        exact ⟨hinp.1, fun hold => hinp.2 (h.grown hold)⟩
  progress := h.progress

end

theorem passing_marked (h : Passing operations removed base old before q)
    (hsub : removed ⊆ operations) (hr : record ∈ base)
    (hnew : record.recordId ∉ before.map recordId)
    (haff : Affected base operations record.recordId)
    (hrev : record.revision ≠ uint64Max) (hunmarked : record.recordId ∉ q.invalidated)
    (hany : ∃ input ∈ record.inputs, input ∈ q.changed) :
    Passing operations removed base old (before ++ [record])
      { records := q.records ++ [{ record with
          revision := record.revision + 1
          freshness := record.nextFreshness q.changed removed }]
        invalidated := insert record.recordId q.invalidated
        changed := insert record.recordId q.changed
        progress := true } where
  changed := by
    rw [h.changed, Finset.union_insert]
  due := by
    intro recordId hmark
    rcases Finset.mem_insert.1 hmark with rfl | hmark
    · exact ⟨record, hr, rfl, haff, hrev⟩
    · exact h.due recordId hmark
  records := by
    have hrem : removed ⊆ q.changed := by
      rw [h.changed]
      exact hsub.trans Finset.subset_union_left
    have hself : mark removed (insert record.recordId q.invalidated) record =
        { record with
          revision := record.revision + 1
          freshness := record.nextFreshness q.changed removed } := by
      rw [nextFreshness_eq hrem hany, mark, if_pos (Finset.mem_insert_self _ _)]
      rfl
    have hpre : before.map (mark removed (insert record.recordId q.invalidated)) =
        before.map (mark removed q.invalidated) := by
      refine map_congr_left ?_
      intro other hoth
      have hne : other.recordId ≠ record.recordId := by
        intro he
        exact hnew (he ▸ mem_map_of_mem hoth)
      simp only [mark, Finset.mem_insert, hne, false_or]
    rw [map_append, hpre, h.records, map_singleton, hself]
  grown := h.grown.trans (Finset.subset_insert _ _)
  passed := by
    intro recordId hmark
    rw [map_append]
    rcases Finset.mem_insert.1 hmark with rfl | hmark
    · exact .inr (mem_append_right _ (by simp))
    · rcases h.passed recordId hmark with hold | hpre
      · exact .inl hold
      · exact .inr (mem_append_left _ hpre)
  closed := by
    intro other hoth hnot hoth' input hinp
    rcases mem_append.1 hoth with hoth | hoth
    · exact h.closed other hoth hnot (fun hm => hoth' (Finset.mem_insert_of_mem hm)) input
        hinp
    · obtain rfl := mem_singleton.1 hoth
      exact absurd (Finset.mem_insert_self _ _) hoth'
  progress := by
    refine iff_of_true rfl ?_
    intro he
    exact hunmarked (h.grown (he ▸ Finset.mem_insert_self _ _))

/-- A record that one of the changed records is an input of has to be marked. -/
theorem affected_of_changed (h : Marking operations base q) (hr : record ∈ base)
    (hnot : record.recordId ∉ operations) (hany : ∃ input ∈ record.inputs, input ∈ q.changed) :
    Affected base operations record.recordId := by
  obtain ⟨input, hinp, hchg⟩ := hany
  rw [h.changed, Finset.mem_union] at hchg
  refine ⟨hnot, reaches_of_input hr hinp ?_⟩
  rcases hchg with hop | hmark
  · exact .inl hop
  · obtain ⟨-, -, -, haff, -⟩ := h.due input hmark
    exact .inr haff.2

theorem invalidateRecord_goes (h : Passing operations removed base old before q)
    (hsub : removed ⊆ operations) (hr : record ∈ base)
    (hnew : record.recordId ∉ before.map recordId) :
    Goes operations removed base old (before ++ [record])
      (invalidateRecord operations removed q (mark removed old record)) := by
  unfold invalidateRecord
  rw [mark_recordId, mark_inputs]
  split
  · rename_i hkept
    refine passing_kept h hnew ?_
    rcases hkept with hop | hmark | hunchanged
    · exact .inl hop
    · exact .inr (.inl hmark)
    · refine .inr (.inr ?_)
      simpa using hunchanged
  · rename_i hdue
    rw [not_or, not_or] at hdue
    obtain ⟨hnot, hunmarked, hany⟩ := hdue
    have hany : ∃ input ∈ record.inputs, input ∈ q.changed := by simpa using hany
    have haff := affected_of_changed h.toMarking hr hnot hany
    have hplain : mark removed old record = record := by
      rw [mark, if_neg fun hold => hunmarked (h.grown hold)]
    rw [hplain]
    by_cases hrev : record.revision ≠ uint64Max
    · rw [ensure, if_pos hrev]
      exact passing_marked h hsub hr hnew haff hrev hunmarked hany
    · rw [ensure, if_neg hrev]
      exact ⟨record, hr, haff, not_ne_iff.1 hrev⟩

theorem pass_goes_on {todo : List RepositoryKnowledgeRecord} (hsub : removed ⊆ operations)
    (hd : Distinct recordId base) (hsplit : base = before ++ todo)
    (h : Passing operations removed base old before q) : Goes operations removed base old base
      ((todo.map (mark removed old)).foldlM (invalidateRecord operations removed) q) := by
  induction todo generalizing before q with
  | nil =>
    obtain rfl : base = before := by simpa using hsplit
    exact h
  | cons record _ ih =>
    have hr : record ∈ base := by
      rw [hsplit]
      simp
    have hnew : record.recordId ∉ before.map recordId := by
      unfold Distinct at hd
      rw [hsplit, map_append, nodup_append] at hd
      intro hmem
      exact hd.2.2 _ hmem _ (mem_map_of_mem mem_cons_self) rfl
    have hstep := invalidateRecord_goes h hsub hr hnew
    rw [map_cons, foldlM_cons]
    cases hres : invalidateRecord operations removed q (mark removed old record) with
    | error =>
      rw [hres] at hstep
      exact hstep
    | ok =>
      rw [hres] at hstep
      exact ih (by rw [hsplit, append_assoc]; rfl) hstep

end Pass

/-- Between two passes all records are there, with the marks that were made. -/
structure Between (operations removed : Finset KnowledgeRecordId)
    (base : List RepositoryKnowledgeRecord) (p : Propagation) : Prop
    extends Marking operations base p where
  records : p.records = base.map (mark removed p.invalidated)

section Passes

variable {p : Propagation}

theorem pass_outcome (hsub : removed ⊆ operations)
    (hd : Distinct recordId base)
    (h : Between operations removed base p) :
    Goes operations removed base p.invalidated base (pass operations removed p) := by
  unfold pass
  rw [h.records]
  refine pass_goes_on hsub hd (nil_append base).symm ?_
  exact { h with
    records := rfl
    grown := subset_rfl
    passed := fun _ hmark => .inl hmark
    closed := fun _ hmem => absurd hmem not_mem_nil
    progress := iff_of_false nofun (not_ne_iff.2 rfl) }

theorem marks_card (h : Marking operations base p) : p.invalidated.card ≤ base.length := by
  have hsub : p.invalidated ⊆ (base.map recordId).toFinset := by
    intro recordId hmark
    obtain ⟨_, hr, rfl, -⟩ := h.due recordId hmark
    exact mem_toFinset.2 (mem_map_of_mem hr)
  calc p.invalidated.card
      ≤ (base.map recordId).toFinset.card := Finset.card_le_card hsub
    _ ≤ (base.map recordId).length := toFinset_card_le _
    _ = base.length := length_map _

/-- What the passes come to: exactly the affected records are marked, or one of them has no
next revision. -/
def Settled (operations removed : Finset KnowledgeRecordId)
    (base : List RepositoryKnowledgeRecord) : Result Propagation → Prop
  | .ok q => q.records = base.map (mark removed q.invalidated) ∧
      (∀ recordId, recordId ∈ q.invalidated ↔ Affected base operations recordId) ∧
      ¬ Blocked base operations
  | .error _ => Blocked base operations

theorem settled_of_quiet (hd : Distinct recordId base)
    {q : Propagation} (h : Passing operations removed base p.invalidated base q)
    (hquiet : q.progress = false) : Settled operations removed base (.ok q) := by
  have hsame : p.invalidated = q.invalidated := by
    by_contra hne
    rw [h.progress.2 hne] at hquiet
    cases hquiet
  have hmarked (recordId : KnowledgeRecordId) :
      recordId ∈ q.invalidated ↔ Affected base operations recordId := by
    constructor
    · intro hmark
      obtain ⟨-, -, -, haff, -⟩ := h.due recordId hmark
      exact haff
    · intro haff
      refine reaches_closed ?_ haff.1 haff.2
      intro record hr hnot hunmarked input hinp
      rw [← hsame]
      exact h.closed record hr hnot hunmarked input hinp
  refine ⟨h.records, hmarked, ?_⟩
  rintro ⟨record, hr, haff, hrev⟩
  obtain ⟨_, hmem, hid, -, hnext⟩ := h.due record.recordId ((hmarked _).2 haff)
  obtain rfl := inj_on_of_nodup_map hd hmem hr hid
  exact hnext hrev

section

variable (hsub : removed ⊆ operations) (hd : Distinct RepositoryKnowledgeRecord.recordId base)

include hsub hd

/-- Every pass with progress makes a new mark, so that the passes end. -/
theorem propagate_settled (fuel : ℕ)
    (h : Between operations removed base p) (hfuel : base.length < fuel + p.invalidated.card) :
    ∃ result, propagate operations removed fuel p = some result ∧
      Settled operations removed base result := by
  induction fuel generalizing p with
  | zero =>
    have hcard := marks_card h.toMarking
    omega
  | succ _ ih =>
    have hpass := pass_outcome hsub hd h
    unfold propagate
    cases hres : pass operations removed p with
    | error error =>
      rw [hres] at hpass
      exact ⟨.error error, rfl, hpass⟩
    | ok next =>
      rw [hres] at hpass
      have hpass : Passing operations removed base p.invalidated base next := hpass
      cases hprog : next.progress with
      | false =>
        refine ⟨.ok next, ?_, settled_of_quiet hd hpass hprog⟩
        simp [hprog]
      | true =>
        have hgrown : p.invalidated ⊂ next.invalidated :=
          Finset.ssubset_iff_subset_ne.2 ⟨hpass.grown, hpass.progress.1 hprog⟩
        have hcard := Finset.card_lt_card hgrown
        obtain ⟨result, hnext, hset⟩ :=
          ih ⟨hpass.toMarking, hpass.records⟩ (by omega)
        refine ⟨result, ?_, hset⟩
        simp [hprog, hnext]

theorem propagation_settled {fuel : ℕ}
    (hfuel : base.length < fuel) :
    ∃ result, propagate operations removed fuel { records := base, changed := operations } =
      some result ∧ Settled operations removed base result := by
  refine propagate_settled hsub hd fuel ⟨⟨?_, ?_⟩, ?_⟩ (by simpa using hfuel)
  · simp
  · simp
  · have hid : mark removed ∅ = id := by
      funext record
      simp [mark]
    rw [hid, map_id]

theorem propagateAll_settled :
    Settled operations removed base (propagateAll operations removed base) := by
  obtain ⟨_, hres, hset⟩ := propagation_settled hsub hd (Nat.lt_succ_self base.length)
  unfold propagateAll
  rw [hres]
  exact hset

/-- The passes over a rearranged list mark the same records. -/
theorem propagateAll_perm
    {others : List RepositoryKnowledgeRecord} (hp : base.Perm others) {q : Propagation}
    (h : propagateAll operations removed base = .ok q) :
    ∃ r, propagateAll operations removed others = .ok r ∧ q.records.Perm r.records := by
  have hbase := propagateAll_settled hsub hd
  rw [h] at hbase
  obtain ⟨hrec, hmark, hfree⟩ := hbase
  have hsame (recordId : KnowledgeRecordId) :
      Affected others operations recordId ↔ Affected base operations recordId := by
    have hto : ∀ record ∈ others, record.recordId ∉ operations → record ∈ base :=
      fun record hr _ => hp.mem_iff.2 hr
    have hfrom : ∀ record ∈ base, record.recordId ∉ operations → record ∈ others :=
      fun record hr _ => hp.mem_iff.1 hr
    constructor
    · rintro ⟨hnot, hreach⟩
      exact ⟨hnot, reaches_transfer hto hnot hreach⟩
    · rintro ⟨hnot, hreach⟩
      exact ⟨hnot, reaches_transfer hfrom hnot hreach⟩
  have hoth := propagateAll_settled hsub ((hp.map _).nodup_iff.1 hd)
  cases hres : propagateAll operations removed others with
  | error =>
    rw [hres] at hoth
    obtain ⟨record, hr, haff, hrev⟩ := hoth
    exact absurd ⟨record, hp.mem_iff.2 hr, (hsame _).1 haff, hrev⟩ hfree
  | ok r =>
    rw [hres] at hoth
    obtain ⟨hrec', hmark', -⟩ := hoth
    have hmarks : q.invalidated = r.invalidated := by
      ext recordId
      rw [hmark, hmark', hsame]
    refine ⟨r, rfl, ?_⟩
    rw [hrec, hrec', hmarks]
    exact hp.map _

end

end Passes

end Knowledge
