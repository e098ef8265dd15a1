import AiForge.KnowledgeValidity

/-! # Updates of a knowledge graph

An update of a valid graph is decided record by record: named records are given or gone, what
depends on them is invalidated once, and everything else stays. -/
namespace Knowledge

open KeyedList List Money SortedBy Staged RepositoryKnowledgeRecord

variable {graph result : RepositoryKnowledgeGraph} {update : RepositoryKnowledgeUpdate}
variable {limits : RepositoryKnowledgeLimits}
variable {records others next base : List RepositoryKnowledgeRecord}
variable {record : RepositoryKnowledgeRecord} {replacement : RepositoryKnowledgeReplacement}
variable {removal : KnowledgeRecordId}

theorem claimOperation_claims (recordId : KnowledgeRecordId)
    (claimed next : Finset KnowledgeRecordId) (h : claimOperation claimed recordId = .ok next) :
    True ∧ id recordId ∉ id claimed ∧ id next = insert (id recordId) (id claimed) := by
  obtain ⟨hnew, h⟩ := guarded h
  cases h
  exact ⟨trivial, hnew, rfl⟩

theorem operations_eq {operations : Finset KnowledgeRecordId}
    (h : update.named.foldlM claimOperation ∅ = .ok operations) :
    update.named.Nodup ∧ operations = update.named.toFinset := by
  obtain ⟨-, hnd, -, hend⟩ := foldlM_claims claimOperation_claims h
  rw [map_id] at hnd hend
  exact ⟨hnd, by simpa using hend⟩

theorem keeps_recordId (record other : RepositoryKnowledgeRecord)
    (_ : other.recordId = record.recordId) : record.recordId = record.recordId := rfl

section

variable (hd : Distinct RepositoryKnowledgeRecord.recordId records)

include hd

theorem replaceRecord_step (h : replaceRecord records replacement = .ok next) :
    Distinct recordId next ∧ ∀ r, r ∈ next ↔
      (r ∈ records ∧ r.recordId ≠ replacement.record.recordId) ∨ r = replacement.record := by
  unfold replaceRecord at h
  split at h
  · obtain ⟨⟨hnew, -⟩, h⟩ := guarded h
    cases h
    refine ⟨distinct_snoc hd hnew, ?_⟩
    intro r
    rw [mem_append, mem_singleton]
    constructor
    · rintro (hr | rfl)
      · exact .inl ⟨hr, lookup_none.1 hnew r hr⟩
      · exact .inr rfl
    · rintro (⟨hr, -⟩ | rfl)
      · exact .inl hr
      · exact .inr rfl
  · obtain ⟨hfnd, h⟩ := guarded h
    cases h
    obtain ⟨_, hold, -⟩ := Option.any_eq_true _ _ |>.1 hfnd
    have hkeeps := keeps_recordId replacement.record
    refine ⟨distinct_update hkeeps hd, ?_⟩
    intro r
    constructor
    · intro hr
      rcases mem_update hkeeps hd hr with ⟨hne, hr⟩ | ⟨-, -, rfl⟩
      · exact .inl ⟨hr, hne⟩
      · exact .inr rfl
    · rintro (⟨hr, hne⟩ | rfl)
      · exact mem_update_ne hkeeps hd hr hne
      · exact mem_update_self (f := fun _ => replacement.record) hkeeps hold

theorem removeRecord_step (h : removeRecord records removal = .ok next) :
    Distinct recordId next ∧
      ∀ r, r ∈ next ↔ r ∈ records ∧ r.recordId ≠ removal := by
  obtain ⟨-, h⟩ := guarded h
  cases h
  rw [eraseP_eq_filter hd]
  refine ⟨hd.sublist (filter_sublist.map _), ?_⟩
  intro r
  rw [mem_filter, decide_eq_true_eq]

theorem replacements_step {replacements : List RepositoryKnowledgeReplacement}
    (hn : (replacements.map fun replacement => replacement.record.recordId).Nodup)
    (h : replacements.foldlM replaceRecord records = .ok next) :
    Distinct recordId next ∧ ∀ r, r ∈ next ↔
      (r ∈ records ∧
        r.recordId ∉ replacements.map fun replacement => replacement.record.recordId) ∨
      ∃ replacement ∈ replacements, replacement.record = r := by
  induction replacements generalizing records with
  | nil =>
    cases h
    exact ⟨hd, by simp⟩
  | cons first _ ih =>
    obtain ⟨_, hfst, hrest⟩ := foldlM_cons_ok.1 h
    obtain ⟨hnew, hn⟩ := nodup_cons.1 hn
    obtain ⟨hd, hmid⟩ := replaceRecord_step hd hfst
    obtain ⟨hd, hnext⟩ := ih hd hn hrest
    refine ⟨hd, ?_⟩
    intro r
    rw [hnext, hmid]
    constructor
    · rintro (⟨⟨hr, hne⟩ | rfl, hnot⟩ | ⟨replacement, hmem, rfl⟩)
      · exact .inl ⟨hr, not_mem_cons_of_ne_of_not_mem hne hnot⟩
      · exact .inr ⟨first, mem_cons_self, rfl⟩
      · exact .inr ⟨replacement, mem_cons_of_mem _ hmem, rfl⟩
    · rintro (⟨hr, hnot⟩ | ⟨replacement, hmem, rfl⟩)
      · obtain ⟨hne, hnot⟩ := ne_and_not_mem_of_not_mem_cons hnot
        exact .inl ⟨.inl ⟨hr, hne⟩, hnot⟩
      · rcases mem_cons.1 hmem with rfl | hmem
        · exact .inl ⟨.inr rfl, hnew⟩
        · exact .inr ⟨replacement, hmem, rfl⟩

theorem removals_step {removals : List KnowledgeRecordId}
    (h : removals.foldlM removeRecord records = .ok next) :
    Distinct recordId next ∧
      ∀ r, r ∈ next ↔ r ∈ records ∧ r.recordId ∉ removals := by
  induction removals generalizing records with
  | nil =>
    cases h
    exact ⟨hd, by simp⟩
  | cons _ _ ih =>
    obtain ⟨_, hfst, hrest⟩ := foldlM_cons_ok.1 h
    obtain ⟨hd, hmid⟩ := removeRecord_step hd hfst
    obtain ⟨hd, hnext⟩ := ih hd hrest
    refine ⟨hd, ?_⟩
    intro r
    rw [hnext, hmid, mem_cons, not_or, and_assoc]

end

/-- The records after the replacements and the removals of an update. -/
def staged (update : RepositoryKnowledgeUpdate) (records : List RepositoryKnowledgeRecord) :
    Result (List RepositoryKnowledgeRecord) := do
  let replaced ← update.replacements.foldlM replaceRecord records
  update.removals.foldlM removeRecord replaced

/-- The records of the graph that the update does not name, and the given ones. -/
structure Staging (update : RepositoryKnowledgeUpdate)
    (records base : List RepositoryKnowledgeRecord) : Prop where
  distinct : Distinct RepositoryKnowledgeRecord.recordId base
  mem : ∀ r, r ∈ base ↔ (r ∈ records ∧ r.recordId ∉ update.named) ∨
    ∃ replacement ∈ update.replacements, replacement.record = r

theorem staged_staging (hd : Distinct recordId records)
    (hn : update.named.Nodup) (h : staged update records = .ok base) :
    Staging update records base := by
  obtain ⟨_, hrepl, hbase⟩ := bind_ok.1 h
  unfold RepositoryKnowledgeUpdate.named at hn
  rw [nodup_append] at hn
  obtain ⟨hn, -, happart⟩ := hn
  obtain ⟨hd, hrepl⟩ := replacements_step hd hn hrepl
  obtain ⟨hd, hbase⟩ := removals_step hd hbase
  refine ⟨hd, ?_⟩
  intro r
  unfold RepositoryKnowledgeUpdate.named
  rw [hbase, hrepl, mem_append, not_or]
  constructor
  · rintro ⟨⟨hr, hnot⟩ | hgiven, hkept⟩
    · exact .inl ⟨hr, hnot, hkept⟩
    · exact .inr hgiven
  · rintro (⟨hr, hnot, hkept⟩ | ⟨replacement, hmem, rfl⟩)
    · exact ⟨.inl ⟨hr, hnot⟩, hkept⟩
    · refine ⟨.inr ⟨replacement, hmem, rfl⟩, ?_⟩
      intro hrem
      exact happart _ (mem_map_of_mem hmem) _ hrem rfl

section Rearranged

/-- Two lists of the same records. -/
def Rearranged (records others : List RepositoryKnowledgeRecord) : Prop :=
  records.Perm others ∧ Distinct RepositoryKnowledgeRecord.recordId records

theorem rearranged_of_mem (hd : Distinct recordId records)
    (hd' : Distinct recordId others) (h : ∀ r, r ∈ records ↔ r ∈ others) :
    Rearranged records others :=
  ⟨(perm_ext_iff_of_nodup hd.of_map hd'.of_map).2 h, hd⟩

theorem replaceRecord_perm (hp : Rearranged records others)
    (h : replaceRecord records replacement = .ok next) :
    ∃ next', replaceRecord others replacement = .ok next' ∧ Rearranged next next' := by
  have hd : Distinct recordId others := (hp.1.map _).nodup_iff.1 hp.2
  have hlook := lookup_perm (k := replacement.record.recordId) hp.1 hp.2
  have hok : ∃ next', replaceRecord others replacement = .ok next' := by
    unfold replaceRecord at h ⊢
    dsimp only at h ⊢
    rw [← hlook]
    cases hexp : replacement.expectedRevision with
    | none | some =>
      rw [hexp] at h
      obtain ⟨hguard, -⟩ := guarded h
      exact ⟨_, ensured hguard rfl⟩
  obtain ⟨next', h'⟩ := hok
  obtain ⟨hnext, hmem⟩ := replaceRecord_step hp.2 h
  obtain ⟨hnext', hmem'⟩ := replaceRecord_step hd h'
  refine ⟨next', h', rearranged_of_mem hnext hnext' ?_⟩
  intro r
  rw [hmem, hmem', hp.1.mem_iff]

theorem removeRecord_perm (hp : Rearranged records others)
    (h : removeRecord records removal = .ok next) :
    ∃ next', removeRecord others removal = .ok next' ∧ Rearranged next next' := by
  have hd : Distinct recordId others := (hp.1.map _).nodup_iff.1 hp.2
  have hok : ∃ next', removeRecord others removal = .ok next' := by
    unfold removeRecord at h ⊢
    rw [← lookup_perm hp.1 hp.2]
    obtain ⟨hguard, -⟩ := guarded h
    exact ⟨_, ensured hguard rfl⟩
  obtain ⟨next', h'⟩ := hok
  obtain ⟨hnext, hmem⟩ := removeRecord_step hp.2 h
  obtain ⟨hnext', hmem'⟩ := removeRecord_step hd h'
  refine ⟨next', h', rearranged_of_mem hnext hnext' ?_⟩
  intro r
  rw [hmem, hmem', hp.1.mem_iff]

theorem staged_perm (hp : Rearranged records others) (h : staged update records = .ok base) :
    ∃ base', staged update others = .ok base' ∧ Rearranged base base' := by
  obtain ⟨_, hrepl, hbase⟩ := bind_ok.1 h
  obtain ⟨replaced', hrepl', hp⟩ :=
    foldlM_simulates (R := fun _ => Rearranged) (g := replaceRecord)
      (fun _ _ _ _ _ hp h => replaceRecord_perm hp h) hp hrepl
  obtain ⟨base', hbase', hp⟩ :=
    foldlM_simulates (R := fun _ => Rearranged) (g := removeRecord)
      (fun _ _ _ _ _ hp h => removeRecord_perm hp h) hp hbase
  exact ⟨base', bind_ok.2 ⟨replaced', hrepl', hbase'⟩, hp⟩

end Rearranged

def RepositoryKnowledgeUpdate.operations (update : RepositoryKnowledgeUpdate) :
    Finset KnowledgeRecordId :=
  update.named.toFinset

def RepositoryKnowledgeUpdate.removed (update : RepositoryKnowledgeUpdate) :
    Finset KnowledgeRecordId :=
  update.removals.toFinset

def advanced (graph : RepositoryKnowledgeGraph) (records : List RepositoryKnowledgeRecord) :
    RepositoryKnowledgeGraph :=
  { graph with
    generation := graph.generation + 1
    records := sortBy RepositoryKnowledgeRecord.recordId records }

/-- An update passes its own checks against a valid graph, and its passes come to an end. -/
structure Accepted (graph : RepositoryKnowledgeGraph) (update : RepositoryKnowledgeUpdate)
    (limits : RepositoryKnowledgeLimits) (base : List RepositoryKnowledgeRecord)
    (propagated : Propagation) : Prop where
  valid : Valid graph limits
  expected : update.expectedGeneration = graph.generation
  nonempty : ¬ (update.replacements = [] ∧ update.removals = [])
  bounded : update.replacements.length ≤ limits.maximumRecords ∧
    update.removals.length ≤ limits.maximumRecords
  generation : graph.generation ≠ uint64Max
  named : update.named.foldlM claimOperation ∅ = .ok update.operations
  staged : staged update graph.records = .ok base
  propagated : propagateAll update.operations update.removed base = .ok propagated

theorem applyUpdate_eq_ok : applyUpdate graph update limits = .ok result ↔
    ∃ base propagated, Accepted graph update limits base propagated ∧
      result = advanced graph propagated.records ∧ Valid result limits := by
  constructor
  · intro h
    obtain ⟨estimate, hval, h⟩ := bind_ok.1 h
    obtain ⟨hexp, h⟩ := guarded h
    obtain ⟨hnonempty, h⟩ := guarded h
    obtain ⟨hbd, h⟩ := guarded h
    obtain ⟨hgen, h⟩ := guarded h
    obtain ⟨_, hnamed, h⟩ := bind_ok.1 h
    obtain ⟨-, rfl⟩ := operations_eq hnamed
    obtain ⟨replaced, hrepl, h⟩ := bind_ok.1 h
    obtain ⟨base, hbase, h⟩ := bind_ok.1 h
    obtain ⟨propagated, hpropagated, h⟩ := bind_ok.1 h
    obtain ⟨last, hlast, h⟩ := bind_ok.1 h
    cases h
    refine ⟨base, propagated, ?_, rfl, last, hlast⟩
    exact {
      valid := ⟨estimate, hval⟩
      expected := hexp
      nonempty := hnonempty
      bounded := hbd
      generation := hgen
      named := hnamed
      staged := bind_ok.2 ⟨replaced, hrepl, hbase⟩
      propagated := hpropagated }
  · rintro ⟨base, propagated, h, rfl, last, hlast⟩
    obtain ⟨estimate, hval⟩ := h.valid
    obtain ⟨replaced, hrepl, hbase⟩ := bind_ok.1 h.staged
    refine bind_ok.2 ⟨estimate, hval, ensured h.expected ?_⟩
    refine ensured h.nonempty ?_
    refine ensured h.bounded ?_
    refine ensured h.generation (bind_ok.2 ⟨_, h.named, ?_⟩)
    refine bind_ok.2 ⟨replaced, hrepl, bind_ok.2 ⟨base, hbase, ?_⟩⟩
    exact bind_ok.2 ⟨propagated, h.propagated, bind_ok.2 ⟨last, hlast, rfl⟩⟩

theorem removed_subset : update.removed ⊆ update.operations := by
  intro recordId hrem
  refine mem_toFinset.2 (mem_append_right _ ?_)
  exact mem_toFinset.1 hrem

section Accepted

variable {propagated : Propagation}

theorem Accepted.staging (h : Accepted graph update limits base propagated) :
    Staging update graph.records base := by
  have hd := (valid_iff.1 h.valid).scannable.distinct
  exact staged_staging hd (operations_eq h.named).1 h.staged

theorem Accepted.settled (h : Accepted graph update limits base propagated) :
    Settled update.operations update.removed base (.ok propagated) :=
  h.propagated ▸ propagateAll_settled removed_subset h.staging.distinct

/-- What a record of the base depends on is the same in the graph. -/
theorem Staging.reaches_iff (h : Staging update records base) {recordId : KnowledgeRecordId}
    (hnot : recordId ∉ update.operations) :
    Reaches base update.operations recordId ↔ Reaches records update.operations recordId := by
  constructor
  · refine reaches_transfer ?_ hnot
    intro record hr hoth
    rcases (h.mem record).1 hr with ⟨hr, -⟩ | ⟨_, hmem, rfl⟩
    · exact hr
    · refine absurd (mem_toFinset.2 (mem_append_left _ ?_)) hoth
      exact mem_map_of_mem hmem
  · refine reaches_transfer ?_ hnot
    intro record hr hoth
    exact (h.mem record).2 (.inl ⟨hr, fun hnamed => hoth (mem_toFinset.2 hnamed)⟩)

section

variable (h : Accepted graph update limits base propagated)

include h

theorem Accepted.mark_named (hnamed : record.recordId ∈ update.named) :
    mark update.removed propagated.invalidated record = record := by
  obtain ⟨-, hmarked, -⟩ := h.settled
  unfold mark
  rw [if_neg]
  intro hmark
  exact ((hmarked _).1 hmark).1 (mem_toFinset.2 hnamed)

theorem Accepted.mark_other (hnot : record.recordId ∉ update.named) :
    (¬ Reaches graph.records update.operations record.recordId ∧
      mark update.removed propagated.invalidated record = record) ∨
    (Reaches graph.records update.operations record.recordId ∧
      mark update.removed propagated.invalidated record = record.invalidated update.removed) := by
  obtain ⟨-, hmarked, -⟩ := h.settled
  have hnot : record.recordId ∉ update.operations := fun hop => hnot (mem_toFinset.1 hop)
  have hreach := h.staging.reaches_iff hnot
  by_cases hr : Reaches graph.records update.operations record.recordId
  · refine .inr ⟨hr, if_pos ?_⟩
    exact (hmarked _).2 ⟨hnot, hreach.2 hr⟩
  · refine .inl ⟨hr, if_neg ?_⟩
    intro hmark
    exact hr (hreach.1 ((hmarked _).1 hmark).2)

theorem Accepted.mem_advanced
    {after : RepositoryKnowledgeRecord} : after ∈ (advanced graph propagated.records).records ↔
      ∃ record ∈ base, mark update.removed propagated.invalidated record = after := by
  obtain ⟨hrec, -, -⟩ := h.settled
  unfold advanced
  rw [mem_sortBy, hrec, mem_map]

/-- The same update of the rearranged records. -/
theorem Accepted.rearranged (hp : graph.records.Perm others) :
    ∃ base' propagated', Accepted { graph with records := others } update limits base' propagated' ∧
      advanced { graph with records := others } propagated'.records =
        advanced graph propagated.records := by
  have hd := (valid_iff.1 h.valid).scannable.distinct
  obtain ⟨base', hbase', hbases, hbase⟩ := staged_perm ⟨hp, hd⟩ h.staged
  obtain ⟨propagated', hpropagated', hrec⟩ :=
    propagateAll_perm removed_subset hbase hbases h.propagated
  refine ⟨base', propagated', ?_, ?_⟩
  · exact { h with
      valid := valid_perm hp h.valid
      staged := hbase'
      propagated := hpropagated' }
  · have hnd : (propagated.records.map recordId).Nodup := by
      obtain ⟨hmap, -, -⟩ := h.settled
      have hids : propagated.records.map recordId =
          base.map recordId := by
        rw [hmap, map_map]
        exact map_congr_left fun record _ => mark_recordId _
      rw [hids]
      exact hbase
    have hsame := sortBy_eq_of_perm hrec hnd
    unfold advanced
    rw [hsame]

end

end Accepted

theorem invalidated_ne (removed : Finset KnowledgeRecordId) :
    record.invalidated removed ≠ record := by
  intro he
  have hrev : record.revision + 1 = record.revision :=
    congrArg revision he
  omega

/-- What an update leaves of the graph: the given records, none of the removed ones, and every
other record, invalidated once if it depends on an operation and untouched otherwise. -/
structure Updated (graph : RepositoryKnowledgeGraph) (update : RepositoryKnowledgeUpdate)
    (result : RepositoryKnowledgeGraph) : Prop where
  repositoryId : result.repositoryId = graph.repositoryId
  generation : result.generation = graph.generation + 1
  given : ∀ replacement ∈ update.replacements, replacement.record ∈ result.records
  kept : ∀ record ∈ graph.records, record.recordId ∉ update.named →
    ∃ after ∈ result.records, after.recordId = record.recordId ∧
      (after = record ↔ ¬ Reaches graph.records update.operations record.recordId) ∧
      (Reaches graph.records update.operations record.recordId →
        after = record.invalidated update.removed)
  origin : ∀ after ∈ result.records, after.recordId ∉ update.removals ∧
    ((∃ replacement ∈ update.replacements, replacement.record = after) ∨
      after.recordId ∉ update.named ∧ ∃ record ∈ graph.records, record.recordId = after.recordId)

theorem Accepted.updated {propagated : Propagation}
    (h : Accepted graph update limits base propagated) :
    Updated graph update (advanced graph propagated.records) where
  repositoryId := rfl
  generation := rfl
  given := by
    intro replacement hmem
    have hnamed : replacement.record.recordId ∈ update.named :=
      mem_append_left _ (mem_map_of_mem hmem)
    refine h.mem_advanced.2 ⟨replacement.record, ?_, h.mark_named hnamed⟩
    exact (h.staging.mem _).2 (.inr ⟨replacement, hmem, rfl⟩)
  kept := by
    intro record hr hnot
    have hbase := (h.staging.mem record).2 (.inl ⟨hr, hnot⟩)
    refine ⟨_, h.mem_advanced.2 ⟨record, hbase, rfl⟩, mark_recordId _, ?_⟩
    rcases h.mark_other hnot with ⟨hfree, hmark⟩ | ⟨hreach, hmark⟩
    · rw [hmark]
      exact ⟨iff_of_true rfl hfree, fun hreach => absurd hreach hfree⟩
    · rw [hmark]
      exact ⟨iff_of_false (invalidated_ne _) (not_not.2 hreach), fun _ => rfl⟩
  origin := by
    intro after haft
    obtain ⟨record, hr, rfl⟩ := h.mem_advanced.1 haft
    rw [mark_recordId]
    rcases (h.staging.mem record).1 hr with ⟨hr, hnot⟩ | ⟨replacement, hmem, rfl⟩
    · exact ⟨fun hrem => hnot (mem_append_right _ hrem),
        .inr ⟨hnot, record, hr, rfl⟩⟩
    · have hgiven := mem_map_of_mem (f := fun replacement : RepositoryKnowledgeReplacement =>
        replacement.record.recordId) hmem
      have hnd := (operations_eq h.named).1
      unfold RepositoryKnowledgeUpdate.named at hnd
      rw [nodup_append] at hnd
      refine ⟨fun hrem => hnd.2.2 _ hgiven _ hrem rfl, .inl ⟨replacement, hmem, ?_⟩⟩
      exact (h.mark_named (mem_append_left _ hgiven)).symm

theorem applyUpdate_perm (graph : RepositoryKnowledgeGraph) (hp : graph.records.Perm others)
    (h : applyUpdate graph update limits = .ok result) :
    applyUpdate { graph with records := others } update limits = .ok result := by
  obtain ⟨_, _, hacc, rfl, hval⟩ := applyUpdate_eq_ok.1 h
  obtain ⟨base', propagated', hacc', hsame⟩ := hacc.rearranged hp
  exact applyUpdate_eq_ok.2 ⟨base', propagated', hacc', hsame.symm, hval⟩

/-- The passes over the records of any update of a valid graph end. -/
theorem passes_end (hval : Valid graph limits) (hn : update.named.Nodup)
    (hstg : staged update graph.records = .ok base) {fuel : ℕ} (hfuel : base.length < fuel) :
    ∃ outcome, propagate update.operations update.removed fuel
      { records := base, changed := update.operations } = some outcome := by
  have hd := (valid_iff.1 hval).scannable.distinct
  have hstaging := staged_staging hd hn hstg
  obtain ⟨outcome, hend, -⟩ := propagation_settled removed_subset hstaging.distinct hfuel
  exact ⟨outcome, hend⟩

/-- An accepted update leaves a valid graph of the next generation, in which exactly what
depends on an operation was invalidated. The order of the records does not matter, and the passes
always end. -/
theorem update_preserves_and_propagates (graph : RepositoryKnowledgeGraph)
    (update : RepositoryKnowledgeUpdate) (limits : RepositoryKnowledgeLimits) :
    (∀ result, applyUpdate graph update limits = .ok result →
      Valid graph limits ∧ Valid result limits ∧ Updated graph update result) ∧
    (∀ others, graph.records.Perm others → ∀ result, applyUpdate graph update limits = .ok result ↔
      applyUpdate { graph with records := others } update limits = .ok result) ∧
    (∀ base fuel, Valid graph limits → update.named.Nodup →
      staged update graph.records = .ok base → base.length < fuel →
      ∃ outcome, propagate update.operations update.removed fuel
        { records := base, changed := update.operations } = some outcome) := by
  refine ⟨?_, ?_, ?_⟩
  · intro result h
    obtain ⟨base, _, haccepted, rfl, hvalid⟩ := applyUpdate_eq_ok.1 h
    exact ⟨haccepted.valid, hvalid, haccepted.updated⟩
  · intro others hp result
    constructor
    · exact applyUpdate_perm graph hp
    · exact applyUpdate_perm { graph with records := others } hp.symm
  · intro base fuel hvalid hn hstaged hfuel
    exact passes_end hvalid hn hstaged hfuel

def summaryRecord (recordId : KnowledgeRecordId) (revision : ℕ)
    (inputs : List KnowledgeRecordReference) (freshness : KnowledgeFreshness) :
    RepositoryKnowledgeRecord where
  recordId := recordId
  revision := revision
  payload := .semanticSummary
    ⟨⟨"file", .file, SafeText.bytesOf "file", none⟩, SafeText.bytesOf "purpose",
      SafeText.bytesOf "summary", none⟩
  provenance := {
    sourceSnapshot := ⟨"repository", ⟨"sha256", "0a", 1⟩⟩
    sources := []
    producer := ⟨SafeText.bytesOf "producer", SafeText.bytesOf "1"⟩
    createdAt := 0
    derivationInputs := inputs
    buildConfiguration := none
    derivation := if inputs = [] then .observed else .derived
    confidence := .high }
  invalidation := [.producerVersionChanged]
  freshness := freshness

def summaryGraph : RepositoryKnowledgeGraph :=
  ⟨"repository", 1, [summaryRecord "c" 1 [⟨"b", 1⟩] .current,
    summaryRecord "b" 1 [⟨"a", 1⟩] .current, summaryRecord "a" 1 [] .current]⟩

def summaryUpdate : RepositoryKnowledgeUpdate :=
  ⟨1, [⟨some 1, summaryRecord "a" 2 [] .current⟩], []⟩

def summaryResult : RepositoryKnowledgeGraph :=
  ⟨"repository", 2, [summaryRecord "a" 2 [] .current, summaryRecord "b" 2 [⟨"a", 1⟩] .stale,
    summaryRecord "c" 2 [⟨"b", 1⟩] .stale]⟩

/-- The change reaches the last record of the chain through the one in the middle. -/
theorem update_reaches_end : Updated summaryGraph summaryUpdate summaryResult := by
  have h := (update_preserves_and_propagates summaryGraph summaryUpdate {}).1 summaryResult
    (by decide +kernel)
  exact h.2.2

end Knowledge
