import AiForge.KnowledgePropagation

/-! # Validity of a knowledge graph

A graph is checked record by record, but what the check asks of it does not depend on the order
of its records. The search for dependency cycles finds one if and only if there is one. -/
namespace Knowledge

open KeyedList List Money SortedBy Staged RepositoryKnowledgeRecord KnownEntity

variable {limits : RepositoryKnowledgeLimits} {repositoryId : RepositoryId}
variable {records others : List RepositoryKnowledgeRecord} {record : RepositoryKnowledgeRecord}

/-- What the records say about entities, each with the freshness of its record. -/
def observed (records : List RepositoryKnowledgeRecord) : List KnownEntity :=
  records.flatMap fun record => record.payload.entities.map fun entity => ⟨entity, record.freshness⟩

/-- Current records agree on what an entity is. -/
def Agree (all : List KnownEntity) : Prop :=
  ∀ a ∈ all, ∀ b ∈ all, a.freshness = .current → b.freshness = .current →
    a.entityId = b.entityId → a = b

/-- The entities known after all that was observed: one for each identity, and among the
observed ones of an identity a current one, if there is any. -/
structure Noted (all known : List KnownEntity) : Prop where
  distinct : Distinct KnownEntity.entityId known
  ids : (known.map KnownEntity.entityId).toFinset = (all.map KnownEntity.entityId).toFinset
  origin : ∀ a ∈ known, a ∈ all
  current : ∀ a ∈ all, a.freshness = .current → a ∈ known

section Entities

variable {all known next : List KnownEntity} {entity : KnowledgeEntity}
variable {freshness : KnowledgeFreshness} {recordId : KnowledgeRecordId}

theorem Noted.agree (h : Noted all known) : Agree all := by
  intro a ha b hb hacurrent hbcurrent hid
  exact inj_on_of_nodup_map h.distinct (h.current a ha hacurrent) (h.current b hb hbcurrent)
    hid

theorem noted_new (h : Noted all known)
    (hnew : lookup entityId entity.entityId known = none) :
    Noted (all ++ [⟨entity, freshness⟩]) (known ++ [⟨entity, freshness⟩]) where
  distinct := distinct_snoc h.distinct hnew
  ids := by
    rw [map_append, map_append, toFinset_append, toFinset_append, h.ids]
  origin := by
    intro a ha
    rcases mem_append.1 ha with ha | ha
    · exact mem_append_left _ (h.origin a ha)
    · exact mem_append_right _ ha
  current := by
    intro a ha hcur
    rcases mem_append.1 ha with ha | ha
    · exact mem_append_left _ (h.current a ha hcur)
    · exact mem_append_right _ ha

variable {found : KnownEntity}

section

variable (h : Noted all known)
  (hfound : lookup KnownEntity.entityId entity.entityId known = some found)

include h hfound

theorem ids_again {again : KnownEntity}
    (hid : again.entityId = entity.entityId) :
    ((all ++ [again]).map entityId).toFinset =
      (all.map entityId).toFinset := by
  have hmem : entity.entityId ∈ (all.map entityId).toFinset := by
    rw [← h.ids, mem_toFinset, ← lookup_key hfound]
    exact mem_map_of_mem (lookup_mem hfound)
  have hagain : ([again].map entityId).toFinset = {entity.entityId} := by
    simp [hid]
  rw [map_append, toFinset_append, hagain, Finset.union_comm, ← Finset.insert_eq,
    Finset.insert_eq_of_mem hmem]

theorem noted_older (hold : freshness ≠ .current) : Noted (all ++ [⟨entity, freshness⟩]) known where
  distinct := h.distinct
  ids := by rw [h.ids, ids_again h hfound rfl]
  origin := fun a ha => mem_append_left _ (h.origin a ha)
  current := by
    intro a ha hcur
    rcases mem_append.1 ha with ha | ha
    · exact h.current a ha hcur
    · obtain rfl := mem_singleton.1 ha
      exact absurd hcur hold

end

theorem keeps_entityId (entity : KnowledgeEntity) (known : KnownEntity)
    (_ : known.entityId = entity.entityId) :
    (⟨entity, .current⟩ : KnownEntity).entityId = entity.entityId := rfl

theorem noted_current (h : Noted all known)
    (hfound : lookup entityId entity.entityId known = some found)
    (hagr : found.freshness = .current → found.entity = entity) :
    Noted (all ++ [⟨entity, .current⟩])
      (updateFirst entityId entity.entityId (fun _ => ⟨entity, .current⟩) known) where
  distinct := distinct_update (keeps_entityId entity) h.distinct
  ids := by
    rw [map_key_update (keeps_entityId entity), h.ids, ids_again h hfound rfl]
  origin := by
    intro a ha
    rcases mem_update (keeps_entityId entity) h.distinct ha with ⟨-, ha⟩ | ⟨-, -, rfl⟩
    · exact mem_append_left _ (h.origin a ha)
    · exact mem_append_right _ (by simp)
  current := by
    intro a ha hcur
    have hself : (⟨entity, .current⟩ : KnownEntity) ∈
        updateFirst entityId entity.entityId (fun _ => ⟨entity, .current⟩) known :=
      mem_update_self (keeps_entityId entity) hfound
    rcases mem_append.1 ha with ha | ha
    · have hknw := h.current a ha hcur
      by_cases hid : a.entityId = entity.entityId
      · -- the entity that is overridden was current and the same
        have hlook := lookup_of_mem h.distinct hknw
        rw [hid, hfound] at hlook
        cases hlook
        have hsame : found = ⟨entity, .current⟩ := by
          rw [← hagr hcur, ← hcur]
        rw [hsame]
        exact hself
      · exact mem_update_ne (keeps_entityId entity) h.distinct hknw hid
    · obtain rfl := mem_singleton.1 ha
      exact hself

theorem noteEntity_noted (h : Noted all known)
    (hnote : noteEntity recordId freshness known entity = .ok next) :
    Noted (all ++ [⟨entity, freshness⟩]) next := by
  unfold noteEntity at hnote
  split at hnote
  · rename_i hnew
    cases hnote
    exact noted_new h hnew
  · rename_i found hfound
    obtain ⟨hagr, hnote⟩ := guarded hnote
    cases hnote
    split
    · rename_i hcur
      subst hcur
      refine noted_current h hfound ?_
      intro hfresh
      by_contra hne
      exact hagr ⟨hne, hfresh, rfl⟩
    · rename_i hold
      exact noted_older h hfound hold

/-- Nothing else keeps an entity from being noted. -/
theorem noteEntity_ok (recordId : KnowledgeRecordId) (h : Noted all known)
    (hagr : Agree (all ++ [⟨entity, freshness⟩])) :
    ∃ next, noteEntity recordId freshness known entity = .ok next := by
  unfold noteEntity
  split
  · exact ⟨_, rfl⟩
  · rename_i found hfound
    have hguard : ¬ (found.entity ≠ entity ∧ found.freshness = .current ∧
        freshness = .current) := by
      rintro ⟨hne, hnew, hcur⟩
      have hmem := mem_append_left [(⟨entity, freshness⟩ : KnownEntity)]
        (h.origin found (lookup_mem hfound))
      have hsame := hagr found hmem ⟨entity, freshness⟩ (by simp) hnew hcur
        (lookup_key hfound)
      exact hne (congrArg KnownEntity.entity hsame)
    rw [ensure, if_pos hguard]
    exact ⟨_, rfl⟩

theorem noteEntities_noted {entities : List KnowledgeEntity} (h : Noted all known)
    (hnote : entities.foldlM (noteEntity recordId freshness) known = .ok next) :
    Noted (all ++ entities.map fun entity => ⟨entity, freshness⟩) next := by
  induction entities generalizing all known with
  | nil =>
    cases hnote
    simpa using h
  | cons _ _ ih =>
    obtain ⟨_, hfst, hrest⟩ := foldlM_cons_ok.1 hnote
    simpa using ih (noteEntity_noted h hfst) hrest

theorem agree_append_left {more : List KnownEntity} (h : Agree (all ++ more)) : Agree all :=
  fun a ha b hb => h a (mem_append_left _ ha) b (mem_append_left _ hb)

theorem noteEntities_ok (recordId : KnowledgeRecordId) {entities : List KnowledgeEntity}
    (h : Noted all known)
    (hagr : Agree (all ++ entities.map fun entity => ⟨entity, freshness⟩)) :
    ∃ next, entities.foldlM (noteEntity recordId freshness) known = .ok next := by
  induction entities generalizing all known with
  | nil => exact ⟨known, rfl⟩
  | cons entity entities ih =>
    have hsplit : all ++ (entity :: entities).map (fun entity => ⟨entity, freshness⟩) =
        all ++ [(⟨entity, freshness⟩ : KnownEntity)] ++
          entities.map fun entity => ⟨entity, freshness⟩ := by simp
    rw [hsplit] at hagr
    obtain ⟨middle, hfst⟩ := noteEntity_ok recordId h (agree_append_left hagr)
    obtain ⟨next, hrest⟩ := ih (noteEntity_noted h hfst) hagr
    exact ⟨next, foldlM_cons_ok.2 ⟨middle, hfst, hrest⟩⟩

end Entities

/-- The size of a record that its check accepts. -/
def inlineSize (repositoryId : RepositoryId) (limits : RepositoryKnowledgeLimits)
    (record : RepositoryKnowledgeRecord) : ℕ :=
  match validateRecord record repositoryId limits with
  | .ok bytes => bytes
  | .error _ => 0

def totalSize (repositoryId : RepositoryId) (limits : RepositoryKnowledgeLimits)
    (records : List RepositoryKnowledgeRecord) : ℕ :=
  (records.map (inlineSize repositoryId limits)).sum

/-- What the scan asks of the records, in no order. -/
structure Scannable (repositoryId : RepositoryId) (limits : RepositoryKnowledgeLimits)
    (records : List RepositoryKnowledgeRecord) : Prop where
  distinct : Distinct RepositoryKnowledgeRecord.recordId records
  valid : ∀ record ∈ records, ∃ bytes, validateRecord record repositoryId limits = .ok bytes
  bounded : totalSize repositoryId limits records ≤ limits.maximumTotalInlineBytes ∨ records = []
  counted : totalSize repositoryId limits records ≤ uint64Max
  agree : Agree (observed records)

structure Scanned (repositoryId : RepositoryId) (limits : RepositoryKnowledgeLimits)
    (records : List RepositoryKnowledgeRecord) (scan : GraphScan) : Prop where
  recordIds : scan.recordIds = (records.map RepositoryKnowledgeRecord.recordId).toFinset
  inlineBytes : scan.inlineBytes = totalSize repositoryId limits records
  entities : Noted (observed records) scan.entities

section Scan

variable {scan next : GraphScan}

theorem addChecked_eq_some {total value sum : ℕ} (htot : total ≤ uint64Max) :
    addChecked total value = some sum ↔ sum = total + value ∧ total + value ≤ uint64Max := by
  unfold addChecked
  split
  · rename_i hover
    refine iff_of_false nofun ?_
    rintro ⟨-, _⟩
    omega
  · rename_i hfits
    rw [Option.some.injEq]
    constructor
    · rintro rfl
      exact ⟨rfl, by omega⟩
    · rintro ⟨rfl, -⟩
      rfl

theorem observed_snoc (records : List RepositoryKnowledgeRecord)
    (record : RepositoryKnowledgeRecord) : observed (records ++ [record]) = observed records ++
      record.payload.entities.map fun entity => ⟨entity, record.freshness⟩ := by
  simp [observed]

theorem totalSize_snoc (repositoryId : RepositoryId) (limits : RepositoryKnowledgeLimits)
    (records : List RepositoryKnowledgeRecord) (record : RepositoryKnowledgeRecord) :
    totalSize repositoryId limits (records ++ [record]) =
      totalSize repositoryId limits records + inlineSize repositoryId limits record := by
  simp [totalSize]

theorem inlineSize_eq {bytes : ℕ} (h : validateRecord record repositoryId limits = .ok bytes) :
    inlineSize repositoryId limits record = bytes := by
  unfold inlineSize
  rw [h]

theorem scanned_step (hs : Scannable repositoryId limits records)
    (h : Scanned repositoryId limits records scan)
    (hstep : scanRecord repositoryId limits scan record = .ok next) :
    Scannable repositoryId limits (records ++ [record]) ∧
      Scanned repositoryId limits (records ++ [record]) next := by
  obtain ⟨hnew, hstep⟩ := guarded hstep
  obtain ⟨bytes, hbs, hstep⟩ := bind_ok.1 hstep
  obtain ⟨_, htot, hstep⟩ := bind_ok.1 hstep
  obtain ⟨hbd, hstep⟩ := guarded hstep
  obtain ⟨entities, hents, hstep⟩ := bind_ok.1 hstep
  cases hstep
  have hscan : scan.inlineBytes ≤ uint64Max := by
    rw [h.inlineBytes]
    exact hs.counted
  obtain ⟨rfl, hfits⟩ := (addChecked_eq_some hscan).1 (require_ok.1 htot)
  have hnoted := noteEntities_noted h.entities hents
  rw [← observed_snoc] at hnoted
  have hsize : totalSize repositoryId limits (records ++ [record]) = scan.inlineBytes + bytes := by
    rw [totalSize_snoc, inlineSize_eq hbs, h.inlineBytes]
  have hfresh : lookup recordId record.recordId records = none := by
    rw [lookup_none]
    intro other hoth he
    rw [h.recordIds, mem_toFinset] at hnew
    exact hnew (he ▸ mem_map_of_mem hoth)
  constructor
  · exact {
      distinct := distinct_snoc hs.distinct hfresh
      valid := by
        intro other hoth
        rcases mem_append.1 hoth with hoth | hoth
        · exact hs.valid other hoth
        · obtain rfl := mem_singleton.1 hoth
          exact ⟨bytes, hbs⟩
      bounded := .inl (hsize ▸ hbd)
      counted := hsize ▸ hfits
      agree := hnoted.agree }
  · exact {
      recordIds := by
        rw [map_append, toFinset_append, ← h.recordIds]
        change insert _ _ = _ ∪ {record.recordId}
        rw [Finset.union_comm, Finset.insert_eq]
      inlineBytes := hsize.symm
      entities := hnoted }

theorem scan_scanned (h : records.foldlM (scanRecord repositoryId limits) {} = .ok scan) :
    Scannable repositoryId limits records ∧ Scanned repositoryId limits records scan := by
  induction records using List.reverseRecOn generalizing scan with
  | nil =>
    cases h
    exact ⟨⟨nodup_nil, by simp, .inr rfl, Nat.zero_le _, by simp [Agree, observed]⟩,
      ⟨rfl, rfl, ⟨nodup_nil, rfl, by simp, by simp [observed]⟩⟩⟩
  | append_singleton _ _ ih =>
    obtain ⟨_, hmid, hlast⟩ := foldlM_append_ok.1 h
    obtain ⟨_, hstep, hend⟩ := foldlM_cons_ok.1 hlast
    cases hend
    obtain ⟨hs, hscan⟩ := ih hmid
    exact scanned_step hs hscan hstep

theorem Scannable.init (h : Scannable repositoryId limits (records ++ [record])) :
    Scannable repositoryId limits records := by
  have hsize := totalSize_snoc repositoryId limits records record
  have hcnt := h.counted
  refine ⟨?_, fun other hoth => h.valid other (mem_append_left _ hoth), ?_, by omega, ?_⟩
  · have hd := h.distinct
    unfold Distinct at hd
    rw [map_append, nodup_append] at hd
    exact hd.1
  · rcases h.bounded with _ | hnil
    · exact .inl (by omega)
    · exact absurd hnil (by simp)
  · have hagr := h.agree
    rw [observed_snoc] at hagr
    exact agree_append_left hagr

theorem scan_ok (h : Scannable repositoryId limits records) :
    ∃ scan, records.foldlM (scanRecord repositoryId limits) {} = .ok scan := by
  induction records using List.reverseRecOn with
  | nil => exact ⟨{}, rfl⟩
  | append_singleton records record ih =>
    obtain ⟨scan, hscan⟩ := ih h.init
    obtain ⟨-, hscanned⟩ := scan_scanned hscan
    obtain ⟨bytes, hbs⟩ := h.valid record (by simp)
    have hsize := totalSize_snoc repositoryId limits records record
    rw [inlineSize_eq hbs, ← hscanned.inlineBytes] at hsize
    have hcnt := h.counted
    rw [hsize] at hcnt
    have hnew : record.recordId ∉ scan.recordIds := by
      have hd := h.distinct
      unfold Distinct at hd
      rw [map_append, nodup_append] at hd
      rw [hscanned.recordIds, mem_toFinset]
      intro hmem
      exact hd.2.2 _ hmem _ (by simp) rfl
    have hadd : addChecked scan.inlineBytes bytes = some (scan.inlineBytes + bytes) :=
      (addChecked_eq_some (by omega)).2 ⟨rfl, hcnt⟩
    have hbd : scan.inlineBytes + bytes ≤ limits.maximumTotalInlineBytes := by
      rcases h.bounded with hle | hnil
      · rwa [hsize] at hle
      · exact absurd hnil (by simp)
    have hagr := h.agree
    rw [observed_snoc] at hagr
    obtain ⟨entities, hents⟩ := noteEntities_ok record.recordId hscanned.entities hagr
    have hstep : scanRecord repositoryId limits scan record = .ok {
        recordIds := insert record.recordId scan.recordIds
        inlineBytes := scan.inlineBytes + bytes
        relationships := scan.relationships + if record.payload.isRelationship then 1 else 0
        entities } := by
      refine ensured hnew (bind_ok.2 ⟨bytes, hbs, ?_⟩)
      refine bind_ok.2 ⟨_, require_ok.2 hadd, ensured hbd ?_⟩
      exact bind_ok.2 ⟨entities, hents, rfl⟩
    exact ⟨_, foldlM_append_ok.2 ⟨scan, hscan, foldlM_cons_ok.2 ⟨_, hstep, rfl⟩⟩⟩

end Scan

def Acyclic (records : List RepositoryKnowledgeRecord) : Prop :=
  ∀ recordId, ¬ Relation.TransGen (DependsOn records) recordId recordId

def Known (records : List RepositoryKnowledgeRecord) (recordId : KnowledgeRecordId) : Prop :=
  recordId ∈ records.map RepositoryKnowledgeRecord.recordId

/-- A search that has found no cycle: what it has visited has all of its known dependencies
visited and lies on no cycle. -/
structure Searching (records : List RepositoryKnowledgeRecord) (visits : Visits) : Prop where
  quiet : visits.cyclic = false
  known : ∀ recordId ∈ visits.visiting, Known records recordId
  apart : ∀ recordId ∈ visits.visiting, recordId ∉ visits.visited
  closed : ∀ a ∈ visits.visited, ∀ b, DependsOn records a b → Known records b →
    b ∈ visits.visited
  acyclic : ∀ a ∈ visits.visited, ¬ Relation.TransGen (DependsOn records) a a

/-- The search has come back from what it set out to visit. -/
structure Returned (records : List RepositoryKnowledgeRecord) (start visits : Visits) : Prop
    extends Searching records visits where
  visiting : visits.visiting = start.visiting
  grown : start.visited ⊆ visits.visited

/-- The search has found a cycle, or it is back and has visited the targets that are known. -/
def Explored (records : List RepositoryKnowledgeRecord) (start : Visits)
    (targets : List KnowledgeRecordId) (visits : Visits) : Prop :=
  (visits.cyclic ∧ ¬ Acyclic records) ∨
    (Returned records start visits ∧ ∀ target ∈ targets, Known records target →
      target ∈ visits.visited)

section Search

variable {start visits : Visits} {fuel : ℕ} {a b : KnowledgeRecordId}

theorem dependsOn_known (h : DependsOn records a b) : Known records a := by
  obtain ⟨_, hr, rfl, -⟩ := h
  exact mem_map_of_mem hr

theorem transGen_known (h : Relation.TransGen (DependsOn records) a b) : Known records a := by
  cases h using Relation.TransGen.head_induction_on with
  | single hedge | head hedge => exact dependsOn_known hedge

/-- What a visited record reaches by way of known records is visited. -/
theorem Searching.reached (h : Searching records visits)
    (ha : a ∈ visits.visited) (hpath : Relation.TransGen (DependsOn records) a b)
    (hb : Known records b) : b ∈ visits.visited := by
  induction hpath using Relation.TransGen.head_induction_on with
  | single hedge => exact h.closed _ ha _ hedge hb
  | head hedge hpath ih => exact ih (h.closed _ ha _ hedge (transGen_known hpath))

theorem Searching.returned (h : Searching records start) : Returned records start start :=
  ⟨h, rfl, subset_rfl⟩

theorem Returned.trans {next : Visits} (h : Returned records start visits)
    (hnext : Returned records visits next) : Returned records start next :=
  ⟨hnext.toSearching, hnext.visiting.trans h.visiting, h.grown.trans hnext.grown⟩

theorem explored_foldl {τ : Type} {target : τ → KnowledgeRecordId} {next : Visits → τ → Visits}
    {todo : List τ} (hstop : ∀ visits, visits.cyclic → ∀ t, next visits t = visits)
    (hstep : ∀ visits, Returned records start visits → ∀ t ∈ todo,
      Explored records visits [target t] (next visits t))
    (seen : List KnowledgeRecordId) (h : Explored records start seen visits) :
    Explored records start (seen ++ todo.map target) (todo.foldl next visits) := by
  induction todo generalizing seen visits with
  | nil => simpa using h
  | cons t _ ih =>
    have hnext : Explored records start (seen ++ [target t]) (next visits t) := by
      rcases h with hcyc | ⟨hret, hseen⟩
      · rw [hstop visits hcyc.1]
        exact .inl hcyc
      · rcases hstep visits hret t mem_cons_self with hcyc | ⟨hnext, htgt⟩
        · exact .inl hcyc
        · refine .inr ⟨hret.trans hnext, ?_⟩
          intro id hid hknw
          rcases mem_append.1 hid with hid | hid
          · exact hnext.grown (hseen id hid hknw)
          · exact htgt id hid hknw
    have hrest := ih (fun visits hv t ht => hstep visits hv t (mem_cons_of_mem _ ht))
      (seen ++ [target t]) hnext
    simpa using hrest

/-- The record that is being visited has no known dependency left: it is visited, and what it
reaches was visited before, so that it lies on no cycle. -/
theorem finished (hr : record ∈ records) (hd : Distinct recordId records)
    (hfst : record.recordId ∉ start.visiting) (hback : Returned records
      { start with visiting := insert record.recordId start.visiting } visits)
    (hinputs : ∀ input ∈ record.inputs, Known records input → input ∈ visits.visited) :
    Returned records start { visits with
      visiting := visits.visiting.erase record.recordId
      visited := insert record.recordId visits.visited } := by
  have hunvisited : record.recordId ∉ visits.visited := by
    refine hback.apart _ ?_
    rw [hback.visiting]
    exact Finset.mem_insert_self _ _
  have hvisiting : visits.visiting.erase record.recordId = start.visiting := by
    rw [hback.visiting]
    exact Finset.erase_insert hfst
  have hedges (b : KnowledgeRecordId) (hedge : DependsOn records record.recordId b)
      (hb : Known records b) : b ∈ visits.visited := by
    obtain ⟨_, hoth, hid, hinp⟩ := hedge
    obtain rfl := inj_on_of_nodup_map hd hoth hr hid
    exact hinputs b hinp hb
  refine ⟨⟨hback.quiet, ?_, ?_, ?_, ?_⟩, hvisiting, ?_⟩
  · intro id hid
    exact hback.known id (Finset.mem_of_mem_erase hid)
  · intro id hid hvis
    rcases Finset.mem_insert.1 hvis with rfl | hvis
    · exact Finset.notMem_erase _ _ hid
    · exact hback.apart id (Finset.mem_of_mem_erase hid) hvis
  · intro a ha b hedge hb
    rcases Finset.mem_insert.1 ha with rfl | ha
    · exact Finset.mem_insert_of_mem (hedges b hedge hb)
    · exact Finset.mem_insert_of_mem (hback.closed a ha b hedge hb)
  · intro a ha hcycle
    rcases Finset.mem_insert.1 ha with rfl | ha
    · -- the first dependency on the cycle was visited, so that the record would have been too
      cases hcycle using Relation.TransGen.head_induction_on with
      | single hedge => exact hunvisited (hedges _ hedge (dependsOn_known hedge))
      | head hedge hpath =>
        have hnext := hedges _ hedge (transGen_known hpath)
        exact hunvisited (hback.reached hnext hpath (dependsOn_known hedge))
    · exact hback.acyclic a ha hcycle
  · exact hback.grown.trans (Finset.subset_insert _ _)

theorem Searching.enter (h : Searching records start) (hr : record ∈ records)
    (hnew : record.recordId ∉ start.visited) :
    Searching records { start with visiting := insert record.recordId start.visiting } where
  quiet := h.quiet
  known := by
    intro id hid
    rcases Finset.mem_insert.1 hid with rfl | hid
    · exact mem_map_of_mem hr
    · exact h.known id hid
  apart := by
    intro id hid
    rcases Finset.mem_insert.1 hid with rfl | hid
    · exact hnew
    · exact h.apart id hid
  closed := h.closed
  acyclic := h.acyclic

theorem Searching.card (h : Searching records start) : start.visiting.card ≤ records.length := by
  have hsub : start.visiting ⊆ (records.map recordId).toFinset :=
    fun id hid => mem_toFinset.2 (h.known id hid)
  calc start.visiting.card
      ≤ (records.map recordId).toFinset.card := Finset.card_le_card hsub
    _ ≤ (records.map recordId).length := toFinset_card_le _
    _ = records.length := length_map _

theorem follow_explored {next : Visits → RepositoryKnowledgeRecord → Visits}
    {dependency : KnowledgeRecordReference} (h : Searching records start)
    (hnext : ∀ found, found.recordId = dependency.recordId → found ∈ records →
      Explored records start [found.recordId] (next start found)) :
    Explored records start [dependency.recordId] (follow records next start dependency) := by
  have hquiet := h.quiet
  rw [follow, if_neg (by simp [hquiet])]
  split
  · rename_i hmiss
    refine .inr ⟨h.returned, ?_⟩
    intro id hid hknw
    obtain rfl := mem_singleton.1 hid
    obtain ⟨other, hoth, hid⟩ := mem_map.1 hknw
    exact absurd hid (lookup_none.1 hmiss other hoth)
  · rename_i found hfound
    rw [← lookup_key hfound]
    exact hnext found (lookup_key hfound) (lookup_mem hfound)

/-- An input of a record is below all that is being visited on the way to it. -/
theorem input_below {dependency : KnowledgeRecordReference} {found : RepositoryKnowledgeRecord}
    (hr : record ∈ records)
    (habv : ∀ a ∈ start.visiting, Relation.TransGen (DependsOn records) a record.recordId)
    (hvisiting : visits.visiting = insert record.recordId start.visiting)
    (hdep : dependency ∈ record.provenance.derivationInputs)
    (hid : found.recordId = dependency.recordId) :
    ∀ a ∈ visits.visiting, Relation.TransGen (DependsOn records) a found.recordId := by
  have hedge : DependsOn records record.recordId found.recordId :=
    ⟨record, hr, rfl, hid ▸ mem_map_of_mem hdep⟩
  intro a ha
  rw [hvisiting] at ha
  rcases Finset.mem_insert.1 ha with rfl | ha
  · exact .single hedge
  · exact (habv a ha).tail hedge

/-- Every record that is being visited depends on the record that is visited next. -/
theorem visit_explored (hd : Distinct recordId records)
    (h : Searching records start) (hr : record ∈ records)
    (habv : ∀ a ∈ start.visiting, Relation.TransGen (DependsOn records) a record.recordId)
    (hfuel : records.length < fuel + start.visiting.card) :
    Explored records start [record.recordId] (visit records fuel start record) := by
  induction fuel generalizing start record with
  | zero =>
    have hcard := h.card
    omega
  | succ fuel ih =>
    unfold visit
    split
    · rename_i hvisiting
      exact .inl ⟨rfl, fun hacyclic => hacyclic _ (habv _ hvisiting)⟩
    · rename_i hfst
      split
      · rename_i hvis
        refine .inr ⟨h.returned, ?_⟩
        intro id hid _
        obtain rfl := mem_singleton.1 hid
        exact hvis
      · rename_i hnew
        have henter := h.enter hr hnew
        have hblw : Explored records
            { start with visiting := insert record.recordId start.visiting } record.inputs
            (record.provenance.derivationInputs.foldl (follow records (visit records fuel))
              { start with visiting := insert record.recordId start.visiting }) := by
          refine explored_foldl ?_ ?_ [] (.inr ⟨henter.returned, by simp⟩)
          · intro visits hcyc dependency
            rw [follow, if_pos hcyc]
          · intro visits hvisits dependency hdep
            refine follow_explored hvisits.toSearching ?_
            intro found hid hfound
            refine ih hvisits.toSearching hfound
              (input_below hr habv hvisits.visiting hdep hid) ?_
            rw [hvisits.visiting, Finset.card_insert_of_notMem hfst]
            omega
        rcases hblw with ⟨hcyc, hcycle⟩ | ⟨hback, hinputs⟩
        · rw [if_pos hcyc]
          exact .inl ⟨hcyc, hcycle⟩
        · have hquiet := hback.quiet
          rw [if_neg (by simp [hquiet])]
          refine .inr ⟨finished hr hd hfst hback hinputs, ?_⟩
          intro id hid _
          obtain rfl := mem_singleton.1 hid
          exact Finset.mem_insert_self _ _

/-- The search finds a cycle if and only if there is one. -/
theorem hasDependencyCycle_iff (hd : Distinct recordId records) :
    hasDependencyCycle records = false ↔ Acyclic records := by
  have hinit : Searching records {} := ⟨rfl, by simp, by simp, by simp, by simp⟩
  have hall : Explored records {} (records.map recordId)
      (records.foldl (fun (visits : Visits) record => if visits.cyclic then visits
        else visit records (records.length + 1) visits record) {}) := by
    refine explored_foldl ?_ ?_ [] (.inr ⟨hinit.returned, by simp⟩)
    · intro visits hcyc record
      rw [if_pos hcyc]
    · intro visits hvisits record hr
      have hquiet := hvisits.quiet
      have hvisiting : visits.visiting = ∅ := hvisits.visiting
      rw [if_neg (by simp [hquiet])]
      refine visit_explored hd hvisits.toSearching hr ?_ (by omega)
      intro a ha
      rw [hvisiting] at ha
      exact absurd ha (Finset.notMem_empty a)
  unfold hasDependencyCycle
  rcases hall with ⟨hcyc, hcycle⟩ | ⟨hback, hvis⟩
  · rw [hcyc]
    exact iff_of_false nofun hcycle
  · refine iff_of_true hback.quiet ?_
    intro recordId hcycle
    have hknw := transGen_known hcycle
    exact hback.acyclic recordId (hvis recordId hknw hknw) hcycle

end Search

theorem dependsOn_perm (hp : records.Perm others) : DependsOn records ≤ DependsOn others := by
  rintro _ _ ⟨record, hr, hid, hinp⟩
  exact ⟨record, hp.mem_iff.1 hr, hid, hinp⟩

theorem acyclic_perm (hp : records.Perm others) (h : Acyclic records) : Acyclic others :=
  fun recordId hcycle =>
    h recordId (Relation.TransGen.mono (dependsOn_perm hp.symm) _ _ hcycle)

def Valid (graph : RepositoryKnowledgeGraph) (limits : RepositoryKnowledgeLimits) : Prop :=
  ∃ estimate, validateGraph graph limits = .ok estimate

def namedEntities (records : List RepositoryKnowledgeRecord) : Finset KnowledgeEntityId :=
  ((observed records).map KnownEntity.entityId).toFinset

/-- What is asked of a graph, in no order. -/
structure WellFormed (graph : RepositoryKnowledgeGraph) (limits : RepositoryKnowledgeLimits) :
    Prop where
  positive : validateLimits limits
  generation : ¬ (graph.records ≠ [] ∧ graph.generation = 0)
  length : graph.records.length ≤ limits.maximumRecords
  scannable : Scannable graph.repositoryId limits graph.records
  entities : (namedEntities graph.records).card ≤ limits.maximumEntities
  dependencies : ∀ record ∈ graph.records, ∀ dependency ∈ record.provenance.derivationInputs,
    checkDependency graph.records record dependency = .ok ()
  acyclic : Acyclic graph.records

section Valid

variable {graph : RepositoryKnowledgeGraph}

theorem Noted.card {all known : List KnownEntity} (h : Noted all known) :
    known.length = (all.map entityId).toFinset.card := by
  have hnd : (known.map entityId).Nodup := h.distinct
  rw [← h.ids, toFinset_card_of_nodup hnd, length_map]

theorem checkDependencies_eq_ok {u : Unit} : checkDependencies records = .ok u ↔ ∀ record ∈ records,
      ∀ dependency ∈ record.provenance.derivationInputs,
        checkDependency records record dependency = .ok () := by
  unfold checkDependencies
  rw [forM_ok]
  constructor
  · intro h record hr
    exact forM_ok.1 (h record hr)
  · intro h record hr
    exact forM_ok.2 (h record hr)

theorem sorted_cycle_iff (hd : Distinct recordId records) :
    hasDependencyCycle (sortBy recordId records) = false ↔
      Acyclic records := by
  have hp := sortBy_perm recordId records
  rw [hasDependencyCycle_iff (nodup_map_sortBy hd)]
  exact ⟨acyclic_perm hp, acyclic_perm hp.symm⟩

theorem valid_iff : Valid graph limits ↔ WellFormed graph limits := by
  constructor
  · rintro ⟨_, h⟩
    obtain ⟨hlim, h⟩ := guarded h
    obtain ⟨hgen, h⟩ := guarded h
    obtain ⟨hlen, h⟩ := guarded h
    obtain ⟨scan, hscan, h⟩ := bind_ok.1 h
    obtain ⟨hents, h⟩ := guarded h
    obtain ⟨_, hdeps, h⟩ := bind_ok.1 h
    obtain ⟨hcycle, h⟩ := guarded h
    obtain ⟨hscannable, hscanned⟩ := scan_scanned hscan
    rw [hscanned.entities.card] at hents
    exact {
      positive := hlim
      generation := hgen
      length := hlen
      scannable := hscannable
      entities := hents
      dependencies := checkDependencies_eq_ok.1 hdeps
      acyclic := (sorted_cycle_iff hscannable.distinct).1 hcycle }
  · intro h
    obtain ⟨scan, hscan⟩ := scan_ok h.scannable
    obtain ⟨-, hscanned⟩ := scan_scanned hscan
    have hents : scan.entities.length ≤ limits.maximumEntities := by
      rw [hscanned.entities.card]
      exact h.entities
    have hcycle := (sorted_cycle_iff h.scannable.distinct).2 h.acyclic
    have hdeps := checkDependencies_eq_ok (u := ()).2 h.dependencies
    refine ⟨⟨graph.records.length, scan.entities.length, scan.relationships, scan.inlineBytes⟩, ?_⟩
    refine ensured h.positive ?_
    refine ensured h.generation ?_
    refine ensured h.length (bind_ok.2 ⟨scan, hscan, ?_⟩)
    refine ensured hents (bind_ok.2 ⟨⟨⟩, hdeps, ?_⟩)
    exact ensured hcycle rfl

theorem observed_perm (hp : records.Perm others) : (observed records).Perm (observed others) :=
  hp.flatMap_right _

theorem Agree.perm {all more : List KnownEntity} (h : Agree all) (hp : all.Perm more) :
    Agree more :=
  fun a ha b hb => h a (hp.mem_iff.2 ha) b (hp.mem_iff.2 hb)

theorem Scannable.perm (h : Scannable repositoryId limits records) (hp : records.Perm others) :
    Scannable repositoryId limits others := by
  have hsize : totalSize repositoryId limits records = totalSize repositoryId limits others :=
    (hp.map _).sum_eq
  refine ⟨(hp.map _).nodup_iff.1 h.distinct, ?_, ?_, hsize ▸ h.counted,
    h.agree.perm (observed_perm hp)⟩
  · intro record hr
    exact h.valid record (hp.mem_iff.2 hr)
  · rcases h.bounded with hle | rfl
    · exact .inl (hsize ▸ hle)
    · exact .inr hp.nil_eq.symm

theorem namedEntities_perm (hp : records.Perm others) :
    namedEntities records = namedEntities others :=
  toFinset_eq_of_perm _ _ ((observed_perm hp).map _)

theorem checkDependency_perm (hd : Distinct recordId records)
    (hp : records.Perm others) (record : RepositoryKnowledgeRecord)
    (dependency : KnowledgeRecordReference) :
    checkDependency records record dependency = checkDependency others record dependency := by
  unfold checkDependency
  rw [lookup_perm hp hd]

theorem valid_perm (hp : graph.records.Perm others) (h : Valid graph limits) :
    Valid { graph with records := others } limits := by
  rw [valid_iff] at h ⊢
  exact {
    positive := h.positive
    generation := by
      rintro ⟨hne, hzero⟩
      refine h.generation ⟨?_, hzero⟩
      rintro hnil
      rw [hnil] at hp
      exact hne hp.nil_eq.symm
    length := hp.length_eq ▸ h.length
    scannable := h.scannable.perm hp
    entities := namedEntities_perm hp ▸ h.entities
    dependencies := by
      intro record hr dependency hdep
      have hsame := checkDependency_perm h.scannable.distinct hp record dependency
      exact hsame ▸ h.dependencies record (hp.mem_iff.2 hr) dependency hdep
    acyclic := acyclic_perm hp h.acyclic }

end Valid

section Termination

variable {start : Visits} {fuel depth : ℕ}

/-- Goes on to a dependency, as `follow` does. -/
def searchInput (records : List RepositoryKnowledgeRecord)
    (next : Visits → RepositoryKnowledgeRecord → Option Visits) (visits : Visits)
    (dependency : KnowledgeRecordReference) : Option Visits :=
  if visits.cyclic then some visits
  else match lookup recordId dependency.recordId records with
    | none => some visits
    | some found => next visits found

/-- The search, without an answer where it has to go deeper than allowed. -/
def searchRecord (records : List RepositoryKnowledgeRecord) :
    ℕ → Visits → RepositoryKnowledgeRecord → Option Visits
  | 0, _, _ => none
  | fuel + 1, visits, record =>
    if record.recordId ∈ visits.visiting then some { visits with cyclic := true }
    else if record.recordId ∈ visits.visited then some visits
    else (record.provenance.derivationInputs.foldlM
        (searchInput records (searchRecord records fuel))
        { visits with visiting := insert record.recordId visits.visiting }).map fun below =>
      if below.cyclic then below
      else { below with
        visiting := below.visiting.erase record.recordId
        visited := insert record.recordId below.visited }

def searchDependencyCycle (fuel : ℕ) (records : List RepositoryKnowledgeRecord) : Option Bool :=
  (records.foldlM (fun (visits : Visits) record =>
    if visits.cyclic then some visits else searchRecord records fuel visits record) {}).map
      Visits.cyclic

/-- Where there is fuel enough for either way down, the search below a record answers. -/
theorem searchRecord_answers (hd : Distinct recordId records)
    (h : Searching records start) (hr : record ∈ records)
    (habv : ∀ a ∈ start.visiting, Relation.TransGen (DependsOn records) a record.recordId)
    (hfuel : records.length < fuel + start.visiting.card)
    (hdepth : records.length < depth + start.visiting.card) :
    searchRecord records fuel start record = some (visit records depth start record) := by
  have hle := h.card
  induction fuel generalizing start record depth with
  | zero => omega
  | succ fuel ih =>
    obtain ⟨depth, rfl⟩ : ∃ d, depth = d + 1 := ⟨depth - 1, by omega⟩
    unfold searchRecord visit
    by_cases hvisiting : record.recordId ∈ start.visiting
    · rw [if_pos hvisiting, if_pos hvisiting]
    rw [if_neg hvisiting, if_neg hvisiting]
    by_cases hvisited : record.recordId ∈ start.visited
    · rw [if_pos hvisited, if_pos hvisited]
    rw [if_neg hvisited, if_neg hvisited]
    have henter := h.enter hr hvisited
    have hinputs : record.provenance.derivationInputs.foldlM
          (searchInput records (searchRecord records fuel))
          { start with visiting := insert record.recordId start.visiting } =
        some (record.provenance.derivationInputs.foldl (follow records (visit records depth))
          { start with visiting := insert record.recordId start.visiting }) := by
      refine (foldlM_some (I := fun visits => visits.cyclic = true ∨ Returned records
        { start with visiting := insert record.recordId start.visiting } visits) ?_
        (.inr henter.returned)).1
      intro dependency hdep visits hvis
      rcases hvis with hcyc | hvis
      · rw [searchInput, follow, if_pos hcyc, if_pos hcyc]
        exact ⟨rfl, .inl hcyc⟩
      have hquiet := hvis.quiet
      have hcard : visits.visiting.card = start.visiting.card + 1 := by
        rw [hvis.visiting, Finset.card_insert_of_notMem hvisiting]
      have hbelow : ∀ found : RepositoryKnowledgeRecord, found.recordId = dependency.recordId →
          ∀ a ∈ visits.visiting, Relation.TransGen (DependsOn records) a found.recordId :=
        fun _ hid => input_below hr habv hvis.visiting hdep hid
      constructor
      · rw [searchInput, follow, if_neg (by simp [hquiet]), if_neg (by simp [hquiet])]
        cases hfound : lookup recordId dependency.recordId records with
        | none => rfl
        | some found =>
          exact ih hvis.toSearching (lookup_mem hfound)
            (hbelow found (lookup_key hfound)) (by omega) (by omega) hvis.toSearching.card
      · have hnext : Explored records visits [dependency.recordId]
            (follow records (visit records depth) visits dependency) :=
          follow_explored hvis.toSearching fun found hid hfound =>
            visit_explored hd hvis.toSearching hfound (hbelow found hid) (by omega)
        rcases hnext with ⟨hcyc, -⟩ | ⟨hback, -⟩
        · exact .inl hcyc
        · exact .inr (hvis.trans hback)
    rw [hinputs]
    rfl

theorem searchDependencyCycle_eq (hd : Distinct recordId records)
    (hfuel : records.length < fuel) :
    searchDependencyCycle fuel records = some (hasDependencyCycle records) := by
  have hinit : Searching records {} := ⟨rfl, by simp, by simp, by simp, by simp⟩
  have hall : records.foldlM (fun (visits : Visits) record =>
        if visits.cyclic then some visits else searchRecord records fuel visits record) {} =
      some (records.foldl (fun (visits : Visits) record => if visits.cyclic then visits
        else visit records (records.length + 1) visits record) {}) := by
    refine (foldlM_some (I := fun visits => visits.cyclic = true ∨ Returned records {} visits) ?_
      (.inr hinit.returned)).1
    intro record hr visits hvis
    by_cases hcyc : visits.cyclic
    · rw [if_pos hcyc, if_pos hcyc]
      exact ⟨rfl, .inl hcyc⟩
    have hback := hvis.resolve_left hcyc
    have hvisiting : visits.visiting = ∅ := hback.visiting
    have habv : ∀ a ∈ visits.visiting,
        Relation.TransGen (DependsOn records) a record.recordId := by
      intro a ha
      rw [hvisiting] at ha
      exact absurd ha (Finset.notMem_empty a)
    rw [if_neg hcyc, if_neg hcyc]
    have hdepth : records.length < records.length + 1 + visits.visiting.card := by omega
    refine ⟨searchRecord_answers hd hback.toSearching hr habv (by omega) hdepth, ?_⟩
    rcases visit_explored hd hback.toSearching hr habv hdepth with ⟨hfound, -⟩ | ⟨hnext, -⟩
    · exact .inl hfound
    · exact .inr (hback.trans hnext)
  unfold searchDependencyCycle hasDependencyCycle
  rw [hall]
  rfl

end Termination

/-- Validation does not depend on the order of the records, what it accepts is as it should be,
and the search it ends with comes to an end and finds a cycle if and only if there is one. -/
theorem validation_exact (graph : RepositoryKnowledgeGraph) (limits : RepositoryKnowledgeLimits) :
    (∀ others, graph.records.Perm others →
      (Valid { graph with records := others } limits ↔ Valid graph limits)) ∧
    (Valid graph limits →
      (graph.records.map RepositoryKnowledgeRecord.recordId).Nodup ∧ Acyclic graph.records ∧
      (∀ first ∈ graph.records, ∀ second ∈ graph.records, first.freshness = .current →
        second.freshness = .current → ∀ entity ∈ first.payload.entities,
        ∀ other ∈ second.payload.entities, entity.entityId = other.entityId → entity = other) ∧
      ∀ record ∈ graph.records, ∀ dependency ∈ record.provenance.derivationInputs,
        (record.freshness ≠ .unavailable → ∃ found ∈ graph.records,
          found.recordId = dependency.recordId) ∧
        (record.freshness = .current → ∃ found ∈ graph.records,
          found.recordId = dependency.recordId ∧ found.revision = dependency.revision)) ∧
    ∀ records, Distinct RepositoryKnowledgeRecord.recordId records →
      (∀ fuel, records.length < fuel →
        searchDependencyCycle fuel records = some (hasDependencyCycle records)) ∧
      (hasDependencyCycle records ↔
        ∃ recordId, Relation.TransGen (DependsOn records) recordId recordId) := by
  refine ⟨?_, ?_, ?_⟩
  · intro others hp
    constructor
    · intro h
      rw [← show ({ { graph with records := others } with records := graph.records }) = graph from rfl]
      exact valid_perm hp.symm h
    · exact valid_perm hp
  · intro h
    have hwell := valid_iff.1 h
    refine ⟨hwell.scannable.distinct, hwell.acyclic, ?_, ?_⟩
    · intro first hfirst second hsecond hc hc' entity hentity other hother hid
      have hmem : ∀ record ∈ graph.records, ∀ entity ∈ record.payload.entities,
          (⟨entity, record.freshness⟩ : KnownEntity) ∈ observed graph.records := by
        intro record hr entity hentity
        exact List.mem_flatMap.2 ⟨record, hr, List.mem_map_of_mem hentity⟩
      have hsame := hwell.scannable.agree _ (hmem first hfirst entity hentity) _
        (hmem second hsecond other hother) hc hc' hid
      exact congrArg KnownEntity.entity hsame
    · intro record hr dependency hdependency
      have hchecked := hwell.dependencies record hr dependency hdependency
      unfold checkDependency at hchecked
      split at hchecked
      · rename_i hmissing
        have hunavailable := ensure_ok.1 hchecked
        refine ⟨fun hne => absurd hunavailable hne, ?_⟩
        intro hcurrent
        rw [hunavailable] at hcurrent
        cases hcurrent
      · rename_i found hfound
        have hrevision := ensure_ok.1 hchecked
        refine ⟨fun _ => ⟨found, lookup_mem hfound, lookup_key hfound⟩, ?_⟩
        intro hcurrent
        refine ⟨found, lookup_mem hfound, lookup_key hfound, ?_⟩
        by_contra hne
        exact hrevision ⟨hne, hcurrent⟩
  · intro records hd
    refine ⟨fun fuel hfuel => searchDependencyCycle_eq hd hfuel, ?_⟩
    have hiff := hasDependencyCycle_iff hd
    unfold Acyclic at hiff
    rw [← Bool.not_eq_false, hiff]
    push Not
    rfl

end Knowledge
