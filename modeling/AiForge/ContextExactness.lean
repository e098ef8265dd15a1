import AiForge.ContextMatching

/-! # Accepted contexts show exactly the admitted evidence -/
namespace ContextMatching

open Admission Content ContextBuilder EvidenceContext Events List RowScans SafeText Staged

/-- What an admission says of one entry. -/
structure Row where
  entryId : ContextEntryId
  messageId : MessageId
  sourceId : ContextSourceId
  kind : ContextEntryKind
  role : Role
  (order estimatedTokens : ℕ)
  (sourceLocation digest : Option Bytes)
  text : ContentDigest

/-- The entry says what the row says, and its text has the digest of the row. -/
structure Row.Shown (row : Row) (entry : ContextEntry) : Prop where
  entryId : entry.entryId = row.entryId
  messageId : entry.message.messageId = row.messageId
  sourceId : entry.provenance.sourceId = row.sourceId
  kind : entry.kind = row.kind
  role : entry.message.role = row.role
  order : entry.order = row.order
  estimatedTokens : entry.estimatedTokens = row.estimatedTokens
  sourceLocation : entry.provenance.sourceLocation = row.sourceLocation
  digest : entry.provenance.digest = row.digest
  text : ∃ text, entry.message.content = [.text text] ∧ text.length = row.text.byteSize ∧
    Sha256.digest text = row.text.value

def sourceDigest (digest : ContentDigest) : Bytes :=
  bytesOf digest.algorithm ++ bytesOf ":" ++ bytesOf digest.value

def instructionRow (ref : RepositoryContextInstruction) : Row :=
  ⟨ref.instructionId, ref.instructionId, ref.instructionId, .instruction, .system, ref.order,
    ref.estimatedTokens, some ref.source.relativePath, some (sourceDigest ref.source.contentDigest),
    ref.textDigest⟩

def evidenceRow (ref : RepositoryContextEvidence) : Row :=
  ⟨ref.entryId, ref.messageId, ref.sourceId, .evidence, .evidence, ref.order,
    ref.estimatedTokens, some ref.source.relativePath, some (sourceDigest ref.source.contentDigest),
    ref.textDigest⟩

def localRow (ref : LocalContextEvidence) : Row :=
  ⟨ref.entryId, ref.messageId, ref.sourceId, .evidence, .evidence, ref.order,
    ref.estimatedTokens,
    some (bytesOf "local-file:v1:" ++ ref.source.root.binding ++ bytesOf "/" ++
      ref.source.relativePath),
    some (bytesOf "sha256:" ++ bytesOf ref.source.contentDigest.value), ref.source.contentDigest⟩

def memoryRow (selected : MemorySelectionEntry) : Row :=
  ⟨"memory-entry-" ++ selected.recordId, "memory-message-" ++ selected.recordId,
    "memory-source-" ++ selected.recordId, .evidence, .evidence, selected.order,
    selected.estimatedTokens,
    some (bytesOf ("memory:" ++ selected.recordId ++ ";session:" ++ selected.source.sessionId)),
    none, selected.evidenceDigest⟩

def Shows (entries : List ContextEntry) (rows : List Row) : Prop :=
  List.Forall₂ (fun entry row => row.Shown entry) entries rows

section Kinds

variable {context : ConstructedContext} {entry : ContextEntry}

theorem textMatches_iff {message : Message} {role : Role} {expected : ContentDigest} :
    textMatches message role expected ↔ message.role = role ∧
      message.invocationId = none ∧ message.toolCalls = [] ∧
      ∃ text, message.content = [.text text] ∧ text.length = expected.byteSize ∧
        isSafeUtf8Text text ∧ Sha256.digest text = expected.value := by
  unfold textMatches
  split
  next text content => simp [content, and_assoc]
  next other =>
    constructor
    · intro h
      simp at h
    · rintro ⟨-, -, -, text, content, -⟩
      exact absurd content (other text)

theorem shown_of_matchesInstruction {ref : RepositoryContextInstruction}
    (h : matchesInstruction entry ref) : (instructionRow ref).Shown entry := by
  simp only [matchesInstruction, provenanceMatches, Bool.and_eq_true, beq_iff_eq] at h
  obtain ⟨⟨⟨⟨⟨⟨⟨⟨⟨kind, -⟩, entryId⟩, messageId⟩, sourceId⟩, -⟩, order⟩, tokens⟩, location, digest⟩,
    text⟩ := h
  obtain ⟨role, -, -, bytes, content, length, -, hash⟩ := textMatches_iff.1 text
  exact ⟨entryId, messageId, sourceId, kind, role, order, tokens, location, digest, bytes, content,
    length, hash⟩

theorem shown_of_matchesEvidence {ref : RepositoryContextEvidence}
    (h : matchesEvidence entry ref) : (evidenceRow ref).Shown entry := by
  simp only [matchesEvidence, provenanceMatches, Bool.and_eq_true, beq_iff_eq] at h
  obtain ⟨⟨⟨⟨⟨⟨⟨⟨⟨kind, -⟩, -⟩, entryId⟩, messageId⟩, sourceId⟩, order⟩, tokens⟩, location, digest⟩,
    text⟩ := h
  obtain ⟨role, -, -, bytes, content, length, -, hash⟩ := textMatches_iff.1 text
  exact ⟨entryId, messageId, sourceId, kind, role, order, tokens, location, digest, bytes, content,
    length, hash⟩

theorem localContextSourceLocation_ok {source : LocalSourceIdentity} {location : Bytes}
    (h : localContextSourceLocation source = .ok location) :
    location = bytesOf "local-file:v1:" ++ source.root.binding ++ bytesOf "/" ++
      source.relativePath := by
  obtain ⟨-, h⟩ := guarded h
  exact (Except.ok.inj h).symm

theorem shown_of_matchesLocal {ref : LocalContextEvidence} (h : matchesLocal entry ref) :
    (localRow ref).Shown entry := by
  simp only [matchesLocal, Bool.and_eq_true, beq_iff_eq] at h
  obtain ⟨⟨⟨⟨⟨⟨⟨⟨⟨⟨kind, -⟩, -⟩, entryId⟩, messageId⟩, sourceId⟩, located⟩, digest⟩, order⟩,
    tokens⟩, text⟩ := h
  have location : entry.provenance.sourceLocation = (localRow ref).sourceLocation := by
    split at located
    next location known =>
      rw [beq_iff_eq] at located
      rw [located, localContextSourceLocation_ok known]
      rfl
    next => simp at located
  obtain ⟨role, -, -, bytes, content, length, -, hash⟩ := textMatches_iff.1 text
  exact ⟨entryId, messageId, sourceId, kind, role, order, tokens, location, digest, bytes, content,
    length, hash⟩

theorem shown_of_matchesMemory {selected : MemorySelectionEntry}
    (h : matchesMemory entry selected) : (memoryRow selected).Shown entry := by
  unfold matchesMemory at h
  split at h
  next bytes content =>
    simp only [Bool.and_eq_true, beq_iff_eq, Option.isNone_iff_eq_none] at h
    obtain ⟨⟨⟨⟨⟨⟨⟨⟨⟨⟨⟨kind, role⟩, -⟩, -⟩, order⟩, tokens⟩, entryId⟩, messageId⟩, sourceId⟩,
      location⟩, digest⟩, length, hash⟩ := h
    exact ⟨entryId, messageId, sourceId, kind, role, order, tokens, location, digest, bytes,
      content, length, hash⟩
  next => simp at h

theorem shows_of_scan {β : Type} (admitted : β → Bool) (fits : ContextEntry → β → Bool)
    (row : β → Row) (shown : ∀ entry ref, fits entry ref → (row ref).Shown entry)
    {entries : List ContextEntry} {refs rest : List β}
    (scanned : entries.foldlM (take admitted fits) refs = some rest)
    (ended : nextAdmitted admitted rest = []) : Shows entries ((refs.filter admitted).map row) := by
  have fitted := scan_iff.1 ⟨rest, scanned, ended⟩
  rw [Shows, forall₂_map_right_iff]
  exact fitted.imp fun {entry ref} fit => shown entry ref fit

theorem nextAdmitted_all {β : Type} (rows : List β) : nextAdmitted (fun _ => true) rows = rows := by
  cases rows with
  | nil | cons => rfl

variable {admission : RepositoryContextAdmission}

theorem repository_shows (h : repositoryAdmissionMatchesContext admission context) :
    Repository.shape admission = .ok () ∧
      Shows (context.entries.filter projectEntry) (admission.instructions.map instructionRow) ∧
      Shows (context.entries.filter fun entry => !projectEntry entry && repositoryEntry entry)
        ((admission.evidence.filter admittedEvidence).map evidenceRow) := by
  simp only [repositoryAdmissionMatchesContext, Bool.and_eq_true] at h
  obtain ⟨⟨valid, -⟩, scanned⟩ := h
  obtain ⟨_, valid⟩ := isOk_iff.1 valid
  obtain ⟨_, shape, -⟩ := bind_ok.1 valid
  split at scanned
  next => simp at scanned
  next cursor known =>
    rw [Bool.and_eq_true, List.isEmpty_iff, List.isEmpty_iff] at scanned
    obtain ⟨instructions, evidence⟩ := (foldlM_pair projectEntry repositoryEntry
      (take (fun _ => true) matchesInstruction) (take admittedEvidence matchesEvidence)).1 known
    refine ⟨shape, ?_, ?_⟩
    · have shows := shows_of_scan (fun _ => true) matchesInstruction instructionRow
        (fun _ _ => shown_of_matchesInstruction) instructions
        (by rw [nextAdmitted_all]; exact scanned.1)
      simpa using shows
    · exact shows_of_scan admittedEvidence matchesEvidence evidenceRow
        (fun _ _ => shown_of_matchesEvidence) evidence scanned.2

theorem local_shows {admission : LocalContextAdmission}
    (h : localAdmissionMatchesContext admission context) : Local.shape admission = .ok () ∧
      Shows (context.entries.filter localEntry)
        ((admission.evidence.filter admittedLocal).map localRow) := by
  simp only [localAdmissionMatchesContext, Bool.and_eq_true] at h
  obtain ⟨⟨valid, -⟩, scanned⟩ := h
  obtain ⟨_, valid⟩ := isOk_iff.1 valid
  obtain ⟨_, shape, -⟩ := bind_ok.1 valid
  rw [foldlM_filter localEntry (take admittedLocal matchesLocal)] at scanned
  split at scanned
  next => simp at scanned
  next left known =>
    rw [List.isEmpty_iff] at scanned
    exact ⟨shape, shows_of_scan admittedLocal matchesLocal localRow
      (fun _ _ => shown_of_matchesLocal) known scanned⟩

theorem memory_shows {selection : MemorySelection}
    (h : memorySelectionMatchesContext selection context) :
    Shows (context.entries.filter memoryEntry) (selection.entries.map memoryRow) := by
  simp only [memorySelectionMatchesContext, Bool.and_eq_true] at h
  obtain ⟨-, scanned⟩ := h
  rw [foldlM_filter memoryEntry (take (fun _ => true) matchesMemory)] at scanned
  split at scanned
  next => simp at scanned
  next left known =>
    rw [List.isEmpty_iff] at scanned
    have shows := shows_of_scan (fun _ => true) matchesMemory memoryRow
      (fun _ _ => shown_of_matchesMemory) known
      (by rw [nextAdmitted_all]; exact scanned)
    simpa using shows

theorem startsWith_trans {value long short : String} (h : startsWith value long)
    (shorter : startsWith long short) : startsWith value short := by
  unfold startsWith at h shorter ⊢
  rw [ isPrefixOf_iff_prefix] at h shorter ⊢
  exact shorter.trans h

theorem instructionStep_claims (ref : RepositoryContextInstruction) (before after : Repository.Seen)
    (h : Repository.instructionStep admission before ref = .ok after) :
    True ∧ ref.instructionId ∉ before.identities ∧
      after.identities = insert ref.instructionId before.identities := by
  obtain ⟨checks, h⟩ := guarded h
  cases h
  exact ⟨trivial, checks.2.2.2.1, rfl⟩

theorem evidenceStep_claims (ref : RepositoryContextEvidence) (before after : Repository.Seen)
    (h : Repository.evidenceStep admission before ref = .ok after) :
    startsWith ref.entryId "repository-context-" ∧ ref.entryId ∉ before.identities ∧
      after.identities = insert ref.entryId before.identities := by
  obtain ⟨checks, h⟩ := guarded h
  cases h
  refine ⟨?_, checks.2.2.1, rfl⟩
  have shaped := checks.1
  simp only [Repository.evidenceShape, Bool.and_eq_true] at shaped
  exact startsWith_trans shaped.1.1.2 (by decide)

theorem repository_identities (h : Repository.shape admission = .ok ()) :
    (∀ ref ∈ admission.evidence, startsWith ref.entryId "repository-context-" ∧
      ∀ instruction ∈ admission.instructions, ref.entryId ≠ instruction.instructionId) ∧
      (admission.evidence.map RepositoryContextEvidence.entryId).Nodup := by
  obtain ⟨-, h⟩ := guarded h
  obtain ⟨seen, instructions, h⟩ := bind_ok.1 h
  obtain ⟨_, evidence, -⟩ := bind_ok.1 h
  obtain ⟨-, -, -, noted⟩ := Staged.foldlM_claims
    (fun ref before after => instructionStep_claims ref before after) instructions
  obtain ⟨reserved, distinct, fresh, -⟩ := Staged.foldlM_claims
    (fun ref before after => evidenceStep_claims ref before after) evidence
  refine ⟨?_, distinct⟩
  intro ref among
  refine ⟨reserved ref among, ?_⟩
  intro instruction listed same
  refine fresh ref among ?_
  rw [noted, same]
  exact Finset.mem_union_right _ (mem_toFinset.2 (mem_map.2 ⟨_, listed, rfl⟩))

theorem referenceStep_fresh (before : Finset String × ℕ) (ref : LocalContextEvidence)
    (after : Finset String × ℕ) (h : Local.referenceStep before ref = .ok after) :
    startsWith ref.entryId "local-context-" ∧ ref.entryId ∉ (before.1 : Set String) ∧
      (before.1 : Set String) ⊆ after.1 ∧ ref.entryId ∈ (after.1 : Set String) := by
  obtain ⟨⟨-, valid, -, -, unseen⟩, h⟩ := guarded h
  cases h
  have listed : ref.entryId ∈ Local.LocalContextEvidence.ids ref := by
    simp [Local.LocalContextEvidence.ids]
  refine ⟨?_, by simpa using unseen _ listed, by simp, by simp [listed]⟩
  simp only [Local.validReference, Local.reservedId, Bool.and_eq_true] at valid
  exact startsWith_trans valid.1.1.1.1.2.1 (by decide)

theorem local_identities {admission : LocalContextAdmission} (h : Local.shape admission = .ok ()) :
    (∀ ref ∈ admission.evidence, startsWith ref.entryId "local-context-") ∧
      (admission.evidence.map LocalContextEvidence.entryId).Nodup := by
  obtain ⟨-, h⟩ := guarded h
  obtain ⟨_, references, -⟩ := bind_ok.1 h
  obtain ⟨reserved, distinct⟩ := foldlM_fresh
    (fun before ref after => referenceStep_fresh before ref after) references
  exact ⟨fun ref among => (reserved ref among).1, distinct⟩

theorem exists_row {entries : List ContextEntry} {rows : List Row} (h : Shows entries rows)
    (among : entry ∈ entries) : ∃ row ∈ rows, entry.entryId = row.entryId := by
  obtain ⟨row, held, shown⟩ := exists_of_forall₂ h among
  exact ⟨row, held, shown.entryId⟩

theorem repository_omits (h : repositoryAdmissionMatchesContext admission context)
    {ref : RepositoryContextEvidence} (listed : ref ∈ admission.evidence)
    (omitted : ref.decision ≠ .admitted) (among : entry ∈ context.entries) :
    entry.entryId ≠ ref.entryId := by
  obtain ⟨shape, instructions, evidence⟩ := repository_shows h
  obtain ⟨identities, distinct⟩ := repository_identities shape
  obtain ⟨reserved, apart⟩ := identities ref listed
  intro same
  by_cases project : projectEntry entry
  · obtain ⟨_, held, named⟩ := exists_row instructions
      (mem_filter.2 ⟨among, project⟩)
    obtain ⟨instruction, member, rfl⟩ := mem_map.1 held
    exact apart instruction member (same.symm.trans named)
  · have repository : (!projectEntry entry && repositoryEntry entry) = true := by
      rw [← same] at reserved
      simp [project, repositoryEntry, reserved]
    obtain ⟨_, held, named⟩ := exists_row evidence (mem_filter.2 ⟨among, repository⟩)
    obtain ⟨rival, member, rfl⟩ := mem_map.1 held
    obtain ⟨member, admitted⟩ := mem_filter.1 member
    have equal : rival = ref :=
      inj_on_of_nodup_map distinct member listed (named.symm.trans same)
    rw [equal] at admitted
    exact omitted (by simpa [admittedEvidence] using admitted)

theorem local_omits {admission : LocalContextAdmission}
    (h : localAdmissionMatchesContext admission context)
    {ref : LocalContextEvidence} (listed : ref ∈ admission.evidence)
    (omitted : ref.decision ≠ .admitted) (among : entry ∈ context.entries) :
    entry.entryId ≠ ref.entryId := by
  obtain ⟨shape, shows⟩ := local_shows h
  obtain ⟨reserved, distinct⟩ := local_identities shape
  intro same
  have file : localEntry entry := by
    have named := reserved ref listed
    rw [← same] at named
    simp [localEntry, named]
  obtain ⟨_, held, named⟩ := exists_row shows (mem_filter.2 ⟨among, file⟩)
  obtain ⟨rival, member, rfl⟩ := mem_map.1 held
  obtain ⟨member, admitted⟩ := mem_filter.1 member
  have equal : rival = ref :=
    inj_on_of_nodup_map distinct member listed (named.symm.trans same)
  rw [equal] at admitted
  exact omitted (by simpa [admittedLocal] using admitted)

end Kinds

def instructionRows (repository : Option RepositoryContextAdmission) : List Row :=
  repository.elim [] fun admission => admission.instructions.map instructionRow

def evidenceRows (repository : Option RepositoryContextAdmission) : List Row :=
  repository.elim [] fun admission =>
    (admission.evidence.filter fun ref => ref.decision = .admitted).map evidenceRow

def localRows (files : Option LocalContextAdmission) : List Row :=
  files.elim [] fun admission =>
    (admission.evidence.filter fun ref => ref.decision = .admitted).map localRow

def memoryRows (memory : Option MemorySelection) : List Row :=
  memory.elim [] fun selection => selection.entries.map memoryRow

/-- Every reserved entry is the admitted row that stands where it stands, and nothing that was
omitted appears. An instruction may have an identity of both kinds of the repository. -/
structure ShowsExactly (repository : Option RepositoryContextAdmission)
    (files : Option LocalContextAdmission) (memory : Option MemorySelection)
    (entries : List ContextEntry) : Prop where
  showsProject : Shows (entries.filter projectEntry) (instructionRows repository)
  showsRepository : Shows (entries.filter fun entry => !projectEntry entry && repositoryEntry entry)
    (evidenceRows repository)
  showsFiles : Shows (entries.filter localEntry) (localRows files)
  showsMemory : Shows (entries.filter memoryEntry) (memoryRows memory)
  omitted : ∀ admission, repository = some admission → ∀ ref ∈ admission.evidence,
    ref.decision ≠ .admitted → ∀ entry ∈ entries, entry.entryId ≠ ref.entryId
  omittedFiles : ∀ admission, files = some admission → ∀ ref ∈ admission.evidence,
    ref.decision ≠ .admitted → ∀ entry ∈ entries, entry.entryId ≠ ref.entryId

theorem filter_none {entries : List ContextEntry} {reserved : ContextEntry → Bool}
    (h : entries.all (fun entry => !reserved entry) = true) : entries.filter reserved = [] := by
  rw [filter_eq_nil_iff]
  intro entry among
  simpa using all_eq_true.1 h entry among

theorem evidenceMatches_shows {repository : Option RepositoryContextAdmission}
    {files : Option LocalContextAdmission} {memory : Option MemorySelection}
    {context : ConstructedContext} (h : evidenceMatches repository files memory context) :
    ShowsExactly repository files memory context.entries := by
  simp only [evidenceMatches, Bool.and_eq_true] at h
  obtain ⟨⟨hrepository, hfiles⟩, hmemory⟩ := h
  have ofRepository : Shows (context.entries.filter projectEntry) (instructionRows repository) ∧
      Shows (context.entries.filter fun entry => !projectEntry entry && repositoryEntry entry)
        (evidenceRows repository) := by
    cases repository with
    | some =>
      obtain ⟨-, instructions, evidence⟩ := repository_shows hrepository
      exact ⟨instructions, evidence⟩
    | none =>
      have noProject : context.entries.all (fun entry => !projectEntry entry) = true := by
        rw [all_eq_true]
        intro entry among
        have unreserved := all_eq_true.1 hrepository entry among
        simp only [Bool.not_eq_true', Bool.or_eq_false_iff] at unreserved
        simp [unreserved.1]
      have noRepository : context.entries.all (fun entry =>
          !(!projectEntry entry && repositoryEntry entry)) = true := by
        rw [all_eq_true]
        intro entry among
        have unreserved := all_eq_true.1 hrepository entry among
        simp only [Bool.not_eq_true', Bool.or_eq_false_iff] at unreserved
        simp [unreserved.2]
      rw [filter_none noProject, filter_none noRepository]
      exact ⟨.nil, .nil⟩
  constructor
  case showsProject => exact ofRepository.1
  case showsRepository => exact ofRepository.2
  case showsFiles =>
    cases files with
    | some => exact (local_shows hfiles).2
    | none =>
      rw [filter_none hfiles]
      exact .nil
  case showsMemory =>
    unfold memoryMatchesContext at hmemory
    cases sealed : Memory.sealMemorySelection emptyMemory with
    | error => simp [sealed] at hmemory
    | ok empty =>
      rw [sealed] at hmemory
      cases memory with
      | some => exact memory_shows hmemory
      | none =>
        have none_selected : empty.entries = [] := by
          have same := later sealed
          cases same
          rfl
        have shows := memory_shows hmemory
        rw [none_selected] at shows
        exact shows
  case omitted =>
    rintro _ rfl _ listed omitted entry among
    exact repository_omits hrepository listed omitted among
  case omittedFiles =>
    rintro _ rfl _ listed omitted entry among
    exact local_omits hfiles listed omitted among

def savedNote : MemorySelection :=
  let entry : MemorySelectionEntry := {
    journalSessionId := "journal"
    recordId := "note"
    recordEventId := "event"
    owner := ⟨.global, none, none⟩
    source := ⟨"session", "run", "call", ["said"]⟩
    recordDigest := ⟨"sha256", Sha256.digest (bytesOf "record"), 6⟩
    evidenceDigest := ⟨"sha256", Sha256.digest (bytesOf "abc"), 3⟩
    order := 1
    estimatedTokens := 3 }
  let selection : MemorySelection := {
    repositoryId := none
    personaId := none
    maximumTokens := 3
    availableTokens := 3
    entries := [entry]
    repository_named := none_ne_some _
    persona_named := none_ne_some _ }
  { selection with admissionDigest := some (Memory.memorySelectionDigest selection) }

def savedDigest (text : String) : ContentDigest :=
  ⟨"sha256", Sha256.digest (bytesOf text), (bytesOf text).length⟩

def savedSnapshot : RepositorySnapshotIdentity := ⟨"repository", savedDigest "tree"⟩

def savedSource (path text : String) : RepositorySourceIdentity :=
  ⟨savedSnapshot, bytesOf path, savedDigest text, none⟩

def savedRow (name text : String) (order : ℕ) (decision : EvidenceContext.ContextDecision) :
    RepositoryContextEvidence where
  evidenceId := name
  entryId := "repository-context-entry-" ++ name
  messageId := "repository-context-message-" ++ name
  sourceId := "repository-context-source-" ++ name
  source := savedSource name text
  order := order
  estimatedTokens := (bytesOf text).length
  decision := decision
  textDigest := savedDigest text

/-- The rules of the project and three files, of which the second did not fit. -/
def savedFiles : RepositoryContextAdmission :=
  let admission : RepositoryContextAdmission := {
    rootBinding := bytesOf "root"
    sourceSnapshot := savedSnapshot
    targetSubtree := []
    selectionRevision := 1
    capacity := ⟨40, 1, 1⟩
    instructions := [⟨"project:rules", savedSource "AGENTS.md" "rules", [], 0, 1, 5,
      savedDigest "rules"⟩]
    evidence := [savedRow "a.c" "int a;" 1 .admitted, savedRow "b.c" "int b;" 2 .omittedBudget,
      savedRow "c.c" "int c;" 3 .admitted] }
  { admission with admissionDigest := some (Repository.sealOf admission) }

def shownRow (ref : RepositoryContextEvidence) (text : String) : ContextEntry where
  entryId := ref.entryId
  kind := .evidence
  instructionLayer := none
  message := ⟨ref.messageId, .evidence, [.text (bytesOf text)], none, []⟩
  provenance := ⟨ref.sourceId, some ref.source.relativePath,
    some (bytesOf ref.source.contentDigest.algorithm ++ bytesOf ":" ++
      bytesOf ref.source.contentDigest.value)⟩
  specificity := 0
  order := ref.order
  estimatedTokens := ref.estimatedTokens

def contextWithNote : ConstructedContext where
  entries := [{
    entryId := "project:rules"
    kind := .instruction
    instructionLayer := some .project
    message := ⟨"project:rules", .system, [.text (bytesOf "rules")], none, []⟩
    provenance := ⟨"project:rules", some (bytesOf "AGENTS.md"),
      some (bytesOf "sha256:" ++ bytesOf (savedDigest "rules").value)⟩
    specificity := 0
    order := 1
    estimatedTokens := 5 },
    shownRow (savedRow "a.c" "int a;" 1 .admitted) "int a;",
    shownRow (savedRow "c.c" "int c;" 3 .admitted) "int c;", {
    entryId := "memory-entry-note"
    kind := .evidence
    instructionLayer := none
    message := ⟨"memory-message-note", .evidence, [.text (bytesOf "abc")], none, []⟩
    provenance := ⟨"memory-source-note", some (bytesOf "memory:note;session:session"), none⟩
    specificity := 0
    order := 1
    estimatedTokens := 3 }]
  decisions := []
  capacity := ⟨40, 1, 1⟩
  estimatedInputTokens := 20

theorem contextWithNote_shows :
    ShowsExactly (some savedFiles) none (some savedNote) contextWithNote.entries := by
  have hvalid : Memory.validateMemorySelection savedNote = .ok () :=
    bind_ok.2 ⟨(), by decide +kernel, ensure_ok.2 rfl⟩
  have hmatches : memorySelectionMatchesContext savedNote contextWithNote := by
    unfold memorySelectionMatchesContext
    rw [hvalid]
    decide +kernel
  have hempty : (Memory.sealMemorySelection emptyMemory).isOk := by decide +kernel
  obtain ⟨_, hsealed⟩ := Staged.isOk_iff.1 hempty
  have hmemory : memoryMatchesContext (some savedNote) contextWithNote := by
    unfold memoryMatchesContext
    rw [hsealed]
    exact hmatches
  have hshaped : (Repository.shape savedFiles).isOk := by decide +kernel
  obtain ⟨_, hshape⟩ := Staged.isOk_iff.1 hshaped
  have hfiles : Repository.validateRepositoryContextAdmission savedFiles = .ok () :=
    bind_ok.2 ⟨_, hshape, ensure_ok.2 rfl⟩
  have hrepository :
      repositoryContextAdmissionMatchesContext (some savedFiles) contextWithNote := by
    unfold repositoryContextAdmissionMatchesContext repositoryAdmissionMatchesContext
    dsimp only
    rw [hfiles]
    decide +kernel
  apply evidenceMatches_shows
  unfold evidenceMatches
  rw [hmemory, hrepository]
  decide +kernel

end ContextMatching
