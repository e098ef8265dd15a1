import AiForge.KnowledgeValidity
import AiForge.ScopeCover
import AiForge.Sealing

/-! # Citations of knowledge records

A record may cite only sources of its provenance, and the check compares them by a key. The key
tells path, digest text and range apart, but neither the snapshot of a source nor the size of
its content. -/
namespace Knowledge

open Content Events Framing SafeText Sealing Staged

variable {limits : RepositoryKnowledgeLimits} {repositoryId : RepositoryId}
variable {record : RepositoryKnowledgeRecord} {source cited : RepositorySourceIdentity}

theorem bytesOf_append (first second : String) :
    bytesOf (first ++ second) = bytesOf first ++ bytesOf second := by
  unfold bytesOf
  simp

theorem colon_not_mem_number (n : ℕ) : (58 : UInt8) ∉ bytesOf (toString n) := by
  have htext : toString n = String.ofList (Nat.toDigits 10 n) := rfl
  rw [htext, ScopeCover.bytesOf_ofList, List.mem_flatMap]
  rintro ⟨c, hc, hbyte⟩
  obtain ⟨hlow, hhigh⟩ := DecimalDigits.isDigit_toDigits hc
  rw [Char.le_def, UInt32.le_iff_toNat_le] at hlow hhigh
  have hlow : 48 ≤ c.toNat := hlow
  have hhigh : c.toNat ≤ 57 := hhigh
  rw [String.utf8EncodeChar_eq_singleton (ScopeCover.utf8Size_ascii (by omega)),
    List.mem_singleton] at hbyte
  have hcode : (58 : UInt8).toNat = c.toNat % 2 ^ 8 := congrArg UInt8.toNat hbyte
  rw [Nat.mod_eq_of_lt (by omega)] at hcode
  have hcolon : (58 : UInt8).toNat = 58 := rfl
  omega

def rangeText : Option SourceByteRange → Bytes
  | none => []
  | some range => bytesOf (toString range.start ++ ":" ++ toString range.stop)

theorem rangeText_some (range : SourceByteRange) : rangeText (some range) =
    bytesOf (toString range.start) ++ 58 :: bytesOf (toString range.stop) := by
  have hcolon : bytesOf ":" = [58] := by decide
  change bytesOf (toString range.start ++ ":" ++ toString range.stop) = _
  rw [bytesOf_append, bytesOf_append, hcolon, List.append_assoc]
  rfl

theorem rangeText_inj : Function.Injective rangeText := by
  have hmark : ∀ range : SourceByteRange, rangeText (some range) ≠ [] := by
    intro range
    rw [rangeText_some]
    simp
  intro first second h
  cases first with
  | none =>
    cases second with
    | none => rfl
    | some range => exact absurd h.symm (hmark range)
  | some range =>
    cases second with
    | none => exact absurd h (hmark range)
    | some other =>
      rw [rangeText_some, rangeText_some] at h
      obtain ⟨hbeg, hstop⟩ :=
        append_mark_inj (colon_not_mem_number _) (colon_not_mem_number _) h
      have hbeg := Nat.repr_injective (bytesOf_injective hbeg)
      have hstop := Nat.repr_injective (bytesOf_injective hstop)
      obtain ⟨start, stop⟩ := range
      obtain ⟨start', stop'⟩ := other
      obtain rfl : start = start' := hbeg
      obtain rfl : stop = stop' := hstop
      rfl

theorem sourceKey_eq (source : RepositorySourceIdentity) : sourceKey source =
    source.relativePath ++ 0 :: (bytesOf source.contentDigest.algorithm ++
      0 :: (bytesOf source.contentDigest.value ++ 0 :: rangeText source.range)) := by
  unfold sourceKey
  cases source.range <;> simp [rangeText]

variable {maximum : ℕ}

theorem boundedText_no_nul {value : Bytes} (h : boundedText value maximum) : 0 ∉ value := by
  unfold boundedText at h
  simp only [Bool.and_eq_true, List.all_eq_true] at h
  intro hnul
  exact absurd (h.2 0 hnul) (by decide)

theorem validDigest_no_nul {digest : ContentDigest} (h : validDigest digest maximum) :
    0 ∉ bytesOf digest.algorithm ∧ 0 ∉ bytesOf digest.value := by
  unfold validDigest at h
  simp only [Bool.and_eq_true] at h
  exact ⟨boundedText_no_nul h.1.1.1.1, boundedText_no_nul h.1.1.1.2⟩

theorem validRelativePath_no_nul {path : Bytes}
    (h : validRelativePath path maximum) : 0 ∉ path := by
  unfold validRelativePath at h
  simp only [Bool.and_eq_true] at h
  exact boundedText_no_nul h.1.1.1

/-- The sources agree in everything that the key is made of. -/
structure Alike (source other : RepositorySourceIdentity) : Prop where
  relativePath : source.relativePath = other.relativePath
  algorithm : source.contentDigest.algorithm = other.contentDigest.algorithm
  value : source.contentDigest.value = other.contentDigest.value
  range : source.range = other.range

variable {other : RepositorySourceIdentity}

theorem Alike.sourceKey (h : Alike source other) : sourceKey source = sourceKey other := by
  rw [sourceKey_eq, sourceKey_eq, h.relativePath, h.algorithm, h.value, h.range]

theorem alike_of_key {recordId : KnowledgeRecordId}
    (h : validateSource source repositoryId limits recordId = .ok ⟨⟩)
    (h' : validateSource other repositoryId limits recordId = .ok ⟨⟩)
    (hkey : sourceKey source = sourceKey other) : Alike source other := by
  obtain ⟨⟨-, -, hpath, hdig⟩, -⟩ := guarded h
  obtain ⟨⟨-, -, hpath', hdig'⟩, -⟩ := guarded h'
  rw [sourceKey_eq, sourceKey_eq] at hkey
  obtain ⟨hpath, hkey⟩ := append_mark_inj (validRelativePath_no_nul hpath)
    (validRelativePath_no_nul hpath') hkey
  obtain ⟨halg, hkey⟩ := append_mark_inj (validDigest_no_nul hdig).1
    (validDigest_no_nul hdig').1 hkey
  obtain ⟨hval, hrange⟩ := append_mark_inj (validDigest_no_nul hdig).2
    (validDigest_no_nul hdig').2 hkey
  exact ⟨hpath, bytesOf_injective halg, bytesOf_injective hval,
    rangeText_inj hrange⟩

/-- The key leaves the snapshot and the size of the content open. -/
theorem Alike.eq (h : Alike source other) (hsnap : source.snapshot = other.snapshot)
    (hsize : source.contentDigest.byteSize = other.contentDigest.byteSize) : source = other := by
  obtain ⟨snapshot, _, ⟨_, _, size⟩, _⟩ := source
  obtain ⟨snapshot', _, ⟨_, _, size'⟩, _⟩ := other
  obtain ⟨rfl, rfl, rfl, rfl⟩ := h
  obtain rfl : snapshot = snapshot' := hsnap
  obtain rfl : size = size' := hsize
  rfl

/-- What an accepted record says of its sources and citations. -/
structure Cited (record : RepositoryKnowledgeRecord) (repositoryId : RepositoryId)
    (limits : RepositoryKnowledgeLimits) : Prop where
  sources : ∀ source ∈ record.provenance.sources,
    validateSource source repositoryId limits record.recordId = .ok ⟨⟩ ∧
      sameSourceState source.snapshot record.provenance.sourceSnapshot
  distinct : (record.provenance.sources.map sourceKey).Nodup
  citations : ∀ cited ∈ record.payload.entitySources,
    validateSource cited repositoryId limits record.recordId = .ok ⟨⟩ ∧
      ∃ source ∈ record.provenance.sources, sourceKey source = sourceKey cited

theorem forEachClaimed_ok {α κ : Type} [DecidableEq κ] {key : α → κ}
    {check : α → Bool → Result PUnit} {values : List α} {keys : Finset κ} {P : α → Prop}
    (hchk : ∀ value unclaimed, check value unclaimed = .ok ⟨⟩ → P value ∧ unclaimed)
    (h : forEachClaimed key check values = .ok keys) :
    (∀ value ∈ values, P value) ∧ (values.map key).Nodup ∧ keys = (values.map key).toFinset := by
  have hstep (value : α) (claimed next : Finset κ)
      (hstep : (do
        check value (decide (key value ∉ claimed))
        return insert (key value) claimed : Result (Finset κ)) = .ok next) :
      P value ∧ key value ∉ id claimed ∧ id next = insert (key value) (id claimed) := by
    obtain ⟨_, hval, hnext⟩ := bind_ok.1 hstep
    obtain ⟨hp, hnew⟩ := hchk value _ hval
    cases hnext
    exact ⟨hp, of_decide_eq_true hnew, rfl⟩
  obtain ⟨hall, hnd, -, hkeys⟩ := foldlM_claims hstep h
  exact ⟨hall, hnd, hkeys.trans (Finset.empty_union _)⟩

theorem validateSources_ok {keys : Finset Bytes}
    (h : validateSources record repositoryId limits = .ok keys) :
    (∀ source ∈ record.provenance.sources,
      validateSource source repositoryId limits record.recordId = .ok ⟨⟩ ∧
        sameSourceState source.snapshot record.provenance.sourceSnapshot) ∧
      (record.provenance.sources.map sourceKey).Nodup ∧
      keys = (record.provenance.sources.map sourceKey).toFinset := by
  refine forEachClaimed_ok ?_ h
  intro source unclaimed hchk
  obtain ⟨_, hval, hchk⟩ := bind_ok.1 hchk
  obtain ⟨hsame, hnew⟩ := ensure_ok.1 hchk
  exact ⟨⟨hval, hsame⟩, hnew⟩

theorem validateRecord_cited {bytes : ℕ}
    (h : validateRecord record repositoryId limits = .ok bytes) :
    Cited record repositoryId limits := by
  obtain ⟨-, h⟩ := guarded h
  obtain ⟨-, h⟩ := guarded h
  obtain ⟨-, h⟩ := guarded h
  obtain ⟨-, h⟩ := guarded h
  replace h := later h
  obtain ⟨_, hkeys, h⟩ := bind_ok.1 h
  obtain ⟨-, h⟩ := guarded h
  obtain ⟨-, h⟩ := guarded h
  obtain ⟨_, -, h⟩ := bind_ok.1 h
  obtain ⟨-, h⟩ := guarded h
  replace h := later h
  obtain ⟨_, hcitations, -⟩ := bind_ok.1 h
  obtain ⟨hsrc, hdist, rfl⟩ := validateSources_ok hkeys
  refine ⟨hsrc, hdist, ?_⟩
  intro cited hcited
  obtain ⟨_, hval, hkey⟩ := bind_ok.1 (forM_ok.1 hcitations cited hcited)
  refine ⟨hval, ?_⟩
  have hmem := ensure_ok.1 hkey
  rw [List.mem_toFinset, List.mem_map] at hmem
  exact hmem

theorem valid_cited {graph : RepositoryKnowledgeGraph} (h : Valid graph limits) :
    ∀ record ∈ graph.records, Cited record graph.repositoryId limits := by
  intro record hrec
  obtain ⟨_, hbs⟩ := (valid_iff.1 h).scannable.valid record hrec
  exact validateRecord_cited hbs

/-- The record cites only sources of its provenance, which belong to its snapshot. -/
def CitesOwn (record : RepositoryKnowledgeRecord) : Prop :=
  ∀ cited ∈ record.payload.entitySources, cited ∈ record.provenance.sources ∧
    sameSourceState cited.snapshot record.provenance.sourceSnapshot

/-- A citation that looks like a source of the provenance has its snapshot and its size. -/
def Consistent (record : RepositoryKnowledgeRecord) : Prop :=
  ∀ cited ∈ record.payload.entitySources, ∀ source ∈ record.provenance.sources,
    Alike cited source → cited.snapshot = source.snapshot ∧
      cited.contentDigest.byteSize = source.contentDigest.byteSize

theorem Cited.citesOwn_iff (h : Cited record repositoryId limits) :
    CitesOwn record ↔ Consistent record := by
  constructor
  · intro hown cited hcited source hsrc halike
    have hmem := (hown cited hcited).1
    obtain rfl := List.inj_on_of_nodup_map h.distinct hmem hsrc halike.sourceKey
    exact ⟨rfl, rfl⟩
  · intro hcons cited hcited
    obtain ⟨hval, source, hsrc, hkey⟩ := h.citations cited hcited
    obtain ⟨hsourceValid, hsame⟩ := h.sources source hsrc
    have halike := alike_of_key hval hsourceValid hkey.symm
    obtain ⟨hsnap, hsize⟩ := hcons cited hcited source hsrc halike
    obtain rfl := halike.eq hsnap hsize
    exact ⟨hsrc, hsame⟩

instance (record : RepositoryKnowledgeRecord) : Decidable (CitesOwn record) :=
  inferInstanceAs (Decidable (∀ _ ∈ _, _ ∧ _))

/-- In an accepted graph the records cite only sources of their own snapshots exactly when no
citation differs from a source of the same key in snapshot or size. -/
theorem cites_own_snapshot_iff (graph : RepositoryKnowledgeGraph)
    (limits : RepositoryKnowledgeLimits) (h : Valid graph limits) :
    ∀ record ∈ graph.records, CitesOwn record ↔ Consistent record :=
  fun record hrecord => (valid_cited h record hrecord).citesOwn_iff

/-! ### A citation of another snapshot -/

def citingRecord (snapshot : RepositorySnapshotIdentity) : RepositoryKnowledgeRecord where
  recordId := "record"
  revision := 1
  payload := .diagnostic
    ⟨⟨"file", .file, bytesOf "file", none⟩, .error, bytesOf "code", bytesOf "message",
      some ⟨snapshot, bytesOf "file", ⟨"sha256", "0b", 1⟩, none⟩⟩
  provenance := {
    sourceSnapshot := ⟨"repository", ⟨"sha256", "0a", 1⟩⟩
    sources := [⟨⟨"repository", ⟨"sha256", "0a", 1⟩⟩, bytesOf "file", ⟨"sha256", "0b", 1⟩, none⟩]
    producer := ⟨bytesOf "producer", bytesOf "1"⟩
    createdAt := 0
    derivationInputs := []
    buildConfiguration := none
    derivation := .observed
    confidence := .high }
  invalidation := [.sourceDigestChanged]
  freshness := .current

theorem cites_own_snapshot : CitesOwn (citingRecord ⟨"repository", ⟨"sha256", "0a", 1⟩⟩) := by
  have hvalid : Valid ⟨"repository", 1, [citingRecord ⟨"repository", ⟨"sha256", "0a", 1⟩⟩]⟩ {} :=
    isOk_iff.1 (by decide +kernel)
  refine (cites_own_snapshot_iff _ _ hvalid _ List.mem_cons_self).2 ?_
  intro cited hcited source hsource _
  obtain rfl := List.mem_singleton.1 hcited
  obtain rfl := List.mem_singleton.1 hsource
  exact ⟨rfl, rfl⟩

theorem cites_other_snapshot : ¬ ∀ (graph : RepositoryKnowledgeGraph)
    (limits : RepositoryKnowledgeLimits), Valid graph limits →
      ∀ record ∈ graph.records, CitesOwn record := by
  intro hclaim
  have hvalid : Valid ⟨"repository", 1, [citingRecord ⟨"repository", ⟨"sha256", "0c", 1⟩⟩]⟩ {} :=
    isOk_iff.1 (by decide +kernel)
  have hcites := hclaim _ _ hvalid _ List.mem_cons_self
  revert hcites
  decide +kernel

end Knowledge
