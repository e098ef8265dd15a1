import AiForge.KeyedList
import AiForge.LexicalPaths
import AiForge.SortedBy
import AiForge.VideoProjection

/-! # Repository knowledge

A knowledge graph holds records about a repository. A derived record names the records it was
derived from, with their revisions. A graph is checked as a whole; an update replaces, inserts
and removes records and invalidates every record that was derived from them. -/
namespace Knowledge

open Content Events KeyedList SafeText SortedBy Money Staged

abbrev KnowledgeRecordId := String
abbrev KnowledgeEntityId := String
abbrev RepositoryId := String

inductive KnowledgeEntityKind where
  | repository | directory | file | sourceRange | symbol | type | function | method | module
  | package | buildTarget | test | diagnostic | configuration | artifact | unknown
  deriving DecidableEq

structure KnowledgeEntity where
  entityId : KnowledgeEntityId
  kind : KnowledgeEntityKind
  displayName : Bytes
  source : Option RepositorySourceIdentity
  deriving DecidableEq

structure SymbolKnowledge where
  symbol : KnowledgeEntity
  language : Bytes
  (qualifiedName signature : Option Bytes)
  declarations : List RepositorySourceIdentity
  definition : Option RepositorySourceIdentity
  deriving DecidableEq

inductive KnowledgeRelationshipKind where
  | contains | defines | references | calls | imports | includes | inherits | implements | builds
  | dependsOn | generates | generatedFrom | tests | diagnoses | changedBy | unknown
  deriving DecidableEq

structure RelationshipKnowledge where
  source : KnowledgeEntity
  kind : KnowledgeRelationshipKind
  target : KnowledgeEntity
  evidenceSource : Option RepositorySourceIdentity
  deriving DecidableEq

/-- A severity may also be a number that the enumeration does not have. -/
inductive KnowledgeDiagnosticSeverity where
  | note | warning | error | fatal | unknown
  | other (value : ℕ)
  deriving DecidableEq

def knownDiagnosticSeverity : KnowledgeDiagnosticSeverity → Bool
  | .other _ => false
  | _ => true

structure DiagnosticKnowledge where
  subject : KnowledgeEntity
  severity : KnowledgeDiagnosticSeverity
  (code message : Bytes)
  source : Option RepositorySourceIdentity
  deriving DecidableEq

structure SemanticSummaryKnowledge where
  subject : KnowledgeEntity
  (purpose summary : Bytes)
  artifactId : Option ArtifactId
  deriving DecidableEq

structure UnknownRepositoryKnowledge where
  subject : KnowledgeEntity
  typeName : Bytes
  artifactId : Option ArtifactId
  deriving DecidableEq

inductive RepositoryKnowledgePayload where
  | symbol (value : SymbolKnowledge)
  | relationship (value : RelationshipKnowledge)
  | diagnostic (value : DiagnosticKnowledge)
  | semanticSummary (value : SemanticSummaryKnowledge)
  | unknown (value : UnknownRepositoryKnowledge)
  deriving DecidableEq

inductive KnowledgeDerivation where
  | observed | derived | inferred | unknown
  deriving DecidableEq

inductive KnowledgeConfidence where
  | certain | high | medium | low | unknown
  deriving DecidableEq

inductive KnowledgeFreshness where
  | current | possiblyStale | stale | unavailable
  deriving DecidableEq

structure KnowledgeProducer where
  (name version : Bytes)
  deriving DecidableEq

structure KnowledgeRecordReference where
  recordId : KnowledgeRecordId
  revision : ℕ
  deriving DecidableEq

inductive KnowledgeInvalidationTrigger where
  | sourceSnapshotChanged | sourceDigestChanged | dependencyChanged | producerVersionChanged
  | buildConfigurationChanged | unknown
  deriving DecidableEq

structure RepositoryKnowledgeProvenance where
  sourceSnapshot : RepositorySnapshotIdentity
  sources : List RepositorySourceIdentity
  producer : KnowledgeProducer
  createdAt : EventTimestamp
  derivationInputs : List KnowledgeRecordReference
  buildConfiguration : Option ContentDigest
  derivation : KnowledgeDerivation
  confidence : KnowledgeConfidence
  deriving DecidableEq

structure RepositoryKnowledgeRecord where
  recordId : KnowledgeRecordId
  revision : ℕ
  payload : RepositoryKnowledgePayload
  provenance : RepositoryKnowledgeProvenance
  /-- The triggers of the record's invalidation rule. -/
  invalidation : List KnowledgeInvalidationTrigger
  freshness : KnowledgeFreshness
  deriving DecidableEq

structure RepositoryKnowledgeGraph where
  repositoryId : RepositoryId
  generation : ℕ
  records : List RepositoryKnowledgeRecord
  deriving DecidableEq

structure RepositoryKnowledgeLimits where
  maximumRecords : ℕ := 100000
  maximumEntities : ℕ := 200000
  (maximumSourcesPerRecord maximumDependenciesPerRecord maximumDeclarationsPerSymbol : ℕ := 4096)
  maximumMetadataBytes : ℕ := 4096
  maximumSummaryBytes : ℕ := 1024 * 1024
  maximumTotalInlineBytes : ℕ := 256 * 1024 * 1024

inductive RepositoryKnowledgeErrorCode where
  | invalidLimits | invalidGraph | invalidRecord | invalidEntity | invalidSource | invalidProvenance
  | invalidInvalidationRule | invalidFreshness | duplicateRecord | conflictingEntity
  | missingDependency | cyclicDependency | resourceExhausted | overflow | generationConflict
  | revisionConflict | internalFailure
  deriving DecidableEq

structure RepositoryKnowledgeError where
  code : RepositoryKnowledgeErrorCode
  message : String
  recordId : Option KnowledgeRecordId := none
  deriving DecidableEq

abbrev Result := Except RepositoryKnowledgeError

structure RepositoryKnowledgeEstimate where
  (recordCount entityCount relationshipCount inlineBytes : ℕ)

def boundedText (value : Bytes) (maximum : ℕ) (allowEmpty : Bool := false) : Bool :=
  value.length ≤ maximum && (allowEmpty || !value.isEmpty) && Video.validUtf8 value &&
    value.all fun c => !(c == 0x7f || (c < 0x20 && !(bytesOf "\t\n\r").contains c))

def isAlnum (c : UInt8) : Bool :=
  (0x30 ≤ c && c ≤ 0x39) || (0x41 ≤ c && c ≤ 0x5a) || (0x61 ≤ c && c ≤ 0x7a)

def isXdigit (c : UInt8) : Bool :=
  (0x30 ≤ c && c ≤ 0x39) || (0x41 ≤ c && c ≤ 0x46) || (0x61 ≤ c && c ≤ 0x66)

def validDigest (digest : ContentDigest) (maximumBytes : ℕ) : Bool :=
  boundedText (bytesOf digest.algorithm) 128 && boundedText (bytesOf digest.value) 512 &&
    digest.byteSize ≤ maximumBytes &&
    ((bytesOf digest.algorithm).all fun c => isAlnum c || (bytesOf "-_.").contains c) &&
    (bytesOf digest.value).all isXdigit

def validSnapshot (snapshot : RepositorySnapshotIdentity) (maximumBytes : ℕ) : Bool :=
  validDigest snapshot.fingerprint maximumBytes

def validRelativePath (value : Bytes) (maximum : ℕ) : Bool :=
  let slash := '/'.toUInt8
  boundedText value maximum && !LexicalPaths.isAbsolute slash value &&
    (LexicalPaths.elements slash value).all (fun part =>
      part != bytesOf "." && part != bytesOf ".." && !part.isEmpty) &&
    LexicalPaths.genericString slash value == value

def knownFreshness : KnowledgeFreshness → Bool
  | .current | .possiblyStale | .stale | .unavailable => true

def sameSourceState (left right : RepositorySnapshotIdentity) : Bool :=
  left.repositoryId == right.repositoryId && left.fingerprint == right.fingerprint

def failure (code : RepositoryKnowledgeErrorCode) (message : String)
    (recordId : KnowledgeRecordId) : RepositoryKnowledgeError :=
  ⟨code, message, some recordId⟩

def validateSource (source : RepositorySourceIdentity) (repositoryId : RepositoryId)
    (limits : RepositoryKnowledgeLimits) (recordId : KnowledgeRecordId) : Result PUnit := do
  ensure (source.snapshot.repositoryId = repositoryId ∧
      validSnapshot source.snapshot limits.maximumTotalInlineBytes ∧
      validRelativePath source.relativePath limits.maximumMetadataBytes ∧
      validDigest source.contentDigest limits.maximumTotalInlineBytes)
    (failure .invalidSource "repository knowledge source identity is invalid" recordId)
  ensure ((source.range.all fun range =>
      range.start < range.stop && range.stop ≤ source.contentDigest.byteSize) = true)
    (failure .invalidSource "repository knowledge source range is invalid" recordId)

def sourceKey (source : RepositorySourceIdentity) : Bytes :=
  source.relativePath ++ 0 :: bytesOf source.contentDigest.algorithm ++
    0 :: bytesOf source.contentDigest.value ++ 0 :: match source.range with
    | none => []
    | some range => bytesOf (toString range.start ++ ":" ++ toString range.stop)

def RepositoryKnowledgePayload.entities : RepositoryKnowledgePayload → List KnowledgeEntity
  | symbol value => [value.symbol]
  | relationship value => [value.source, value.target]
  | diagnostic value => [value.subject]
  | semanticSummary value => [value.subject]
  | unknown value => [value.subject]

def RepositoryKnowledgePayload.entitySources :
    RepositoryKnowledgePayload → List RepositorySourceIdentity
  | symbol value => value.symbol.source.toList ++ value.declarations ++ value.definition.toList
  | relationship value =>
    value.source.source.toList ++ value.target.source.toList ++ value.evidenceSource.toList
  | diagnostic value => value.subject.source.toList ++ value.source.toList
  | semanticSummary value => value.subject.source.toList
  | unknown value => value.subject.source.toList

def RepositoryKnowledgePayload.isUnknown : RepositoryKnowledgePayload → Bool
  | unknown _ => true
  | _ => false

def RepositoryKnowledgePayload.isRelationship : RepositoryKnowledgePayload → Bool
  | relationship _ => true
  | _ => false

def validateEntity (entity : KnowledgeEntity) (repositoryId : RepositoryId)
    (limits : RepositoryKnowledgeLimits) (recordId : KnowledgeRecordId) (allowUnknown : Bool) :
    Result PUnit := do
  ensure ((entity.kind ≠ .unknown ∨ allowUnknown) ∧
      boundedText entity.displayName limits.maximumMetadataBytes)
    (failure .invalidEntity "repository knowledge entity is invalid" recordId)
  match entity.source with
  | none => pure ⟨⟩
  | some source => validateSource source repositoryId limits recordId

def addChecked (total value : ℕ) : Option ℕ :=
  if uint64Max - total < value then none else some (total + value)

def addTexts (texts : List Bytes) : Option ℕ :=
  texts.foldlM (fun total text => addChecked total text.length) 0

/-- What makes the payload valid, and what is said of it otherwise. -/
def RepositoryKnowledgePayload.wellFormed (limits : RepositoryKnowledgeLimits) :
    RepositoryKnowledgePayload → Bool × String
  | symbol value =>
    (value.symbol.kind != .unknown && boundedText value.language limits.maximumMetadataBytes &&
      (value.qualifiedName.all fun name => boundedText name limits.maximumMetadataBytes) &&
      (value.signature.all fun text => boundedText text limits.maximumSummaryBytes) &&
      value.declarations.length ≤ limits.maximumDeclarationsPerSymbol &&
      !(value.declarations.isEmpty && value.definition.isNone && value.symbol.source.isNone),
      "symbol knowledge is invalid")
  | relationship value =>
    (value.kind != .unknown, "repository relationship kind is invalid")
  | diagnostic value =>
    (knownDiagnosticSeverity value.severity &&
      boundedText value.code limits.maximumMetadataBytes true &&
      boundedText value.message limits.maximumSummaryBytes, "diagnostic knowledge is invalid")
  | semanticSummary value =>
    (boundedText value.purpose limits.maximumMetadataBytes &&
      boundedText value.summary limits.maximumSummaryBytes,
      "semantic summary knowledge is invalid")
  | unknown value =>
    (boundedText value.typeName limits.maximumMetadataBytes,
      "unknown repository knowledge type is invalid")

/-- The texts that count, and what is said when they are too large to count. -/
def RepositoryKnowledgePayload.texts : RepositoryKnowledgePayload → List Bytes × String
  | symbol value =>
    (value.language :: value.qualifiedName.toList ++ value.signature.toList,
      "symbol knowledge size overflowed")
  | relationship _ => ([], "")
  | diagnostic value => ([value.code, value.message], "diagnostic knowledge size overflowed")
  | semanticSummary value => ([value.purpose, value.summary], "semantic summary size overflowed")
  | unknown value => ([value.typeName], "unknown repository knowledge size overflowed")

def payloadInlineBytes (payload : RepositoryKnowledgePayload) (limits : RepositoryKnowledgeLimits)
    (recordId : KnowledgeRecordId) : Result ℕ := do
  ensure ((payload.wellFormed limits).1)
    (failure .invalidRecord (payload.wellFormed limits).2 recordId)
  let _ ← require (addTexts payload.texts.1) (failure .overflow payload.texts.2 recordId)
  require (addTexts (payload.texts.1 ++ payload.entities.map KnowledgeEntity.displayName))
    (failure .overflow "repository entity size overflowed" recordId)

def KnowledgeDerivation.fromRecords : KnowledgeDerivation → Bool
  | derived | inferred => true
  | _ => false

/-- Every element is claimed once: no key occurs again later in the list. -/
def forEachClaimed {α κ : Type} [DecidableEq κ] (key : α → κ) (check : α → Bool → Result PUnit)
    (values : List α) : Result (Finset κ) :=
  values.foldlM (fun claimed value => do
    check value (decide (key value ∉ claimed))
    return insert (key value) claimed) ∅

def validateDependencies (record : RepositoryKnowledgeRecord) : Result (Finset KnowledgeRecordId) :=
  forEachClaimed KnowledgeRecordReference.recordId (fun dependency unclaimed =>
    ensure (dependency.revision ≠ 0 ∧ dependency.recordId ≠ record.recordId ∧ unclaimed)
      (failure .invalidProvenance "repository knowledge dependency is invalid" record.recordId))
    record.provenance.derivationInputs

def validateSources (record : RepositoryKnowledgeRecord) (repositoryId : RepositoryId)
    (limits : RepositoryKnowledgeLimits) : Result (Finset Bytes) :=
  forEachClaimed sourceKey (fun source unclaimed => do
    validateSource source repositoryId limits record.recordId
    ensure (sameSourceState source.snapshot record.provenance.sourceSnapshot ∧
        unclaimed)
      (failure .invalidProvenance "repository knowledge source provenance conflicts"
        record.recordId))
    record.provenance.sources

def validateTriggers (record : RepositoryKnowledgeRecord) :
    Result (Finset KnowledgeInvalidationTrigger) :=
  forEachClaimed id (fun trigger unclaimed =>
    ensure (trigger ≠ .unknown ∧ unclaimed)
      (failure .invalidInvalidationRule "repository knowledge invalidation trigger is invalid"
        record.recordId))
    record.invalidation

def validateRecord (record : RepositoryKnowledgeRecord) (repositoryId : RepositoryId)
    (limits : RepositoryKnowledgeLimits) : Result ℕ := do
  let provenance := record.provenance
  ensure (record.revision ≠ 0 ∧
      validSnapshot provenance.sourceSnapshot limits.maximumTotalInlineBytes ∧
      provenance.sourceSnapshot.repositoryId = repositoryId ∧
      boundedText provenance.producer.name limits.maximumMetadataBytes ∧
      boundedText provenance.producer.version limits.maximumMetadataBytes ∧
      0 ≤ provenance.createdAt ∧ provenance.sources.length ≤ limits.maximumSourcesPerRecord ∧
      provenance.derivationInputs.length ≤ limits.maximumDependenciesPerRecord)
    (failure .invalidProvenance "repository knowledge provenance is invalid" record.recordId)
  ensure (knownFreshness record.freshness)
    (failure .invalidFreshness "repository knowledge freshness is invalid" record.recordId)
  ensure (if record.payload.isUnknown then provenance.derivation = .unknown
      else provenance.derivation ≠ .unknown ∧ provenance.confidence ≠ .unknown)
    (failure .invalidProvenance "repository knowledge derivation is invalid" record.recordId)
  ensure (provenance.derivation.fromRecords = !provenance.derivationInputs.isEmpty)
    (failure .invalidProvenance "repository knowledge dependencies are inconsistent"
      record.recordId)
  let _ ← validateDependencies record
  let sourceIds ← validateSources record repositoryId limits
  ensure ((provenance.buildConfiguration.all fun digest =>
      validDigest digest limits.maximumTotalInlineBytes) = true)
    (failure .invalidProvenance "repository build configuration identity is invalid"
      record.recordId)
  ensure (record.invalidation ≠ [])
    (failure .invalidInvalidationRule "repository knowledge invalidation rule is empty"
      record.recordId)
  let triggers ← validateTriggers record
  ensure ((.sourceDigestChanged ∈ triggers → provenance.sources ≠ []) ∧
      (.dependencyChanged ∈ triggers → provenance.derivationInputs ≠ []) ∧
      (.buildConfigurationChanged ∈ triggers → provenance.buildConfiguration ≠ none))
    (failure .invalidInvalidationRule "repository knowledge invalidation baseline is missing"
      record.recordId)
  record.payload.entities.forM fun entity =>
    validateEntity entity repositoryId limits record.recordId record.payload.isUnknown
  record.payload.entitySources.forM fun source => do
    validateSource source repositoryId limits record.recordId
    ensure (sourceKey source ∈ sourceIds)
      (failure .invalidProvenance "record source is absent from its provenance" record.recordId)
  payloadInlineBytes record.payload limits record.recordId

def validateLimits (limits : RepositoryKnowledgeLimits) : Bool :=
  0 < limits.maximumRecords && 0 < limits.maximumEntities &&
    0 < limits.maximumSourcesPerRecord && 0 < limits.maximumDependenciesPerRecord &&
    0 < limits.maximumDeclarationsPerSymbol && 0 < limits.maximumMetadataBytes &&
    0 < limits.maximumSummaryBytes && 0 < limits.maximumTotalInlineBytes &&
    limits.maximumSummaryBytes ≤ limits.maximumTotalInlineBytes

/-- An entity with the freshness of the record it was taken from. -/
structure KnownEntity where
  entity : KnowledgeEntity
  freshness : KnowledgeFreshness

def KnownEntity.entityId (known : KnownEntity) : KnowledgeEntityId := known.entity.entityId

/-- Two current records agree on what an entity is; a current record overrides an older one. -/
def noteEntity (recordId : KnowledgeRecordId) (freshness : KnowledgeFreshness)
    (known : List KnownEntity) (entity : KnowledgeEntity) : Result (List KnownEntity) :=
  match lookup KnownEntity.entityId entity.entityId known with
  | none => pure (known ++ [⟨entity, freshness⟩])
  | some found => do
    ensure (¬ (found.entity ≠ entity ∧ found.freshness = .current ∧ freshness = .current))
      (failure .conflictingEntity "repository knowledge entity identity conflicts" recordId)
    return if freshness = .current then
      updateFirst KnownEntity.entityId entity.entityId (fun _ => ⟨entity, freshness⟩) known
    else known

structure GraphScan where
  recordIds : Finset KnowledgeRecordId := ∅
  (inlineBytes relationships : ℕ := 0)
  entities : List KnownEntity := []

def scanRecord (repositoryId : RepositoryId) (limits : RepositoryKnowledgeLimits)
    (scan : GraphScan) (record : RepositoryKnowledgeRecord) : Result GraphScan := do
  ensure (record.recordId ∉ scan.recordIds)
    (failure .duplicateRecord "repository knowledge record identity is duplicated"
      record.recordId)
  let bytes ← validateRecord record repositoryId limits
  let inlineBytes ← require (addChecked scan.inlineBytes bytes)
    (failure .overflow "repository knowledge inline size overflowed" record.recordId)
  ensure (inlineBytes ≤ limits.maximumTotalInlineBytes)
    (failure .resourceExhausted "repository knowledge inline limit exceeded" record.recordId)
  let entities ← record.payload.entities.foldlM (noteEntity record.recordId record.freshness)
    scan.entities
  return {
    recordIds := insert record.recordId scan.recordIds
    inlineBytes
    relationships := scan.relationships + if record.payload.isRelationship then 1 else 0
    entities }

/-- Only an unavailable record may miss a dependency, and a current one has the revision that
its dependency has. -/
def checkDependency (records : List RepositoryKnowledgeRecord) (record : RepositoryKnowledgeRecord)
    (dependency : KnowledgeRecordReference) : Result PUnit :=
  match lookup RepositoryKnowledgeRecord.recordId dependency.recordId records with
  | none =>
    ensure (record.freshness = .unavailable)
      (failure .missingDependency "repository knowledge dependency is unavailable"
        record.recordId)
  | some found =>
    ensure (¬ (found.revision ≠ dependency.revision ∧ record.freshness = .current))
      (failure .invalidFreshness "current knowledge references an obsolete dependency"
        record.recordId)

def checkDependencies (records : List RepositoryKnowledgeRecord) : Result PUnit :=
  records.forM fun record =>
    record.provenance.derivationInputs.forM (checkDependency records record)

structure Visits where
  (visiting visited : Finset KnowledgeRecordId := ∅)
  cyclic : Bool := false

/-- Goes on to a dependency, unless a cycle was found or the dependency is missing. -/
def follow (records : List RepositoryKnowledgeRecord)
    (next : Visits → RepositoryKnowledgeRecord → Visits) (visits : Visits)
    (dependency : KnowledgeRecordReference) : Visits :=
  if visits.cyclic then visits
  else match lookup RepositoryKnowledgeRecord.recordId dependency.recordId records with
    | none => visits
    | some found => next visits found

/-- Visits a record below the records that are being visited. Each visit on the way down is of
another record, so that the number of records is enough fuel. -/
def visit (records : List RepositoryKnowledgeRecord) :
    ℕ → Visits → RepositoryKnowledgeRecord → Visits
  | 0, visits, _ => visits
  | fuel + 1, visits, record =>
    if record.recordId ∈ visits.visiting then { visits with cyclic := true }
    else if record.recordId ∈ visits.visited then visits
    else
      let below := record.provenance.derivationInputs.foldl (follow records (visit records fuel))
        { visits with visiting := insert record.recordId visits.visiting }
      if below.cyclic then below
      else { below with
        visiting := below.visiting.erase record.recordId
        visited := insert record.recordId below.visited }

/-- The records are those of a map: in the order of their identities. -/
def hasDependencyCycle (records : List RepositoryKnowledgeRecord) : Bool :=
  (records.foldl (fun (visits : Visits) record =>
    if visits.cyclic then visits else visit records (records.length + 1) visits record) {}).cyclic

def validateGraph (graph : RepositoryKnowledgeGraph) (limits : RepositoryKnowledgeLimits) :
    Result RepositoryKnowledgeEstimate := do
  ensure (validateLimits limits)
    ⟨.invalidLimits, "repository knowledge limits are invalid", none⟩
  ensure (¬ (graph.records ≠ [] ∧ graph.generation = 0))
    ⟨.invalidGraph, "repository knowledge generation is invalid", none⟩
  ensure (graph.records.length ≤ limits.maximumRecords)
    ⟨.resourceExhausted, "repository knowledge record limit exceeded", none⟩
  let scan ← graph.records.foldlM (scanRecord graph.repositoryId limits) {}
  ensure (scan.entities.length ≤ limits.maximumEntities)
    ⟨.resourceExhausted, "repository knowledge entity limit exceeded", none⟩
  checkDependencies graph.records
  ensure (hasDependencyCycle (sortBy RepositoryKnowledgeRecord.recordId graph.records) = false)
    ⟨.cyclicDependency, "repository knowledge derivation contains a cycle", none⟩
  return ⟨graph.records.length, scan.entities.length, scan.relationships, scan.inlineBytes⟩

structure RepositoryKnowledgeReplacement where
  /-- A record that is inserted has no revision yet. -/
  expectedRevision : Option ℕ
  record : RepositoryKnowledgeRecord

structure RepositoryKnowledgeUpdate where
  expectedGeneration : ℕ
  replacements : List RepositoryKnowledgeReplacement
  removals : List KnowledgeRecordId

/-- The records that an update names, in the order of its operations. -/
def RepositoryKnowledgeUpdate.named (update : RepositoryKnowledgeUpdate) :
    List KnowledgeRecordId :=
  update.replacements.map (fun replacement => replacement.record.recordId) ++ update.removals

def claimOperation (operations : Finset KnowledgeRecordId) (recordId : KnowledgeRecordId) :
    Result (Finset KnowledgeRecordId) := do
  ensure (recordId ∉ operations)
    (failure .duplicateRecord "repository knowledge update repeats a record" recordId)
  return insert recordId operations

def replaceRecord (records : List RepositoryKnowledgeRecord)
    (replacement : RepositoryKnowledgeReplacement) : Result (List RepositoryKnowledgeRecord) :=
  let record := replacement.record
  let found := lookup RepositoryKnowledgeRecord.recordId record.recordId records
  match replacement.expectedRevision with
  | none => do
    ensure (found = none ∧ record.revision = 1)
      (failure .revisionConflict "repository knowledge insertion revision conflicts"
        record.recordId)
    return records ++ [record]
  | some expected => do
    ensure ((found.any fun old => old.revision == expected && old.revision != uint64Max &&
        record.revision == old.revision + 1) = true)
      (failure .revisionConflict "repository knowledge replacement revision conflicts"
        record.recordId)
    return updateFirst RepositoryKnowledgeRecord.recordId record.recordId (fun _ => record) records

def removeRecord (records : List RepositoryKnowledgeRecord) (removal : KnowledgeRecordId) :
    Result (List RepositoryKnowledgeRecord) := do
  ensure ((lookup RepositoryKnowledgeRecord.recordId removal records).isSome)
    (failure .revisionConflict "repository knowledge removal target is missing" removal)
  return records.eraseP fun record => record.recordId = removal

def KnowledgeFreshness.rank : KnowledgeFreshness → ℕ
  | current => 0
  | possiblyStale => 1
  | stale => 2
  | unavailable => 3

def worseFreshness (left right : KnowledgeFreshness) : KnowledgeFreshness :=
  if right.rank ≤ left.rank then left else right

def RepositoryKnowledgeRecord.inputs (record : RepositoryKnowledgeRecord) :
    List KnowledgeRecordId :=
  record.provenance.derivationInputs.map KnowledgeRecordReference.recordId

/-- The freshness that the changed dependencies leave. -/
def RepositoryKnowledgeRecord.nextFreshness (record : RepositoryKnowledgeRecord)
    (changed removed : Finset KnowledgeRecordId) : KnowledgeFreshness :=
  record.inputs.foldl (fun freshness input =>
    if input ∈ changed then
      worseFreshness freshness (if input ∈ removed then .unavailable else .stale)
    else freshness) record.freshness

structure Propagation where
  records : List RepositoryKnowledgeRecord
  invalidated : Finset KnowledgeRecordId := ∅
  changed : Finset KnowledgeRecordId
  progress : Bool := true

section Propagate

variable (operations removed : Finset KnowledgeRecordId)

/-- One record of a pass; the records passed so far are kept in order. -/
def invalidateRecord (p : Propagation) (record : RepositoryKnowledgeRecord) :
    Result Propagation :=
  if record.recordId ∈ operations ∨ record.recordId ∈ p.invalidated ∨
      (record.inputs.any fun input => input ∈ p.changed) = false then
    pure { p with records := p.records ++ [record] }
  else do
    ensure (record.revision ≠ uint64Max)
      (failure .overflow "repository knowledge revision overflowed" record.recordId)
    return {
      records := p.records ++ [{ record with
        revision := record.revision + 1
        freshness := record.nextFreshness p.changed removed }]
      invalidated := insert record.recordId p.invalidated
      changed := insert record.recordId p.changed
      progress := true }

def pass (p : Propagation) : Result Propagation :=
  p.records.foldlM (invalidateRecord operations removed) { p with records := [], progress := false }

/-- Passes until one of them makes no progress; `none` when the fuel runs out before. -/
def propagate : ℕ → Propagation → Option (Result Propagation)
  | 0, _ => none
  | fuel + 1, p =>
    match pass operations removed p with
    | .error error => some (.error error)
    | .ok next => if next.progress then propagate fuel next else some (.ok next)

end Propagate

/-- More passes than there are records are never needed. -/
def propagateAll (operations removed : Finset KnowledgeRecordId)
    (records : List RepositoryKnowledgeRecord) : Result Propagation :=
  (propagate operations removed (records.length + 1) { records, changed := operations }).getD
    (.error ⟨.internalFailure, "repository knowledge update failed internally", none⟩)

def applyUpdate (graph : RepositoryKnowledgeGraph) (update : RepositoryKnowledgeUpdate)
    (limits : RepositoryKnowledgeLimits) : Result RepositoryKnowledgeGraph := do
  let _ ← validateGraph graph limits
  ensure (update.expectedGeneration = graph.generation)
    ⟨.generationConflict, "repository knowledge generation changed", none⟩
  ensure (¬ (update.replacements = [] ∧ update.removals = []))
    ⟨.invalidGraph, "repository knowledge update is empty", none⟩
  ensure (update.replacements.length ≤ limits.maximumRecords ∧
      update.removals.length ≤ limits.maximumRecords)
    ⟨.resourceExhausted, "repository knowledge update exceeds its record limit", none⟩
  ensure (graph.generation ≠ uint64Max)
    ⟨.overflow, "repository knowledge generation overflowed", none⟩
  let operations ← update.named.foldlM claimOperation ∅
  let replaced ← update.replacements.foldlM replaceRecord graph.records
  let base ← update.removals.foldlM removeRecord replaced
  let propagated ← propagateAll operations update.removals.toFinset base
  let result := { graph with
    generation := graph.generation + 1
    records := sortBy RepositoryKnowledgeRecord.recordId propagated.records }
  let _ ← validateGraph result limits
  return result

end Knowledge
