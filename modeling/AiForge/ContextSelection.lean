import AiForge.ContextBuilder
import AiForge.RepositoryKnowledge

/-! # Context selection

Candidates compete for what the mandatory instructions leave of a context. They are checked,
ranked by a comparator that depends on the phase of the task, and taken greedily in that order.
The comparator is handed to `std::sort`, which promises nothing about a comparator that is not a
strict weak order. -/
namespace ContextSelection

open Admission Content ContextBuilder SourceRecovery SortedBy Events Knowledge SafeText Staged

inductive TaskPhase where
  | orientation | diagnosis | editing | verification | review | unknown
  deriving DecidableEq

inductive EvidenceFreshness where
  | current | possiblyStale | stale | unavailable
  deriving DecidableEq

inductive RepositoryEvidenceReference where
  | exactSource (source : RepositorySourceIdentity)
  | diagnostic (artifactId : ArtifactId) (source : Option RepositorySourceIdentity)
  | diff (base target : RepositorySnapshotIdentity) (artifactId : ArtifactId)
  | toolResult (invocationId : InvocationId) (artifactId : Option ArtifactId)
  | derivedRecord (recordType recordId : Bytes) (artifactId : Option ArtifactId)
  | verification (evidenceId : String) (artifactIds : List ArtifactId)
  | unknown (typeName : Bytes) (artifactId : Option ArtifactId)
  deriving DecidableEq

inductive ContextBudgetClass where
  | conversation | summary | toolResult | repositoryEvidence | memory | attachment | unknown
  deriving DecidableEq

inductive ContextRepresentation where
  | direct | exact | derived | excerpt | summary | artifactReference | unknown
  deriving DecidableEq

structure ContextSelectionCandidate where
  content : ContextContentInput
  budgetClass : ContextBudgetClass := .conversation
  representation : ContextRepresentation := .direct
  freshness : EvidenceFreshness := .current
  required : Bool := false
  relevanceRank : ℕ := 0
  alternativeGroup : Option Bytes := none

structure ContextParcelItem where
  evidenceId : EvidenceId
  reference : RepositoryEvidenceReference
  freshness : EvidenceFreshness
  sourceSnapshot : Option RepositorySnapshotIdentity
  content : List ContentBlock
  estimatedTokens : ℕ

/-- A parcel comes with what the check of parcels found wrong with it, if anything: the item
at fault, where there is one. -/
structure ContextParcel where
  parcelId : String
  phase : TaskPhase
  targetSnapshot : RepositorySnapshotIdentity
  items : List ContextParcelItem
  fault : Option (Option EvidenceId)

structure RepositoryEvidenceSelection where
  evidenceId : EvidenceId
  entryId : ContextEntryId
  messageId : MessageId
  sourceId : ContextSourceId
  budgetClass : ContextBudgetClass := .repositoryEvidence
  representation : ContextRepresentation := .exact
  required : Bool := false
  (relevanceRank order : ℕ := 0)
  alternativeGroup : Option Bytes := none

structure ContextParcelSelection where
  parcel : ContextParcel
  items : List RepositoryEvidenceSelection

structure ContextSelectionLimits where
  maximumCandidates : ℕ := 4096
  maximumParcels : ℕ := 1024
  maximumAlternativeGroupBytes : ℕ := 128

structure ContextSelectionRequest where
  phase : TaskPhase := .orientation
  capacity : ContextCapacity
  instructions : List InstructionInput
  candidates : List ContextSelectionCandidate
  parcels : List ContextParcelSelection
  /-- The ceiling of a class, where it has one. The unknown class has none. -/
  budgets : ContextBudgetClass → Option ℕ
  selectionLimits : ContextSelectionLimits := {}

inductive ContextSelectionDecision where
  | admitted | omittedBudget | omittedClassBudget | omittedStale | omittedUnavailable
  | omittedUnsupported | omittedAlternative
  deriving DecidableEq

structure ContextSelectionDecisionRecord where
  entryId : ContextEntryId
  evidenceId : Option EvidenceId
  decision : ContextSelectionDecision
  estimatedTokens : ℕ

structure ContextSelectionResult where
  context : ConstructedContext
  decisions : List ContextSelectionDecisionRecord
  usage : ContextBudgetClass → ℕ

inductive ContextSelectionErrorCode where
  | invalidPhase | invalidCandidate | invalidParcel | duplicateCandidate | conflictingCandidate
  | requiredCandidateUnavailable | resourceExhausted | tokenOverflow | mandatoryCapacityExceeded
  | contextBuildFailed

structure ContextSelectionError where
  code : ContextSelectionErrorCode
  message : String
  entryId : Option ContextEntryId := none
  evidenceId : Option EvidenceId := none

abbrev Selection (α : Type) := Except ContextSelectionError α

structure CandidateState where
  content : ContextContentInput
  budgetClass : ContextBudgetClass
  representation : ContextRepresentation
  freshness : EvidenceFreshness
  required : Bool
  relevanceRank : ℕ
  alternativeGroup : Option Bytes
  evidenceId : Option EvidenceId
  reference : Option RepositoryEvidenceReference
  deriving DecidableEq

def CandidateState.entryId (c : CandidateState) : ContextEntryId := c.content.entryId

def CandidateState.fail (c : CandidateState) (code : ContextSelectionErrorCode)
    (message : String) : ContextSelectionError := ⟨code, message, some c.entryId, c.evidenceId⟩

def evidenceKindIndex : RepositoryEvidenceReference → ℕ
  | .exactSource _ => 0
  | .diagnostic _ _ => 1
  | .diff _ _ _ => 2
  | .toolResult _ _ => 3
  | .derivedRecord _ _ _ => 4
  | .verification _ _ => 5
  | .unknown _ _ => 6

def evidenceKindRank (reference : Option RepositoryEvidenceReference) (phase : TaskPhase) : ℕ :=
  match reference with
  | none => 3
  | some reference =>
    let kind := evidenceKindIndex reference
    match phase with
    | .orientation => [1, 4, 3, 4, 0, 5, 6].getD kind 0
    | .diagnosis => [2, 0, 3, 1, 4, 2, 5].getD kind 0
    | .editing => [0, 2, 1, 3, 4, 5, 6].getD kind 0
    | .verification => [4, 2, 1, 3, 5, 0, 6].getD kind 0
    | .review => [3, 2, 1, 4, 5, 0, 6].getD kind 0
    | .unknown => 5

def classRank (budgetClass : ContextBudgetClass) (phase : TaskPhase) : ℕ :=
  let index := budgetClass.ctorIdx
  match phase with
  | .orientation => [4, 0, 5, 1, 2, 3, 6].getD index 0
  | .diagnosis => [2, 4, 0, 1, 3, 5, 6].getD index 0
  | .editing => [1, 5, 2, 0, 4, 3, 6].getD index 0
  | .verification => [3, 5, 0, 1, 4, 2, 6].getD index 0
  | .review => [2, 4, 1, 0, 3, 2, 5].getD index 0
  | .unknown => 5

def representationRank (representation : ContextRepresentation) (phase : TaskPhase) : ℕ :=
  let index := representation.ctorIdx
  match phase with
  | .orientation => [2, 5, 1, 2, 0, 3, 6].getD index 0
  | .diagnosis => [2, 1, 3, 0, 4, 5, 6].getD index 0
  | .editing => [2, 0, 4, 1, 5, 6, 7].getD index 0
  | .verification => [2, 1, 4, 0, 3, 5, 6].getD index 0
  | .review => [2, 1, 4, 0, 3, 5, 6].getD index 0
  | .unknown => 7

/-- The comparator. Conversation is taken newest first, everything else in its own order. -/
def before (phase : TaskPhase) (left right : CandidateState) : Bool :=
  if left.required ≠ right.required then left.required
  else if classRank left.budgetClass phase ≠ classRank right.budgetClass phase then
    classRank left.budgetClass phase < classRank right.budgetClass phase
  else if evidenceKindRank left.reference phase ≠ evidenceKindRank right.reference phase then
    evidenceKindRank left.reference phase < evidenceKindRank right.reference phase
  else if left.relevanceRank ≠ right.relevanceRank then left.relevanceRank < right.relevanceRank
  else if representationRank left.representation phase ≠
      representationRank right.representation phase then
    representationRank left.representation phase < representationRank right.representation phase
  else if left.content.estimatedTokens ≠ right.content.estimatedTokens then
    left.content.estimatedTokens < right.content.estimatedTokens
  else if left.budgetClass = .conversation ∧ right.budgetClass = .conversation ∧
      left.content.order ≠ right.content.order then right.content.order < left.content.order
  else if left.content.order ≠ right.content.order then left.content.order < right.content.order
  else left.entryId < right.entryId

def referenceLocation : RepositoryEvidenceReference → Bytes
  | .exactSource source => source.relativePath
  | .diagnostic _ (some source) => source.relativePath
  | .diagnostic artifactId none => bytesOf "artifact:" ++ bytesOf artifactId
  | .diff _ _ artifactId => bytesOf "artifact:" ++ bytesOf artifactId
  | .toolResult invocationId _ => bytesOf "invocation:" ++ bytesOf invocationId
  | .derivedRecord recordType recordId _ => recordType ++ bytesOf ":" ++ recordId
  | .verification evidenceId _ => bytesOf "verification:" ++ bytesOf evidenceId
  | .unknown typeName _ => bytesOf "unknown:" ++ typeName

def digestText (digest : ContentDigest) : Bytes :=
  bytesOf digest.algorithm ++ bytesOf ":" ++ bytesOf digest.value

def referenceDigest (item : ContextParcelItem) (target : RepositorySnapshotIdentity) : Bytes :=
  match item.reference with
  | .exactSource source => digestText source.contentDigest
  | _ => digestText (item.sourceSnapshot.getD target).fingerprint

def validPhase : TaskPhase → Bool
  | .unknown => false
  | _ => true

def validGroup (group : Option Bytes) (maximumBytes : ℕ) : Bool :=
  group.all fun group =>
    !group.isEmpty && group.length ≤ maximumBytes && group.all fun c => !(c < 0x20 || c == 0x7f)

def eligibleFreshness (freshness : EvidenceFreshness) (phase : TaskPhase) : Bool :=
  match freshness with
  | .current => true
  | .possiblyStale => phase = .orientation || phase = .diagnosis || phase = .review
  | .stale | .unavailable => false

def sameExactLocation (left right : CandidateState) : Bool :=
  match left.reference, right.reference with
  | some (.exactSource a), some (.exactSource b) =>
    a.snapshot = b.snapshot && a.relativePath = b.relativePath && a.range = b.range
  | _, _ => false

def validReferenceRepresentation (c : CandidateState) : Bool :=
  match c.reference with
  | none | some (.unknown _ _) => true
  | some (.exactSource _) => c.representation = .exact || c.representation = .excerpt
  | some (.derivedRecord _ _ _) => c.representation = .derived || c.representation = .summary ||
      c.representation = .excerpt || c.representation = .artifactReference
  | some _ => c.representation = .direct || c.representation = .summary ||
      c.representation = .excerpt || c.representation = .artifactReference

def containsArtifact (message : Message) : Bool :=
  message.content.any fun block =>
    match block with
    | .artifactReference _ _ => true
    | _ => false

def unsupportedCandidate (c : CandidateState) : Bool :=
  c.budgetClass = .unknown || c.representation = .unknown || containsUnknown c.content.message ||
    (match c.reference with
      | some (.unknown _ _) => true
      | _ => false) ||
    (c.representation = .artifactReference && !containsArtifact c.content.message)

def decisionForFreshness (freshness : EvidenceFreshness) : ContextSelectionDecision :=
  if freshness = .unavailable then .omittedUnavailable else .omittedStale

/-- Why a candidate does not take part in the ranking, if it does not. -/
def omission (phase : TaskPhase) (c : CandidateState) : Option ContextSelectionDecision :=
  if unsupportedCandidate c then some .omittedUnsupported
  else if eligibleFreshness c.freshness phase then none
  else some (decisionForFreshness c.freshness)

def makeRecord (c : CandidateState) (decision : ContextSelectionDecision) :
    ContextSelectionDecisionRecord :=
  ⟨c.entryId, c.evidenceId, decision, c.content.estimatedTokens⟩

def contextErrorCode (code : ContextBuildErrorCode) : ContextSelectionErrorCode :=
  if code = .capacityExceeded ∨ code = .tokenOverflow then .mandatoryCapacityExceeded
  else .contextBuildFailed

def built {α : Type} (message : String) : Build α → Selection α
  | .ok context => .ok context
  | .error err => .error ⟨contextErrorCode err.code, message, err.entryId, none⟩

def ofCandidate (c : ContextSelectionCandidate) : CandidateState :=
  ⟨c.content, c.budgetClass, c.representation, c.freshness, c.required, c.relevanceRank,
    c.alternativeGroup, none, none⟩

def ofItem (parcel : ContextParcel) (item : ContextParcelItem)
    (binding : RepositoryEvidenceSelection) : CandidateState where
  content := {
    entryId := binding.entryId
    kind := .evidence
    message := ⟨binding.messageId, .evidence, item.content, none, []⟩
    provenance := ⟨binding.sourceId, some (referenceLocation item.reference),
      some (referenceDigest item parcel.targetSnapshot)⟩
    order := binding.order
    estimatedTokens := item.estimatedTokens }
  budgetClass := binding.budgetClass
  representation := binding.representation
  freshness := item.freshness
  required := binding.required
  relevanceRank := binding.relevanceRank
  alternativeGroup := binding.alternativeGroup
  evidenceId := item.evidenceId
  reference := item.reference

def addItem (limits : ContextSelectionLimits) (selection : ContextParcelSelection) (count : ℕ)
    (items : List CandidateState) (item : ContextParcelItem) : Selection (List CandidateState) := do
  let binding ← require (selection.items.find? fun b => b.evidenceId = item.evidenceId)
    ⟨.invalidParcel, "parcel item is missing its selection binding", none, item.evidenceId⟩
  ensure (count + items.length ≠ limits.maximumCandidates)
    ⟨.resourceExhausted, "context selection contains too many candidates", none, none⟩
  ensure (binding.order ≠ 0)
    ⟨.invalidCandidate, "repository evidence order must be positive", binding.entryId,
      binding.evidenceId⟩
  return items ++ [ofItem selection.parcel item binding]

structure ParcelScan where
  parcelIds : List String := []
  target : Option RepositorySnapshotIdentity := none
  items : List CandidateState := []

def claimBinding (ids : List EvidenceId) (binding : RepositoryEvidenceSelection) :
    Selection (List EvidenceId) := do
  ensure (binding.evidenceId ∉ ids)
    ⟨.duplicateCandidate, "repository evidence bindings must be unique", binding.entryId,
      binding.evidenceId⟩
  return ids ++ [binding.evidenceId]

def scanParcel (request : ContextSelectionRequest) (scan : ParcelScan)
    (selection : ContextParcelSelection) : Selection ParcelScan := do
  let parcel := selection.parcel
  ensure (parcel.parcelId ∉ scan.parcelIds)
    ⟨.duplicateCandidate, "context parcel IDs must be unique", none, none⟩
  match parcel.fault with
  | some evidenceId =>
    throw ⟨.invalidParcel, "repository context parcel is invalid", none, evidenceId⟩
  | none =>
    ensure (parcel.phase = request.phase)
      ⟨.invalidParcel, "repository parcel phase does not match selection phase", none, none⟩
    ensure ((scan.target.all fun target => sameSourceState target parcel.targetSnapshot) = true)
      ⟨.conflictingCandidate, "repository parcels target different source states", none, none⟩
    let bound ← selection.items.foldlM claimBinding []
    ensure (bound.length = parcel.items.length)
      ⟨.invalidParcel, "every parcel item requires exactly one selection binding", none, none⟩
    let items ← parcel.items.foldlM
      (addItem request.selectionLimits selection request.candidates.length) scan.items
    return ⟨scan.parcelIds ++ [parcel.parcelId], some parcel.targetSnapshot, items⟩

def checkCandidate (limits : ContextSelectionLimits) (previous : List CandidateState)
    (c : CandidateState) : Selection PUnit := do
  ensure (validReferenceRepresentation c)
    (c.fail .invalidCandidate "candidate classification is invalid")
  ensure (∀ p ∈ previous, p.entryId ≠ c.entryId ∧
      p.content.message.messageId ≠ c.content.message.messageId ∧
      (c.evidenceId ≠ none → p.evidenceId ≠ c.evidenceId))
    (c.fail .duplicateCandidate "context selection identities must be unique")
  ensure (c.content.order ≠ 0 ∧
      (c.content.estimatedTokens = 0 → c.freshness = .unavailable) ∧
      validGroup c.alternativeGroup limits.maximumAlternativeGroupBytes)
    (c.fail .invalidCandidate "candidate order, estimate, or alternative group is invalid")
  ensure (¬ (c.required ∧ c.alternativeGroup ≠ none ∧
      ∃ p ∈ previous, p.required ∧ p.alternativeGroup = c.alternativeGroup))
    (c.fail .conflictingCandidate
      "an alternative group cannot contain multiple required candidates")
  match previous.find? (sameExactLocation c) with
  | none => pure ⟨⟩
  | some p =>
    throw (if c.reference = p.reference ∧ c.content.message.content = p.content.message.content ∧
        c.freshness = p.freshness then
      c.fail .duplicateCandidate "exact repository evidence is duplicated"
    else c.fail .conflictingCandidate "exact repository evidence conflicts")

def addChecked (limits : ContextSelectionLimits) (previous : List CandidateState)
    (c : CandidateState) : Selection (List CandidateState) := do
  checkCandidate limits previous c
  return previous ++ [c]

def isRequiredCurrentExact (c : CandidateState) : Bool :=
  c.required && c.freshness = .current && c.representation = .exact &&
    match c.reference with
    | some (.exactSource _) => true
    | _ => false

/-- Leaves the candidates that take part and the records of those that do not. -/
def classify (phase : TaskPhase)
    (found : List CandidateState × List ContextSelectionDecisionRecord) (c : CandidateState) :
    Selection (List CandidateState × List ContextSelectionDecisionRecord) :=
  match omission phase c with
  | none => pure (found.1 ++ [c], found.2)
  | some decision => do
    ensure (c.required = false) (c.fail .requiredCandidateUnavailable
      "required context candidate is unavailable or unsupported")
    return (found.1, found.2 ++ [makeRecord c decision])

structure Prepared where
  mandatory : ConstructedContext
  selectable : List CandidateState
  decisions : List ContextSelectionDecisionRecord

def prepare (request : ContextSelectionRequest) : Selection Prepared := do
  let limits := request.selectionLimits
  ensure (validPhase request.phase)
    ⟨.invalidPhase, "context selection requires a known task phase", none, none⟩
  ensure (limits.maximumCandidates ≠ 0 ∧ limits.maximumParcels ≠ 0 ∧
      limits.maximumAlternativeGroupBytes ≠ 0)
    ⟨.invalidCandidate, "context selection limits must be positive", none, none⟩
  ensure (request.candidates.length ≤ limits.maximumCandidates ∧
      request.parcels.length ≤ limits.maximumParcels)
    ⟨.resourceExhausted, "context selection exceeds its candidate or parcel limit", none, none⟩
  let mandatory ← built "mandatory context is invalid or exceeds capacity"
    (build ⟨request.capacity, request.instructions, []⟩)
  let scan ← request.parcels.foldlM (scanParcel request) {}
  let candidates ← (request.candidates.map ofCandidate ++ scan.items).foldlM (addChecked limits) []
  ensure (request.phase = .editing → candidates.any isRequiredCurrentExact)
    ⟨.requiredCandidateUnavailable,
      "editing context requires required current exact source evidence", none, none⟩
  let (selectable, decisions) ← candidates.foldlM (classify request.phase) ([], [])
  return ⟨mandatory, selectable, decisions⟩

/-- The unknown class shares its counter with the repository evidence. -/
def usageClass : ContextBudgetClass → ContextBudgetClass
  | .unknown => .repositoryEvidence
  | budgetClass => budgetClass

structure Admitting where
  usage : ContextBudgetClass → ℕ := fun _ => 0
  total : ℕ
  groups : List Bytes := []
  decisions : List ContextSelectionDecisionRecord
  selected : List ContextContentInput := []

def Admitting.omit (s : Admitting) (c : CandidateState) (decision : ContextSelectionDecision) :
    Admitting := { s with decisions := s.decisions ++ [makeRecord c decision] }

def Admitting.enter (s : Admitting) (c : CandidateState) (classTotal total : ℕ) : Admitting where
  usage := Function.update s.usage (usageClass c.budgetClass) classTotal
  total := total
  groups := s.groups ++ c.alternativeGroup.toList
  decisions := s.decisions ++ [makeRecord c .admitted]
  selected := s.selected ++ [c.content]

def admitCandidate (request : ContextSelectionRequest) (s : Admitting) (c : CandidateState) :
    Selection Admitting :=
  if (c.alternativeGroup.any fun group => s.groups.contains group) = true then
    pure (s.omit c .omittedAlternative)
  else do
    let overflow := c.fail .tokenOverflow "context candidate token estimate overflowed"
    let classTotal ← require (ContextBuilder.addChecked (s.usage (usageClass c.budgetClass))
      c.content.estimatedTokens) overflow
    let total ← require (ContextBuilder.addChecked s.total c.content.estimatedTokens) overflow
    let classFits := (if c.budgetClass = .unknown then none else request.budgets c.budgetClass).all
      fun limit => classTotal ≤ limit
    let maximumInput := request.capacity.contextWindowTokens - request.capacity.reservedOutputTokens
    if classFits ∧ total ≤ maximumInput then pure (s.enter c classTotal total)
    else do
      ensure (c.required = false) (c.fail .mandatoryCapacityExceeded
        (if classFits then "required context exceeds model input capacity"
          else "required context exceeds its class token budget"))
      return s.omit c (if classFits then .omittedBudget else .omittedClassBudget)

/-- The selection over candidates in the order the sort has left them in. -/
def selectRanked (request : ContextSelectionRequest) (prepared : Prepared)
    (ranked : List CandidateState) : Selection ContextSelectionResult := do
  let s ← ranked.foldlM (admitCandidate request)
    { total := prepared.mandatory.estimatedInputTokens, decisions := prepared.decisions }
  let context ← built "selected context failed final validation"
    (build ⟨request.capacity, request.instructions, s.selected⟩)
  return ⟨context, sortBy ContextSelectionDecisionRecord.entryId s.decisions, s.usage⟩

/-- What `std::sort` asks of a comparator on the values it is given. -/
structure StrictWeakOn {α : Type} (lt : α → α → Bool) (xs : List α) : Prop where
  irrefl : ∀ a ∈ xs, lt a a = false
  trans : ∀ a ∈ xs, ∀ b ∈ xs, ∀ c ∈ xs, lt a b → lt b c → lt a c
  incomparable : ∀ a ∈ xs, ∀ b ∈ xs, ∀ c ∈ xs, lt a b = false → lt b a = false →
    lt b c = false → lt c b = false → lt a c = false ∧ lt c a = false

/-- What `select_and_build` may return. Where the comparator is no strict weak order the
behaviour of the sort is undefined, and anything may be returned. -/
def SelectsAndBuilds (request : ContextSelectionRequest)
    (result : Selection ContextSelectionResult) : Prop :=
  match prepare request with
  | .error err => result = .error err
  | .ok prepared => StrictWeakOn (before request.phase) prepared.selectable →
    ∃ ranked, ranked.Perm prepared.selectable ∧
      ranked.Pairwise (fun a b => before request.phase b a = false) ∧
      result = selectRanked request prepared ranked

/-- How a sort may leave the candidates: none is lost or doubled, and the required ones, which
the comparator tells from the others before it looks at anything else, come first. -/
structure Arranged (selectable ranked : List CandidateState) : Prop where
  perm : ranked.Perm selectable
  required : ranked.Pairwise fun a b => b.required → a.required

/-- What `select_and_build` answers, however the sort has arranged the candidates. -/
def Answers (request : ContextSelectionRequest) (result : Selection ContextSelectionResult) :
    Prop :=
  match prepare request with
  | .error err => result = .error err
  | .ok prepared => ∃ ranked, Arranged prepared.selectable ranked ∧
      result = selectRanked request prepared ranked

end ContextSelection
