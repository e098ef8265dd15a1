import AiForge.ContextBuilder
import AiForge.EvidenceContext
import AiForge.RowScans

/-! # Contexts and their admissions

A context shows a row of an admission when its entry says what the row says and its text has the
digest of the row. Each kind of evidence reserves identities, and the entries that carry one of
them have to be the admitted rows. -/
namespace ContextMatching

open Admission Content Events RowScans SafeText ContextBuilder EvidenceContext ReviewReceipt

def startsWith (value lead : String) : Bool := (bytesOf lead).isPrefixOf (bytesOf value)

def locatedAt (provenance : ContextProvenance) (lead : String) : Bool :=
  provenance.sourceLocation.any fun location => (bytesOf lead).isPrefixOf location

def textMatches (message : Message) (role : Role) (expected : ContentDigest) : Bool :=
  message.role == role && message.invocationId.isNone && message.toolCalls.isEmpty &&
    match message.content with
    | [.text text] =>
      text.length == expected.byteSize && isSafeUtf8Text text &&
        Sha256.digest text == expected.value
    | _ => false

def provenanceMatches (provenance : ContextProvenance) (source : RepositorySourceIdentity) :
    Bool :=
  provenance.sourceLocation == some source.relativePath &&
    provenance.digest == some (bytesOf source.contentDigest.algorithm ++ bytesOf ":" ++
      bytesOf source.contentDigest.value)

def projectEntry (entry : ContextEntry) : Bool :=
  entry.instructionLayer == some .project || startsWith entry.entryId "project:" ||
    startsWith entry.message.messageId "project:" ||
    startsWith entry.provenance.sourceId "project:"

def repositoryEntry (entry : ContextEntry) : Bool :=
  startsWith entry.entryId "repository-context-" ||
    startsWith entry.message.messageId "repository-context-" ||
    startsWith entry.provenance.sourceId "repository-context-"

def matchesInstruction (entry : ContextEntry) (ref : RepositoryContextInstruction) : Bool :=
  entry.kind == .instruction && entry.instructionLayer == some .project &&
    entry.entryId == ref.instructionId && entry.message.messageId == ref.instructionId &&
    entry.provenance.sourceId == ref.instructionId && entry.specificity == ref.specificity &&
    entry.order == ref.order && entry.estimatedTokens == ref.estimatedTokens &&
    provenanceMatches entry.provenance ref.source &&
    textMatches entry.message .system ref.textDigest

def matchesEvidence (entry : ContextEntry) (ref : RepositoryContextEvidence) : Bool :=
  entry.kind == .evidence && entry.instructionLayer.isNone && entry.specificity == 0 &&
    entry.entryId == ref.entryId && entry.message.messageId == ref.messageId &&
    entry.provenance.sourceId == ref.sourceId && entry.order == ref.order &&
    entry.estimatedTokens == ref.estimatedTokens &&
    provenanceMatches entry.provenance ref.source &&
    textMatches entry.message .evidence ref.textDigest

def admittedEvidence (ref : RepositoryContextEvidence) : Bool := ref.decision == .admitted

/-- What is left of the instructions and of the evidence. -/
abbrev Cursor := List RepositoryContextInstruction × List RepositoryContextEvidence

def repositoryStep (cursor : Cursor) (entry : ContextEntry) : Option Cursor :=
  if projectEntry entry then
    (take (fun _ => true) matchesInstruction cursor.1 entry).map fun left => (left, cursor.2)
  else if repositoryEntry entry then
    (take admittedEvidence matchesEvidence cursor.2 entry).map fun left => (cursor.1, left)
  else some cursor

def repositoryAdmissionMatchesContext (admission : RepositoryContextAdmission)
    (context : ConstructedContext) : Bool :=
  (Repository.validateRepositoryContextAdmission admission).isOk &&
    admission.capacity == context.capacity &&
    match context.entries.foldlM repositoryStep (admission.instructions, admission.evidence) with
    | none => false
    | some cursor => cursor.1.isEmpty && (nextAdmitted admittedEvidence cursor.2).isEmpty

def repositoryContextAdmissionMatchesContext (admission : Option RepositoryContextAdmission)
    (context : ConstructedContext) : Bool :=
  match admission with
  | some admission => repositoryAdmissionMatchesContext admission context
  | none => context.entries.all fun entry => !(projectEntry entry || repositoryEntry entry)

def localEntry (entry : ContextEntry) : Bool :=
  startsWith entry.entryId "local-context-" ||
    startsWith entry.message.messageId "local-context-" ||
    startsWith entry.provenance.sourceId "local-context-" ||
    locatedAt entry.provenance "local-file:"

def localContextSourceLocation (source : LocalSourceIdentity) :
    Except LocalContextError Bytes := do
  Staged.ensure ((Local.validateLocalSourceIdentity source {}).isOk)
    ⟨.invalidAdmission, "local source location is invalid"⟩
  return bytesOf "local-file:v1:" ++ source.root.binding ++ bytesOf "/" ++ source.relativePath

def matchesLocal (entry : ContextEntry) (ref : LocalContextEvidence) : Bool :=
  entry.kind == .evidence && entry.instructionLayer.isNone && entry.specificity == 0 &&
    entry.entryId == ref.entryId && entry.message.messageId == ref.messageId &&
    entry.provenance.sourceId == ref.sourceId &&
    (match localContextSourceLocation ref.source with
      | .ok location => entry.provenance.sourceLocation == some location
      | .error _ => false) &&
    entry.provenance.digest == some (bytesOf "sha256:" ++
      bytesOf ref.source.contentDigest.value) &&
    entry.order == ref.order && entry.estimatedTokens == ref.estimatedTokens &&
    textMatches entry.message .evidence ref.source.contentDigest

def admittedLocal (ref : LocalContextEvidence) : Bool := ref.decision == .admitted

def localAdmissionMatchesContext (admission : LocalContextAdmission)
    (context : ConstructedContext) : Bool :=
  (Local.validateLocalContextAdmission admission).isOk &&
    admission.capacity == context.capacity &&
    match context.entries.foldlM (fun left entry =>
      if localEntry entry then take admittedLocal matchesLocal left entry else some left)
      admission.evidence with
    | none => false
    | some left => (nextAdmitted admittedLocal left).isEmpty

def localContextAdmissionMatchesContext (admission : Option LocalContextAdmission)
    (context : ConstructedContext) : Bool :=
  match admission with
  | some admission => localAdmissionMatchesContext admission context
  | none => context.entries.all fun entry => !localEntry entry

def memoryEntry (entry : ContextEntry) : Bool :=
  startsWith entry.entryId "memory-entry-" || locatedAt entry.provenance "memory:"

def matchesMemory (entry : ContextEntry) (selected : MemorySelectionEntry) : Bool :=
  entry.kind == .evidence && entry.message.role == .evidence &&
    entry.message.invocationId.isNone && entry.message.toolCalls.isEmpty &&
    entry.order == selected.order && entry.estimatedTokens == selected.estimatedTokens &&
    entry.entryId == "memory-entry-" ++ selected.recordId &&
    entry.message.messageId == "memory-message-" ++ selected.recordId &&
    entry.provenance.sourceId == "memory-source-" ++ selected.recordId &&
    entry.provenance.sourceLocation == some (bytesOf ("memory:" ++ selected.recordId ++
      ";session:" ++ selected.source.sessionId)) &&
    entry.provenance.digest.isNone &&
    match entry.message.content with
    | [.text text] =>
      text.length == selected.evidenceDigest.byteSize &&
        Sha256.digest text == selected.evidenceDigest.value
    | _ => false

def memorySelectionMatchesContext (selection : MemorySelection)
    (context : ConstructedContext) : Bool :=
  (Memory.validateMemorySelection selection).isOk &&
    match context.entries.foldlM (fun left entry =>
      if memoryEntry entry then take (fun _ => true) matchesMemory left entry else some left)
      selection.entries with
    | none => false
    | some left => left.isEmpty

theorem none_ne_some {α : Type} (value : α) : none ≠ some value := nofun

def emptyMemory : MemorySelection where
  repositoryId := none
  personaId := none
  maximumTokens := 0
  availableTokens := 0
  entries := []
  repository_named := none_ne_some _
  persona_named := none_ne_some _

/-- A run without a selection is held against the empty one. -/
def memoryMatchesContext (selection : Option MemorySelection) (context : ConstructedContext) :
    Bool :=
  match selection, Memory.sealMemorySelection emptyMemory with
  | _, .error _ => false
  | some selection, .ok _ => memorySelectionMatchesContext selection context
  | none, .ok sealed => memorySelectionMatchesContext sealed context

/-- What the start of a run asks of its context. -/
def evidenceMatches (repository : Option RepositoryContextAdmission)
    (files : Option LocalContextAdmission) (memory : Option MemorySelection)
    (context : ConstructedContext) : Bool :=
  repositoryContextAdmissionMatchesContext repository context &&
    localContextAdmissionMatchesContext files context && memoryMatchesContext memory context

end ContextMatching
