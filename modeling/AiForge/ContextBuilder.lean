import AiForge.SortedBy
import AiForge.SourceRecovery

/-! # Context builder

A context is built from instructions, which may replace or disable earlier ones of their own
layer, and from content that has been selected before. Everything is put in order by the builder
itself; the order of the lists it is given is not meant to matter. -/
namespace ContextBuilder

open Admission Content List SafeText SortedBy SourceRecovery Function
open Std (ExtTreeMap)
open Money Staged

inductive InstructionLayer where
  | applicationRuntime | userGlobal | workspace | project | persona | session | task | unknown
  deriving DecidableEq

inductive InstructionOperation where
  | add | replace | disable | unknown
  deriving DecidableEq

structure InstructionInput where
  entryId : ContextEntryId
  layer : InstructionLayer
  operation : InstructionOperation := .add
  targetEntryId : Option ContextEntryId := none
  message : Option Message
  provenance : ContextProvenance
  specificity : ℕ := 0
  (order estimatedTokens : ℕ)

structure ContextBuildInput where
  capacity : ContextCapacity
  instructions : List InstructionInput
  content : List ContextContentInput

inductive ContextEntryKind where
  | instruction | conversation | evidence | toolResult
  deriving DecidableEq

structure ContextEntry where
  entryId : ContextEntryId
  kind : ContextEntryKind
  instructionLayer : Option InstructionLayer
  message : Message
  provenance : ContextProvenance
  (specificity order estimatedTokens : ℕ)
  deriving DecidableEq

inductive ContextDecision where
  | admitted | superseded | disabled
  deriving DecidableEq

structure ContextDecisionRecord where
  entryId : ContextEntryId
  decision : ContextDecision
  decidedByEntryId : Option ContextEntryId
  deriving DecidableEq

structure ConstructedContext where
  entries : List ContextEntry
  decisions : List ContextDecisionRecord
  capacity : ContextCapacity
  estimatedInputTokens : ℕ
  deriving DecidableEq

inductive ContextBuildErrorCode where
  | invalidCapacity | missingRuntimeInstruction | duplicateEntryId | duplicateMessageId
  | invalidProvenance | invalidInstruction | invalidContent | unknownTarget | targetNotEarlier
  | crossLayerReplacement | runtimeInstructionMutation | unsupportedContent | tokenOverflow
  | capacityExceeded
  deriving DecidableEq

structure ContextBuildError where
  code : ContextBuildErrorCode
  message : String
  entryId : Option ContextEntryId := none

abbrev Build (α : Type) := Except ContextBuildError α

def layerRank : InstructionLayer → ℕ
  | .applicationRuntime => 0
  | .userGlobal => 1
  | .workspace => 2
  | .project => 3
  | .persona => 4
  | .session => 5
  | .task => 6
  | .unknown => 2 ^ 32 - 1

def validProvenance (provenance : ContextProvenance) : Bool :=
  provenance.sourceLocation.all (fun text => !text.isEmpty) &&
    provenance.digest.all fun text => !text.isEmpty

def containsUnknown (message : Message) : Bool :=
  message.content.any fun block =>
    match block with
    | .unknown _ => true
    | _ => false

def hasControlCharacter (value : Bytes) : Bool := value.any fun c => c < 0x20 || c == 0x7f

def addChecked (total value : ℕ) : Option ℕ :=
  if uint64Max - total < value then none else some (total + value)

structure Seen where
  entryIds : Finset ContextEntryId := ∅
  messageIds : Finset MessageId := ∅
  toolCallIds : Finset InvocationId := ∅

def checkInstructionMessage (seen : Seen) (i : InstructionInput) (message : Message) :
    Build Seen := do
  ensure (message.role = .system ∧ message.invocationId = none ∧ message.toolCalls = [] ∧
      message.content ≠ [])
    ⟨.invalidInstruction,
      "instruction messages must be nonempty system messages without an invocation", i.entryId⟩
  ensure (containsUnknown message = false)
    ⟨.unsupportedContent, "unknown instruction content cannot enter a backend request", i.entryId⟩
  ensure (message.messageId ∉ seen.messageIds)
    ⟨.duplicateMessageId, "context message IDs must be unique", i.entryId⟩
  return { seen with messageIds := insert message.messageId seen.messageIds }

def checkInstruction (seen : Seen) (i : InstructionInput) : Build Seen := do
  ensure (i.entryId ∉ seen.entryIds)
    ⟨.duplicateEntryId, "context entry IDs must be unique", i.entryId⟩
  ensure (validProvenance i.provenance)
    ⟨.invalidProvenance, "instruction provenance contains an empty value", i.entryId⟩
  ensure (i.order ≠ 0) ⟨.invalidInstruction, "instruction order must be positive", i.entryId⟩
  ensure (i.layer ≠ .unknown ∧ i.operation ≠ .unknown)
    ⟨.invalidInstruction, "unknown instruction layer or operation is unsupported", i.entryId⟩
  ensure (i.layer = .project ∨ i.specificity = 0)
    ⟨.invalidInstruction, "only project instructions may have subtree specificity", i.entryId⟩
  ensure (i.layer = .applicationRuntime → i.operation = .add)
    ⟨.runtimeInstructionMutation,
      "application runtime instructions cannot be replaced or disabled", i.entryId⟩
  ensure ((i.operation ≠ .disable ↔ i.message.isSome) ∧
      (i.operation ≠ .add ↔ i.targetEntryId.isSome) ∧
      (i.operation ≠ .disable ↔ i.estimatedTokens ≠ 0))
    ⟨.invalidInstruction,
      "instruction operation has inconsistent message, target, or size fields", i.entryId⟩
  let seen := { seen with entryIds := insert i.entryId seen.entryIds }
  match i.message with
  | none => .ok seen
  | some message => checkInstructionMessage seen i message

/-- One round of the search for a malformed or ambiguous tool call. -/
def checkToolCall (ids : Finset InvocationId) (call : ToolCall) : Option (Finset InvocationId) :=
  let name := bytesOf call.toolName
  if call.invocationId ∉ ids ∧ name ≠ [] ∧ name.length ≤ 128 ∧ hasControlCharacter name = false ∧
      call.arguments.mediaType = "application/json" ∧ call.arguments.data ≠ [] then
    some (insert call.invocationId ids)
  else none

def roleIsValid (content : ContextContentInput) : Prop :=
  match content.kind with
  | .conversation =>
    ((content.message.role = .user ∧ content.message.toolCalls = []) ∨
      content.message.role = .assistant) ∧ content.message.invocationId = none
  | .evidence =>
    content.message.role = .evidence ∧ content.message.invocationId = none ∧
      content.message.toolCalls = []
  | .toolResult =>
    content.message.role = .tool ∧ content.message.invocationId ≠ none ∧
      content.message.toolCalls = []
  | .unknown => False

instance (content : ContextContentInput) : Decidable (roleIsValid content) := by
  unfold roleIsValid
  split <;> infer_instance

def checkContent (seen : Seen) (content : ContextContentInput) : Build Seen := do
  ensure (content.entryId ∉ seen.entryIds)
    ⟨.duplicateEntryId, "context entry IDs must be unique", content.entryId⟩
  ensure (content.message.messageId ∉ seen.messageIds)
    ⟨.duplicateMessageId, "context message IDs must be unique", content.entryId⟩
  ensure (validProvenance content.provenance)
    ⟨.invalidProvenance, "content provenance contains an empty value", content.entryId⟩
  ensure (content.order ≠ 0 ∧ content.estimatedTokens ≠ 0 ∧
      (content.message.content ≠ [] ∨ content.message.toolCalls ≠ []))
    ⟨.invalidContent, "context content must have positive order and size and nonempty blocks",
      content.entryId⟩
  ensure (containsUnknown content.message = false)
    ⟨.unsupportedContent, "unknown content cannot enter a backend request", content.entryId⟩
  let toolCallIds ← require (content.message.toolCalls.foldlM checkToolCall seen.toolCallIds)
    ⟨.invalidContent, "assistant tool calls are malformed or ambiguous", content.entryId⟩
  ensure (roleIsValid content)
    ⟨if content.kind = .unknown then .unsupportedContent else .invalidContent,
      "context content kind and message role are inconsistent", content.entryId⟩
  return { entryIds := insert content.entryId seen.entryIds,
           messageIds := insert content.message.messageId seen.messageIds,
           toolCallIds := toolCallIds }

/-- The two loops over the entries, the instructions first. -/
def checkEntries (input : ContextBuildInput) : Build Seen := do
  let seen ← input.instructions.foldlM checkInstruction {}
  input.content.foldlM checkContent seen

def checkCapacity (capacity : ContextCapacity) : Build PUnit := do
  ensure (capacity.contextWindowTokens ≠ 0)
    ⟨.invalidCapacity, "context window capacity must be positive", none⟩
  ensure (∃ reserved ∈ addChecked capacity.reservedOutputTokens capacity.reservedInputTokens,
      reserved ≤ capacity.contextWindowTokens)
    ⟨.invalidCapacity, "reserved input and output exceed the context window", none⟩

/-- Operations take effect in the order of the callers, ties broken by identity. -/
def operationKey (i : InstructionInput) : ℕ ×ₗ ContextEntryId := toLex (i.order, i.entryId)

def instructionKey (e : ContextEntry) : ℕ ×ₗ ℕ ×ₗ ℕ ×ₗ ContextEntryId :=
  toLex ((e.instructionLayer.map layerRank).getD 0,
    toLex (e.specificity, toLex (e.order, e.entryId)))

def contentKey (e : ContextEntry) : ℕ ×ₗ ContextEntryId := toLex (e.order, e.entryId)

def instructionsById (instructions : List InstructionInput) :
    ExtTreeMap ContextEntryId InstructionInput :=
  instructions.foldl (fun known i => known.insertIfNew i.entryId i) ∅

structure Resolution where
  active : ExtTreeMap ContextEntryId ContextEntry := ∅
  decisions : ExtTreeMap ContextEntryId ContextDecisionRecord := ∅

def Resolution.decide (r : Resolution) (id : ContextEntryId) (decision : ContextDecision)
    (decidedBy : Option ContextEntryId) : Resolution :=
  { r with decisions := r.decisions.insert id ⟨id, decision, decidedBy⟩ }

def instructionEntry (i : InstructionInput) (message : Message) : ContextEntry :=
  { entryId := i.entryId, kind := .instruction, instructionLayer := some i.layer,
    message := message, provenance := i.provenance, specificity := i.specificity,
    order := i.order, estimatedTokens := i.estimatedTokens }

def checkedField {α : Type} (value : Option α) (i : InstructionInput) : Build α :=
  require value ⟨.invalidInstruction,
    "instruction operation has inconsistent message, target, or size fields", i.entryId⟩

def removeTarget (known : ExtTreeMap ContextEntryId InstructionInput) (r : Resolution)
    (i : InstructionInput) : Build Resolution :=
  if i.operation = .add then .ok r
  else do
    let target ← checkedField i.targetEntryId i
    let definition ← require known[target]?
      ⟨.unknownTarget, "instruction replacement target does not exist", i.entryId⟩
    ensure (definition.order < i.order)
      ⟨.targetNotEarlier, "instruction replacement target must precede its operation", i.entryId⟩
    ensure (definition.layer = i.layer)
      ⟨.crossLayerReplacement, "instruction operations cannot affect another authority layer",
        i.entryId⟩
    ensure ((r.active[target]?).isSome)
      ⟨.unknownTarget, "instruction replacement target is no longer active", i.entryId⟩
    let r := r.decide target (if i.operation = .replace then .superseded else .disabled) i.entryId
    return { r with active := r.active.erase target }

def enterInstruction (r : Resolution) (i : InstructionInput) : Build Resolution := do
  let message ← checkedField i.message i
  let r := { r with active := r.active.insertIfNew i.entryId (instructionEntry i message) }
  return r.decide i.entryId .admitted none

def applyOperation (known : ExtTreeMap ContextEntryId InstructionInput) (r : Resolution)
    (i : InstructionInput) : Build Resolution := do
  let r ← removeTarget known r i
  if i.operation = .disable then .ok (r.decide i.entryId .disabled i.targetEntryId)
  else enterInstruction r i

def resolveInstructions (instructions : List InstructionInput) : Build Resolution :=
  (sortBy operationKey instructions).foldlM (applyOperation (instructionsById instructions)) {}

def contentEntry (content : ContextContentInput) : Build ContextEntry := do
  let kind ←
    match content.kind with
    | .conversation => .ok ContextEntryKind.conversation
    | .evidence => .ok .evidence
    | .toolResult => .ok .toolResult
    | .unknown => .error ⟨.unsupportedContent,
        "unknown context content kind cannot enter a backend request", content.entryId⟩
  return { entryId := content.entryId, kind := kind, instructionLayer := none,
           message := content.message, provenance := content.provenance, specificity := 0,
           order := content.order, estimatedTokens := content.estimatedTokens }

def admitContent (r : Resolution) (content : ContextContentInput) : Resolution :=
  r.decide content.entryId .admitted none

def addTokens (total : ℕ) (entry : ContextEntry) : Build ℕ :=
  require (addChecked total entry.estimatedTokens)
    ⟨.tokenOverflow, "context token estimate overflowed", entry.entryId⟩

def instructionEntries (r : Resolution) : List ContextEntry :=
  sortBy instructionKey (r.active.toList.map Prod.snd)

def assemble (capacity : ContextCapacity) (instructions content : List ContextEntry)
    (decisions : ExtTreeMap ContextEntryId ContextDecisionRecord) : Build ConstructedContext := do
  let estimated ← instructions.foldlM addTokens capacity.reservedInputTokens
  let estimated ← content.foldlM addTokens estimated
  ensure (estimated ≤ capacity.contextWindowTokens - capacity.reservedOutputTokens)
    ⟨.capacityExceeded, "preselected context exceeds the target model capacity", none⟩
  return { entries := instructions ++ content, decisions := decisions.toList.map Prod.snd,
           capacity := capacity, estimatedInputTokens := estimated }

def build (input : ContextBuildInput) : Build ConstructedContext := do
  checkCapacity input.capacity
  let _ ← checkEntries input
  ensure (∃ i ∈ input.instructions, i.layer = .applicationRuntime)
    ⟨.missingRuntimeInstruction,
      "constructed context requires an application runtime instruction", none⟩
  let resolution ← resolveInstructions input.instructions
  let content ← input.content.mapM contentEntry
  assemble input.capacity (instructionEntries resolution) (sortBy contentKey content)
    (input.content.foldl admitContent resolution).decisions

/-- What the loop asks of an instruction by itself. -/
structure InstructionOk (i : InstructionInput) : Prop where
  provenance : validProvenance i.provenance
  order : i.order ≠ 0
  known : i.layer ≠ .unknown ∧ i.operation ≠ .unknown
  specificity : i.layer = .project ∨ i.specificity = 0
  runtime : i.layer = .applicationRuntime → i.operation = .add
  fields : (i.operation ≠ .disable ↔ i.message.isSome) ∧
    (i.operation ≠ .add ↔ i.targetEntryId.isSome) ∧
    (i.operation ≠ .disable ↔ i.estimatedTokens ≠ 0)
  message : ∀ m ∈ i.message, (m.role = .system ∧ m.invocationId = none ∧ m.toolCalls = [] ∧
    m.content ≠ []) ∧ containsUnknown m = false

def messageIdsOf (i : InstructionInput) : Finset MessageId :=
  (i.message.map Message.messageId).toFinset

def Seen.withInstruction (seen : Seen) (i : InstructionInput) : Seen :=
  { seen with entryIds := insert i.entryId seen.entryIds,
              messageIds := messageIdsOf i ∪ seen.messageIds }

variable {seen : Seen} {i : InstructionInput}

theorem checkInstruction_ok {t : Seen} :
    checkInstruction seen i = .ok t ↔ InstructionOk i ∧ i.entryId ∉ seen.entryIds ∧
      Disjoint (messageIdsOf i) seen.messageIds ∧ t = seen.withInstruction i := by
  constructor
  · intro h
    obtain ⟨_, hnew, h⟩ := bind_ok.1 h
    obtain ⟨_, hprov, h⟩ := bind_ok.1 h
    obtain ⟨_, hord, h⟩ := bind_ok.1 h
    obtain ⟨_, hknw, h⟩ := bind_ok.1 h
    obtain ⟨_, hspecificity, h⟩ := bind_ok.1 h
    obtain ⟨_, hrt, h⟩ := bind_ok.1 h
    obtain ⟨_, hfld, h⟩ := bind_ok.1 h
    rw [ensure_ok] at hnew hprov hord hknw hspecificity hrt hfld
    cases hm : i.message with
    | none =>
      rw [hm] at h
      cases h
      refine ⟨⟨hprov, hord, hknw, hspecificity, hrt, hfld, ?_⟩, hnew, ?_, ?_⟩
      · rw [hm]
        nofun
      · simp [messageIdsOf, hm]
      · simp [Seen.withInstruction, messageIdsOf, hm]
    | some =>
      rw [hm] at h
      obtain ⟨_, hshp, h⟩ := bind_ok.1 h
      obtain ⟨_, hcont, h⟩ := bind_ok.1 h
      obtain ⟨_, hfresh, h⟩ := bind_ok.1 h
      rw [ensure_ok] at hshp hcont hfresh
      cases h
      refine ⟨⟨hprov, hord, hknw, hspecificity, hrt, hfld, ?_⟩, hnew, ?_, ?_⟩
      · intro m' hm'
        obtain rfl := Option.some.inj (hm.symm.trans hm')
        exact ⟨hshp, hcont⟩
      · simpa [messageIdsOf, hm] using hfresh
      · simp [Seen.withInstruction, messageIdsOf, hm]
  · rintro ⟨hok, hnew, hfresh, rfl⟩
    unfold checkInstruction
    simp only [ensure, if_pos hnew, if_pos hok.provenance, if_pos hok.order, if_pos hok.known,
      if_pos hok.specificity, if_pos hok.runtime, if_pos hok.fields, pure_bind]
    cases hm : i.message with
    | none => simp [Seen.withInstruction, messageIdsOf, hm]
    | some m =>
      obtain ⟨hshp, hcont⟩ := hok.message m hm
      have hnewMessage : m.messageId ∉ seen.messageIds := by
        simpa [messageIdsOf, hm] using hfresh
      unfold checkInstructionMessage
      simp only [ensure, if_pos hshp, if_pos hcont, if_pos hnewMessage, pure_bind]
      simp [Seen.withInstruction, messageIdsOf, hm, pure, Except.pure]

theorem checkInstruction_swap (a b : InstructionInput) (s t u : Seen)
    (ha : checkInstruction s a = .ok t) (hb : checkInstruction t b = .ok u) :
    ∃ v, checkInstruction s b = .ok v ∧ checkInstruction v a = .ok u := by
  obtain ⟨hoka, hida, hma, rfl⟩ := checkInstruction_ok.1 ha
  obtain ⟨hokb, hidb, hmb, rfl⟩ := checkInstruction_ok.1 hb
  have hid : a.entryId ≠ b.entryId ∧ b.entryId ∉ s.entryIds := by
    simpa [Seen.withInstruction, eq_comm] using hidb
  obtain ⟨hab, hbs⟩ := Finset.disjoint_union_right.1 hmb
  refine ⟨s.withInstruction b, checkInstruction_ok.2 ⟨hokb, hid.2, hbs, rfl⟩,
    checkInstruction_ok.2 ⟨hoka, ?_, ?_, ?_⟩⟩
  · simpa [Seen.withInstruction, hid.1] using hida
  · exact Finset.disjoint_union_right.2 ⟨hab.symm, hma⟩
  · unfold Seen.withInstruction
    rw [Finset.insert_comm, Finset.union_left_comm]

/-- What the search for a bad tool call asks of a call by itself. -/
def ToolCallOk (call : ToolCall) : Prop :=
  bytesOf call.toolName ≠ [] ∧ (bytesOf call.toolName).length ≤ 128 ∧
    hasControlCharacter (bytesOf call.toolName) = false ∧
    call.arguments.mediaType = "application/json" ∧ call.arguments.data ≠ []

def callIds (calls : List ToolCall) : Finset InvocationId :=
  (calls.map ToolCall.invocationId).toFinset

theorem checkToolCall_some {ids t : Finset InvocationId} {call : ToolCall} :
    checkToolCall ids call = some t ↔
      ToolCallOk call ∧ call.invocationId ∉ ids ∧ t = insert call.invocationId ids := by
  unfold checkToolCall ToolCallOk
  dsimp only
  constructor
  · intro h
    split_ifs at h with hc
    exact ⟨hc.2, hc.1, (Option.some.inj h).symm⟩
  · rintro ⟨hok, hnew, rfl⟩
    rw [if_pos ⟨hnew, hok⟩]

theorem checkToolCalls_some {calls : List ToolCall} {ids t : Finset InvocationId} :
    calls.foldlM checkToolCall ids = some t ↔ (∀ call ∈ calls, ToolCallOk call) ∧
      (calls.map ToolCall.invocationId).Nodup ∧ Disjoint (callIds calls) ids ∧
      t = callIds calls ∪ ids := by
  induction calls generalizing ids with
  | nil => simp [callIds, eq_comm]
  | cons call calls ih =>
    have hcons : callIds (call :: calls) = insert call.invocationId (callIds calls) := by
      simp [callIds]
    have hmem : call.invocationId ∈ calls.map ToolCall.invocationId ↔
        call.invocationId ∈ callIds calls := by simp [callIds]
    rw [foldlM_cons, Option.bind_eq_bind, Option.bind_eq_some_iff, hcons]
    simp only [checkToolCall_some, ih]
    constructor
    · rintro ⟨_, ⟨hok, hnew, rfl⟩, hall, hnd, hfresh, rfl⟩
      obtain ⟨hfst, hrest⟩ := Finset.disjoint_insert_right.1 hfresh
      refine ⟨forall_mem_cons.2 ⟨hok, hall⟩, ?_, ?_, ?_⟩
      · exact nodup_cons.2 ⟨fun hm => hfst (hmem.1 hm), hnd⟩
      · exact Finset.disjoint_insert_left.2 ⟨hnew, hrest⟩
      · rw [Finset.union_insert, Finset.insert_union]
    · rintro ⟨hall, hnd, hfresh, rfl⟩
      obtain ⟨hok, hall⟩ := forall_mem_cons.1 hall
      obtain ⟨hfst, hnd⟩ := nodup_cons.1 hnd
      obtain ⟨hnew, hrest⟩ := Finset.disjoint_insert_left.1 hfresh
      refine ⟨_, ⟨hok, hnew, rfl⟩, hall, hnd, ?_, ?_⟩
      · exact Finset.disjoint_insert_right.2 ⟨fun hm => hfst (hmem.2 hm), hrest⟩
      · rw [Finset.union_insert, Finset.insert_union]

/-- What the loop asks of a piece of content by itself. -/
structure ContentOk (content : ContextContentInput) : Prop where
  provenance : validProvenance content.provenance
  shape : content.order ≠ 0 ∧ content.estimatedTokens ≠ 0 ∧
    (content.message.content ≠ [] ∨ content.message.toolCalls ≠ [])
  supported : containsUnknown content.message = false
  calls : ∀ call ∈ content.message.toolCalls, ToolCallOk call
  distinct : (content.message.toolCalls.map ToolCall.invocationId).Nodup
  role : roleIsValid content

def Seen.withContent (seen : Seen) (content : ContextContentInput) : Seen where
  entryIds := insert content.entryId seen.entryIds
  messageIds := insert content.message.messageId seen.messageIds
  toolCallIds := callIds content.message.toolCalls ∪ seen.toolCallIds

theorem checkContent_ok {t : Seen} {content : ContextContentInput} :
    checkContent seen content = .ok t ↔ ContentOk content ∧
      content.entryId ∉ seen.entryIds ∧ content.message.messageId ∉ seen.messageIds ∧
      Disjoint (callIds content.message.toolCalls) seen.toolCallIds ∧
      t = seen.withContent content := by
  constructor
  · intro h
    obtain ⟨_, hid, h⟩ := bind_ok.1 h
    obtain ⟨_, hmsg, h⟩ := bind_ok.1 h
    obtain ⟨_, hprov, h⟩ := bind_ok.1 h
    obtain ⟨_, hshp, h⟩ := bind_ok.1 h
    obtain ⟨_, hsupp, h⟩ := bind_ok.1 h
    obtain ⟨_, hcalls, h⟩ := bind_ok.1 h
    obtain ⟨_, hrole, h⟩ := bind_ok.1 h
    rw [ensure_ok] at hid hmsg hprov hshp hsupp hrole
    obtain ⟨hall, hdist, hnew, rfl⟩ := checkToolCalls_some.1 (require_ok.1 hcalls)
    cases h
    exact ⟨⟨hprov, hshp, hsupp, hall, hdist, hrole⟩, hid, hmsg, hnew, rfl⟩
  · rintro ⟨hok, hid, hmsg, hnew, rfl⟩
    have hcalls := checkToolCalls_some.2 ⟨hok.calls, hok.distinct, hnew, rfl⟩
    unfold checkContent
    simp only [ensure, if_pos hid, if_pos hmsg, if_pos hok.provenance, if_pos hok.shape,
      if_pos hok.supported, if_pos hok.role, hcalls, require, pure_bind]
    rfl

theorem checkContent_swap (a b : ContextContentInput) (s t u : Seen)
    (ha : checkContent s a = .ok t) (hb : checkContent t b = .ok u) :
    ∃ v, checkContent s b = .ok v ∧ checkContent v a = .ok u := by
  obtain ⟨hoka, hida, hma, hca, rfl⟩ := checkContent_ok.1 ha
  obtain ⟨hokb, hidb, hmb, hcb, rfl⟩ := checkContent_ok.1 hb
  have hid : b.entryId ≠ a.entryId ∧ b.entryId ∉ s.entryIds := by
    simpa [Seen.withContent] using hidb
  have hm : b.message.messageId ≠ a.message.messageId ∧
      b.message.messageId ∉ s.messageIds := by simpa [Seen.withContent] using hmb
  obtain ⟨hcab, hcbs⟩ := Finset.disjoint_union_right.1 hcb
  refine ⟨s.withContent b, checkContent_ok.2 ⟨hokb, hid.2, hm.2, hcbs, rfl⟩,
    checkContent_ok.2 ⟨hoka, ?_, ?_, ?_, ?_⟩⟩
  · simpa [Seen.withContent, hid.1.symm] using hida
  · simpa [Seen.withContent, hm.1.symm] using hma
  · exact Finset.disjoint_union_right.2 ⟨hcab.symm, hca⟩
  · unfold Seen.withContent
    rw [Finset.insert_comm, Finset.insert_comm b.message.messageId, Finset.union_left_comm]

/-- The same entries in another order. -/
structure Rearranged (input input' : ContextBuildInput) : Prop where
  capacity : input'.capacity = input.capacity
  instructions : input.instructions.Perm input'.instructions
  content : input.content.Perm input'.content

variable {input : ContextBuildInput}

theorem checkEntries_perm {input' : ContextBuildInput}
    (hr : Rearranged input input') (h : checkEntries input = .ok seen) :
    checkEntries input' = .ok seen := by
  obtain ⟨s, hinsts, hcont⟩ := bind_ok.1 h
  refine bind_ok.2 ⟨s, ?_, ?_⟩
  · exact foldlM_perm checkInstruction_swap hr.instructions hinsts
  · exact foldlM_perm checkContent_swap hr.content hcont

theorem checkInstruction_claims (i : InstructionInput) (s t : Seen)
    (h : checkInstruction s i = .ok t) :
    InstructionOk i ∧ i.entryId ∉ s.entryIds ∧ t.entryIds = insert i.entryId s.entryIds := by
  obtain ⟨hok, hnew, -, rfl⟩ := checkInstruction_ok.1 h
  exact ⟨hok, hnew, rfl⟩

theorem checkContent_claims (c : ContextContentInput) (s t : Seen) (h : checkContent s c = .ok t) :
    ContentOk c ∧ c.entryId ∉ s.entryIds ∧ t.entryIds = insert c.entryId s.entryIds := by
  obtain ⟨hok, hnew, -, -, rfl⟩ := checkContent_ok.1 h
  exact ⟨hok, hnew, rfl⟩

/-- What validated entries have in common. -/
structure ValidEntries (input : ContextBuildInput) : Prop where
  instructions : ∀ i ∈ input.instructions, InstructionOk i
  instructionIds : (input.instructions.map InstructionInput.entryId).Nodup
  content : ∀ c ∈ input.content, ContentOk c
  contentIds : (input.content.map ContextContentInput.entryId).Nodup

theorem checkEntries_valid (h : checkEntries input = .ok seen) : ValidEntries input := by
  obtain ⟨_, hinsts, hcont⟩ := bind_ok.1 h
  obtain ⟨hi, hids, -, -⟩ := Staged.foldlM_claims checkInstruction_claims hinsts
  obtain ⟨hc, hcids, -, -⟩ := Staged.foldlM_claims checkContent_claims hcont
  exact ⟨hi, hids, hc, hcids⟩

variable {instructions : List InstructionInput}

theorem nodup_operationKey (h : (instructions.map InstructionInput.entryId).Nodup) :
    (instructions.map operationKey).Nodup := by
  refine List.Nodup.of_map (fun k => (ofLex k).2) ?_
  rw [map_map]
  exact h

variable {xs : List InstructionInput}

theorem instructionsById_perm {ys : List InstructionInput} (hp : xs.Perm ys)
    (hinj : (xs.map InstructionInput.entryId).Nodup) : instructionsById xs = instructionsById ys := by
  refine hp.foldl_eq' (fun x hx y hy known => ?_) ∅
  by_cases hxy : x.entryId = y.entryId
  · rw [inj_on_of_nodup_map hinj hx hy hxy]
  · refine ExtTreeMap.ext_getElem? fun k => ?_
    simp only [ExtTreeMap.getElem?_insertIfNew, ExtTreeMap.mem_insertIfNew, compare_eq_iff_eq]
    by_cases hkx : x.entryId = k
    · have hky : y.entryId ≠ k := fun hky => hxy (hkx.trans hky.symm)
      simp [hkx, hky]
    · by_cases hky : y.entryId = k
      · simp [hkx, hky]
      · simp [hkx, hky]

theorem resolveInstructions_perm {ys : List InstructionInput} (hp : xs.Perm ys)
    (hinj : (xs.map InstructionInput.entryId).Nodup) :
    resolveInstructions xs = resolveInstructions ys := by
  unfold resolveInstructions
  rw [instructionsById_perm hp hinj, sortBy_eq_of_perm hp (nodup_operationKey hinj)]

theorem admitContent_perm {xs ys : List ContextContentInput} (hp : xs.Perm ys)
    (hinj : (xs.map ContextContentInput.entryId).Nodup) (r : Resolution) :
    xs.foldl admitContent r = ys.foldl admitContent r := by
  refine hp.foldl_eq' (fun x hx y hy r => ?_) r
  by_cases hxy : x.entryId = y.entryId
  · rw [inj_on_of_nodup_map hinj hx hy hxy]
  · have hdecisions : (r.decisions.insert x.entryId ⟨x.entryId, .admitted, none⟩).insert
        y.entryId ⟨y.entryId, .admitted, none⟩ =
        (r.decisions.insert y.entryId ⟨y.entryId, .admitted, none⟩).insert
          x.entryId ⟨x.entryId, .admitted, none⟩ := by
      refine ExtTreeMap.ext_getElem? fun k => ?_
      simp only [ExtTreeMap.getElem?_insert, compare_eq_iff_eq]
      by_cases hkx : x.entryId = k
      · have hky : y.entryId ≠ k := fun hky => hxy (hkx.trans hky.symm)
        simp [hkx, hky]
      · simp [hkx]
    unfold admitContent Resolution.decide
    rw [hdecisions]

/-- The kind of an entry; the unknown kind has been turned away by then. -/
def entryKindOf : ContextContentKind → ContextEntryKind
  | .conversation | .unknown => .conversation
  | .evidence => .evidence
  | .toolResult => .toolResult

def contentEntryOf (content : ContextContentInput) : ContextEntry where
  entryId := content.entryId
  kind := entryKindOf content.kind
  instructionLayer := none
  message := content.message
  provenance := content.provenance
  specificity := 0
  order := content.order
  estimatedTokens := content.estimatedTokens

theorem contentEntry_ok {content : ContextContentInput} (h : ContentOk content) :
    contentEntry content = .ok (contentEntryOf content) := by
  have hrole := h.role
  unfold roleIsValid at hrole
  unfold contentEntry contentEntryOf
  cases hk : content.kind with
  | conversation | evidence | toolResult => rfl
  | unknown =>
    rw [hk] at hrole
    exact hrole.elim

theorem contentEntries_ok {content : List ContextContentInput} (h : ∀ c ∈ content, ContentOk c) :
    content.mapM contentEntry = .ok (content.map contentEntryOf) := by
  induction content with
  | nil => rfl
  | cons _ _ ih =>
    obtain ⟨hc, hrest⟩ := forall_mem_cons.1 h
    rw [mapM_cons, contentEntry_ok hc, ih hrest]
    rfl

theorem nodup_contentKey {content : List ContextContentInput}
    (h : (content.map ContextContentInput.entryId).Nodup) :
    ((content.map contentEntryOf).map contentKey).Nodup := by
  refine List.Nodup.of_map (fun k => (ofLex k).2) ?_
  rw [map_map, map_map]
  exact h

/-- Entries that pass validation build the same context, or fail with the same error, in
whatever order they are given. -/
theorem build_rearranged {input input' : ContextBuildInput} {seen : Seen}
    (hr : Rearranged input input') (h : checkEntries input = .ok seen) :
    build input' = build input := by
  have hval := checkEntries_valid h
  have hval' := checkEntries_valid (checkEntries_perm hr h)
  have hrt : (∃ i ∈ input'.instructions, i.layer = .applicationRuntime) ↔
      ∃ i ∈ input.instructions, i.layer = .applicationRuntime := by
    simp only [hr.instructions.mem_iff]
  unfold build
  rw [hr.capacity, h, checkEntries_perm hr h,
    resolveInstructions_perm hr.instructions hval.instructionIds,
    contentEntries_ok hval.content, contentEntries_ok hval'.content]
  simp only [hrt, admitContent_perm hr.content hval.contentIds, ok_bind,
    sortBy_eq_of_perm (hr.content.map contentEntryOf) (nodup_contentKey hval.contentIds)]

abbrev Active := ExtTreeMap ContextEntryId ContextEntry

variable {r : Resolution}

theorem applyOperation_ok {known : ExtTreeMap ContextEntryId InstructionInput}
    {t : Resolution} (h : applyOperation known r i = .ok t) : ∃ mid : Active,
      (i.operation = .add ∧ mid = r.active ∨
        i.operation ≠ .add ∧ ∃ (target : ContextEntryId) (definition : InstructionInput),
          i.targetEntryId = some target ∧
          known[target]? = some definition ∧ definition.layer = i.layer ∧
          mid = r.active.erase target) ∧
      (i.operation = .disable ∧ t.active = mid ∨
        i.operation ≠ .disable ∧ ∃ m, i.message = some m ∧
          t.active = mid.insertIfNew i.entryId (instructionEntry i m)) := by
  obtain ⟨u, hrem, henter⟩ := bind_ok.1 h
  refine ⟨u.active, ?_, ?_⟩
  · unfold removeTarget at hrem
    by_cases hop : i.operation = .add
    · rw [if_pos hop] at hrem
      exact .inl ⟨hop, by rw [Except.ok.inj hrem]⟩
    · rw [if_neg hop] at hrem
      obtain ⟨target, htgt, hrem⟩ := bind_ok.1 hrem
      obtain ⟨definition, hdef, hrem⟩ := bind_ok.1 hrem
      replace hrem := later hrem
      obtain ⟨hlayer, hrem⟩ := guarded hrem
      replace hrem := later hrem
      cases hrem
      exact .inr ⟨hop, target, definition, require_ok.1 htgt, require_ok.1 hdef,
        hlayer, rfl⟩
  · split_ifs at henter with hop
    · cases henter
      exact .inl ⟨hop, rfl⟩
    · obtain ⟨m, hm, henter⟩ := bind_ok.1 henter
      cases henter
      exact .inr ⟨hop, m, require_ok.1 hm, rfl⟩

theorem instructionsById_mem {id : ContextEntryId}
    (h : (instructionsById instructions)[id]? = some i) : i ∈ instructions ∧ i.entryId = id := by
  have hfold : ∀ (xs : List InstructionInput) (known : ExtTreeMap ContextEntryId InstructionInput),
      (xs.foldl (fun known i => known.insertIfNew i.entryId i) known)[id]? = some i →
      known[id]? = some i ∨ i ∈ xs ∧ i.entryId = id := by
    intro xs
    induction xs with
    | nil => exact fun known h => .inl h
    | cons _ _ ih =>
      intro known h
      rcases ih _ h with hx | ⟨hmem, hid⟩
      · rw [ExtTreeMap.getElem?_insertIfNew] at hx
        split_ifs at hx with hc
        · cases hx
          exact .inr ⟨mem_cons_self, compare_eq_iff_eq.1 hc.1⟩
        · exact .inl hx
      · exact .inr ⟨mem_cons_of_mem _ hmem, hid⟩
  rcases hfold instructions ∅ h with hnone | hfnd
  · simp at hnone
  · exact hfnd

/-- Every active entry is that of an instruction of the input. -/
def FromInput (instructions : List InstructionInput) (active : Active) : Prop :=
  ∀ id e, active[id]? = some e → ∃ i ∈ instructions, i.entryId = id ∧
    ∃ m, i.message = some m ∧ e = instructionEntry i m

section Resolving

variable {instructions : List InstructionInput} {active : Active} {i : InstructionInput}
  (hids : (instructions.map InstructionInput.entryId).Nodup)

include hids

theorem getElem?_enter (h : FromInput instructions active) (hi : i ∈ instructions) {m : Message}
    (hm : i.message = some m) (k : ContextEntryId) :
    (active.insertIfNew i.entryId (instructionEntry i m))[k]? =
      if i.entryId = k then some (instructionEntry i m) else active[k]? := by
  rw [ExtTreeMap.getElem?_insertIfNew]
  by_cases hk : i.entryId = k
  · subst hk
    cases ha : active[i.entryId]? with
    | none =>
      have hnot : i.entryId ∉ active := by
        intro hmem
        rw [ExtTreeMap.mem_iff_isSome_getElem?, ha] at hmem
        cases hmem
      simp [hnot]
    | some e =>
      obtain ⟨_, hj, hid, _, hm', rfl⟩ := h _ e ha
      obtain rfl := inj_on_of_nodup_map hids hj hi hid
      obtain rfl := Option.some.inj (hm.symm.trans hm')
      simp
  · simp [hk]

theorem operation_fromInput {t : Resolution} (h : FromInput instructions r.active)
    (hi : i ∈ instructions) (ht : applyOperation (instructionsById instructions) r i = .ok t) :
    FromInput instructions t.active := by
  obtain ⟨mid, hmid, hend⟩ := applyOperation_ok ht
  have hfrom : FromInput instructions mid := by
    rcases hmid with ⟨-, rfl⟩ | ⟨-, _, _, -, -, -, rfl⟩
    · exact h
    · intro id e he
      rw [ExtTreeMap.getElem?_erase] at he
      split_ifs at he
      exact h id e he
  rcases hend with ⟨-, heq⟩ | ⟨-, m, hm, heq⟩
  · rw [heq]
    exact hfrom
  · intro id e he
    rw [heq, getElem?_enter hids hfrom hi hm] at he
    split_ifs at he with hid
    · cases he
      exact ⟨i, hi, hid, m, hm, rfl⟩
    · exact hfrom id e he

end Resolving

def layerView (layer : InstructionLayer) (active : Active) (id : ContextEntryId) :
    Option ContextEntry :=
  (active[id]?).filter fun e => e.instructionLayer = some layer

/-- An operation among the entries of its own layer. -/
def layerStep (view : ContextEntryId → Option ContextEntry) (i : InstructionInput) :
    ContextEntryId → Option ContextEntry :=
  let view :=
    if i.operation = .add then view
    else i.targetEntryId.elim view fun target => Function.update view target none
  if i.operation = .disable then view
  else i.message.elim view fun m => Function.update view i.entryId (some (instructionEntry i m))

section Layers

variable {instructions : List InstructionInput} {i : InstructionInput} {layer : InstructionLayer}
  (hids : (instructions.map InstructionInput.entryId).Nodup)

theorem layerView_erase {active : Active} {target : ContextEntryId} :
    layerView layer (active.erase target) = update (layerView layer active) target none := by
  funext id
  unfold layerView
  rw [ExtTreeMap.getElem?_erase]
  by_cases hid : target = id
  · subst hid
    simp
  · rw [update_of_ne (Ne.symm hid)]
    simp [hid]

include hids

theorem layerView_enter {active : Active} {m : Message} (h : FromInput instructions active)
    (hi : i ∈ instructions) (hm : i.message = some m) :
    layerView layer (active.insertIfNew i.entryId (instructionEntry i m)) =
      if i.layer = layer then
        update (layerView layer active) i.entryId (some (instructionEntry i m))
      else layerView layer active := by
  have hown : ∀ e, active[i.entryId]? = some e → e.instructionLayer = some i.layer := by
    intro e he
    obtain ⟨_, hj, hid, _, -, rfl⟩ := h _ e he
    obtain rfl := inj_on_of_nodup_map hids hj hi hid
    rfl
  funext id
  have hlookup := getElem?_enter hids h hi hm id
  by_cases hlayer : i.layer = layer
  · rw [if_pos hlayer]
    by_cases hid : i.entryId = id
    · subst hid
      rw [if_pos rfl] at hlookup
      rw [layerView, hlookup, update_self]
      simp [instructionEntry, hlayer]
    · rw [if_neg hid] at hlookup
      rw [update_of_ne (Ne.symm hid), layerView, hlookup, layerView]
  · rw [if_neg hlayer]
    by_cases hid : i.entryId = id
    · subst hid
      rw [if_pos rfl] at hlookup
      have hpre : layerView layer active i.entryId = none := by
        unfold layerView
        rw [Option.filter_eq_none_iff]
        intro e he
        simp [hown e he, hlayer]
      rw [hpre, layerView, hlookup]
      simp [instructionEntry, hlayer]
    · rw [if_neg hid] at hlookup
      rw [layerView, hlookup, layerView]

theorem operation_layer {t : Resolution} (h : FromInput instructions r.active)
    (hi : i ∈ instructions) (ht : applyOperation (instructionsById instructions) r i = .ok t) :
    layerView layer t.active =
      if i.layer = layer then layerStep (layerView layer r.active) i
      else layerView layer r.active := by
  obtain ⟨mid, hmid, hend⟩ := applyOperation_ok ht
  have hrem : FromInput instructions mid ∧ layerView layer mid =
      if i.layer = layer then
        if i.operation = .add then layerView layer r.active
        else i.targetEntryId.elim (layerView layer r.active) fun target =>
          update (layerView layer r.active) target none
      else layerView layer r.active := by
    rcases hmid with ⟨hop, rfl⟩ | ⟨hop, target, _, htgt, hknw, hlayer, rfl⟩
    · exact ⟨h, by rw [if_pos hop, ite_self]⟩
    · refine ⟨?_, ?_⟩
      · intro id e he
        rw [ExtTreeMap.getElem?_erase] at he
        split_ifs at he
        exact h id e he
      · rw [layerView_erase, if_neg hop, htgt]
        by_cases hown : i.layer = layer
        · rw [if_pos hown]
          rfl
        · -- The target belongs to the layer of the operation, so it is not in view.
          rw [if_neg hown]
          refine update_eq_self_iff.2 ?_
          unfold layerView
          symm
          rw [Option.filter_eq_none_iff]
          intro e he
          obtain ⟨hmem, hid⟩ := instructionsById_mem hknw
          obtain ⟨_, hj, hjid, _, -, rfl⟩ := h _ e he
          obtain rfl := inj_on_of_nodup_map hids hj hmem (hjid.trans hid.symm)
          simp [instructionEntry, hlayer, hown]
  obtain ⟨hfrom, hview⟩ := hrem
  unfold layerStep
  rcases hend with ⟨hop, heq⟩ | ⟨hop, _, hm, heq⟩
  · rw [heq, hview, if_pos hop]
  · rw [heq, layerView_enter hids hfrom hi hm, hview, if_neg hop, hm]
    by_cases hown : i.layer = layer
    · rw [if_pos hown, if_pos hown, if_pos hown]
      rfl
    · rw [if_neg hown, if_neg hown, if_neg hown]

theorem resolve_layer (layer : InstructionLayer) (h : resolveInstructions instructions = .ok r) :
    FromInput instructions r.active ∧ layerView layer r.active =
      (sortBy operationKey (instructions.filter fun i => i.layer = layer)).foldl layerStep
        fun _ => none := by
  have hemp : FromInput instructions ({} : Resolution).active := by
    intro id e he
    simp at he
  have hstep : ∀ i ∈ sortBy operationKey instructions, ∀ r t : Resolution,
      FromInput instructions r.active →
      applyOperation (instructionsById instructions) r i = .ok t →
      FromInput instructions t.active ∧ layerView layer t.active =
        if i.layer = layer then layerStep (layerView layer r.active) i
        else layerView layer r.active := by
    intro i hi r t hr ht
    have hmem := mem_sortBy.1 hi
    exact ⟨operation_fromInput hids hr hmem ht, operation_layer hids hr hmem ht⟩
  refine ⟨foldlM_keeps (I := fun r : Resolution => FromInput instructions r.active)
    (fun i hi r t hr ht => (hstep i hi r t hr ht).1) hemp h, ?_⟩
  have hview := foldlM_shard hstep hemp h
  rw [filter_sortBy _ (nodup_operationKey hids)] at hview
  rw [hview]
  congr 1

end Layers

variable {c : ConstructedContext}

theorem build_ok (h : build input = .ok c) :
    ∃ seen r, checkEntries input = .ok seen ∧ resolveInstructions input.instructions = .ok r ∧
      c.entries = instructionEntries r ++ sortBy contentKey (input.content.map contentEntryOf) := by
  obtain ⟨_, -, h⟩ := bind_ok.1 h
  obtain ⟨seen, hseen, h⟩ := bind_ok.1 h
  obtain ⟨_, -, h⟩ := bind_ok.1 h
  obtain ⟨r, hr, h⟩ := bind_ok.1 h
  obtain ⟨content, hcont, h⟩ := bind_ok.1 h
  obtain ⟨_, -, h⟩ := bind_ok.1 h
  obtain ⟨_, -, h⟩ := bind_ok.1 h
  obtain ⟨_, -, h⟩ := bind_ok.1 h
  obtain rfl := Except.ok.inj h
  rw [contentEntries_ok (checkEntries_valid hseen).content] at hcont
  obtain rfl := Except.ok.inj hcont
  exact ⟨seen, r, hseen, hr, rfl⟩

def values (active : Active) : List ContextEntry := active.toList.map Prod.snd

variable {active : Active}

theorem mem_values {e : ContextEntry} :
    e ∈ values active ↔ ∃ id : ContextEntryId, active[id]? = some e := by
  unfold values
  rw [mem_map]
  constructor
  · rintro ⟨⟨id, e⟩, hmem, rfl⟩
    exact ⟨id, ExtTreeMap.mem_toList_iff_getElem?_eq_some.1 hmem⟩
  · rintro ⟨id, he⟩
    exact ⟨(id, e), ExtTreeMap.mem_toList_iff_getElem?_eq_some.2 he, rfl⟩

theorem nodup_instructionKey
    (h : FromInput instructions active) : ((values active).map instructionKey).Nodup := by
  have hkeys : (active.toList.map Prod.fst).Nodup := by
    refine List.Pairwise.map _ (fun a b hab he => ?_) active.distinct_keys_toList
    exact hab (compare_eq_iff_eq.2 he)
  have hids : (values active).map ContextEntry.entryId = active.toList.map Prod.fst := by
    unfold values
    rw [map_map]
    refine map_congr_left fun pair hpair => ?_
    obtain ⟨_, -, hid, _, -, he⟩ := h pair.1 pair.2
      (ExtTreeMap.mem_toList_iff_getElem?_eq_some.1 hpair)
    change pair.2.entryId = pair.1
    rw [he]
    exact hid
  refine List.Nodup.of_map (fun k => (ofLex (ofLex (ofLex k).2).2).2) ?_
  rw [map_map]
  change ((values active).map ContextEntry.entryId).Nodup
  rw [hids]
  exact hkeys

def inLayer (layer : InstructionLayer) (e : ContextEntry) : Bool :=
  e.instructionLayer = some layer

theorem filter_content (layer : InstructionLayer) (content : List ContextContentInput) :
    (sortBy contentKey (content.map contentEntryOf)).filter (inLayer layer) = [] := by
  rw [filter_eq_nil_iff]
  intro e he
  obtain ⟨_, -, rfl⟩ := mem_map.1 (mem_sortBy.1 he)
  simp [inLayer, contentEntryOf]

theorem filter_entries (h : FromInput instructions r.active) (layer : InstructionLayer)
    (content : List ContextContentInput) :
    (instructionEntries r ++ sortBy contentKey (content.map contentEntryOf)).filter
      (inLayer layer) = sortBy instructionKey ((values r.active).filter (inLayer layer)) := by
  rw [filter_append, filter_content, append_nil]
  exact filter_sortBy _ (nodup_instructionKey h)

variable {layer : InstructionLayer}

theorem filter_values_perm {instructions' : List InstructionInput}
    {active' : Active} (h : FromInput instructions active) (h' : FromInput instructions' active')
    (hview : layerView layer active = layerView layer active') :
    ((values active).filter (inLayer layer)).Perm ((values active').filter (inLayer layer)) := by
  have hmem : ∀ (m : Active) e, e ∈ (values m).filter (inLayer layer) ↔
      ∃ id, layerView layer m id = some e := by
    intro m e
    rw [mem_filter, mem_values]
    unfold layerView inLayer
    simp only [Option.filter_eq_some_iff]
    constructor
    · rintro ⟨⟨id, he⟩, hlayer⟩
      exact ⟨id, he, hlayer⟩
    · rintro ⟨id, he, hlayer⟩
      exact ⟨⟨id, he⟩, hlayer⟩
  refine (perm_ext_iff_of_nodup ?_ ?_).2 fun e => ?_
  · exact (nodup_instructionKey h).of_map.filter _
  · exact (nodup_instructionKey h').of_map.filter _
  · rw [hmem, hmem, hview]

/-- The active instructions of a layer are decided by the instructions of the layer alone. -/
theorem build_layer {input' : ContextBuildInput} {c' : ConstructedContext}
    (h : build input = .ok c) (h' : build input' = .ok c')
    (hsame : (input.instructions.filter fun i => i.layer = layer).Perm
      (input'.instructions.filter fun i => i.layer = layer)) :
    c.entries.filter (inLayer layer) = c'.entries.filter (inLayer layer) := by
  obtain ⟨_, r, hseen, hr, hents⟩ := build_ok h
  obtain ⟨_, r', hseen', hr', hents'⟩ := build_ok h'
  have hids := (checkEntries_valid hseen).instructionIds
  obtain ⟨hfrom, hview⟩ := resolve_layer hids layer hr
  obtain ⟨hfrom', hview'⟩ :=
    resolve_layer (checkEntries_valid hseen').instructionIds layer hr'
  have hkeys := (nodup_operationKey hids).sublist
    ((filter_sublist (p := fun i => i.layer = layer)).map operationKey)
  have hvs : layerView layer r.active = layerView layer r'.active := by
    rw [hview, hview', sortBy_eq_of_perm hsame hkeys]
  rw [hents, hents', filter_entries hfrom, filter_entries hfrom']
  refine sortBy_eq_of_perm (filter_values_perm hfrom hfrom' hvs) ?_
  exact (nodup_instructionKey hfrom).sublist (filter_sublist.map instructionKey)

theorem layerStep_add {view : ContextEntryId → Option ContextEntry}
    {m : Message} (hop : i.operation = .add) (hm : i.message = some m) :
    layerStep view i = update view i.entryId (some (instructionEntry i m)) := by
  unfold layerStep
  rw [hop, hm]
  rfl

theorem foldl_additions {m : Message}
    (hadd : ∀ j ∈ xs, j.operation = .add ∧ j.message.isSome)
    (hids : (xs.map InstructionInput.entryId).Nodup) (hi : i ∈ xs) (hm : i.message = some m)
    (view : ContextEntryId → Option ContextEntry) :
    xs.foldl layerStep view i.entryId = some (instructionEntry i m) := by
  induction xs using List.reverseRecOn generalizing view with
  | nil => cases hi
  | append_singleton _ x ih =>
    obtain ⟨hop, hsome⟩ := hadd x (by simp)
    obtain ⟨_, hmx⟩ := Option.isSome_iff_exists.1 hsome
    rw [map_append, nodup_append] at hids
    rw [foldl_append, foldl_cons, foldl_nil, layerStep_add hop hmx]
    rcases mem_append.1 hi with hxs | hx
    · have hne : i.entryId ≠ x.entryId :=
        hids.2.2 _ (mem_map_of_mem hxs) _ (by simp)
      rw [update_of_ne hne]
      exact ih (fun j hj => hadd j (by simp [hj])) hids.1 hxs view
    · obtain rfl := mem_singleton.1 hx
      obtain rfl := Option.some.inj (hm.symm.trans hmx)
      exact update_self ..

theorem layerRank_eq_zero (h : layerRank layer = 0) : layer = .applicationRuntime := by
  cases layer <;> first | rfl | cases h

theorem runtime_sorted (h : FromInput instructions r.active) :
    (instructionEntries r).Pairwise fun a b =>
      inLayer .applicationRuntime b = true → inLayer .applicationRuntime a = true := by
  refine (sortBy_sorted instructionKey _).imp_of_mem fun {a b} ha _ hle hb => ?_
  obtain ⟨id, hid⟩ := mem_values.1 (mem_sortBy.1 ha)
  obtain ⟨i, -, -, _, -, rfl⟩ := h id a hid
  have hrank : layerRank i.layer ≤ 0 := by
    have hb' : b.instructionLayer = some .applicationRuntime := by simpa [inLayer] using hb
    rcases Prod.Lex.le_iff.1 hle with hlt | ⟨heq, -⟩
    · simpa [instructionKey, instructionEntry, hb', layerRank] using hlt.le
    · simpa [instructionKey, instructionEntry, hb', layerRank] using heq.le
  simp [inLayer, instructionEntry, layerRank_eq_zero (Nat.le_zero.1 hrank)]

/-- The entries of a context begin with the instructions of the runtime layer, all of them. -/
theorem build_runtime (h : build input = .ok c) : ∃ first rest, c.entries = first ++ rest ∧
      (∀ e ∈ first, e.instructionLayer = some .applicationRuntime) ∧
      (∀ e ∈ rest, e.instructionLayer ≠ some .applicationRuntime) ∧
      ∀ i ∈ input.instructions, i.layer = .applicationRuntime →
        ∃ m, i.message = some m ∧ instructionEntry i m ∈ first := by
  obtain ⟨_, r, hseen, hr, hents⟩ := build_ok h
  have hval := checkEntries_valid hseen
  obtain ⟨hfrom, hview⟩ :=
    resolve_layer hval.instructionIds .applicationRuntime hr
  have hsplit := eq_filter_append (runtime_sorted hfrom)
  refine ⟨(instructionEntries r).filter (inLayer .applicationRuntime),
    ((instructionEntries r).filter fun e => !inLayer .applicationRuntime e) ++
      sortBy contentKey (input.content.map contentEntryOf), ?_, ?_, ?_, ?_⟩
  · rw [← append_assoc, ← hsplit]
    exact hents
  · intro e he
    simpa [inLayer] using (mem_filter.1 he).2
  · intro e he
    rcases mem_append.1 he with he | he
    · simpa [inLayer] using (mem_filter.1 he).2
    · obtain ⟨content, -, rfl⟩ := mem_map.1 (mem_sortBy.1 he)
      nofun
  · intro i hi hlayer
    have hop : ∀ j ∈ input.instructions, j.layer = .applicationRuntime →
        j.operation = .add ∧ j.message.isSome := by
      intro j hj hrt
      have hadd := (hval.instructions j hj).runtime hrt
      exact ⟨hadd, (hval.instructions j hj).fields.1.1 (by rw [hadd]; nofun)⟩
    obtain ⟨m, hm⟩ := Option.isSome_iff_exists.1 (hop i hi hlayer).2
    refine ⟨m, hm, mem_filter.2 ⟨mem_sortBy.2 (mem_values.2 ⟨i.entryId, ?_⟩), ?_⟩⟩
    · have hkept : layerView .applicationRuntime r.active i.entryId =
          some (instructionEntry i m) := by
        rw [hview]
        refine foldl_additions ?_ ?_ ?_ hm _
        · intro j hj
          obtain ⟨hmem, hrt⟩ := mem_filter.1 (mem_sortBy.1 hj)
          exact hop j hmem (by simpa using hrt)
        · refine ((sortBy_perm operationKey _).map _).nodup_iff.2 ?_
          exact hval.instructionIds.sublist (filter_sublist.map _)
        · exact mem_sortBy.2 (mem_filter.2 ⟨hi, by simpa using hlayer⟩)
      exact (Option.filter_eq_some_iff.1 hkept).1
    · simp [inLayer, instructionEntry, hlayer]

/-- The order in which valid entries are given does not matter, to a context or to an error. A
context begins with all instructions of the runtime layer, and the instructions that are active
in a layer are decided within it. -/
theorem build_order_independent :
    (∀ input input' : ContextBuildInput, (checkEntries input).isOk →
      input'.capacity = input.capacity → input.instructions.Perm input'.instructions →
      input.content.Perm input'.content → build input' = build input) ∧
    (∀ input c, build input = .ok c → ∃ first rest, c.entries = first ++ rest ∧
      (∀ e ∈ first, e.instructionLayer = some .applicationRuntime) ∧
      (∀ e ∈ rest, e.instructionLayer ≠ some .applicationRuntime) ∧
      ∀ i ∈ input.instructions, i.layer = .applicationRuntime →
        ∃ m, i.message = some m ∧ instructionEntry i m ∈ first) ∧
    ∀ input input' c c' layer, build input = .ok c → build input' = .ok c' →
      (input.instructions.filter fun i => i.layer = layer).Perm
        (input'.instructions.filter fun i => i.layer = layer) →
      c.entries.filter (inLayer layer) = c'.entries.filter (inLayer layer) := by
  refine ⟨?_, fun input c h => build_runtime h, fun _ _ _ _ _ h h' hsame => build_layer h h' hsame⟩
  intro input input' hvalid hcapacity hinstructions hcontent
  cases hc : checkEntries input with
  | error =>
    rw [hc] at hvalid
    cases hvalid
  | ok => exact build_rearranged ⟨hcapacity, hinstructions, hcontent⟩ hc

def sampleInstruction (id : ContextEntryId) (layer : InstructionLayer)
    (operation : InstructionOperation) (target : Option ContextEntryId) (order : ℕ) :
    InstructionInput :=
  { entryId := id, layer := layer, operation := operation, targetEntryId := target,
    message := some ⟨id, .system, [.text (bytesOf "be brief")], none, []⟩,
    provenance := ⟨"settings", none, none⟩, order := order, estimatedTokens := 3 }

def sampleInput : ContextBuildInput where
  capacity := ⟨100, 10, 5⟩
  instructions := [sampleInstruction "tone" .userGlobal .add none 1,
    sampleInstruction "runtime" .applicationRuntime .add none 2,
    sampleInstruction "style" .userGlobal .replace (some "tone") 3]
  content := [⟨"hello", .conversation, ⟨"message", .user, [.text (bytesOf "hello")], none, []⟩,
    ⟨"session", none, none⟩, 1, 2⟩]

theorem sample_build_rearranged :
    (build sampleInput).toOption.map (fun c => c.entries.map ContextEntry.entryId) =
      some ["runtime", "style", "hello"] ∧
    build { sampleInput with instructions := sampleInput.instructions.reverse } =
      build sampleInput := by
  refine ⟨by decide +kernel, build_order_independent.1 _ _ (by decide +kernel) rfl ?_ (.refl _)⟩
  exact (reverse_perm _).symm

end ContextBuilder
