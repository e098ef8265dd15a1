import AiForge.ConversationAdmission

/-! # Message digests

A message is hashed over its identity, role, invocation, content and tool calls. Artifacts are
refused: they have to be turned into text before. What is hashed determines the message, and
what is hashed for the messages of a history, one after the other, determines the history. -/
namespace MessageDigest

open Admission Content Framing List SafeText Sealing FieldWriter Staged

def conversationMaximumMessageItems : ℕ := 65536

def encodeBlock (writer : Seal) : ContentBlock → Option Seal
  | .text text => some ((writer.text "text").field text)
  | .structuredData block =>
    some (((writer.text "structured").text block.mediaType).field block.data)
  | .citation uri title =>
    some (((writer.text "citation").text uri).optionalText (title.map bytesOf))
  | .artifactReference _ _ => none
  | .unknown _ => none

def validMessageShape (value : Message) : Bool :=
  !(value.content.isEmpty && value.toolCalls.isEmpty) &&
  match value.role with
  | .user | .evidence => value.invocationId.isNone && value.toolCalls.isEmpty
  | .assistant => value.invocationId.isNone
  | .tool => value.invocationId.isSome && value.toolCalls.isEmpty
  | .system => false

def validCall (value : ToolCall) : Bool :=
  let name := bytesOf value.toolName
  !name.isEmpty && decide (name.length ≤ 128) &&
  name.all (fun ch => !(ch < 0x20 || ch == 0x7f)) &&
  value.arguments.mediaType == "application/json" && !value.arguments.data.isEmpty

def roleCode : Role → ℕ
  | .system => 0
  | .user => 1
  | .assistant => 2
  | .tool => 3
  | .evidence => 4

def encodeCall (writer : Seal) (call : ToolCall) : Seal :=
  let writer := writer.text call.invocationId
  let writer := writer.text call.toolName
  let writer := writer.text call.arguments.mediaType
  writer.field call.arguments.data

/-- One turn of the loop over the tool calls. -/
def addCall (state : Seal × Finset InvocationId) (call : ToolCall) :
    Result (Seal × Finset InvocationId) := do
  let duplicated : ConversationAdmissionError :=
    ⟨.invalidMessage, "conversation tool call is invalid or duplicated"⟩
  ensure (validCall call) duplicated
  let invocations ← require (insertNew call.invocationId state.2) duplicated
  return (encodeCall state.1 call, invocations)

/-- One turn of the loop over the content. -/
def addBlock (writer : Seal) (block : ContentBlock) : Result Seal :=
  require (encodeBlock writer block)
    ⟨.invalidMessage, "conversation content is unresolved or unsupported"⟩

def normalizedConversationMessageDigest (value : Message) (version : ℕ) :
    Result ContentDigest := do
  ensure (version = 1)
    ⟨.unsupportedVersion, "unsupported conversation message encoding"⟩
  ensure (value.content.length ≤ conversationMaximumMessageItems ∧
      value.toolCalls.length ≤ conversationMaximumMessageItems - value.content.length)
    ⟨.resourceExhausted, "conversation message has too many items"⟩
  ensure (validMessageShape value)
    ⟨.invalidMessage, "invalid normalized conversation message"⟩
  let writer : Seal := { maximum := conversationMaximumMessageBytes }
  let writer := writer.text "aiforge.conversation-message.v1"
  let writer := writer.number version
  let writer := writer.text value.messageId
  let writer := writer.number (roleCode value.role)
  let writer := writer.number value.invocationId.isSome.toNat
  let writer := value.invocationId.elim writer writer.text
  let writer := writer.number value.content.length
  let writer ← value.content.foldlM addBlock writer
  let writer := writer.number value.toolCalls.length
  let (writer, _) ← value.toolCalls.foldlM addCall (writer, ∅)
  writer.finish exhausted

def Normalized : ContentBlock → Prop
  | .text _ | .structuredData _ | .citation _ _ => True
  | .artifactReference _ _ | .unknown _ => False

def blockFields : ContentBlock → List Bytes
  | .text text => [bytesOf "text", text]
  | .structuredData block => [bytesOf "structured", bytesOf block.mediaType, block.data]
  | .citation uri title =>
    [bytesOf "citation", bytesOf uri] ++ optionalTextFields (title.map bytesOf)
  | .artifactReference _ _ | .unknown _ => []

def callFields (call : ToolCall) : List Bytes :=
  [bytesOf call.invocationId, bytesOf call.toolName, bytesOf call.arguments.mediaType,
    call.arguments.data]

def messageFields (version : ℕ) (value : Message) : List Bytes :=
  [bytesOf "aiforge.conversation-message.v1", decimal version, bytesOf value.messageId,
    decimal (roleCode value.role)] ++
  tagged presence (fun id => [bytesOf id]) value.invocationId ++
  counted decimal blockFields value.content ++ counted decimal callFields value.toolCalls

/-- The bytes that a message is hashed by. -/
def preImage (version : ℕ) (value : Message) : Bytes := canonical (messageFields version value)

variable {writer : Seal}

theorem addBlock_fields {result : Seal} {block : ContentBlock}
    (h : addBlock writer block = .ok result) :
    Normalized block ∧ result = fields writer (blockFields block) := by
  unfold addBlock at h
  rw [require_ok] at h
  cases block with
  | text | structuredData =>
    cases h
    exact ⟨trivial, rfl⟩
  | citation =>
    cases h
    refine ⟨trivial, ?_⟩
    rw [Seal.optionalText_fields, blockFields, ← fields_append]
    rfl
  | artifactReference | unknown => cases h

theorem addBlocks_fields {result : Seal} {blocks : List ContentBlock}
    (h : blocks.foldlM addBlock writer = .ok result) : (∀ block ∈ blocks, Normalized block) ∧
      result = fields writer (blocks.flatMap blockFields) := by
  induction blocks generalizing writer with
  | nil =>
    cases h
    exact ⟨nofun, rfl⟩
  | cons _ _ ih =>
    obtain ⟨_, hblk, h⟩ := foldlM_cons_ok.1 h
    obtain ⟨hn, rfl⟩ := addBlock_fields hblk
    obtain ⟨hns, rfl⟩ := ih h
    refine ⟨forall_mem_cons.2 ⟨hn, hns⟩, ?_⟩
    rw [fields_append, flatMap_cons]

theorem addCalls_fields {seen : Finset InvocationId}
    {result : Seal × Finset InvocationId} {calls : List ToolCall}
    (h : calls.foldlM addCall (writer, seen) = .ok result) :
    result.1 = fields writer (calls.flatMap callFields) := by
  induction calls generalizing writer seen with
  | nil =>
    cases h
    rfl
  | cons _ _ ih =>
    obtain ⟨_, hcall, h⟩ := foldlM_cons_ok.1 h
    replace hcall := later hcall
    obtain ⟨_, -, hcall⟩ := bind_ok.1 hcall
    cases hcall
    rw [ih h, flatMap_cons, ← fields_append]
    rfl

variable {version : ℕ}

/-- A digest is only given for messages without artifacts, and it is that of the pre-image. -/
theorem digest_ok {value : Message} {digest : ContentDigest}
    (h : normalizedConversationMessageDigest value version = .ok digest) :
    (∀ block ∈ value.content, Normalized block) ∧
      digest = contentDigest (preImage version value) := by
  replace h := later h
  replace h := later h
  replace h := later h
  dsimp only at h
  obtain ⟨_, hblocks, h⟩ := bind_ok.1 h
  obtain ⟨calls, hcalls, h⟩ := bind_ok.1 h
  obtain ⟨hnorm, hblocks⟩ := addBlocks_fields hblocks
  have hcalls := addCalls_fields hcalls
  have hfld : calls.1 = fields ({ maximum := conversationMaximumMessageBytes } : Seal)
      (messageFields version value) := by
    rw [hcalls, hblocks]
    simp only [messageFields, tagged, counted, presence, text_fields, number_fields,
      elim_fields (text_fields _), fields_append, append_assoc,
      cons_append, nil_append]
  refine ⟨hnorm, ?_⟩
  rw [hfld, Seal.finish_canonical] at h
  split at h
  · cases h
    rfl
  · cases h

theorem roleCode_inj : Function.Injective roleCode := by
  intro first second h
  cases first <;> cases second <;> first | rfl | cases h

/-- Blocks of different kinds differ in their first field. -/
theorem blockFields_delimited : SelfDelimitingOn Normalized blockFields := by
  intro x y r s hx hy _ h
  cases x with
  | text text =>
    cases y with
    | artifactReference | unknown => exact hy.elim
    | text => simpa [blockFields] using h
    | _ => simp [blockFields, bytesOf_inj] at h
  | structuredData block =>
    cases y with
    | artifactReference | unknown => exact hy.elim
    | structuredData block' =>
      obtain ⟨_, _⟩ := block
      obtain ⟨_, _⟩ := block'
      simpa [blockFields, bytesOf_inj, and_assoc] using h
    | _ => simp [blockFields, bytesOf_inj] at h
  | citation =>
    cases y with
    | artifactReference | unknown => exact hy.elim
    | citation =>
      simp only [blockFields, cons_append, nil_append, List.cons.injEq, bytesOf_inj,
        true_and] at h
      obtain ⟨rfl, h⟩ := h
      obtain ⟨htitle, hrest⟩ := optionalTextFields_delimited _ _ _ _ h
      obtain rfl := Option.map_injective bytesOf_injective htitle
      exact ⟨rfl, hrest⟩
    | _ => simp [blockFields, bytesOf_inj] at h
  | artifactReference | unknown => exact hx.elim

theorem callFields_delimited : SelfDelimiting callFields := by
  rintro ⟨_, _, ⟨_, _⟩⟩ ⟨_, _, ⟨_, _⟩⟩ _ _ h
  simp only [callFields, cons_append, nil_append, List.cons.injEq, bytesOf_inj] at h
  obtain ⟨rfl, rfl, rfl, rfl, hrest⟩ := h
  exact ⟨rfl, hrest⟩

def NormalizedMessage (value : Message) : Prop := ∀ block ∈ value.content, Normalized block

theorem messageFields_delimited (version : ℕ) :
    SelfDelimitingOn NormalizedMessage (messageFields version) := by
  rintro ⟨_, _, _, _, _⟩ ⟨_, _, _, _, _⟩ _ _ hx hy - h
  simp only [messageFields, append_assoc, cons_append, nil_append,
    List.cons.injEq, bytesOf_inj, decimal_inj, true_and] at h
  obtain ⟨rfl, hrole, h₁⟩ := h
  obtain ⟨rfl, h₂⟩ := delimited_tagged presence_inj
    (delimited_single bytesOf_injective) _ _ _ _ h₁
  obtain ⟨rfl, h₃⟩ :=
    delimitedOn_counted decimal_injective blockFields_delimited _ _ _ _ hx hy rfl h₂
  obtain ⟨rfl, hrest⟩ :=
    delimited_counted decimal_injective callFields_delimited _ _ _ _ h₃
  obtain rfl := roleCode_inj hrole
  exact ⟨rfl, hrest⟩

theorem messageFields_ne_nil (version : ℕ) (value : Message) :
    messageFields version value ≠ [] := by
  simp [messageFields]

theorem canonical_flatMap {α : Type} (encode : α → List Bytes) (values : List α) :
    values.flatMap (fun value => canonical (encode value)) = canonical (values.flatMap encode) := by
  simp only [canonical, flatMap_assoc]

/-- The digests that the messages of a history are recorded with. -/
def Digests (version : ℕ) : List Message → List ContentDigest → Prop :=
  List.Forall₂ fun message digest =>
    normalizedConversationMessageDigest message version = .ok digest

variable {digests : List ContentDigest}

theorem Digests.normalized {messages : List Message} (h : Digests version messages digests) :
    ∀ message ∈ messages, NormalizedMessage message := by
  induction h with
  | nil => exact nofun
  | cons hd _ ih => exact forall_mem_cons.2 ⟨(digest_ok hd).1, ih⟩

theorem history_inj {first second : List Message} {digests' : List ContentDigest}
    (hf : Digests version first digests) (hs : Digests version second digests')
    (h : first.flatMap (preImage version) = second.flatMap (preImage version)) :
    first = second := by
  have hfld : first.flatMap (messageFields version) =
      second.flatMap (messageFields version) := by
    apply canonical_inj
    rw [← canonical_flatMap, ← canonical_flatMap]
    exact h
  exact (messageFields_delimited version).flatMap_inj (messageFields_ne_nil version)
    hf.normalized hs.normalized hfld

/-- Equal digests come from equal pre-images, message by message. -/
theorem Digests.preImages {first second : List Message}
    (hf : Digests version first digests) (hs : Digests version second digests)
    (hfree : ∀ m ∈ first, ∀ n ∈ second, Sha256.digest (preImage version m) =
      Sha256.digest (preImage version n) → preImage version m = preImage version n) :
    first.map (preImage version) = second.map (preImage version) := by
  induction hf generalizing second with
  | nil =>
    cases hs
    rfl
  | cons hd _ ih =>
    cases hs with
    | cons hd' hrest =>
      have hd := (digest_ok hd).2
      have hd' := (digest_ok hd').2
      have hsame := congrArg ContentDigest.value (hd.symm.trans hd')
      have hhead := hfree _ mem_cons_self _ mem_cons_self hsame
      have htail := ih hrest fun m hm n hn =>
        hfree m (mem_cons_of_mem _ hm) n (mem_cons_of_mem _ hn)
      rw [map_cons, map_cons, hhead, htail]

/-- The pre-images of the messages of a history, written one after the other, determine the
history. Histories that differ in any message or in their length are recorded with different
digests, as long as SHA-256 keeps the pre-images of their messages apart. -/
theorem message_histories_injective {version : ℕ} {first second : List Message}
    {digests digests' : List ContentDigest} (hf : Digests version first digests)
    (hs : Digests version second digests') :
    (first.flatMap (preImage version) = second.flatMap (preImage version) → first = second) ∧
    (first ≠ second →
      (∀ m ∈ first, ∀ n ∈ second, Sha256.digest (preImage version m) =
        Sha256.digest (preImage version n) → preImage version m = preImage version n) →
      digests ≠ digests') := by
  constructor
  · intro h
    exact history_inj hf hs h
  · rintro hne hfree rfl
    have hmap := hf.preImages hs hfree
    apply hne
    apply history_inj hf hs
    rw [flatMap_def, flatMap_def, hmap]

def sampleCall : Message where
  messageId := "message-1"
  role := .assistant
  content := [.text (bytesOf "looking")]
  invocationId := none
  toolCalls := [⟨"call", "read_file", ⟨"application/json", bytesOf "[1]"⟩⟩]

def sampleResult (title : Option String) : Message where
  messageId := "message-2"
  role := .tool
  content := [.citation "file:a" title]
  invocationId := some "call"
  toolCalls := []

/-- An empty title and no title are told apart. -/
theorem citation_titles_told_apart : Digests 1 [sampleCall, sampleResult none]
      ([sampleCall, sampleResult none].map fun m => contentDigest (preImage 1 m)) ∧
    [sampleCall, sampleResult none].map (fun m => contentDigest (preImage 1 m)) ≠
      [sampleCall, sampleResult (some "")].map (fun m => contentDigest (preImage 1 m)) := by
  have hdigest : ∀ message ∈ [sampleCall, sampleResult none, sampleResult (some "")],
      (normalizedConversationMessageDigest message 1).isOk ∧
        (preImage 1 message).length < 2 ^ 61 := by decide +kernel
  have hrecorded : ∀ messages ⊆ [sampleCall, sampleResult none, sampleResult (some "")],
      Digests 1 messages (messages.map fun m => contentDigest (preImage 1 m)) := by
    intro messages hsub
    rw [Digests, forall₂_map_right_iff, forall₂_same]
    intro message hmem
    obtain ⟨digest, hd⟩ := isOk_iff.1 (hdigest message (hsub hmem)).1
    rw [hd, (digest_ok hd).2]
  have hfree : ∀ m ∈ [sampleCall, sampleResult none], ∀ n ∈ [sampleCall, sampleResult (some "")],
      Sha256Evaluation.digestNat (preImage 1 m) = Sha256Evaluation.digestNat (preImage 1 n) →
        preImage 1 m = preImage 1 n := by decide +kernel
  have hfst : [sampleCall, sampleResult none] ⊆
      [sampleCall, sampleResult none, sampleResult (some "")] := by simp
  have hsnd : [sampleCall, sampleResult (some "")] ⊆
      [sampleCall, sampleResult none, sampleResult (some "")] := by simp
  refine ⟨hrecorded _ hfst, ?_⟩
  refine (message_histories_injective (hrecorded _ hfst) (hrecorded _ hsnd)).2 (by decide) ?_
  intro m hm n hn hsame
  rw [Sha256Evaluation.digest_eq_digestNat (hdigest m (hfst hm)).2,
    Sha256Evaluation.digest_eq_digestNat (hdigest n (hsnd hn)).2] at hsame
  exact hfree m hm n hn hsame

end MessageDigest
