import AiForge.DocumentWalks

/-! # The budgets of a conversation document

The decoder's walk passes a document if and only if everything in it is counted within the
budgets. The seal of an admission has already paid for every text in its document: each sealed
field costs two bytes more than its text, which covers the names and the digest that only the
document has. -/
namespace ConversationDocument

open Admission hiding Result
open Content SafeText Sealing Framing
open Json (nodes nodes_array nodes_eq nodes_obj nodes_pos obj subvalues textBytes textBytes_array
  textBytes_eq textBytes_obj textLength within within_array within_le within_obj)
open PayloadCodec Staged

/-- What the walk asks of each value by itself. -/
structure Plain (value : Json) : Prop where
  unsigned : isSigned value = false
  short : value.textLength ≤ conversationMaximumProvenanceBytes

variable {value : Json} {bytes depth : ℕ}

theorem checkConversationShape_ok : checkConversationShape value = .ok () ↔
      value.nodes ≤ maximumNodes ∧ value.textBytes ≤ conversationMaximumManifestBytes ∧
        value.within maximumDepth ∧ ∀ nested ∈ value.subvalues, Plain nested := by
  rw [DocumentWalks.conversationShape_eq_ok]
  refine and_congr_right fun _ => and_congr_right fun _ => and_congr_right fun _ => ?_
  exact forall₂_congr fun nested _ =>
    ⟨fun h => ⟨h.1, h.2⟩, fun h => ⟨h.unsigned, h.short⟩⟩

/-- Bounds for what a value adds to a document, and for how deep it goes. -/
structure Weighs (value : Json) (nodes bytes depth : ℕ) : Prop where
  nodes : value.nodes ≤ nodes
  bytes : value.textBytes ≤ bytes
  depth : value.within depth
  plain : ∀ nested ∈ value.subvalues, Plain nested

theorem Weighs.mono {nodes nodes' bytes' depth' : ℕ}
    (h : Weighs value nodes bytes depth) (hn : nodes ≤ nodes') (hb : bytes ≤ bytes')
    (hd : depth ≤ depth') : Weighs value nodes' bytes' depth' :=
  ⟨h.nodes.trans hn, h.bytes.trans hb, within_le hd h.depth, h.plain⟩

theorem weighs_leaf (hchildren : value.children = []) (hplain : Plain value)
    (depth : ℕ) : Weighs value 1 value.textLength depth := by
  refine ⟨?_, ?_, within_le (Nat.zero_le _) ?_, ?_⟩
  · rw [nodes_eq, hchildren]
    exact Nat.le_refl _
  · rw [textBytes_eq, hchildren]
    exact Nat.le_refl _
  · rw [within, hchildren]
    rfl
  · rw [Json.forall_subvalues, hchildren]
    exact ⟨hplain, List.forall_mem_nil _⟩

theorem weighs_null (depth : ℕ) : Weighs .null 1 0 depth :=
  weighs_leaf rfl ⟨rfl, Nat.zero_le _⟩ depth

theorem weighs_boolean (value : Bool) (depth : ℕ) : Weighs (.boolean value) 1 0 depth :=
  weighs_leaf rfl ⟨rfl, Nat.zero_le _⟩ depth

theorem weighs_number (value depth : ℕ) : Weighs (numberJson value) 1 0 depth := by
  have hunsigned : isSigned (numberJson value) = false :=
    decide_eq_false (not_lt.2 (Int.natCast_nonneg value))
  exact weighs_leaf rfl ⟨hunsigned, Nat.zero_le _⟩ depth

theorem weighs_text {value : Bytes} (h : value.length ≤ conversationMaximumProvenanceBytes)
    (depth : ℕ) : Weighs (.text value) 1 value.length depth := by
  have hplain : Plain (.text value) := ⟨rfl, h⟩
  exact weighs_leaf rfl hplain depth

section Composed

variable {α : Type} {depth : ℕ} {nodesOf bytesOf : α → ℕ} {xs : List α}

theorem sum_le_of_forall₂ {values : List Json} {f : α → ℕ} {g : Json → ℕ}
    (h : List.Forall₂ (fun x value => g value ≤ f x) xs values) :
    (values.map g).sum ≤ (xs.map f).sum := by
  induction h with
  | nil => exact Nat.le_refl _
  | cons =>
    rw [List.map_cons, List.sum_cons, List.map_cons, List.sum_cons]
    omega

theorem forall_of_forall₂ {values : List Json} {p : Json → Prop}
    (h : List.Forall₂ (fun _ value => p value) xs values) : ∀ value ∈ values, p value := by
  induction h with
  | nil => exact nofun
  | cons hp _ ih => exact List.forall_mem_cons.2 ⟨hp, ih⟩

theorem weighs_array {items : List Json}
    (h : List.Forall₂ (fun x item => Weighs item (nodesOf x) (bytesOf x) depth) xs items) :
    Weighs (.array items) ((xs.map nodesOf).sum + 1) (xs.map bytesOf).sum (depth + 1) := by
  refine ⟨?_, ?_, ?_, ?_⟩
  · rw [nodes_array]
    exact Nat.succ_le_succ (sum_le_of_forall₂ (h.imp fun _ _ hw => hw.nodes))
  · rw [textBytes_array]
    exact sum_le_of_forall₂ (h.imp fun _ _ hw => hw.bytes)
  · exact within_array.2 (forall_of_forall₂ (h.imp fun _ _ hw => hw.depth))
  · rw [Json.forall_subvalues]
    exact ⟨⟨rfl, Nat.zero_le _⟩, forall_of_forall₂ (h.imp fun _ _ hw => hw.plain)⟩

theorem weighs_obj (members : List (Bytes × Json)) (weights : List (ℕ × ℕ))
    (h : List.Forall₂ (fun weight member => Weighs member.2 weight.1 weight.2 depth) weights
      members) :
    Weighs (obj members) ((weights.map Prod.fst).sum + 1) (weights.map Prod.snd).sum
      (depth + 1) := by
  have hvals : List.Forall₂ (fun weight value => Weighs value weight.1 weight.2 depth) weights
      (members.map Prod.snd) := by
    rw [List.forall₂_map_right_iff]
    exact h
  refine ⟨?_, ?_, ?_, ?_⟩
  · have hle := sum_le_of_forall₂ (hvals.imp fun _ _ hw => hw.nodes)
    rw [List.map_map] at hle
    rw [nodes_obj]
    exact Nat.succ_le_succ hle
  · have hle := sum_le_of_forall₂ (hvals.imp fun _ _ hw => hw.bytes)
    rw [List.map_map] at hle
    rw [textBytes_obj]
    exact hle
  · rw [within_obj]
    intro member hmem
    exact forall_of_forall₂ (hvals.imp fun _ _ hw => hw.depth) _ (List.mem_map_of_mem hmem)
  · rw [Json.forall_subvalues]
    refine ⟨⟨rfl, Nat.zero_le _⟩, (Json.forall_children_obj members).2 ?_⟩
    intro member hmem
    exact forall_of_forall₂ (hvals.imp fun _ _ hw => hw.plain) _ (List.mem_map_of_mem hmem)

end Composed

/-- The text of sealed fields, each with the least that its length costs. -/
def mass (fields : List Bytes) : ℕ := (fields.map fun field => field.length + 2).sum

@[simp] theorem mass_nil : mass [] = 0 := rfl

@[simp] theorem mass_cons (field : Bytes) (fields : List Bytes) :
    mass (field :: fields) = field.length + 2 + mass fields := rfl

@[simp] theorem mass_append (first second : List Bytes) :
    mass (first ++ second) = mass first + mass second := by
  rw [mass, List.map_append, List.sum_append]
  rfl

theorem mass_flatMap {α : Type} (encode : α → List Bytes) (values : List α) :
    mass (values.flatMap encode) = (values.map fun value => mass (encode value)).sum := by
  induction values with
  | nil => rfl
  | cons _ _ ih =>
    rw [List.flatMap_cons, mass_append, ih, List.map_cons, List.sum_cons]

theorem decimal_pos (n : ℕ) : 0 < (decimal n).length := by
  rw [decimal, List.length_map]
  exact Nat.length_toDigits_pos

theorem mass_le (fields : List Bytes) : mass fields ≤ (canonical fields).length := by
  induction fields with
  | nil => exact Nat.le_refl _
  | cons field =>
    have hpos := decimal_pos field.length
    rw [mass_cons, canonical, List.flatMap_cons, List.length_append, ← canonical, netstring,
      List.length_append, List.length_cons]
    omega

def optionalLength (value : Option Bytes) : ℕ := (value.map List.length).getD 0

theorem optionalLength_le (value : Option Bytes) :
    optionalLength value + 2 ≤ mass (optionalTextFields value) := by
  cases value with
  | none => simp [optionalLength, optionalTextFields, tagged]
  | some =>
    simp only [optionalLength, optionalTextFields, tagged, Option.map_some, Option.getD_some,
      Option.elim_some, mass_cons, mass_nil]
    omega

/-- What the shape says about a digest, as far as the document shows it. -/
structure ShortDigest (digest : ContentDigest) : Prop where
  algorithm : digest.algorithm = "sha256"
  value : (bytesOf digest.value).length = 64
  byteSize : digest.byteSize < 2 ^ 64

structure ShortProvenance (value : ContextProvenance) : Prop where
  sourceLocation : ∀ text ∈ value.sourceLocation, text.length ≤ conversationMaximumProvenanceBytes
  digest : ∀ text ∈ value.digest, text.length ≤ conversationMaximumProvenanceBytes

structure GoodEntry (entry : ConversationAdmittedEntry) : Prop where
  kind : entry.kind = .conversation ∨ entry.kind = .toolResult
  provenance : ShortProvenance entry.provenance
  messageDigest : ShortDigest entry.messageDigest

structure GoodSummary (summary : ConversationAdmittedSummary) : Prop where
  candidateDigest : ShortDigest summary.candidate.candidateDigest
  provenance : ShortProvenance summary.provenance
  messageDigest : ShortDigest summary.messageDigest

structure GoodAdmission (admission : ConversationAdmission) : Prop where
  version : admission.version = 1 ∧ admission.summaries = [] ∨ admission.version = 2
  estimatorVersion : admission.estimatorVersion = 1
  summaries : ∀ summary ∈ admission.summaries, GoodSummary summary
  summaryCount : admission.summaries.length ≤ summaryMaximumActive
  groupCount : admission.groups.length ≤ conversationMaximumGroups
  entries : ∀ group ∈ admission.groups, ∀ entry ∈ group.entries, GoodEntry entry
  entryCount : (admission.groups.map fun group => group.entries.length).sum ≤
    conversationMaximumEntries
  omittedGroupsDigest : ∀ digest ∈ admission.omittedGroupsDigest, ShortDigest digest

theorem utf8ByteSize_eq (value : String) : value.utf8ByteSize = (bytesOf value).length := rfl

variable {digest : ContentDigest}

theorem shortDigest_of_valid {maximum : ℕ}
    (h : Admission.validDigest digest maximum) (hmax : maximum < 2 ^ 64) :
    ShortDigest digest := by
  simp only [Admission.validDigest, Bool.and_eq_true, beq_iff_eq, decide_eq_true_eq] at h
  obtain ⟨⟨⟨⟨halg, hval⟩, -⟩, _⟩, -⟩ := h
  exact ⟨halg, (utf8ByteSize_eq _).symm.trans hval, by omega⟩

theorem short_of_valid {value : Option Bytes} (h : validOptionalText value) :
    ∀ text ∈ value, text.length ≤ conversationMaximumProvenanceBytes := by
  intro text htext
  have hall := (Option.all_eq_true _ _).1 h text htext
  simp only [Bool.and_eq_true, decide_eq_true_eq] at hall
  exact hall.2

variable {sources : Sources}

theorem entry_good {next : Sources} {entry : ConversationAdmittedEntry} {snapshot : ℕ}
    (h : sources.entry entry snapshot = .ok next) :
    GoodEntry entry ∧ next.count = sources.count := by
  obtain ⟨hcls, h⟩ := guarded h
  obtain ⟨hprov, h⟩ := guarded h
  obtain ⟨hdig, h⟩ := guarded h
  obtain ⟨_, -, h⟩ := bind_ok.1 h
  obtain ⟨_, -, h⟩ := bind_ok.1 h
  obtain ⟨_, -, h⟩ := bind_ok.1 h
  obtain ⟨_, -, h⟩ := bind_ok.1 h
  obtain ⟨_, -, h⟩ := bind_ok.1 h
  obtain ⟨_, -, h⟩ := bind_ok.1 h
  obtain rfl := Except.ok.inj h
  obtain ⟨hloc, htext⟩ := hprov
  refine ⟨⟨?_, ⟨short_of_valid hloc, short_of_valid htext⟩,
    shortDigest_of_valid hdig (by decide)⟩, rfl⟩
  by_contra hneither
  rw [not_or] at hneither
  exact hcls (.inr (.inr (.inr (.inr hneither))))

variable {admission : ConversationAdmission}

theorem group_good {next : Sources} {group : ConversationAdmittedGroup}
    (h : sources.group group admission = .ok next) : (∀ entry ∈ group.entries, GoodEntry entry) ∧
      next.count = sources.count + group.entries.length ∧
      next.count ≤ conversationMaximumEntries := by
  obtain ⟨_, hfst, h⟩ := bind_ok.1 h
  obtain ⟨_, -, h⟩ := bind_ok.1 h
  replace h := later h
  obtain ⟨hcnt, h⟩ := guarded h
  replace h := later h
  have hpos : 0 < group.entries.length := by
    cases hents : group.entries with
    | nil =>
      rw [require_ok, hents] at hfst
      cases hfst
    | cons => exact Nat.succ_pos _
  have hkept : next.count = sources.count + group.entries.length :=
    foldlM_keeps (I := fun state : Sources => state.count = sources.count + group.entries.length)
      (fun entry _ state next hst hstep => (entry_good hstep).2.trans hst) rfl h
  refine ⟨Staged.forall_of_foldlM ?_ h, hkept, by omega⟩
  intro state entry next hstep
  exact (entry_good hstep).1

theorem groups_good {groups : List ConversationAdmittedGroup}
    {final : Sources} (hbeg : sources.count ≤ conversationMaximumEntries)
    (h : groups.foldlM (fun sources group => sources.group group admission) sources = .ok final) :
    sources.count + (groups.map fun group => group.entries.length).sum ≤
      conversationMaximumEntries := by
  induction groups generalizing sources with
  | nil => simpa using hbeg
  | cons _ _ ih =>
    obtain ⟨_, hgrp, hrest⟩ := foldlM_cons_ok.1 h
    obtain ⟨-, _, hle⟩ := group_good hgrp
    have hsum := ih hle hrest
    rw [List.map_cons, List.sum_cons]
    omega

theorem summary_good {state next : SummarySources × Sources} {summary : ConversationAdmittedSummary}
    (h : state.1.entry summary admission state.2 = .ok next) :
    GoodSummary summary ∧ next.2.count = state.2.count := by
  obtain ⟨hmeta, h⟩ := guarded h
  obtain ⟨hdigests, h⟩ := guarded h
  obtain ⟨_, -, h⟩ := bind_ok.1 h
  obtain ⟨_, -, h⟩ := bind_ok.1 h
  obtain ⟨_, -, h⟩ := bind_ok.1 h
  obtain ⟨_, -, h⟩ := bind_ok.1 h
  obtain ⟨_, -, h⟩ := bind_ok.1 h
  obtain ⟨_, -, h⟩ := bind_ok.1 h
  obtain ⟨_, -, h⟩ := bind_ok.1 h
  obtain rfl := Except.ok.inj h
  obtain ⟨hcand, hmsg⟩ := hdigests
  simp only [not_or, Bool.not_eq_true', Bool.not_eq_false] at hmeta
  obtain ⟨-, -, -, -, -, -, -, hloc, htext⟩ := hmeta
  exact ⟨⟨shortDigest_of_valid hcand (by decide),
    ⟨short_of_valid hloc, short_of_valid htext⟩, shortDigest_of_valid hmsg (by decide)⟩,
    rfl⟩

theorem admission_good (h : shape admission = .ok ()) : GoodAdmission admission := by
  obtain ⟨_, hhead, h⟩ := bind_ok.1 h
  obtain ⟨⟨_, sources⟩, hsummaries, h⟩ := bind_ok.1 h
  replace h := later h
  obtain ⟨_, hgrp, -⟩ := bind_ok.1 h
  have hleg := headerShape_summaries hhead
  obtain ⟨_, hver, hhead⟩ := bind_ok.1 hhead
  replace hhead := later hhead
  replace hhead := later hhead
  obtain ⟨hsummaryCount, hhead⟩ := guarded hhead
  obtain ⟨hgroupCount, hhead⟩ := guarded hhead
  have homit := later hhead
  obtain ⟨hver, hest⟩ := ensure_ok.1 hver
  have hcnt : sources.count = 0 :=
    foldlM_keeps (I := fun state : SummarySources × Sources => state.2.count = 0)
      (fun _ _ _ _ hst hstep => (summary_good hstep).2.trans hst) rfl hsummaries
  have hsum := groups_good (by rw [hcnt]; exact Nat.zero_le _) hgrp
  refine ⟨?_, hest, ?_, hsummaryCount, hgroupCount, ?_, ?_,
    ?_⟩
  · rcases hver with hone | htwo
    · exact .inl ⟨hone, hleg.resolve_left (by omega)⟩
    · exact .inr htwo
  · refine Staged.forall_of_foldlM ?_ hsummaries
    intro state summary next hstep
    exact (summary_good hstep).1
  · refine Staged.forall_of_foldlM ?_ hgrp
    intro state group next hstep
    exact (group_good hstep).1
  · omega
  · intro digest hdig
    have hall := ensure_ok.1 homit
    rw [hdig] at hall
    exact shortDigest_of_valid hall (by decide)

theorem weighs_id {id : String} (h : SessionStore.validId id) (depth : ℕ) :
    Weighs (idText id) 1 (bytesOf id).length depth := by
  simp only [SessionStore.validId, Bool.and_eq_true, decide_eq_true_eq] at h
  obtain ⟨⟨-, hsh⟩, -⟩ := h
  exact weighs_text (hsh.trans (by decide)) depth

theorem weighs_optionalBytes {value : Option Bytes}
    (h : ∀ text ∈ value, text.length ≤ conversationMaximumProvenanceBytes) (depth : ℕ) :
    Weighs (optionalBytesJson value) 1 (optionalLength value) depth := by
  cases value with
  | none => exact weighs_null depth
  | some text => exact weighs_text (h text rfl) depth

theorem weighs_digest (h : ShortDigest digest) (depth : ℕ) :
    Weighs (digestJson digest) 4 70 (depth + 1) := by
  have halg : (bytesOf digest.algorithm).length = 6 := by
    rw [h.algorithm]
    rfl
  have hweights := weighs_obj (digestMembers digest)
    [(1, (bytesOf digest.algorithm).length), (1, (bytesOf digest.value).length), (1, 0)]
    (.cons (weighs_text (by rw [halg]; decide) depth)
      (.cons (weighs_text (by rw [h.value]; decide) depth)
        (.cons (weighs_number digest.byteSize depth) .nil)))
  rw [halg, h.value] at hweights
  exact hweights

theorem mass_digest (h : ShortDigest digest) : 76 ≤ mass (Sealing.digestFields digest) := by
  have halg : (bytesOf digest.algorithm).length = 6 := by
    rw [h.algorithm]
    rfl
  simp only [Sealing.digestFields, mass_cons, mass_nil, halg, h.value]
  omega

theorem weighs_provenance {value : ContextProvenance} (hsh : ShortProvenance value)
    (htyp : TypedProvenance value) (depth : ℕ) :
    Weighs (provenanceJson value) 4 ((bytesOf value.sourceId).length +
      (optionalLength value.sourceLocation + optionalLength value.digest)) (depth + 1) :=
  weighs_obj (provenanceMembers value)
    [(1, (bytesOf value.sourceId).length), (1, optionalLength value.sourceLocation),
      (1, optionalLength value.digest)]
    (.cons (weighs_id htyp.sourceId depth)
      (.cons (weighs_optionalBytes hsh.sourceLocation depth)
        (.cons (weighs_optionalBytes hsh.digest depth) .nil)))

theorem kindName_short {kind : ContextContentKind} {name : String}
    (h : conversationKindName kind = .ok name) : (bytesOf name).length ≤ 12 := by
  cases kind with
  | conversation | toolResult =>
    cases h
    decide
  | evidence | unknown => cases h

variable {document : Json}

theorem weighs_entry {entry : ConversationAdmittedEntry}
    (hgood : GoodEntry entry) (htyp : TypedEntry entry) (h : entryJson entry = .ok document) :
    Weighs document 16 (mass (entryFields entry)) 2 := by
  obtain ⟨kind, hkind, h⟩ := bind_ok.1 h
  cases h
  have hname := kindName_short hkind
  have hweights := weighs_obj (entryMembers entry kind)
    [(1, (bytesOf entry.completedEventId).length), (1, 0),
      (1, (bytesOf entry.entryId).length), (1, (bytesOf entry.messageId).length),
      (4, (bytesOf entry.provenance.sourceId).length +
        (optionalLength entry.provenance.sourceLocation + optionalLength entry.provenance.digest)),
      (1, 0), (1, 0), (1, (bytesOf kind).length), (4, 70)]
    (.cons (weighs_id htyp.completedEventId 1) (.cons (weighs_number entry.eventSequence 1)
      (.cons (weighs_id htyp.entryId 1) (.cons (weighs_id htyp.messageId 1)
        (.cons (weighs_provenance hgood.provenance htyp.provenance 0)
          (.cons (weighs_number entry.order 1) (.cons (weighs_number entry.estimatedTokens 1)
            (.cons (weighs_text (hname.trans (by decide)) 1)
              (.cons (weighs_digest hgood.messageDigest 0) .nil)))))))))
  refine hweights.mono (Nat.le_refl 16) ?_ (Nat.le_refl 2)
  -- The name of the kind is shorter than what the lengths of the fields cost.
  have hloc := optionalLength_le entry.provenance.sourceLocation
  have htext := optionalLength_le entry.provenance.digest
  have hdig := mass_digest hgood.messageDigest
  simp only [entryFields, mass_append, mass_cons, mass_nil, List.map_cons, List.map_nil,
    List.sum_cons, List.sum_nil]
  omega

theorem weighs_mapM {α : Type} {xs : List α} {items : List Json} {write : α → Result Json}
    (nodesOf bytesOf : α → ℕ) (h : xs.mapM write = .ok items)
    (hweighs : ∀ x ∈ xs, ∀ item, write x = .ok item →
      Weighs item (nodesOf x) (bytesOf x) depth) :
    Weighs (.array items) ((xs.map nodesOf).sum + 1) (xs.map bytesOf).sum (depth + 1) := by
  refine weighs_array ?_
  have hwrit := mapM_eq_ok.1 h
  clear h
  induction hwrit with
  | nil => exact .nil
  | cons hitem _ ih =>
    obtain ⟨hfst, hrest⟩ := List.forall_mem_cons.1 hweighs
    exact .cons (hfst _ hitem) (ih hrest)

theorem weighs_group {group : ConversationAdmittedGroup}
    (hgood : ∀ entry ∈ group.entries, GoodEntry entry) (htyp : TypedGroup group)
    (h : groupJson group = .ok document) :
    Weighs document (16 * group.entries.length + 4) (mass (groupFields group)) 4 := by
  obtain ⟨entries, hents, h⟩ := bind_ok.1 h
  cases h
  have harray := weighs_mapM (fun _ => 16) (fun entry => mass (entryFields entry)) hents
    fun entry hent item hitem =>
      weighs_entry (hgood entry hent) (htyp.entries entry hent) hitem
  have hweights := weighs_obj (groupMembers group entries)
    [(1, (bytesOf group.runId).length),
      ((group.entries.map fun _ => 16).sum + 1,
        (group.entries.map fun entry => mass (entryFields entry)).sum), (1, 0)]
    (.cons (weighs_id htyp.runId 3) (.cons harray (.cons (weighs_boolean group.pinned 3) .nil)))
  refine hweights.mono ?_ ?_ (Nat.le_refl 4)
  · simp only [List.map_cons, List.map_nil, List.sum_cons, List.sum_nil, List.map_const',
      List.sum_replicate, smul_eq_mul]
    omega
  · simp only [groupFields, counted, mass_append, mass_cons, mass_nil, mass_flatMap, List.map_cons,
      List.map_nil, List.sum_cons, List.sum_nil]
    omega

theorem weighs_summary {summary : ConversationAdmittedSummary} (hgood : GoodSummary summary)
    (htyp : TypedSummary summary) :
    Weighs (admittedSummaryJson summary) 23 (mass (summaryFields summary)) 3 := by
  have hcand := weighs_obj (candidateMembers summary.candidate)
    [(1, (bytesOf summary.candidate.summaryId).length), (1, 0), (4, 70)]
    (.cons (weighs_id htyp.summaryId 1) (.cons (weighs_number summary.candidate.revision 1)
      (.cons (weighs_digest hgood.candidateDigest 0) .nil)))
  have hweights := weighs_obj (summaryMembers summary)
    [(7, (bytesOf summary.candidate.summaryId).length + (0 + (70 + 0))),
      (1, (bytesOf summary.activationEventId).length), (1, 0), (1, 0),
      (1, (bytesOf summary.entryId).length), (1, (bytesOf summary.messageId).length),
      (4, (bytesOf summary.provenance.sourceId).length +
        (optionalLength summary.provenance.sourceLocation +
          optionalLength summary.provenance.digest)), (1, 0), (1, 0), (4, 70)]
    (.cons hcand (.cons (weighs_id htyp.activationEventId 2)
      (.cons (weighs_number summary.activationSequence 2)
        (.cons (weighs_number summary.sourceAnchorSequence 2) (.cons (weighs_id htyp.entryId 2)
          (.cons (weighs_id htyp.messageId 2)
            (.cons (weighs_provenance hgood.provenance htyp.provenance 1)
              (.cons (weighs_number summary.order 2)
                (.cons (weighs_number summary.estimatedTokens 2)
                  (.cons (weighs_digest hgood.messageDigest 1) .nil))))))))))
  refine hweights.mono (Nat.le_refl 23) ?_ (Nat.le_refl 3)
  have hloc := optionalLength_le summary.provenance.sourceLocation
  have htext := optionalLength_le summary.provenance.digest
  have hdig := mass_digest hgood.messageDigest
  have hmass := mass_digest hgood.candidateDigest
  simp only [summaryFields, mass_append, mass_cons, mass_nil, List.map_cons, List.map_nil,
    List.sum_cons, List.sum_nil]
  omega

theorem weighs_optionalId {id : Option String} (h : ∀ value ∈ id, SessionStore.validId value)
    (depth : ℕ) : Weighs (optionalIdJson id) 1 (optionalLength (id.map bytesOf)) depth := by
  cases id with
  | none => exact weighs_null depth
  | some value => exact weighs_id (h value rfl) depth

/-- What the digest of the omitted groups may cost, in the document and under the seal. -/
def omittedLength (digest : Option ContentDigest) : ℕ := if digest.isSome then 70 else 0

theorem weighs_optionalDigest {digest : Option ContentDigest}
    (h : ∀ value ∈ digest, ShortDigest value) (depth : ℕ) :
    Weighs (optionalDigestJson digest) 4 (omittedLength digest) (depth + 1) := by
  cases digest with
  | none => exact (weighs_null (depth + 1)).mono (by decide) (Nat.le_refl _) (Nat.le_refl _)
  | some value => exact weighs_digest (h value rfl) depth

theorem modeName_short (mode : ConversationMode) :
    (bytesOf (conversationModeName mode)).length ≤ 7 := by
  cases mode <;> decide

/-- The fields that both versions are sealed by cost at least as much as the members that both
versions have, and the digest of the admission itself. -/
theorem sealed_covers (hgood : GoodAdmission admission) :
    (bytesOf admission.sessionId).length + (bytesOf admission.modelId).length +
      optionalLength (admission.policyEventId.map bytesOf) + 7 +
      (admission.groups.map fun group => mass (groupFields group)).sum +
      omittedLength admission.omittedGroupsDigest + 70 +
      (if admission.version = 2 then
        (admission.summaries.map fun summary => mass (summaryFields summary)).sum else 0) ≤
      mass (admissionFields admission) := by
  have hlabel : (bytesOf (if admission.version = 1 then "aiforge.conversation-admission.v1"
      else "aiforge.conversation-admission.v2")).length = 33 := by
    split <;> rfl
  have hpol : optionalLength (admission.policyEventId.map bytesOf) + 3 ≤
      mass (tagged presence (fun id => [bytesOf id]) admission.policyEventId) := by
    have hpos := decimal_pos admission.policyEventId.isSome.toNat
    cases hid : admission.policyEventId with
    | none =>
      rw [hid] at hpos
      simp only [optionalLength, tagged, presence, Option.map_none, Option.getD_none,
        Option.elim_none, mass_cons, mass_nil]
      omega
    | some =>
      rw [hid] at hpos
      simp only [optionalLength, tagged, presence, Option.map_some, Option.getD_some,
        Option.elim_some, mass_cons, mass_nil]
      omega
  have homit : omittedLength admission.omittedGroupsDigest + 3 ≤
      mass (tagged presence Sealing.digestFields admission.omittedGroupsDigest) := by
    have hpos := decimal_pos admission.omittedGroupsDigest.isSome.toNat
    cases hdig : admission.omittedGroupsDigest with
    | none =>
      rw [hdig, Option.isSome_none] at hpos
      simp only [omittedLength, tagged, presence, Option.elim_none, mass_cons, mass_nil,
        Option.isSome_none, Bool.false_eq_true, if_false]
      omega
    | some digest =>
      have hmass := mass_digest (hgood.omittedGroupsDigest digest hdig)
      rw [hdig, Option.isSome_some] at hpos
      simp only [omittedLength, tagged, presence, Option.elim_some, mass_cons,
        Option.isSome_some, if_true]
      omega
  have hsum : (if admission.version = 2 then
      (admission.summaries.map fun summary => mass (summaryFields summary)).sum else 0) ≤
      mass (if admission.version = 2 then counted decimal summaryFields admission.summaries
        else []) := by
    split
    · rw [counted, mass_cons, mass_flatMap]
      omega
    · exact Nat.zero_le _
  -- Every number has a digit, which together with the lengths pays for the mode and the seal.
  have hdigs : ∀ n, 1 ≤ (decimal n).length := decimal_pos
  have hest := hdigs admission.estimatorVersion
  have hsnap := hdigs admission.sourceSnapshotSequence
  have hrev := hdigs admission.policyRevision
  have hmode := hdigs (modeCode admission.mode)
  have hwindow := hdigs admission.capacity.contextWindowTokens
  have hout := hdigs admission.capacity.reservedOutputTokens
  have hinp := hdigs admission.capacity.reservedInputTokens
  have hmand := hdigs admission.mandatoryInputTokens
  have hgrp := hdigs admission.groups.length
  have hcnt := hdigs admission.omittedGroupCount
  have hcount : mass (counted decimal groupFields admission.groups) =
      (decimal admission.groups.length).length + 2 +
        (admission.groups.map fun group => mass (groupFields group)).sum := by
    rw [counted, mass_cons, mass_flatMap]
  simp only [admissionFields, mass_append, mass_cons, mass_nil, hcount, hlabel]
  omega

theorem sum_entries_nodes (groups : List ConversationAdmittedGroup) :
    (groups.map fun group => 16 * group.entries.length + 4).sum =
      16 * (groups.map fun group => group.entries.length).sum + 4 * groups.length := by
  induction groups with
  | nil => rfl
  | cons _ _ ih =>
    simp only [List.map_cons, List.sum_cons, List.length_cons, ih]
    omega

theorem weighs_admission
    {groups : List Json} (hgood : GoodAdmission admission) (htyp : Typed admission)
    (hdig : ShortDigest digest) (hgrp : admission.groups.mapM groupJson = .ok groups) :
    Weighs (obj (admissionMembers admission digest groups ++ summaryMember admission))
      maximumNodes (mass (admissionFields admission)) 6 := by
  have hmode := modeName_short admission.mode
  have hcap := weighs_obj (capacityMembers admission.capacity)
    [(1, 0), (1, 0), (1, 0)]
    (.cons (weighs_number _ 0) (.cons (weighs_number _ 0) (.cons (weighs_number _ 0) .nil)))
  have harray := weighs_mapM (fun group => 16 * group.entries.length + 4)
    (fun group => mass (groupFields group)) hgrp
    fun group hgroup item hitem =>
      weighs_group (hgood.entries group hgroup) (htyp.groups group hgroup) hitem
  have hbase : List.Forall₂ (fun (weight : ℕ × ℕ) (member : Bytes × Json) =>
      Weighs member.2 weight.1 weight.2 5)
      [(1, 0), (1, 0), (1, (bytesOf admission.sessionId).length),
        (1, (bytesOf admission.modelId).length), (1, 0),
        (1, optionalLength (admission.policyEventId.map bytesOf)), (1, 0), (1, 7), (4, 0), (1, 0),
        ((admission.groups.map fun group => 16 * group.entries.length + 4).sum + 1,
          (admission.groups.map fun group => mass (groupFields group)).sum), (1, 0),
        (4, omittedLength admission.omittedGroupsDigest), (4, 70)]
      (admissionMembers admission digest groups) :=
    .cons (weighs_number _ 5) (.cons (weighs_number _ 5) (.cons (weighs_id htyp.sessionId 5)
      (.cons (weighs_id htyp.modelId 5) (.cons (weighs_number _ 5)
        (.cons (weighs_optionalId htyp.policyEventId 5) (.cons (weighs_number _ 5)
          (.cons ((weighs_text (hmode.trans (by decide)) 5).mono (Nat.le_refl 1) hmode
              (Nat.le_refl 5))
            (.cons (hcap.mono (Nat.le_refl 4) (Nat.le_refl 0) (by decide))
              (.cons (weighs_number _ 5) (.cons harray (.cons (weighs_number _ 5)
                (.cons (weighs_optionalDigest hgood.omittedGroupsDigest 4)
                  (.cons (weighs_digest hdig 4) .nil)))))))))))))
  have hsum : List.Forall₂ (fun (weight : ℕ × ℕ) (member : Bytes × Json) =>
      Weighs member.2 weight.1 weight.2 5)
      (if admission.version = 2 then [(23 * admission.summaries.length + 1,
        (admission.summaries.map fun summary => mass (summaryFields summary)).sum)] else [])
      (summaryMember admission) := by
    unfold summaryMember
    split
    · have hwrit : admission.summaries.mapM (fun summary =>
          (.ok (admittedSummaryJson summary) : Result Json)) =
            .ok (admission.summaries.map admittedSummaryJson) := by
        rw [mapM_eq_ok, List.forall₂_map_right_iff, List.forall₂_same]
        exact fun _ _ => rfl
      have hweighs := weighs_mapM (fun _ => 23)
        (fun summary => mass (summaryFields summary)) hwrit
        fun summary hsummary item hitem => by
          cases hitem
          exact weighs_summary (hgood.summaries summary hsummary)
            (htyp.summaries summary hsummary)
      refine .cons (hweighs.mono ?_ (Nat.le_refl _) (by decide)) .nil
      rw [List.map_const', List.sum_replicate, smul_eq_mul]
      omega
    · exact .nil
  refine (weighs_obj _ _ (List.rel_append hbase hsum)).mono ?_ ?_ (Nat.le_refl 6)
  · have hents := hgood.entryCount
    have hgroupCount := hgood.groupCount
    have hsummaryCount := hgood.summaryCount
    simp only [conversationMaximumEntries, conversationMaximumGroups, summaryMaximumActive]
      at hents hgroupCount hsummaryCount
    rw [List.map_append, List.sum_append, sum_entries_nodes]
    simp only [List.map_cons, List.map_nil, List.sum_cons, List.sum_nil, maximumNodes,
      conversationMaximumEntries, conversationMaximumGroups, summaryMaximumActive]
    split
    · simp only [List.map_cons, List.map_nil, List.sum_cons, List.sum_nil]
      omega
    · simp only [List.map_nil, List.sum_nil]
      omega
  · have hcov := sealed_covers hgood
    rw [List.map_append, List.sum_append]
    simp only [List.map_cons, List.map_nil, List.sum_cons, List.sum_nil]
    split
    · rename_i htwo
      rw [if_pos htwo] at hcov
      simp only [List.map_cons, List.map_nil, List.sum_cons, List.sum_nil]
      linarith only [hcov]
    · rename_i hne
      rw [if_neg hne] at hcov
      simp only [List.map_nil, List.sum_nil]
      linarith only [hcov]

theorem shape_of_sealed
    (htyp : Typed admission) (h : conversationAdmissionJson admission = .ok document) :
    checkConversationShape document = .ok () := by
  obtain ⟨hval, h⟩ := guarded h
  obtain ⟨digest, hdig, h⟩ := bind_ok.1 h
  obtain ⟨_, hgrp, h⟩ := bind_ok.1 h
  cases h
  obtain ⟨hshp, hle, hseal⟩ := validate_eq_ok.1 hval
  have hsh : ShortDigest digest := by
    rw [require_ok, hseal] at hdig
    cases hdig
    exact shortDigest_of_valid (validDigest_contentDigest (encoding_pos admission) hle) (by decide)
  have hweighs := weighs_admission (admission_good hshp) htyp hsh hgrp
  refine checkConversationShape_ok.2 ⟨hweighs.nodes, ?_, within_le (by decide) hweighs.depth,
    hweighs.plain⟩
  calc _ ≤ mass (admissionFields admission) := hweighs.bytes
    _ ≤ (encoding admission).length := mass_le _
    _ ≤ conversationMaximumManifestBytes := hle

end ConversationDocument
