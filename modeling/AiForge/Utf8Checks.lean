import AiForge.PlanGraph
import AiForge.RepositoryKnowledge
import AiForge.ReviewReceipt
import AiForge.Utf8Readers
import AiForge.VideoProjection

/-! # The UTF-8 checks of the modules

The projections and the safe texts take a text apart from the front. They agree with the readers
that go over it by index: what is read at an index is the front of what is left there, and the
masks on a lead byte are the quotients and remainders. -/
namespace Utf8Checks

open List SafeText Utf8Decoding Utf8Readers

/-- What stands at the front of a text, by a table of the lead bytes above the ASCII range. -/
def front (lead : ℕ → Option (ℕ × ℕ)) : Bytes → Option Decoded
  | [] => none
  | first :: rest =>
    if first.toNat ≤ 0x7f then some ⟨first.toNat, 1⟩
    else do
      let (length, payload) ← lead first.toNat
      if length > rest.length + 1 then none
      let codepoint ← continuation (rest.take (length - 1)) payload
      if notScalar length codepoint then none else some ⟨codepoint, length⟩

/-- A reader whose rules are all on the result. -/
structure Plain (r : Reader) : Prop where
  truncated : r.truncated = cutOff
  second : ∀ first next, r.second first next = false
  refused : r.refused = notScalar

theorem detail_plain : Plain detail := ⟨rfl, fun _ _ => rfl, rfl⟩

theorem masked_plain : Plain masked := ⟨rfl, fun _ _ => rfl, rfl⟩

section Front

variable {r : Reader} (hr : Plain r) {text : Bytes} {index : ℕ}
include hr

theorem follow_front {first left offset codepoint : ℕ}
    (h : index + offset + left ≤ text.length) :
    r.follow text index first left offset codepoint =
      some (continuation ((text.drop (index + offset)).take left) codepoint) := by
  induction left generalizing offset codepoint with
  | zero => rw [take_zero]; rfl
  | succ left ih =>
    have hin : index + offset < text.length := by omega
    have hbyte : byteAt text (index + offset) = some text[index + offset].toNat := by
      simp [byteAt, hin]
    rw [Reader.follow, hbyte, drop_eq_getElem_cons hin, take_succ_cons, continuation]
    simp only [Option.bind_eq_bind, Option.bind_some, hr.second, Bool.false_eq_true, and_false,
      if_false]
    by_cases hform : text[index + offset].toNat / 0x40 = 2
    · rw [if_neg (not_not.2 hform), if_pos hform, ih (by omega), Nat.add_assoc]
    · rw [if_pos hform, if_neg hform]
      rfl

/-- The reader reads at an index what stands at the front of the text that is left there. -/
theorem decode_front (h : index < text.length) :
    r.decode text index = some (front r.lead (text.drop index)) := by
  have hbyte : byteAt text index = some text[index].toNat := by simp [byteAt, h]
  have hsize : (text.drop (index + 1)).length + 1 = text.length - index := by
    rw [length_drop]
    omega
  rw [Reader.decode, hbyte, drop_eq_getElem_cons h, front]
  simp only [Option.bind_eq_bind, Option.bind_some]
  by_cases hascii : text[index].toNat ≤ 0x7f
  · rw [if_pos hascii, if_pos hascii]
    rfl
  rw [if_neg hascii, if_neg hascii]
  cases hlead : r.lead text[index].toNat with
  | none => rfl
  | some announced =>
    obtain ⟨length, payload⟩ := announced
    simp only [Option.bind_some, hr.truncated, hr.refused, cutOff, hsize, decide_eq_true_eq]
    by_cases hcut : length > text.length - index
    · rw [if_pos hcut, if_pos hcut]
      rfl
    · rw [if_neg hcut, if_neg hcut, follow_front hr (by omega)]
      cases continuation ((text.drop (index + 1)).take (length - 1)) payload with
      | none => rfl
      | some codepoint => rfl

end Front

theorem leadByte_eq (first : UInt8) :
    rangeLead first.toNat = (leadByte first).map fun lead => (lead.bytes, lead.value) := by
  unfold rangeLead leadByte
  simp only [UInt8.le_iff_toNat_le, UInt8.reduceToNat]
  split_ifs <;> rfl

theorem notScalar_eq (length codepoint : ℕ) : notScalar length codepoint =
    decide ((length = 3 ∧ codepoint < 0x800) ∨ (length = 4 ∧ codepoint < 0x10000) ∨
      (0xd800 ≤ codepoint ∧ codepoint ≤ 0xdfff) ∨ codepoint > 0x10ffff) := by
  rw [Bool.eq_iff_iff]
  simp [notScalar, or_assoc]

/-- `decode_utf8_codepoint` on the front of a text. -/
theorem front_range (value : Bytes) : front rangeLead value =
    (decodeUtf8Codepoint value).map fun decoded => ⟨decoded.value, decoded.bytes⟩ := by
  cases value with
  | nil => rfl
  | cons first rest =>
    rw [front, decodeUtf8Codepoint, leadByte_eq]
    have hle : first ≤ 0x7f ↔ first.toNat ≤ 0x7f := UInt8.le_iff_toNat_le
    by_cases hascii : first.toNat ≤ 0x7f
    · rw [if_pos hascii, if_pos (hle.2 hascii)]
      rfl
    rw [if_neg hascii, if_neg fun h => hascii (hle.1 h)]
    cases leadByte first with
    | none => rfl
    | some lead =>
      simp only [Option.map_some, Option.bind_eq_bind, Option.bind_some, length_cons]
      by_cases hcut : lead.bytes > rest.length + 1
      · rw [if_pos hcut, if_pos hcut]
        rfl
      rw [if_neg hcut, if_neg hcut]
      cases continuation (rest.take (lead.bytes - 1)) lead.value with
      | none => rfl
      | some codepoint =>
        simp only [Option.bind_some, notScalar_eq, decide_eq_true_eq]
        split_ifs <;> rfl

/-- The validators' loop on the bytes that are left. -/
def scanFront (lead : ℕ → Option (ℕ × ℕ)) (refuses : ℕ → Bool) : ℕ → Bytes → Bool
  | _, [] => true
  | 0, _ :: _ => false
  | fuel + 1, first :: rest =>
    !refuses first.toNat && (front lead (first :: rest)).any fun decoded =>
      scanFront lead refuses fuel ((first :: rest).drop decoded.bytes)

theorem scan_front {r : Reader} (hr : Plain r) (hstandard : r.Standard) {refuses : ℕ → Bool}
    {text : Bytes} {fuel index : ℕ} (hfuel : text.length - index ≤ fuel) :
    r.scan text refuses fuel index = some (scanFront r.lead refuses fuel (text.drop index)) := by
  induction fuel generalizing index with
  | zero =>
    rw [Reader.scan, if_neg (by omega), drop_eq_nil_of_le (by omega)]
    rfl
  | succ fuel ih =>
    by_cases hin : index < text.length
    swap
    · rw [Reader.scan, if_neg hin, drop_eq_nil_of_le (by omega)]
      rfl
    have hbyte : byteAt text index = some text[index].toNat := by simp [byteAt, hin]
    have hfront := decode_front hr hin
    have hdrop := drop_eq_getElem_cons hin
    rw [Reader.scan, if_pos hin, hbyte, hfront, hdrop, scanFront, ← hdrop]
    simp only [Option.bind_eq_bind, Option.bind_some]
    cases refuses text[index].toNat with
    | true => rfl
    | false =>
      cases hdecoded : front r.lead (text.drop index) with
      | none => rfl
      | some decoded =>
        have hpositive : 0 < decoded.bytes := by
          rw [hdecoded] at hfront
          rcases hstandard.decode_spec hin with ⟨hnone, -⟩ | ⟨c, -, hsome⟩
          · rw [hfront] at hnone
            cases hnone
          · rw [hfront] at hsome
            cases hsome
            rw [String.length_utf8EncodeChar]
            exact c.utf8Size_pos
        have hnext := ih (show text.length - (index + decoded.bytes) ≤ fuel by omega)
        simpa [drop_drop] using hnext

/-- There are 256 bytes to look at. -/
@[elab_as_elim]
theorem byte_cases {motive : UInt8 → Prop} (byte : UInt8)
    (h : ∀ n : Fin 256, motive (UInt8.ofNat n)) : motive byte := by
  have hbyte := h ⟨byte.toNat, byte.toNat_lt⟩
  rwa [UInt8.ofNat_toNat] at hbyte

/-- A lead byte announces itself in the ASCII range. -/
def announced (first : ℕ) : Option (ℕ × ℕ) := if first ≤ 0x7f then some (1, first) else maskLead first

def pair (lead : Utf8Codepoint) : ℕ × ℕ := (lead.bytes, lead.value)

theorem video_lead (first : UInt8) :
    (Video.utf8Lead first).map pair = if first = 0 then none else announced first.toNat :=
  byte_cases first (by decide +kernel)

theorem receipt_lead (first : UInt8) :
    (ReviewReceipt.utf8Lead first).map pair = announced first.toNat :=
  byte_cases first (by decide +kernel)

theorem front_announced {first : UInt8} {rest : Bytes} {lead : Option Utf8Codepoint}
    (h : lead.map pair = announced first.toNat) : front maskLead (first :: rest) =
      lead.bind fun lead => if lead.bytes > rest.length + 1 then none
        else (continuation (rest.take (lead.bytes - 1)) lead.value).bind fun codepoint =>
          if notScalar lead.bytes codepoint then none else some ⟨codepoint, lead.bytes⟩ := by
  rw [front]
  unfold announced at h
  by_cases hascii : first.toNat ≤ 0x7f
  · rw [if_pos hascii] at h ⊢
    obtain ⟨⟨_, _⟩, rfl, hpair⟩ := Option.map_eq_some_iff.1 h
    cases hpair
    have hscalar : notScalar 1 first.toNat = false := notScalar_iff.2 ⟨nofun, nofun, .inl (by omega)⟩
    simp [continuation, hscalar]
  · rw [if_neg hascii] at h ⊢
    rw [← h]
    cases lead with
    | none => rfl
    | some lead =>
      simp only [Option.map_some, Option.bind_eq_bind, Option.bind_some, pair]
      by_cases hcut : lead.bytes > rest.length + 1
      · rw [if_pos hcut, if_pos hcut]
        rfl
      · rw [if_neg hcut, if_neg hcut]

theorem announced_pos {first length payload : ℕ} (h : announced first = some (length, payload)) :
    0 < length := by
  unfold announced maskLead at h
  split_ifs at h <;> cases h <;> omega

/-- One turn of the loop, by a table that has the ASCII range in it. -/
theorem scan_announced {first : UInt8} {rest : Bytes} {lead : Option Utf8Codepoint}
    {refuses : ℕ → Bool} {fuel : ℕ} (h : lead.map pair = announced first.toNat)
    (hquiet : refuses first.toNat = false) :
    scanFront maskLead refuses (fuel + 1) (first :: rest) = lead.any fun lead =>
      decide (lead.bytes ≤ rest.length + 1) &&
        (continuation (rest.take (lead.bytes - 1)) lead.value).any
          (fun codepoint => !notScalar lead.bytes codepoint) &&
        scanFront maskLead refuses fuel (rest.drop (lead.bytes - 1)) := by
  rw [scanFront, front_announced h, hquiet]
  cases lead with
  | none => rfl
  | some lead =>
    have hdrop : (first :: rest).drop lead.bytes = rest.drop (lead.bytes - 1) := by
      have hpos : 0 < lead.bytes := announced_pos h.symm
      rw [show lead.bytes = lead.bytes - 1 + 1 by omega, drop_succ_cons, Nat.add_sub_cancel]
    by_cases hcut : lead.bytes > rest.length + 1
    · simp [hcut, show ¬ lead.bytes ≤ rest.length + 1 by omega]
    have hfits : lead.bytes ≤ rest.length + 1 := by omega
    cases hcont : continuation (rest.take (lead.bytes - 1)) lead.value with
    | none => simp [hcut, hcont]
    | some codepoint =>
      cases href : notScalar lead.bytes codepoint with
      | true => simp [hcut, hcont, href]
      | false => simp [hcut, hcont, href, hdrop, hfits]

theorem video_scan (fuel : ℕ) (value : Bytes) :
    Video.utf8Scan fuel value = scanFront maskLead (· == 0) fuel value := by
  induction fuel generalizing value with
  | zero => cases value <;> rfl
  | succ fuel ih =>
    cases value with
    | nil => rfl
    | cons first rest =>
      have hlead := video_lead first
      by_cases hnul : first = 0
      · subst hnul
        rfl
      have hquiet : (first.toNat == 0) = false :=
        beq_eq_false_iff_ne.2 fun h => hnul (UInt8.toNat_inj.1 h)
      rw [if_neg hnul] at hlead
      rw [Video.utf8Scan, scan_announced hlead hquiet]
      cases Video.utf8Lead first with
      | none => rfl
      | some lead =>
        simp only [ih]
        rfl

theorem receipt_control (first : UInt8) :
    ReviewReceipt.forbiddenControl first = textControl first.toNat :=
  byte_cases first (by decide +kernel)

theorem receipt_scan (fuel : ℕ) (value : Bytes) :
    ReviewReceipt.utf8Scan fuel value = scanFront maskLead textControl fuel value := by
  induction fuel generalizing value with
  | zero => cases value <;> rfl
  | succ fuel ih =>
    cases value with
    | nil => rfl
    | cons first rest =>
      rw [ReviewReceipt.utf8Scan, receipt_control]
      cases hquiet : textControl first.toNat with
      | true => simp [scanFront, hquiet]
      | false =>
        rw [scan_announced (receipt_lead first) hquiet, if_neg Bool.false_ne_true]
        cases ReviewReceipt.utf8Lead first with
        | none => rfl
        | some lead =>
          by_cases hcut : lead.bytes > rest.length + 1
          · simp [hcut, show ¬ lead.bytes ≤ rest.length + 1 by omega]
          have hfits : lead.bytes ≤ rest.length + 1 := by omega
          cases hcont : continuation (rest.take (lead.bytes - 1)) lead.value with
          | none => simp [hcut, hcont]
          | some codepoint =>
            simp only [Option.any_some, hcut, hcont, hfits, notScalar_eq, ih, if_false]
            split_ifs with hbad <;> simp [hbad]

theorem plan_control (first : UInt8) : PlanGraph.isRefusedControl first = textControl first.toNat :=
  byte_cases first (by decide +kernel)

theorem plan_scan (fuel : ℕ) (value : Bytes) :
    PlanGraph.utf8Scan fuel value = scanFront rangeLead textControl fuel value := by
  induction fuel generalizing value with
  | zero => cases value <;> rfl
  | succ fuel ih =>
    cases value with
    | nil => rfl
    | cons first rest =>
      rw [PlanGraph.utf8Scan, scanFront, plan_control, front_range]
      cases decodeUtf8Codepoint (first :: rest) with
      | none => rfl
      | some decoded => simp [ih]

theorem decides_unique {first second : Option Bool} {P : Prop} (h : Decides first P)
    (h' : Decides second P) : first = second := by
  obtain ⟨accepted, rfl, hiff⟩ := h
  obtain ⟨accepted', rfl, hiff'⟩ := h'
  rw [Bool.eq_iff_iff.2 (hiff.trans hiff'.symm)]

theorem decides_some {accepted : Bool} {P : Prop} : Decides (some accepted) P ↔ (accepted ↔ P) := by
  simp [Decides]

/-- The codepoint reader of the safe texts is the one that goes by index. -/
theorem decodeUtf8Codepoint_reads {text : Bytes} {index : ℕ} (h : index < text.length) :
    detail.decode text index = some ((decodeUtf8Codepoint (text.drop index)).map fun decoded =>
      ⟨decoded.value, decoded.bytes⟩) := by
  rw [decode_front detail_plain h]
  exact congrArg some (front_range _)

theorem video_reads (value : Bytes) : videoValidUtf8 value = some (Video.validUtf8 value) := by
  unfold videoValidUtf8 Video.validUtf8
  rw [scan_front masked_plain masked_standard (Nat.sub_le _ _), video_scan, drop_zero]
  rfl

theorem receipt_reads (value : Bytes) (allowEmpty : Bool) :
    knowledgeValidUtf8Text value allowEmpty = some (ReviewReceipt.validUtf8Text value allowEmpty) := by
  unfold knowledgeValidUtf8Text ReviewReceipt.validUtf8Text
  rw [scan_front masked_plain masked_standard (Nat.sub_le _ _), receipt_scan, drop_zero]
  cases allowEmpty <;> cases value <;> rfl

/-- Plans read texts by the codepoint reader and accept the same. -/
theorem plan_reads (value : Bytes) :
    knowledgeValidUtf8Text value true = some (PlanGraph.utf8Scan value.length value) := by
  have hscan := scan_decides detail_standard (fun _ => textControl_above) value
  rw [scan_front detail_plain detail_standard (Nat.sub_le _ _), drop_zero,
    show detail.lead = rangeLead from rfl, ← plan_scan] at hscan
  refine decides_unique (nonempty_decides value true) ?_
  simpa using hscan

theorem knowledge_control (byte : UInt8) :
    (!(byte == 0x7f || (byte < 0x20 && !(bytesOf "\t\n\r").contains byte))) =
      !textControl byte.toNat :=
  byte_cases byte (by decide +kernel)

/-- The knowledge records look for controls behind the reader, which comes to the same. -/
theorem knowledge_reads (value : Bytes) (maximum : ℕ) (allowEmpty : Bool) :
    Knowledge.boundedText value maximum allowEmpty ↔
      value.length ≤ maximum ∧ knowledgeValidUtf8Text value allowEmpty = some true := by
  obtain ⟨accepted, hread, hiff⟩ := nonempty_decides value allowEmpty
  have hvideo : Decides (videoValidUtf8 value)
      (WellFormed value ∧ ∀ byte ∈ value, (byte.toNat == 0) = false) :=
    scan_decides masked_standard (fun first h => beq_eq_false_iff_ne.2 (by omega)) value
  rw [video_reads, decides_some] at hvideo
  have hnul : (∀ byte ∈ value, textControl byte.toNat = false) →
      ∀ byte ∈ value, (byte.toNat == 0) = false := by
    intro hquiet byte hbyte
    have hnot := hquiet byte hbyte
    rw [beq_eq_false_iff_ne]
    intro hzero
    rw [hzero] at hnot
    cases hnot
  unfold Knowledge.boundedText
  simp only [knowledge_control, Bool.and_eq_true, decide_eq_true_eq, Bool.or_eq_true,
    Bool.not_eq_true', List.isEmpty_eq_false_iff, all_eq_true, hread, Option.some.injEq, hvideo,
    hiff]
  constructor
  · rintro ⟨⟨⟨hle, hemp⟩, hwell, -⟩, hquiet⟩
    exact ⟨hle, hemp, hwell, hquiet⟩
  · rintro ⟨hle, hemp, hwell, hquiet⟩
    exact ⟨⟨⟨hle, hemp⟩, hwell, hnul hquiet⟩, hquiet⟩

end Utf8Checks
