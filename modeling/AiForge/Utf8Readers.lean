import AiForge.SafeText
import AiForge.Utf8Decoding

/-! # The UTF-8 readers

Each module of the program reads UTF-8 by itself. A mask on a byte is a quotient or a remainder
here. The sanitizer of untrusted text stands on the reader of the presentation; it fails only
where memory runs out. -/
namespace Utf8Readers
open List SafeText Utf8Decoding

def rangeLead (first : ℕ) : Option (ℕ × ℕ) :=
  if 0xc2 ≤ first ∧ first ≤ 0xdf then some (2, first % 0x20)
  else if 0xe0 ≤ first ∧ first ≤ 0xef then some (3, first % 0x10)
  else if 0xf0 ≤ first ∧ first ≤ 0xf4 then some (4, first % 0x08)
  else none

def maskLead (first : ℕ) : Option (ℕ × ℕ) :=
  if first / 0x20 = 6 then if first % 0x20 < 2 then none else some (2, first % 0x20)
  else if first / 0x10 = 14 then some (3, first % 0x10)
  else if first / 0x08 = 30 then some (4, first % 0x08)
  else none

def cutOff (size index length : ℕ) : Bool := length > size - index

def notScalar (length codepoint : ℕ) : Bool :=
  (length == 3 && codepoint < 0x800) || (length == 4 && codepoint < 0x10000) ||
    (0xd800 ≤ codepoint && codepoint ≤ 0xdfff) || codepoint > 0x10ffff

/-- `decode_utf8_codepoint`. -/
def detail : Reader where
  lead := rangeLead
  truncated := cutOff
  second _ _ := false
  refused := notScalar

/-- `decode` of the presentation text: it looks at the second byte and not at the result. -/
def presentation : Reader where
  lead := rangeLead
  truncated := cutOff
  second first next := (first == 0xe0 && next < 0xa0) || (first == 0xed && next > 0x9f) ||
    (first == 0xf0 && next < 0x90) || (first == 0xf4 && next > 0x8f)
  refused _ _ := false

/-- The body of the validators that tell lead bytes apart by masks. -/
def masked : Reader where
  lead := maskLead
  truncated := cutOff
  second _ _ := false
  refused := notScalar

/-- `valid_utf8` of the configuration counts the continuation bytes. -/
def config : Reader where
  lead := rangeLead
  truncated size index length := index + (length - 1) ≥ size
  second _ _ := false
  refused := notScalar

variable {length payload : ℕ}

theorem rangeLead_announced {first : ℕ} (h : rangeLead first = some (length, payload)) :
    (length = 2 ∧ first = 0xc0 + payload ∧ 2 ≤ payload ∧ payload < 0x20) ∨
      (length = 3 ∧ first = 0xe0 + payload ∧ payload < 0x10) ∨
      (length = 4 ∧ first = 0xf0 + payload ∧ payload < 5) := by
  unfold rangeLead at h
  split_ifs at h <;> cases h <;> omega

theorem rangeLead_two (low : 2 ≤ payload) (high : payload < 0x20) :
    rangeLead (0xc0 + payload) = some (2, payload) := by
  rw [rangeLead, if_pos (by omega), show (0xc0 + payload) % 0x20 = payload by omega]

theorem rangeLead_three (high : payload < 0x10) :
    rangeLead (0xe0 + payload) = some (3, payload) := by
  rw [rangeLead, if_neg (by omega), if_pos (by omega),
    show (0xe0 + payload) % 0x10 = payload by omega]

theorem rangeLead_four (high : payload < 5) : rangeLead (0xf0 + payload) = some (4, payload) := by
  rw [rangeLead, if_neg (by omega), if_neg (by omega), if_pos (by omega),
    show (0xf0 + payload) % 0x08 = payload by omega]

theorem cutOff_iff {size index : ℕ} (inside : index < size) :
    cutOff size index length ↔ size < index + length := by
  rw [cutOff, decide_eq_true_eq]
  omega

theorem notScalar_iff {codepoint : ℕ} : notScalar length codepoint = false ↔
    (length = 3 → 0x800 ≤ codepoint) ∧ (length = 4 → 0x10000 ≤ codepoint) ∧
      codepoint.isValidChar := by
  simp only [notScalar, Bool.or_eq_false_iff, Bool.and_eq_false_imp, beq_iff_eq,
    decide_eq_false_iff_not, decide_eq_true_eq]
  omega

section Scalar

variable {r : Reader} {payload next third fourth : ℕ}

section

variable (hsecond : ∀ first next, r.second first next = false) (hrefused : r.refused = notScalar)

include hsecond hrefused

theorem scalar_three : (r.second (0xe0 + payload) next = false ∧
        r.refused 3 ((payload * 0x40 + next % 0x40) * 0x40 + third) = false) ↔
      0x800 ≤ (payload * 0x40 + next % 0x40) * 0x40 + third ∧
        ((payload * 0x40 + next % 0x40) * 0x40 + third).isValidChar := by
  rw [hrefused, notScalar_iff]
  simp [hsecond]

theorem scalar_four : (r.second (0xf0 + payload) next = false ∧
        r.refused 4 (((payload * 0x40 + next % 0x40) * 0x40 + third) * 0x40 + fourth) = false) ↔
      0x10000 ≤ ((payload * 0x40 + next % 0x40) * 0x40 + third) * 0x40 + fourth ∧
        (((payload * 0x40 + next % 0x40) * 0x40 + third) * 0x40 + fourth).isValidChar := by
  rw [hrefused, notScalar_iff]
  simp [hsecond]

end

theorem scalar_two (low : 2 ≤ payload) (high : payload < 0x20)
    (hsecond : ∀ first next, r.second first next = false) (hrefused : r.refused = notScalar) :
    r.second (0xc0 + payload) next = false ∧
      r.refused 2 (payload * 0x40 + next % 0x40) = false := by
  refine ⟨hsecond _ _, ?_⟩
  rw [hrefused, notScalar_iff]
  exact ⟨nofun, nofun, .inl (by omega)⟩

end Scalar

theorem detail_standard : detail.Standard where
  cut inside _ := cutOff_iff inside
  announced h := (rangeLead_announced h).imp_right
    (Or.imp_right fun h => ⟨h.1, h.2.1, by omega⟩)
  two := rangeLead_two
  three := rangeLead_three
  four := rangeLead_four
  scalar_two low high _ := scalar_two low high (fun _ _ => rfl) rfl
  scalar_three _ _ _ := scalar_three (fun _ _ => rfl) rfl
  scalar_four _ _ _ _ _ := scalar_four (fun _ _ => rfl) rfl

theorem config_standard : config.Standard where
  cut inside some_bytes := by
    simp only [config, ge_iff_le, decide_eq_true_eq]
    omega
  announced := detail_standard.announced
  two := rangeLead_two
  three := rangeLead_three
  four := rangeLead_four
  scalar_two low high _ := scalar_two low high (fun _ _ => rfl) rfl
  scalar_three _ _ _ := scalar_three (fun _ _ => rfl) rfl
  scalar_four _ _ _ _ _ := scalar_four (fun _ _ => rfl) rfl

theorem masked_standard : masked.Standard where
  cut inside _ := cutOff_iff inside
  announced h := by
    dsimp only [masked, maskLead] at h
    split_ifs at h <;> cases h <;> omega
  two low high := by
    dsimp only [masked, maskLead]
    rw [if_pos (by omega), if_neg (by omega)]
    exact congrArg (fun payload => some (2, payload)) (by omega)
  three high := by
    dsimp only [masked, maskLead]
    rw [if_neg (by omega), if_pos (by omega)]
    exact congrArg (fun payload => some (3, payload)) (by omega)
  four high := by
    dsimp only [masked, maskLead]
    rw [if_neg (by omega), if_neg (by omega), if_pos (by omega)]
    exact congrArg (fun payload => some (4, payload)) (by omega)
  scalar_two low high _ := scalar_two low high (fun _ _ => rfl) rfl
  scalar_three _ _ _ := scalar_three (fun _ _ => rfl) rfl
  scalar_four _ _ _ _ _ := scalar_four (fun _ _ => rfl) rfl

/-- The bounds on the second byte say the same as the value they lead to. -/
theorem presentation_standard : presentation.Standard where
  cut inside _ := cutOff_iff inside
  announced := detail_standard.announced
  two := rangeLead_two
  three := rangeLead_three
  four := rangeLead_four
  scalar_two low high h := by
    simp only [presentation, Bool.or_eq_false_iff, Bool.and_eq_false_imp, beq_iff_eq,
      decide_eq_false_iff_not, and_true]
    omega
  scalar_three high h hthird := by
    simp only [presentation, Bool.or_eq_false_iff, Bool.and_eq_false_imp, beq_iff_eq,
      decide_eq_false_iff_not, and_true, Nat.isValidChar]
    omega
  scalar_four high h hlead hthird hfourth := by
    have hfive := (rangeLead_announced hlead).resolve_left (by omega) |>.resolve_left (by omega)
    simp only [presentation, Bool.or_eq_false_iff, Bool.and_eq_false_imp, beq_iff_eq,
      decide_eq_false_iff_not, and_true, Nat.isValidChar]
    omega

/-- A reader iterated over the text, with no rule on control characters. -/
def reads (r : Reader) (text : Bytes) : Option Bool := r.scan text (fun _ => false) text.length 0

def textControl (first : ℕ) : Bool :=
  first == 0 || first == 0x7f ||
    (first < 0x20 && first != 0x09 && first != 0x0a && first != 0x0d)

def lineControl (allowSpace allowTab : Bool) (first : ℕ) : Bool :=
  first == 0 || first == 0x7f || (first < 0x20 && !(allowTab && first == 0x09)) ||
    (!allowSpace && first == 0x20)

/-- `valid_utf8_text` of the repository knowledge. -/
def knowledgeValidUtf8Text (value : Bytes) (allowEmpty : Bool) : Option Bool :=
  if !allowEmpty && value.isEmpty then some false
  else masked.scan value textControl value.length 0

/-- `valid_utf8_text` of the context parcel. -/
def parcelValidUtf8Text (value : Bytes) (allowEmpty : Bool) : Option Bool :=
  if !allowEmpty && value.isEmpty then some false
  else masked.scan value textControl value.length 0

/-- `valid_utf8` of the video requests. -/
def videoValidUtf8 (value : Bytes) : Option Bool := masked.scan value (· == 0) value.length 0

/-- `valid_utf8_text` of the slash commands. -/
def slashValidUtf8Text (value : Bytes) (allowSpace allowTab : Bool) : Option Bool :=
  masked.scan value (lineControl allowSpace allowTab) value.length 0

/-- `valid_utf8` of the configuration. -/
def configValidUtf8 (value : Bytes) : Option Bool := reads config value

/-- The reader comes to an end inside the text and decides `P`. -/
def Decides (result : Option Bool) (P : Prop) : Prop :=
  ∃ accepted, result = some accepted ∧ (accepted ↔ P)

theorem scan_decides {r : Reader} (hr : r.Standard) {refuses : ℕ → Bool}
    (hrefuses : ∀ first, 0x7f < first → refuses first = false) (text : Bytes) :
    Decides (r.scan text refuses text.length 0)
      (WellFormed text ∧ ∀ byte ∈ text, refuses byte.toNat = false) :=
  hr.scan_from hrefuses (Nat.sub_le text.length 0)

theorem reads_decides {r : Reader} (hr : r.Standard) (text : Bytes) :
    Decides (reads r text) (WellFormed text) := by
  obtain ⟨accepted, hres, hiff⟩ := scan_decides hr (fun _ _ => rfl) text
  exact ⟨accepted, hres, hiff.trans (and_iff_left fun _ _ => rfl)⟩

theorem textControl_above {first : ℕ} (h : 0x7f < first) : textControl first = false := by
  simp [textControl, show first ≠ 0 by omega, show first ≠ 0x7f by omega,
    show ¬ first < 0x20 by omega]

theorem nonempty_decides (value : Bytes) (allowEmpty : Bool) :
    Decides (knowledgeValidUtf8Text value allowEmpty) ((allowEmpty ∨ value ≠ []) ∧
      WellFormed value ∧ ∀ byte ∈ value, textControl byte.toNat = false) := by
  unfold knowledgeValidUtf8Text
  split
  · rename_i hemp
    refine ⟨false, rfl, iff_of_false nofun ?_⟩
    simp only [Bool.and_eq_true, Bool.not_eq_true', List.isEmpty_iff] at hemp
    simp [hemp]
  · rename_i hsome
    obtain ⟨accepted, hres, hiff⟩ :=
      scan_decides masked_standard (fun _ => textControl_above) value
    refine ⟨accepted, hres, hiff.trans (and_iff_right ?_).symm⟩
    simpa [or_iff_not_imp_left] using hsome

/-- All readers decide well-formedness, their own rules on control characters and on the empty
text aside, and none of them reads past the end. -/
theorem utf8_readers_agree (text : Bytes) : Decides (reads detail text) (WellFormed text) ∧
      Decides (reads presentation text) (WellFormed text) ∧
      Decides (configValidUtf8 text) (WellFormed text) ∧
      Decides (videoValidUtf8 text) (WellFormed text ∧ ∀ byte ∈ text, (byte.toNat == 0) = false) ∧
      (∀ allowSpace allowTab, Decides (slashValidUtf8Text text allowSpace allowTab)
        (WellFormed text ∧ ∀ byte ∈ text, lineControl allowSpace allowTab byte.toNat = false)) ∧
      ∀ allowEmpty,
        Decides (knowledgeValidUtf8Text text allowEmpty) ((allowEmpty ∨ text ≠ []) ∧
          WellFormed text ∧ ∀ byte ∈ text, textControl byte.toNat = false) ∧
        Decides (parcelValidUtf8Text text allowEmpty) ((allowEmpty ∨ text ≠ []) ∧
          WellFormed text ∧ ∀ byte ∈ text, textControl byte.toNat = false) := by
  refine ⟨reads_decides detail_standard text, reads_decides presentation_standard text,
    reads_decides config_standard text, ?_, ?_, ?_⟩
  · refine scan_decides masked_standard (fun first h => ?_) text
    rw [beq_eq_false_iff_ne]
    omega
  · intro allowSpace allowTab
    refine scan_decides masked_standard (fun first h => ?_) text
    simp only [lineControl, Bool.or_eq_false_iff, Bool.and_eq_false_imp, beq_eq_false_iff_ne,
      decide_eq_true_eq]
    omega
  · exact fun allowEmpty => ⟨nonempty_decides text allowEmpty, nonempty_decides text allowEmpty⟩

/-- The control sequence up to its final byte. -/
def skipControlSequence : Bytes → Bytes
  | [] => []
  | byte :: rest => if 0x40 ≤ byte ∧ byte ≤ 0x7e then rest else skipControlSequence rest

/-- The command up to a bell or a string terminator. -/
def skipCommand : Bytes → Bytes
  | [] => []
  | byte :: rest =>
    if byte = 0x07 then rest
    else if byte = 0x1b ∧ rest.head? = some 0x5c then rest.tail
    else skipCommand rest

/-- `consume_escape`, on what follows the escape byte. -/
def consumeEscape : Bytes → Bytes
  | [] => []
  | byte :: rest =>
    if byte = 0x5b then skipControlSequence rest
    else if byte = 0x5d then skipCommand rest
    else rest

def replacement : Bytes := [0xef, 0xbf, 0xbd]

/-- The loop of the sanitizer, on the bytes that are left. -/
def sanitizeFrom : ℕ → Bytes → Option Bytes
  | _, [] => some []
  | 0, _ :: _ => none
  | fuel + 1, byte :: rest =>
    if byte = 0x1b then sanitizeFrom fuel (consumeEscape rest)
    else if byte = 0x0d then
      (sanitizeFrom fuel (if rest.head? = some 0x0a then rest.tail else rest)).map (0x0a :: ·)
    else if byte ≤ 0x7f then
      if (byte = 0x0a ∨ byte = 0x09 ∨ 0x20 ≤ byte) ∧ byte ≠ 0x7f then
        (sanitizeFrom fuel rest).map (byte :: ·)
      else sanitizeFrom fuel rest
    else do
      match ← presentation.decode (byte :: rest) 0 with
      | none => (sanitizeFrom fuel rest).map (replacement ++ ·)
      | some decoded =>
        let behind := (byte :: rest).drop decoded.bytes
        if decoded.codepoint < 0x80 ∨ (0x80 ≤ decoded.codepoint ∧ decoded.codepoint ≤ 0x9f) then
          sanitizeFrom fuel behind
        else (sanitizeFrom fuel behind).map ((byte :: rest).take decoded.bytes ++ ·)

def sanitizeUntrustedText (text : Bytes) : Option Bytes := sanitizeFrom text.length text

/-- Neither a control of C0 but newline and tab, nor DEL, nor a control of C1. -/
def Shown (c : Char) : Prop :=
  (c.toNat = 0x0a ∨ c.toNat = 0x09 ∨ 0x20 ≤ c.toNat) ∧ ¬ (0x7f ≤ c.toNat ∧ c.toNat ≤ 0x9f)

instance (c : Char) : Decidable (Shown c) := inferInstanceAs (Decidable (_ ∧ _))

def Neutral (text : Bytes) : Prop :=
  ∃ characters : List Char, text = characters.flatMap String.utf8EncodeChar ∧
    ∀ c ∈ characters, Shown c

variable {text rest : Bytes}

theorem Neutral.cons {c : Char} (hc : Shown c) (h : Neutral text) :
    Neutral (String.utf8EncodeChar c ++ text) := by
  obtain ⟨cs, rfl, hall⟩ := h
  refine ⟨c :: cs, rfl, fun d hd => ?_⟩
  rcases mem_cons.1 hd with rfl | hd
  · exact hc
  · exact hall d hd

theorem skipControlSequence_length (text : Bytes) :
    (skipControlSequence text).length ≤ text.length := by
  induction text with
  | nil => exact Nat.le_refl _
  | cons =>
    rw [skipControlSequence, length_cons]
    split <;> omega

theorem skipCommand_length (text : Bytes) : (skipCommand text).length ≤ text.length := by
  induction text with
  | nil => exact Nat.le_refl _
  | cons =>
    rw [skipCommand, length_cons]
    split_ifs
    · omega
    · rw [length_tail]
      omega
    · omega

theorem consumeEscape_length (text : Bytes) : (consumeEscape text).length ≤ text.length := by
  cases text with
  | nil => exact Nat.le_refl _
  | cons _ rest =>
    have hseq := skipControlSequence_length rest
    have hcommand := skipCommand_length rest
    rw [consumeEscape, length_cons]
    split_ifs <;> omega

theorem encode_ascii {byte : UInt8} (h : byte ≤ 0x7f) :
    String.utf8EncodeChar (Char.ofNat byte.toNat) = [byte] ∧
      (Char.ofNat byte.toNat).toNat = byte.toNat := by
  have hle : byte.toNat ≤ 0x7f := UInt8.le_iff_toNat_le.1 h
  have hval : byte.toNat.isValidChar := .inl (by omega)
  have henc := encode_ofNat hval
  rw [if_pos hle] at henc
  obtain ⟨_, hsing, hbyte⟩ := map_eq_singleton_iff.1 henc
  refine ⟨by rw [hsing, UInt8.toNat_inj.1 hbyte], ?_⟩
  rw [Char.ofNat, dif_pos hval]
  rfl

/-- The sanitizer ends, and what it has written is neutral. -/
theorem sanitizeFrom_neutral {fuel : ℕ} (h : text.length ≤ fuel) :
    ∃ output, sanitizeFrom fuel text = some output ∧ Neutral output := by
  have hemp : ∀ fuel, ∃ output, sanitizeFrom fuel [] = some output ∧ Neutral output :=
    fun fuel => ⟨[], by cases fuel <;> rfl, [], rfl, by simp⟩
  induction fuel generalizing text with
  | zero =>
    obtain rfl := eq_nil_of_length_eq_zero (Nat.le_zero.1 h)
    exact hemp 0
  | succ fuel ih =>
    rcases text with _ | ⟨byte, rest⟩
    · exact hemp _
    have hrest : rest.length ≤ fuel := Nat.le_of_succ_le_succ h
    have hwrit : ∀ (c : Char) (behind : Bytes), Shown c → behind.length ≤ fuel →
        ∃ output, (sanitizeFrom fuel behind).map (String.utf8EncodeChar c ++ ·) = some output ∧
          Neutral output := by
      intro c behind hc hlen
      obtain ⟨output, hopt, hneut⟩ := ih hlen
      exact ⟨_, by rw [hopt, Option.map_some], hneut.cons hc⟩
    rw [sanitizeFrom]
    split_ifs with hescape hreturn hline hascii hprint
    · exact ih ((consumeEscape_length rest).trans hrest)
    · refine hwrit '\n' _ (by decide) ?_
      rw [length_tail]
      omega
    · exact hwrit '\n' _ (by decide) hrest
    · obtain ⟨henc, hval⟩ := encode_ascii hascii
      have hshown : Shown (Char.ofNat byte.toNat) := by
        have hne : byte.toNat ≠ 0x7f := fun heq => hprint.2 (UInt8.toNat_inj.1 heq)
        have hle : byte.toNat ≤ 0x7f := UInt8.le_iff_toNat_le.1 hascii
        have hone : byte.toNat = 0x0a ∨ byte.toNat = 0x09 ∨ 0x20 ≤ byte.toNat := by
          refine hprint.1.imp (congrArg UInt8.toNat) (Or.imp (congrArg UInt8.toNat) ?_)
          exact UInt8.le_iff_toNat_le.1
        rw [Shown, hval]
        omega
      have hwritten := hwrit _ rest hshown hrest
      rw [henc] at hwritten
      exact hwritten
    · exact ih hrest
    · have hin : 0 < (byte :: rest).length := Nat.succ_pos _
      rcases presentation_standard.decode_spec hin with
        ⟨hnone, -⟩ | ⟨c, ⟨behind, hpost⟩, hsome⟩
      · rw [hnone]
        exact hwrit (Char.ofNat 0xfffd) rest (by decide) hrest
      · have hpos : 0 < (String.utf8EncodeChar c).length := by
          rw [String.length_utf8EncodeChar]
          exact c.utf8Size_pos
        rw [drop_zero] at hpost
        have hlen : behind.length ≤ fuel := by
          have hsum := congrArg List.length hpost
          rw [length_append, length_cons] at hsum
          omega
        rw [hsome, ← hpost]
        simp only [Option.bind_eq_bind, Option.bind_some, drop_left, take_left]
        split
        · exact ih hlen
        · rename_i hctrl
          refine hwrit c behind ⟨?_, ?_⟩ hlen <;> omega

theorem sanitizeFrom_shown {characters : List Char} (h : ∀ c ∈ characters, Shown c) {fuel : ℕ}
    (hfuel : (characters.flatMap String.utf8EncodeChar).length ≤ fuel) :
    sanitizeFrom fuel (characters.flatMap String.utf8EncodeChar) =
      some (characters.flatMap String.utf8EncodeChar) := by
  induction characters generalizing fuel with
  | nil => cases fuel <;> rfl
  | cons c cs ih =>
    have hc := h c mem_cons_self
    have hcs : ∀ d ∈ cs, Shown d := fun d hd => h d (mem_cons_of_mem _ hd)
    rw [flatMap_cons] at hfuel ⊢
    cases henc : String.utf8EncodeChar c with
    | nil => exact absurd henc (ne_nil_of_length_pos (by
        rw [String.length_utf8EncodeChar]
        exact c.utf8Size_pos))
    | cons byte more =>
      rw [henc, length_append, length_cons] at hfuel
      obtain ⟨fuel, rfl⟩ : ∃ left, fuel = left + 1 := ⟨fuel - 1, by omega⟩
      rw [cons_append, sanitizeFrom]
      have hmem : byte ∈ String.utf8EncodeChar c := henc ▸ mem_cons_self
      rcases encode_above hmem with
        ⟨hsing, hval, hascii⟩ | ⟨_, _⟩
      · obtain rfl : more = [] := by rw [henc] at hsing; exact (List.cons.inj hsing).2
        rw [Shown, hval] at hc
        have hsh : (cs.flatMap String.utf8EncodeChar).length ≤ fuel := by omega
        have hle : byte ≤ 0x7f := UInt8.le_iff_toNat_le.2 hascii
        have hprint : (byte = 0x0a ∨ byte = 0x09 ∨ 0x20 ≤ byte) ∧ byte ≠ 0x7f := by
          refine ⟨hc.1.imp UInt8.toNat_inj.1 (Or.imp UInt8.toNat_inj.1 UInt8.le_iff_toNat_le.2), ?_⟩
          rintro rfl
          exact hc.2 (by decide)
        rw [if_neg (fun heq => by simp [heq] at hc), if_neg (fun heq => by simp [heq] at hc),
          if_pos hle, if_pos hprint, nil_append, ih hcs hsh]
        rfl
      · have hnot : ¬ byte ≤ 0x7f := fun hle => by
          have hbyte : byte.toNat ≤ 0x7f := UInt8.le_iff_toNat_le.1 hle
          omega
        rw [if_neg (show byte ≠ 0x1b by rintro rfl; exact hnot (by decide)),
          if_neg (show byte ≠ 0x0d by rintro rfl; exact hnot (by decide)), if_neg hnot,
          ← cons_append, ← henc]
        have hbeg : String.utf8EncodeChar c <+: (String.utf8EncodeChar c ++
            cs.flatMap String.utf8EncodeChar).drop 0 := prefix_append _ _
        have hin : 0 < (String.utf8EncodeChar c ++
            cs.flatMap String.utf8EncodeChar).length := by simp [henc]
        rcases presentation_standard.decode_spec hin with
          ⟨-, hnone⟩ | ⟨d, ⟨_, hpost⟩, hsome⟩
        · exact absurd hbeg (hnone c)
        · rw [drop_zero] at hpost
          obtain ⟨rfl, rfl⟩ := presentation_standard.encode_unique hpost
          rw [hsome]
          simp only [Option.bind_eq_bind, Option.bind_some, drop_left, take_left]
          rw [if_neg (fun hctrl => by have := hc.2; omega), ih hcs (by omega)]
          rfl

/-- Untrusted text is neutralized, once and for all, and what is neutral stays as it is. -/
theorem untrusted_text_neutralized (text : Bytes) :
    ∃ output, sanitizeUntrustedText text = some output ∧ Neutral output ∧
      sanitizeUntrustedText output = some output ∧ (Neutral text → output = text) := by
  have hkeeps : ∀ text, Neutral text → sanitizeUntrustedText text = some text := by
    rintro _ ⟨_, rfl, hall⟩
    exact sanitizeFrom_shown hall (Nat.le_refl _)
  obtain ⟨output, hoption, hneutral⟩ := sanitizeFrom_neutral (Nat.le_refl text.length)
  refine ⟨output, hoption, hneutral, hkeeps output hneutral, fun htext => ?_⟩
  exact Option.some.inj (hoption.symm.trans (hkeeps text htext))

end Utf8Readers
