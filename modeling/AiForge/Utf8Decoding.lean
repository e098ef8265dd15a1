import Mathlib

/-! # Decoding UTF-8

A reader goes over the bytes of a text by index. Readers differ in how they tell the lead bytes
apart, in where they refuse overlong forms and surrogates and in how they notice a cut sequence.
Every access is checked: `none` on the outside is a read past the end. -/
namespace Utf8Decoding

open List Option

/-- The text encodes characters in the sense of the Unicode standard. -/
def WellFormed (text : List UInt8) : Prop :=
  ∃ characters : List Char, text = characters.flatMap String.utf8EncodeChar

structure Decoded where
  (codepoint bytes : ℕ)

structure Reader where
  /-- The length and the payload that a lead byte above the ASCII range announces. -/
  lead : ℕ → Option (ℕ × ℕ)
  /-- By the size of the text, the index and the length: the sequence is cut off. -/
  truncated : ℕ → ℕ → ℕ → Bool
  /-- By the lead byte: the second byte is refused. -/
  second : ℕ → ℕ → Bool
  /-- By the length: the code point is refused. -/
  refused : ℕ → ℕ → Bool

def byteAt (text : List UInt8) (index : ℕ) : Option ℕ := text[index]?.map UInt8.toNat

namespace Reader

variable (r : Reader) (text : List UInt8)

/-- The loop over the continuation bytes. -/
def follow (index first : ℕ) : ℕ → ℕ → ℕ → Option (Option ℕ)
  | 0, _, codepoint => some (some codepoint)
  | left + 1, offset, codepoint => do
    let next ← byteAt text (index + offset)
    if next / 0x40 ≠ 2 then return none
    if offset = 1 ∧ r.second first next then return none
    follow index first left (offset + 1) (codepoint * 0x40 + next % 0x40)

def decode (index : ℕ) : Option (Option Decoded) := do
  let first ← byteAt text index
  if first ≤ 0x7f then return some ⟨first, 1⟩
  match r.lead first with
  | none => return none
  | some (length, payload) =>
    if r.truncated text.length index length then return none
    match ← r.follow text index first (length - 1) 1 payload with
    | none => return none
    | some codepoint =>
      return if r.refused length codepoint then none else some ⟨codepoint, length⟩

/-- The loop of a validator, which also refuses some first bytes. It does not end when `fuel`
does. -/
def scan (refuses : ℕ → Bool) : ℕ → ℕ → Option Bool
  | 0, index => if index < text.length then none else some true
  | fuel + 1, index =>
    if index < text.length then do
      let first ← byteAt text index
      if refuses first then return false
      match ← r.decode text index with
      | none => return false
      | some decoded => scan refuses fuel (index + decoded.bytes)
    else some true

/-- What makes a reader read UTF-8. -/
structure Standard : Prop where
  cut {size index length : ℕ} (inside : index < size) (some_bytes : 0 < length) :
    r.truncated size index length ↔ size < index + length
  announced {first length payload : ℕ} (h : r.lead first = some (length, payload)) :
    (length = 2 ∧ first = 0xc0 + payload ∧ 2 ≤ payload ∧ payload < 0x20) ∨
      (length = 3 ∧ first = 0xe0 + payload ∧ payload < 0x10) ∨
      (length = 4 ∧ first = 0xf0 + payload ∧ payload < 8)
  two {payload : ℕ} (low : 2 ≤ payload) (high : payload < 0x20) :
    r.lead (0xc0 + payload) = some (2, payload)
  three {payload : ℕ} (high : payload < 0x10) : r.lead (0xe0 + payload) = some (3, payload)
  four {payload : ℕ} (high : payload < 5) : r.lead (0xf0 + payload) = some (4, payload)
  scalar_two {payload next : ℕ} (low : 2 ≤ payload) (high : payload < 0x20) (h : next / 0x40 = 2) :
    r.second (0xc0 + payload) next = false ∧
      r.refused 2 (payload * 0x40 + next % 0x40) = false
  scalar_three {payload next third : ℕ} (high : payload < 0x10) (h : next / 0x40 = 2)
    (hthird : third < 0x40) :
    (r.second (0xe0 + payload) next = false ∧
        r.refused 3 ((payload * 0x40 + next % 0x40) * 0x40 + third) = false) ↔
      0x800 ≤ (payload * 0x40 + next % 0x40) * 0x40 + third ∧
        ((payload * 0x40 + next % 0x40) * 0x40 + third).isValidChar
  scalar_four {payload next third fourth : ℕ} (high : payload < 8) (h : next / 0x40 = 2)
    (hlead : r.lead (0xf0 + payload) = some (4, payload))
    (hthird : third < 0x40) (hfourth : fourth < 0x40) :
    (r.second (0xf0 + payload) next = false ∧
        r.refused 4 (((payload * 0x40 + next % 0x40) * 0x40 + third) * 0x40 + fourth) = false) ↔
      0x10000 ≤ ((payload * 0x40 + next % 0x40) * 0x40 + third) * 0x40 + fourth ∧
        (((payload * 0x40 + next % 0x40) * 0x40 + third) * 0x40 + fourth).isValidChar

end Reader

theorem toNat_lt (c : Char) : c.toNat < 0x110000 := by
  have hc : c.toNat.isValidChar := c.valid
  omega

theorem encode_toNat (c : Char) : (String.utf8EncodeChar c).map UInt8.toNat =
    if c.toNat ≤ 0x7f then [c.toNat]
    else if c.toNat ≤ 0x7ff then [0xc0 + c.toNat / 0x40, 0x80 + c.toNat % 0x40]
    else if c.toNat ≤ 0xffff then
      [0xe0 + c.toNat / 0x1000, 0x80 + c.toNat / 0x40 % 0x40, 0x80 + c.toNat % 0x40]
    else [0xf0 + c.toNat / 0x40000, 0x80 + c.toNat / 0x1000 % 0x40, 0x80 + c.toNat / 0x40 % 0x40,
      0x80 + c.toNat % 0x40] := by
  have hc := toNat_lt c
  unfold String.utf8EncodeChar
  simp only [Char.toNat_val]
  split_ifs <;> simp only [map_cons, map_nil, UInt8.toNat_ofNat', Nat.reducePow,
    List.cons.injEq, and_true] <;> omega

theorem encode_ofNat {value : ℕ} (h : value.isValidChar) :
    (String.utf8EncodeChar (Char.ofNat value)).map UInt8.toNat =
      if value ≤ 0x7f then [value]
      else if value ≤ 0x7ff then [0xc0 + value / 0x40, 0x80 + value % 0x40]
      else if value ≤ 0xffff then
        [0xe0 + value / 0x1000, 0x80 + value / 0x40 % 0x40, 0x80 + value % 0x40]
      else [0xf0 + value / 0x40000, 0x80 + value / 0x1000 % 0x40, 0x80 + value / 0x40 % 0x40,
        0x80 + value % 0x40] := by
  have hval : (Char.ofNat value).toNat = value := by
    rw [Char.ofNat, dif_pos h]
    rfl
  rw [encode_toNat, hval]

variable {c : Char}

/-- A byte in the ASCII range is a character by itself. -/
theorem encode_above {byte : UInt8} (h : byte ∈ String.utf8EncodeChar c) :
    (String.utf8EncodeChar c = [byte] ∧ c.toNat = byte.toNat ∧ byte.toNat ≤ 0x7f) ∨
      (0x7f < c.toNat ∧ 0x7f < byte.toNat) := by
  have hmem : byte.toNat ∈ (String.utf8EncodeChar c).map UInt8.toNat := mem_map_of_mem h
  by_cases hone : c.toNat ≤ 0x7f
  · have henc := encode_toNat c
    rw [if_pos hone] at henc
    obtain ⟨_, hsing, hbyte⟩ := map_eq_singleton_iff.1 henc
    rw [hsing] at h
    obtain rfl := mem_singleton.1 h
    exact .inl ⟨hsing, hbyte.symm, hbyte ▸ hone⟩
  · rw [encode_toNat, if_neg hone] at hmem
    refine .inr ⟨by omega, ?_⟩
    split_ifs at hmem <;> simp only [mem_cons, not_mem_nil, or_false] at hmem <;> omega

def ahead (text : List UInt8) (index : ℕ) : List ℕ := (text.drop index).map UInt8.toNat

variable {first : ℕ} {rest : List ℕ}

theorem ahead_cons {text : List UInt8} {index : ℕ} (h : ahead text index = first :: rest) :
    byteAt text index = some first ∧ ahead text (index + 1) = rest := by
  unfold ahead at h ⊢
  constructor
  · have hhead := congrArg (fun bytes : List ℕ => bytes[0]?) h
    simpa [byteAt] using hhead
  · rw [← tail_drop, map_tail, h, tail_cons]

theorem ahead_lt {text : List UInt8} {index : ℕ} (h : index < text.length) :
    ∃ first rest, ahead text index = first :: rest ∧ first < 0x100 := by
  refine ⟨text[index].toNat, ahead text (index + 1), ?_, UInt8.toNat_lt text[index]⟩
  rw [ahead, drop_eq_getElem_cons h, map_cons, ahead]

abbrev joined (codepoint : ℕ) (others : List ℕ) : ℕ :=
  others.foldl (fun value next => value * 0x40 + next % 0x40) codepoint

namespace Reader

variable {r : Reader} {text : List UInt8} {index : ℕ}

/-- Behind the second byte nothing but the form of a continuation byte is checked. -/
theorem follow_others {offset codepoint : ℕ} {others : List ℕ} (ho : 1 < offset)
    (h : ahead text (index + offset) = others ++ rest) :
    r.follow text index first others.length offset codepoint =
      some (if ∀ next ∈ others, next / 0x40 = 2 then
        some (joined codepoint others) else none) := by
  induction others generalizing offset codepoint with
  | nil => simp [follow]
  | cons next _ ih =>
    obtain ⟨hbyte, htail⟩ := ahead_cons h
    rw [Nat.add_assoc] at htail
    rw [length_cons, follow, hbyte, bind_eq_bind, bind_some,
      if_neg (show ¬ (offset = 1 ∧ _) from fun hone => by omega), ih (by omega) htail]
    by_cases hform : next / 0x40 = 2
    · simp [hform]
    · simp [hform]

theorem decode_ascii (h : byteAt text index = some first) (hfst : first ≤ 0x7f) :
    r.decode text index = some (some ⟨first, 1⟩) := by
  simp [decode, h, hfst]

theorem Standard.decode_sequence (hr : r.Standard) {next payload : ℕ} {l : List ℕ}
    (h : ahead text index = first :: next :: l ++ rest) (habv : 0x7f < first)
    (hlead : r.lead first = some (l.length + 2, payload)) : r.decode text index =
      let codepoint := joined (payload * 0x40 + next % 0x40) l
      some (if (∀ byte ∈ next :: l, byte / 0x40 = 2) ∧ r.second first next = false ∧
        r.refused (l.length + 2) codepoint = false
      then some ⟨codepoint, l.length + 2⟩ else none) := by
  obtain ⟨hfst, htail⟩ := ahead_cons h
  obtain ⟨hnext, hl⟩ := ahead_cons htail
  have hsize : text.length - index = l.length + 2 + rest.length := by
    have hlen := congrArg List.length h
    simp only [ahead, length_map, length_drop, cons_append, length_cons,
      length_append] at hlen
    omega
  have hcut : r.truncated text.length index (l.length + 2) = false := by
    rw [← Bool.not_eq_true, hr.cut (by omega) (by omega)]
    omega
  have hfollow : r.follow text index first (l.length + 1) 1 payload =
      some (if (∀ byte ∈ next :: l, byte / 0x40 = 2) ∧ r.second first next = false then
        some (joined (payload * 0x40 + next % 0x40) l) else none) := by
    have hpost : ahead text (index + (1 + 1)) = l ++ rest := hl
    rw [follow, hnext, bind_eq_bind, bind_some,
      follow_others (by norm_num) hpost]
    by_cases hform : next / 0x40 = 2
    · by_cases hsnd : r.second first next
      · simp [hform, hsnd]
      · simp [hform, hsnd]
    · simp [hform]
  rw [decode, hfst, bind_eq_bind, bind_some, if_neg (by omega), hlead]
  dsimp only
  rw [hcut, if_neg (by simp), Nat.add_sub_cancel_right (l.length + 1) 1, hfollow]
  by_cases hforms : (∀ byte ∈ next :: l, byte / 0x40 = 2) ∧ r.second first next = false
  · rw [if_pos hforms]
    cases href : r.refused (l.length + 2) (joined (payload * 0x40 + next % 0x40) l)
    · rw [if_pos ⟨hforms.1, hforms.2, rfl⟩]
      simp [href]
    · rw [if_neg fun hall => Bool.noConfusion hall.2.2]
      simp [href]
  · rw [if_neg hforms, if_neg fun hall => hforms ⟨hall.1, hall.2.1⟩]
    rfl

theorem Standard.decode_accepts (hr : r.Standard) {next payload value : ℕ}
    {l : List ℕ} (h : ahead text index = first :: next :: l ++ rest)
    (habv : 0x7f < first) (hlead : r.lead first = some (l.length + 2, payload))
    (hforms : ∀ byte ∈ next :: l, byte / 0x40 = 2)
    (hval : joined (payload * 0x40 + next % 0x40) l = value)
    (hscalar : r.second first next = false ∧ r.refused (l.length + 2) value = false) :
    r.decode text index = some (some ⟨value, l.length + 2⟩) := by
  subst hval
  rw [hr.decode_sequence h habv hlead]
  exact congrArg some (if_pos ⟨hforms, hscalar⟩)

theorem Standard.decode_refuses (hr : r.Standard) {next payload : ℕ} {l : List ℕ}
    (h : ahead text index = first :: next :: l ++ rest) (habv : 0x7f < first)
    (hlead : r.lead first = some (l.length + 2, payload)) :
    r.decode text index = some none ∨ (∀ byte ∈ next :: l, byte / 0x40 = 2) ∧
      r.second first next = false ∧ r.refused (l.length + 2)
        (joined (payload * 0x40 + next % 0x40) l) = false := by
  rw [hr.decode_sequence h habv hlead, or_iff_not_imp_right]
  intro hnot
  exact congrArg some (if_neg hnot)

section

variable (hr : r.Standard)

include hr

theorem Standard.decode_encode
    (h : ahead text index = (String.utf8EncodeChar c).map UInt8.toNat ++ rest) :
    r.decode text index = some (some ⟨c.toNat, (String.utf8EncodeChar c).length⟩) := by
  have hlen := congrArg List.length (encode_toNat c)
  have hval : c.toNat.isValidChar := c.valid
  rw [encode_toNat] at h
  rw [length_map] at hlen
  split_ifs at h hlen with hone htwo hthree <;> rw [hlen]
  · exact decode_ascii (ahead_cons h).1 hone
  · have hvalue : c.toNat / 0x40 * 0x40 + (0x80 + c.toNat % 0x40) % 0x40 = c.toNat := by omega
    have hscalar := hr.scalar_two (show 2 ≤ c.toNat / 0x40 by omega) (by omega)
      (show (0x80 + c.toNat % 0x40) / 0x40 = 2 by omega)
    rw [hvalue] at hscalar
    refine hr.decode_accepts (l := []) h (by omega) (hr.two (by omega) (by omega)) ?_ hvalue
      hscalar
    intro byte hbyte
    obtain rfl := mem_singleton.1 hbyte
    omega
  · have hvalue : (c.toNat / 0x1000 * 0x40 + (0x80 + c.toNat / 0x40 % 0x40) % 0x40) * 0x40 +
        c.toNat % 0x40 = c.toNat := by omega
    have hscalar := hr.scalar_three (show c.toNat / 0x1000 < 0x10 by omega)
      (show (0x80 + c.toNat / 0x40 % 0x40) / 0x40 = 2 by omega)
      (show c.toNat % 0x40 < 0x40 by omega)
    rw [hvalue] at hscalar
    refine hr.decode_accepts (l := [0x80 + c.toNat % 0x40]) h (by omega)
      (hr.three (by omega)) ?_ ?_ (hscalar.2 ⟨by omega, hval⟩)
    · simp only [mem_cons, not_mem_nil, or_false, forall_eq_or_imp, forall_eq]
      omega
    · simp only [foldl_cons, foldl_nil]
      omega
  · have hvalue : ((c.toNat / 0x40000 * 0x40 + (0x80 + c.toNat / 0x1000 % 0x40) % 0x40) * 0x40 +
        c.toNat / 0x40 % 0x40) * 0x40 + c.toNat % 0x40 = c.toNat := by omega
    have hlead := hr.four (show c.toNat / 0x40000 < 5 by omega)
    have hscalar := hr.scalar_four (show c.toNat / 0x40000 < 8 by omega)
      (show (0x80 + c.toNat / 0x1000 % 0x40) / 0x40 = 2 by omega) hlead
      (show c.toNat / 0x40 % 0x40 < 0x40 by omega) (show c.toNat % 0x40 < 0x40 by omega)
    rw [hvalue] at hscalar
    refine hr.decode_accepts (l := [0x80 + c.toNat / 0x40 % 0x40, 0x80 + c.toNat % 0x40]) h
      (by omega) hlead ?_ ?_ (hscalar.2 ⟨by omega, hval⟩)
    · simp only [mem_cons, not_mem_nil, or_false, forall_eq_or_imp, forall_eq]
      omega
    · simp only [foldl_cons, foldl_nil]
      omega

/-- What a reader does not refuse starts with the encoding of a character. -/
theorem Standard.decode_cases (h : index < text.length) :
    r.decode text index = some none ∨ ∃ (c : Char) (rest : List ℕ),
      ahead text index = (String.utf8EncodeChar c).map UInt8.toNat ++ rest := by
  obtain ⟨first, rest, hahead, _⟩ := ahead_lt h
  by_cases hascii : first ≤ 0x7f
  · refine .inr ⟨Char.ofNat first, rest, ?_⟩
    rw [encode_ofNat (.inl (by omega)), if_pos hascii]
    exact hahead
  obtain ⟨hfst, _⟩ := ahead_cons hahead
  cases hlead : r.lead first with
  | none => exact .inl (by simp [decode, hfst, hascii, hlead])
  | some announced =>
    obtain ⟨length, payload⟩ := announced
    by_cases hcut : r.truncated text.length index length
    · exact .inl (by simp [decode, hfst, hascii, hlead, hcut])
    have hsize : rest.length + 1 = text.length - index := by
      have hlen := congrArg List.length hahead
      simpa [ahead] using hlen.symm
    rcases hr.announced hlead with ⟨rfl, rfl, _, hhigh⟩ | ⟨rfl, rfl, hhigh⟩ | ⟨rfl, rfl, hhigh⟩
    all_goals rw [hr.cut h (by norm_num)] at hcut
    · rcases rest with _ | ⟨next, rest⟩
      · simp at hsize
        omega
      rcases hr.decode_refuses (l := []) hahead (by omega) hlead with hnone | ⟨hforms, -, -⟩
      · exact .inl hnone
      have hform := hforms next mem_cons_self
      refine .inr ⟨Char.ofNat (payload * 0x40 + next % 0x40), rest, ?_⟩
      rw [encode_ofNat (.inl (by omega)), if_neg (by omega), if_pos (by omega), hahead]
      simp only [cons_append, nil_append, List.cons.injEq, and_true]
      omega
    · rcases rest with _ | ⟨next, _ | ⟨third, rest⟩⟩
      · simp at hsize
        omega
      · simp at hsize
        omega
      rcases hr.decode_refuses (l := [third]) hahead (by omega) hlead with hnone | ⟨hforms, hscalar⟩
      · exact .inl hnone
      have hform := hforms next mem_cons_self
      have hthird := hforms third (by simp)
      obtain ⟨_, hval⟩ := (hr.scalar_three hhigh hform (Nat.mod_lt third (by norm_num))).1
        hscalar
      refine .inr ⟨Char.ofNat ((payload * 0x40 + next % 0x40) * 0x40 + third % 0x40), rest, ?_⟩
      rw [encode_ofNat hval, if_neg (by omega), if_neg (by omega), if_pos (by omega), hahead]
      simp only [cons_append, nil_append, List.cons.injEq, and_true]
      omega
    · rcases rest with _ | ⟨next, _ | ⟨third, _ | ⟨fourth, rest⟩⟩⟩
      · simp at hsize
        omega
      · simp at hsize
        omega
      · simp at hsize
        omega
      rcases hr.decode_refuses (l := [third, fourth]) hahead (by omega) hlead with
        hnone | ⟨hforms, hscalar⟩
      · exact .inl hnone
      have hform := hforms next mem_cons_self
      have hthird := hforms third (by simp)
      have hfourth := hforms fourth (by simp)
      obtain ⟨_, hval⟩ := (hr.scalar_four hhigh hform hlead
        (Nat.mod_lt third (by norm_num)) (Nat.mod_lt fourth (by norm_num))).1 hscalar
      refine .inr ⟨Char.ofNat (((payload * 0x40 + next % 0x40) * 0x40 + third % 0x40) * 0x40 +
        fourth % 0x40), rest, ?_⟩
      rw [encode_ofNat hval, if_neg (by omega), if_neg (by omega), if_neg (by omega), hahead]
      simp only [cons_append, nil_append, List.cons.injEq, and_true]
      omega

/-- All standard readers read the same, and none of them reads past the end. -/
theorem Standard.decode_spec (h : index < text.length) :
    (r.decode text index = some none ∧ ∀ c, ¬ String.utf8EncodeChar c <+: text.drop index) ∨
      ∃ c, String.utf8EncodeChar c <+: text.drop index ∧
        r.decode text index = some (some ⟨c.toNat, (String.utf8EncodeChar c).length⟩) := by
  have hreads : ∀ c, String.utf8EncodeChar c <+: text.drop index →
      r.decode text index = some (some ⟨c.toNat, (String.utf8EncodeChar c).length⟩) := by
    rintro c ⟨rest, hrest⟩
    have hahead : ahead text index =
        (String.utf8EncodeChar c).map UInt8.toNat ++ rest.map UInt8.toNat := by
      rw [ahead, ← hrest, map_append]
    exact hr.decode_encode hahead
  by_cases hbeg : ∃ c, String.utf8EncodeChar c <+: text.drop index
  · obtain ⟨c, hc⟩ := hbeg
    exact .inr ⟨c, hc, hreads c hc⟩
  · refine .inl ⟨?_, fun c hc => hbeg ⟨c, hc⟩⟩
    rcases hr.decode_cases h with hnone | ⟨c, rest, hahead⟩
    · exact hnone
    · obtain ⟨_, others, hdrop, hbs, -⟩ := map_eq_append_iff.1 hahead
      have heq := map_injective_iff.2 (fun _ _ => UInt8.toNat_inj.1) hbs
      exact absurd ⟨c, heq ▸ ⟨others, hdrop.symm⟩⟩ hbeg

theorem Standard.encode_unique {d : Char} {others rest : List UInt8}
    (h : String.utf8EncodeChar c ++ others = String.utf8EncodeChar d ++ rest) :
    c = d ∧ others = rest := by
  have hread : ∀ (e : Char) (behind : List UInt8), r.decode (String.utf8EncodeChar e ++ behind) 0 =
      some (some ⟨e.toNat, (String.utf8EncodeChar e).length⟩) := by
    intro e behind
    have hahead : ahead (String.utf8EncodeChar e ++ behind) 0 =
        (String.utf8EncodeChar e).map UInt8.toNat ++ behind.map UInt8.toNat := by
      rw [ahead, drop_zero, map_append]
    exact hr.decode_encode hahead
  have heq := hread c others
  rw [h, hread d rest] at heq
  simp only [some.injEq, Decoded.mk.injEq] at heq
  obtain rfl : d = c := Char.toNat_inj.1 heq.1
  exact ⟨rfl, append_cancel_left h⟩

/-- The scan ends, reads inside the text and accepts what is well formed and has no refused byte. -/
theorem Standard.scan_from {refuses : ℕ → Bool}
    (hrefuses : ∀ first, 0x7f < first → refuses first = false) {fuel : ℕ}
    (hfuel : text.length - index ≤ fuel) :
    ∃ accepted, r.scan text refuses fuel index = some accepted ∧ (accepted ↔
      WellFormed (text.drop index) ∧ ∀ byte ∈ text.drop index, refuses byte.toNat = false) := by
  induction fuel generalizing index with
  | zero =>
    have hend : ¬ index < text.length := by omega
    refine ⟨true, by rw [scan, if_neg hend], iff_of_true rfl ?_⟩
    rw [drop_eq_nil_of_le (by omega)]
    exact ⟨⟨[], rfl⟩, by simp⟩
  | succ fuel ih =>
    by_cases hin : index < text.length
    swap
    · refine ⟨true, by rw [scan, if_neg hin], iff_of_true rfl ?_⟩
      rw [drop_eq_nil_of_le (by omega)]
      exact ⟨⟨[], rfl⟩, by simp⟩
    have hdrop := drop_eq_getElem_cons hin
    have hbyte : byteAt text index = some text[index].toNat := by simp [byteAt, hin]
    rw [scan, if_pos hin, hbyte, bind_eq_bind, bind_some]
    cases hfst : refuses text[index].toNat with
    | true =>
      refine ⟨false, rfl, iff_of_false nofun fun hall => ?_⟩
      have hquiet := hall.2 text[index] (by rw [hdrop]; exact mem_cons_self)
      rw [hfst] at hquiet
      cases hquiet
    | false =>
      rcases hr.decode_spec hin with ⟨hnone, hbeg⟩ | ⟨c, ⟨rest, hrest⟩, hsome⟩
      · refine ⟨false, by simp [hnone], iff_of_false nofun ?_⟩
        rintro ⟨⟨_ | ⟨c, cs⟩, hcs⟩, -⟩
        · rw [hdrop] at hcs
          cases hcs
        · exact hbeg c ⟨cs.flatMap String.utf8EncodeChar, by rw [hcs, flatMap_cons]⟩
      · have hnext : text.drop (index + (String.utf8EncodeChar c).length) = rest := by
          rw [← drop_drop, ← hrest, drop_left]
        have hpos : 0 < (String.utf8EncodeChar c).length := by
          rw [String.length_utf8EncodeChar]
          exact c.utf8Size_pos
        obtain ⟨accepted, hscan, hiff⟩ :=
          ih (show text.length - (index + (String.utf8EncodeChar c).length) ≤ fuel by omega)
        refine ⟨accepted, by simpa [hsome] using hscan, hiff.trans ?_⟩
        rw [hnext, ← hrest]
        constructor
        · rintro ⟨⟨cs, hcs⟩, hquiet⟩
          refine ⟨⟨c :: cs, by rw [flatMap_cons, hcs]⟩, fun byte hmem => ?_⟩
          rcases mem_append.1 hmem with hmem | hmem
          · rcases encode_above hmem with ⟨hsing, -⟩ | ⟨-, habv⟩
            · have hhead : text[index] = byte := by
                rw [hdrop, hsing] at hrest
                exact (List.cons.inj hrest).1.symm
              rw [← hhead, hfst]
            · exact hrefuses _ habv
          · exact hquiet byte hmem
        · rintro ⟨⟨_ | ⟨_, cs⟩, hcs⟩, hquiet⟩
          · rw [hrest, hdrop] at hcs
            cases hcs
          · rw [flatMap_cons] at hcs
            obtain ⟨-, rfl⟩ := hr.encode_unique hcs
            exact ⟨⟨cs, rfl⟩, fun byte hmem => hquiet byte (mem_append_right _ hmem)⟩

end

end Reader

end Utf8Decoding
