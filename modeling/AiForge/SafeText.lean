import Mathlib

/-! # Safe UTF-8 text

The checks on recorded text read bytes: a text is a list of bytes, decoded one code point
after the other, and a single unsafe control or an ill-formed sequence rejects all of it. -/
namespace SafeText

abbrev Bytes := List UInt8

/-- The bytes of a name that the model keeps as a string. -/
def bytesOf (value : String) : Bytes := value.toUTF8.data.toList

theorem bytesOf_injective : Function.Injective bytesOf := by
  intro first second h
  have hb : first.toUTF8 = second.toUTF8 := ByteArray.ext (Array.toList_inj.1 h)
  exact String.toByteArray_inj.1 hb

theorem bytesOf_inj {first second : String} : bytesOf first = bytesOf second ↔ first = second :=
  bytesOf_injective.eq_iff

theorem fromUTF8_bytesOf (value : String) :
    String.fromUTF8? ⟨(bytesOf value).toArray⟩ = some value := dif_pos value.isValidUTF8

def isUnsafeTextControl (codepoint : ℕ) : Bool :=
  (codepoint ≤ 0x1f && codepoint != 0x0a && codepoint != 0x0d && codepoint != 0x09) ||
  (0x7f ≤ codepoint && codepoint ≤ 0x9f) || codepoint == 0x00ad ||
  (0x0600 ≤ codepoint && codepoint ≤ 0x0605) || codepoint == 0x061c || codepoint == 0x06dd ||
  codepoint == 0x070f || (0x0890 ≤ codepoint && codepoint ≤ 0x0891) || codepoint == 0x08e2 ||
  codepoint == 0x180e || (0x200b ≤ codepoint && codepoint ≤ 0x200f) ||
  (0x202a ≤ codepoint && codepoint ≤ 0x202e) || (0x2060 ≤ codepoint && codepoint ≤ 0x2064) ||
  (0x2066 ≤ codepoint && codepoint ≤ 0x206f) || codepoint == 0xfeff ||
  (0xfff9 ≤ codepoint && codepoint ≤ 0xfffb) || codepoint == 0x110bd || codepoint == 0x110cd ||
  (0x13430 ≤ codepoint && codepoint ≤ 0x1343f) || (0x1bca0 ≤ codepoint && codepoint ≤ 0x1bca3) ||
  (0x1d173 ≤ codepoint && codepoint ≤ 0x1d17a) || codepoint == 0xe0001 ||
  (0xe0020 ≤ codepoint && codepoint ≤ 0xe007f)

structure Utf8Codepoint where
  (value bytes : ℕ)

/-- The payload bits and the length announced by a lead byte above the ASCII range. -/
def leadByte (first : UInt8) : Option Utf8Codepoint :=
  if 0xc2 ≤ first ∧ first ≤ 0xdf then some ⟨first.toNat % 0x20, 2⟩
  else if 0xe0 ≤ first ∧ first ≤ 0xef then some ⟨first.toNat % 0x10, 3⟩
  else if 0xf0 ≤ first ∧ first ≤ 0xf4 then some ⟨first.toNat % 0x08, 4⟩
  else none

def continuation : Bytes → ℕ → Option ℕ
  | [], value => some value
  | next :: rest, value =>
    if next.toNat / 0x40 = 2 then continuation rest (value * 0x40 + next.toNat % 0x40) else none

def decodeUtf8Codepoint (value : Bytes) : Option Utf8Codepoint :=
  match value with
  | [] => none
  | first :: rest =>
    if first ≤ 0x7f then some ⟨first.toNat, 1⟩
    else do
      let lead ← leadByte first
      if lead.bytes > value.length then none
      let decoded ← continuation (rest.take (lead.bytes - 1)) lead.value
      if (lead.bytes = 3 ∧ decoded < 0x800) ∨ (lead.bytes = 4 ∧ decoded < 0x10000) ∨
          (0xd800 ≤ decoded ∧ decoded ≤ 0xdfff) ∨ decoded > 0x10ffff then none
      return ⟨decoded, lead.bytes⟩

/-- The scan of `is_safe_utf8_text`; every step consumes a byte, so the length is enough fuel. -/
def safeScan : ℕ → Bytes → Bool
  | _, [] => true
  | 0, _ :: _ => false
  | fuel + 1, value =>
    match decodeUtf8Codepoint value with
    | none => false
    | some decoded => !isUnsafeTextControl decoded.value && safeScan fuel (value.drop decoded.bytes)

def isSafeUtf8Text (value : Bytes) : Bool := !value.isEmpty && safeScan value.length value

end SafeText
