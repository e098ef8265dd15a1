import AiForge.Content
import AiForge.Framing
import AiForge.Sha256

/-! # Seals

A seal hashes a sequence of fields, each behind its decimal length, and gives up once the
encoding passes a bound. A record is sealed field by field; what counts is the list of fields,
since the hash and the number of bytes are those of its netstrings. -/
namespace Sealing

open Content Framing List SafeText

/-- A writer that takes one field after the other. -/
class FieldWriter (ω : Type) where
  field : ω → Bytes → ω

namespace FieldWriter

variable {ω : Type} [FieldWriter ω]

def text (writer : ω) (value : String) : ω := field writer (bytesOf value)

def number (writer : ω) (value : ℕ) : ω := field writer (decimal value)

def digest (writer : ω) (value : ContentDigest) : ω :=
  number (text (text writer value.algorithm) value.value) value.byteSize

def fields (writer : ω) (values : List Bytes) : ω := values.foldl field writer

end FieldWriter

structure Seal where
  hash : Sha256.Hasher := {}
  maximum : ℕ
  bytes : ℕ := 0
  valid : Bool := true

namespace Seal

def field (writer : Seal) (value : Bytes) : Seal :=
  if writer.valid then
    let length := decimal value.length ++ [58]
    if length.length > writer.maximum - writer.bytes ∨
        value.length > writer.maximum - writer.bytes - length.length then
      { writer with valid := false }
    else { writer with
      hash := Sha256.update (Sha256.update writer.hash length) value
      bytes := writer.bytes + (length.length + value.length) }
  else writer

instance : FieldWriter Seal := ⟨field⟩

abbrev text (writer : Seal) (value : String) : Seal := FieldWriter.text writer value

abbrev number (writer : Seal) (value : ℕ) : Seal := FieldWriter.number writer value

abbrev digest (writer : Seal) (value : ContentDigest) : Seal := FieldWriter.digest writer value

def optionalText (writer : Seal) (value : Option Bytes) : Seal :=
  let writer := writer.number value.isSome.toNat
  match value with
  | some value => writer.field value
  | none => writer

/-- `exhausted` is the error of the file the seal belongs to. -/
def finish {ε : Type} (exhausted : ε) (writer : Seal) : Except ε ContentDigest :=
  if writer.valid then .ok ⟨"sha256", Sha256.finish writer.hash, writer.bytes⟩
  else .error exhausted

end Seal

/-- The bytes that a seal hashes for a list of fields. -/
def canonical (fields : List Bytes) : Bytes := fields.flatMap netstring

/-- What a seal answers for bytes within its bound. -/
def contentDigest (encoding : Bytes) : ContentDigest :=
  ⟨"sha256", Sha256.digest encoding, encoding.length⟩

def presence (value : Bool) : Bytes := decimal value.toNat

def digestFields (digest : ContentDigest) : List Bytes :=
  [bytesOf digest.algorithm, bytesOf digest.value, decimal digest.byteSize]

def optionalTextFields (value : Option Bytes) : List Bytes := tagged presence (fun v => [v]) value

namespace FieldWriter

variable {ω : Type} [FieldWriter ω]

theorem text_fields (writer : ω) (value : String) :
    text writer value = fields writer [bytesOf value] := rfl

theorem number_fields (writer : ω) (value : ℕ) :
    number writer value = fields writer [decimal value] := rfl

theorem digest_fields (writer : ω) (value : ContentDigest) :
    digest writer value = fields writer (digestFields value) := rfl

theorem fields_append (writer : ω) (first second : List Bytes) :
    fields (fields writer first) second = fields writer (first ++ second) :=
  (foldl_append ..).symm

theorem elim_fields {α : Type} {writer : ω} {write : α → ω} {encode : α → List Bytes}
    (h : ∀ value, write value = fields writer (encode value)) (value : Option α) :
    value.elim writer write = fields writer (value.elim [] encode) := by
  cases value with
  | none => rfl
  | some value => exact h value

/-- A loop that writes one record after the other writes all their fields in order. -/
theorem foldl_fields {α : Type} {write : ω → α → ω} {encode : α → List Bytes}
    (h : ∀ writer value, write writer value = fields writer (encode value)) (writer : ω)
    (values : List α) : values.foldl write writer = fields writer (values.flatMap encode) := by
  rw [funext₂ h]
  exact foldl_flatMap.symm

/-- What a field keeps of the writer and of the netstrings written so far, all fields keep. -/
theorem fields_keep {Holds : ω → Bytes → Prop}
    (step : ∀ {writer written} value, Holds writer written →
      Holds (field writer value) (written ++ netstring value))
    {writer : ω} {written : Bytes} (h : Holds writer written) (values : List Bytes) :
    Holds (fields writer values) (written ++ canonical values) := by
  induction values generalizing writer written with
  | nil =>
    have hnil : written ++ canonical [] = written := append_nil written
    rwa [hnil]
  | cons value values ih =>
    have hsplit : written ++ canonical (value :: values) =
        (written ++ netstring value) ++ canonical values := by
      rw [canonical, flatMap_cons, append_assoc, ← canonical]
    rw [hsplit]
    exact ih (step value h)

end FieldWriter

namespace Seal

open FieldWriter

variable {writer : Seal} {written : Bytes}

theorem field_fields (writer : Seal) (value : Bytes) : writer.field value = fields writer [value] :=
  rfl

theorem optionalText_fields (writer : Seal) (value : Option Bytes) :
    writer.optionalText value = fields writer (optionalTextFields value) := by
  cases value <;> rfl

/-- The seal has hashed exactly `written`, or it has given up where that passes its bound. -/
structure Holds (maximum : ℕ) (writer : Seal) (written : Bytes) : Prop where
  valid : writer.valid = decide (written.length ≤ maximum)
  hashed : writer.valid → writer = ⟨Sha256.update {} written, maximum, written.length, true⟩

theorem field_holds {maximum : ℕ} (value : Bytes) (h : writer.Holds maximum written) :
    (writer.field value).Holds maximum (written ++ netstring value) := by
  have hlong : (written ++ netstring value).length =
      written.length + ((decimal value.length ++ [58]).length + value.length) := by
    simp only [netstring, length_append, length_cons, length_nil]
    omega
  obtain ⟨hval, hhash⟩ := h
  by_cases hw : writer.valid
  · have hle : written.length ≤ maximum := of_decide_eq_true (hval.symm.trans hw)
    obtain rfl := hhash hw
    by_cases hfit : (written ++ netstring value).length ≤ maximum
    · have hfld : field ⟨Sha256.update {} written, maximum, written.length, true⟩ value =
          ⟨Sha256.update {} (written ++ netstring value), maximum,
            (written ++ netstring value).length, true⟩ := by
        unfold field
        rw [if_pos rfl, if_neg (by dsimp only; omega), hlong]
        simp only [Sha256.update_append, netstring, append_assoc, cons_append, nil_append]
      rw [hfld]
      exact ⟨(decide_eq_true hfit).symm, fun _ => rfl⟩
    · have hfld : (field ⟨Sha256.update {} written, maximum, written.length, true⟩ value).valid =
          false := by
        unfold field
        rw [if_pos rfl, if_pos (by dsimp only; omega)]
      exact ⟨hfld.trans (decide_eq_false hfit).symm, fun h => absurd (hfld.symm.trans h)
        (by decide)⟩
  · have hover : ¬ written.length ≤ maximum := by
      intro hle
      exact hw (hval.trans (decide_eq_true hle))
    have hfld : writer.field value = writer := by
      unfold field
      rw [if_neg hw]
    rw [hfld]
    refine ⟨?_, fun h => absurd h hw⟩
    rw [Bool.eq_false_iff.2 hw, decide_eq_false (by omega)]

/-- A seal answers with the digest of the netstrings of its fields, when they keep its bound. -/
theorem finish_canonical {ε : Type} (exhausted : ε) (maximum : ℕ) (values : List Bytes) :
    (fields ({ maximum := maximum } : Seal) values).finish exhausted =
      if (canonical values).length ≤ maximum then .ok (contentDigest (canonical values))
      else .error exhausted := by
  have hbeg : Holds maximum { maximum := maximum } [] := ⟨rfl, fun _ => rfl⟩
  obtain ⟨hval, hhash⟩ := fields_keep field_holds hbeg values
  rw [nil_append] at hval hhash
  by_cases hfit : (canonical values).length ≤ maximum
  · rw [if_pos hfit, hhash (hval.trans (decide_eq_true hfit))]
    rfl
  · rw [if_neg hfit]
    unfold finish
    rw [hval.trans (decide_eq_false hfit)]
    rfl

end Seal

theorem presence_inj : Function.Injective presence := by
  intro first second h
  have := decimal_injective h
  revert this
  cases first <;> cases second <;> decide

theorem canonical_inj : Function.Injective canonical := netstrings_inj

theorem canonical_pos {fields : List Bytes} (h : fields ≠ []) : 0 < (canonical fields).length := by
  cases fields with
  | nil => exact absurd rfl h
  | cons value =>
    have hpos := length_pos_of_ne_nil (netstring_ne_nil value)
    rw [canonical, flatMap_cons, length_append]
    omega

theorem digestFields_delimited : SelfDelimiting digestFields := by
  rintro ⟨⟩ ⟨⟩ _ _ h
  simp only [digestFields, cons_append, nil_append, List.cons.injEq, bytesOf_inj,
    decimal_inj] at h
  obtain ⟨rfl, rfl, rfl, hr⟩ := h
  exact ⟨rfl, hr⟩

theorem optionalTextFields_delimited : SelfDelimiting optionalTextFields :=
  delimited_tagged presence_inj (delimited_single Function.injective_id)

/-- Records that carry the digest of an encoding of everything else in them. -/
structure Scheme (α : Type*) where
  (shape fits : α → Prop)
  encoding : α → Bytes
  digest : α → Option ContentDigest
  unsealed : α → α
  injective : ∀ {a b}, shape a → shape b → encoding a = encoding b → unsealed a = unsealed b
  encoding_congr : ∀ {a b}, unsealed a = unsealed b → encoding a = encoding b
  ext : ∀ {a b}, unsealed a = unsealed b → digest a = digest b → a = b

def Scheme.Valid {α : Type*} (scheme : Scheme α) (value : α) : Prop :=
  scheme.shape value ∧ scheme.fits value ∧
    scheme.digest value = some (contentDigest (scheme.encoding value))

/-- The seal and the rest of a valid record cannot be changed one without the other. -/
theorem Scheme.not_valid_of_changed {α : Type*} (scheme : Scheme α) {value changed : α}
    (h : scheme.Valid value) (hne : changed ≠ value)
    (hkeep : scheme.digest changed = scheme.digest value ∨
      scheme.unsealed changed = scheme.unsealed value)
    (hfree : Sha256.digest (scheme.encoding changed) = Sha256.digest (scheme.encoding value) →
      scheme.encoding changed = scheme.encoding value) : ¬ scheme.Valid changed := by
  rintro ⟨hshp', -, hdig'⟩
  obtain ⟨hshp, -, hdig⟩ := h
  have hunsealed : scheme.unsealed changed = scheme.unsealed value := by
    rcases hkeep with hd | hu
    · rw [hdig, hdig'] at hd
      have hsame := congrArg ContentDigest.value (Option.some.inj hd)
      exact scheme.injective hshp' hshp (hfree hsame)
    · exact hu
  apply hne
  apply scheme.ext hunsealed
  rw [hdig, hdig', scheme.encoding_congr hunsealed]

end Sealing
