import Mathlib

/-! # Decimal digit strings

Digit strings of one width compare as strings exactly as the numbers they denote.
Nothing here depends on money: a text is a list of characters, its value the one the
core library reads with `Nat.ofDigitChars`. -/
namespace DecimalDigits

def IsDigit (c : Char) : Prop := '0' ≤ c ∧ c ≤ '9'

instance (c : Char) : Decidable (IsDigit c) := inferInstanceAs (Decidable (_ ∧ _))

def digitValue (c : Char) : ℕ := c.toNat - '0'.toNat

def textValue (text : List Char) : ℕ := Nat.ofDigitChars 10 text 0

variable {c : Char}

theorem digitValue_lt (h : IsDigit c) : digitValue c < 10 := by
  have hu : c.toNat ≤ '9'.toNat := h.2
  have : '9'.toNat = 57 := rfl
  have : '0'.toNat = 48 := rfl
  unfold digitValue
  omega

theorem digitValue_lt_iff {d : Char} (hc : IsDigit c) (_ : IsDigit d) :
    c < d ↔ digitValue c < digitValue d := by
  have hl : '0'.toNat ≤ c.toNat := hc.1
  have h : c < d ↔ c.toNat < d.toNat := Iff.rfl
  rw [h]
  unfold digitValue
  omega

theorem textValue_cons (c : Char) (text : List Char) :
    textValue (c :: text) = 10 ^ text.length * digitValue c + textValue text := by
  unfold textValue digitValue
  rw [Nat.ofDigitChars_cons, Nat.ofDigitChars_eq_ofDigitChars_zero]
  simp

theorem textValue_lt {text : List Char} (h : ∀ c ∈ text, IsDigit c) :
    textValue text < 10 ^ text.length := by
  induction text with
  | nil => simp [textValue]
  | cons c text ih =>
    have hc := digitValue_lt (h c (by simp))
    have ht := ih fun d hd => h d (by simp [hd])
    have hm := Nat.mul_le_mul_left (10 ^ text.length) (show digitValue c + 1 ≤ 10 by omega)
    rw [textValue_cons, List.length_cons, Nat.pow_succ]
    rw [Nat.mul_add, Nat.mul_one] at hm
    omega

/-- Lexicographic order on digit strings of equal length is the order of their values. -/
theorem lt_iff_textValue_lt {left right : List Char} (hl : ∀ c ∈ left, IsDigit c)
    (hr : ∀ c ∈ right, IsDigit c) (hw : left.length = right.length) :
    left < right ↔ textValue left < textValue right := by
  induction left generalizing right with
  | nil =>
    obtain rfl := List.eq_nil_of_length_eq_zero hw.symm
    simp
  | cons c left ih =>
    cases right with
    | nil => simp at hw
    | cons d right =>
      have hlen : left.length = right.length := by simpa using hw
      have hcd : IsDigit c := hl c (by simp)
      have hdd : IsDigit d := hr d (by simp)
      have hls : ∀ e ∈ left, IsDigit e := fun e he => hl e (by simp [he])
      have hrs : ∀ e ∈ right, IsDigit e := fun e he => hr e (by simp [he])
      have hlt := textValue_lt hls
      have hrt := textValue_lt hrs
      have hdigit := digitValue_lt_iff hcd hdd
      rw [textValue_cons, textValue_cons, List.cons_lt_cons_iff, ih hls hrs hlen, hlen] at *
      rcases lt_trichotomy (digitValue c) (digitValue d) with h | h | h
      · have hm := Nat.mul_le_mul_left (10 ^ right.length)
          (show digitValue c + 1 ≤ digitValue d by omega)
        rw [Nat.mul_add, Nat.mul_one] at hm
        exact iff_of_true (.inl (hdigit.2 h)) (by omega)
      · have hne : ¬ c < d := fun hcd' => by have := hdigit.1 hcd'; omega
        have heq : c = d := by
          have hl' : '0'.toNat ≤ c.toNat := hcd.1
          have hr' : '0'.toNat ≤ d.toNat := hdd.1
          apply Char.ext
          apply UInt32.toNat.inj
          change c.toNat = d.toNat
          unfold digitValue at h
          omega
        subst heq
        simp
      · have hm := Nat.mul_le_mul_left (10 ^ right.length)
          (show digitValue d + 1 ≤ digitValue c by omega)
        rw [Nat.mul_add, Nat.mul_one] at hm
        have hne : ¬ c < d := fun hcd' => by have := hdigit.1 hcd'; omega
        have hce : c ≠ d := by rintro rfl; omega
        refine iff_of_false ?_ (by omega)
        rintro (h' | ⟨h', -⟩)
        · exact hne h'
        · exact hce h'

theorem isDigit_toDigits {n : ℕ} (h : c ∈ Nat.toDigits 10 n) : IsDigit c := by
  have hd := Nat.isDigit_of_mem_toDigits (by decide) (by decide) h
  simp only [Char.isDigit, ge_iff_le, Bool.and_eq_true, decide_eq_true_eq] at hd
  exact hd

theorem textValue_toDigits (n : ℕ) : textValue (Nat.toDigits 10 n) = n :=
  Nat.ofDigitChars_ten_toDigits

theorem textValue_append_zeros (text : List Char) (n : ℕ) :
    textValue (text ++ List.replicate n '0') = textValue text * 10 ^ n := by
  unfold textValue
  rw [Nat.ofDigitChars_append, Nat.ofDigitChars_replicate_zero, Nat.mul_comm]

theorem textValue_zeros_append (text : List Char) (n : ℕ) :
    textValue (List.replicate n '0' ++ text) = textValue text := by
  unfold textValue
  rw [Nat.ofDigitChars_append, Nat.ofDigitChars_replicate_zero, Nat.mul_zero]

theorem isDigit_zero : IsDigit '0' := by decide

end DecimalDigits
