import AiForge.Money
import AiForge.Staged

/-! # Reading decimal texts

The grammar of an amount, apart from the code that scans it: which digits a text has, where
its point stands and what its exponent is. Parsing takes a text of the grammar for the number
it denotes, and refuses all but two kinds of it only when no amount has that value. -/
namespace Money

open DecimalDigits List DecimalAmount Except

inductive FractionText : List Char → List Char → Prop
  | none : FractionText [] []
  | some {fraction : List Char} : fraction ≠ [] → (∀ c ∈ fraction, IsDigit c) →
      FractionText ('.' :: fraction) fraction

inductive SignText : List Char → ℤ → Prop
  | none : SignText [] 1
  | plus : SignText ['+'] 1
  | minus : SignText ['-'] (-1)

inductive ExponentText : List Char → ℤ → Prop
  | none : ExponentText [] 0
  | some {mark : Char} {sign digits : List Char} {factor : ℤ} : mark = 'e' ∨ mark = 'E' →
      SignText sign factor → digits ≠ [] → (∀ c ∈ digits, IsDigit c) →
      ExponentText (mark :: (sign ++ digits)) (factor * textValue digits)

/-- Digits on at least one side of a point, which may be left out, and then an exponent. -/
inductive NumberText : List Char → ScannedNumber → Prop
  | intro {whole point fraction tail : List Char} {exponent : ℤ} : (∀ c ∈ whole, IsDigit c) →
      FractionText point fraction → whole ++ fraction ≠ [] → ExponentText tail exponent →
      NumberText (whole ++ (point ++ tail)) ⟨whole ++ fraction, fraction.length, exponent⟩

def ScannedNumber.value (number : ScannedNumber) : ℚ :=
  textValue number.digits / 10 ^ number.fractionDigits * 10 ^ number.exponent

/-- The largest exponent that the exponent loop can reach. -/
def maximumExponent : ℕ := 10009

variable {c : Char} {text digits rest : List Char} {number : ScannedNumber} {exponent : ℤ}

theorem span_digits (hd : ∀ c ∈ digits, IsDigit c) (hr : ∀ c ∈ rest.head?, ¬ IsDigit c) :
    (digits ++ rest).span (fun c => decide (IsDigit c)) = (digits, rest) := by
  have hall : ∀ c ∈ digits, decide (IsDigit c) := fun c hc => decide_eq_true (hd c hc)
  rw [span_eq_takeWhile_dropWhile, takeWhile_append_of_pos hall,
    dropWhile_append_of_pos hall]
  cases rest with
  | nil => simp
  | cons c rest =>
    have hc : ¬ IsDigit c := hr c rfl
    simp [hc]

theorem span_split (text : List Char) :
    (text.span fun c => decide (IsDigit c)).1 ++ (text.span fun c => decide (IsDigit c)).2 =
      text := by
  rw [span_eq_takeWhile_dropWhile]
  exact takeWhile_append_dropWhile

theorem ExponentText.head (h : ExponentText text exponent) :
    ∀ c ∈ text.head?, c = 'e' ∨ c = 'E' := by
  cases h with
  | none => simp
  | some hmark =>
    intro c hc
    cases hc
    exact hmark

theorem not_isDigit_mark (h : c = 'e' ∨ c = 'E') : ¬ IsDigit c := by
  rcases h with rfl | rfl <;> decide

theorem scanFraction_of_text {point fraction tail : List Char} (hf : FractionText point fraction)
    (ht : ExponentText tail exponent) : scanFraction (point ++ tail) = .ok (fraction, tail) := by
  have hhead := ht.head
  cases hf with
  | none =>
    unfold scanFraction
    split
    · rename_i h
      rw [nil_append] at h
      subst h
      exact absurd (hhead '.' rfl) (by decide)
    · rfl
  | some hne hdigs =>
    have hspan := span_digits hdigs fun c hc => not_isDigit_mark (hhead c hc)
    rw [cons_append, scanFraction, hspan]
    simp [hne]

theorem scanFraction_sound {fraction : List Char} (h : scanFraction text = .ok (fraction, rest)) :
    ∃ point, FractionText point fraction ∧ text = point ++ rest := by
  unfold scanFraction at h
  split at h
  · rename_i after
    dsimp only at h
    split at h
    · cases h
    · rename_i hne
      have hsplit := span_split after
      have he := ok.inj h
      rw [he] at hne hsplit
      refine ⟨'.' :: fraction, .some (by simpa using hne) fun c hc => ?_, ?_⟩
      · exact isDigit_of_mem_span (by rw [he]; exact hc)
      · rw [cons_append, hsplit]
  · obtain ⟨rfl, rfl⟩ := Prod.mk.inj (ok.inj h)
    exact ⟨[], .none, rfl⟩

theorem le_ofDigitChars (digits : List Char) (start : ℕ) :
    start ≤ Nat.ofDigitChars 10 digits start := by
  induction digits generalizing start with
  | nil => exact Nat.le_refl start
  | cons c digits ih =>
    rw [Nat.ofDigitChars_cons]
    have := ih (10 * start + (c.toNat - '0'.toNat))
    omega

theorem readExponent_digits (hd : ∀ c ∈ digits, IsDigit c) {start : ℕ}
    (hs : start ≤ maximumExponent) : readExponent digits start =
      if Nat.ofDigitChars 10 digits start ≤ maximumExponent then
        some (((Nat.ofDigitChars 10 digits start : ℕ) : ℤ), [])
      else none := by
  induction digits generalizing start with
  | nil =>
    rw [readExponent, Nat.ofDigitChars_nil, if_pos hs]
  | cons c digits ih =>
    have hc : IsDigit c := hd c (by simp)
    have hlt := digitValue_lt hc
    rw [readExponent, if_pos hc, Nat.ofDigitChars_cons]
    by_cases hbig : start > 1000
    · have hle := le_ofDigitChars digits (10 * start + (c.toNat - '0'.toNat))
      rw [if_pos (by omega), if_neg (by unfold maximumExponent; omega)]
    · have hnext : (start : ℤ) * 10 + digitValue c =
          ((10 * start + (c.toNat - '0'.toNat) : ℕ) : ℤ) := by
        unfold digitValue
        push_cast
        ring
      have hbd : 10 * start + (c.toNat - '0'.toNat) ≤ maximumExponent := by
        unfold maximumExponent
        omega
      rw [if_neg (by omega), hnext]
      exact ih (fun d hd' => hd d (by simp [hd'])) hbd

theorem readExponent_sound {start result : ℤ} (h : readExponent digits start = some (result, rest)) :
    ∃ taken, digits = taken ++ rest ∧ (∀ c ∈ taken, IsDigit c) ∧
      ∀ n : ℕ, start = n → result = Nat.ofDigitChars 10 taken n := by
  induction digits generalizing start with
  | nil =>
    cases h
    exact ⟨[], rfl, by simp, fun n hn => by simpa using hn⟩
  | cons c digits ih =>
    unfold readExponent at h
    split at h
    · rename_i hc
      split at h
      · cases h
      · obtain ⟨taken, rfl, hdigs, hval⟩ := ih h
        refine ⟨c :: taken, rfl, forall_mem_cons.2 ⟨hc, hdigs⟩, ?_⟩
        intro n hn
        rw [Nat.ofDigitChars_cons]
        refine hval _ ?_
        rw [hn]
        unfold digitValue
        push_cast
        ring
    · cases h
      exact ⟨[], rfl, by simp, fun n hn => by simpa using hn⟩

theorem scanSign_of_text {sign : List Char} {factor : ℤ} (hs : SignText sign factor)
    (hd : ∀ c ∈ digits, IsDigit c) : scanSign (sign ++ digits) = (decide (factor < 0), digits) := by
  cases hs with
  | none =>
    rw [nil_append]
    unfold scanSign
    split
    · exact absurd (hd '-' (by simp)) (by decide)
    · exact absurd (hd '+' (by simp)) (by decide)
    · rfl
  | plus | minus => rfl

theorem scanSign_sound {negative : Bool} (h : scanSign text = (negative, rest)) :
    ∃ sign, SignText sign (if negative then -1 else 1) ∧ text = sign ++ rest := by
  unfold scanSign at h
  split at h
  · obtain ⟨rfl, rfl⟩ := Prod.mk.inj h
    exact ⟨['-'], .minus, rfl⟩
  · obtain ⟨rfl, rfl⟩ := Prod.mk.inj h
    exact ⟨['+'], .plus, rfl⟩
  · obtain ⟨rfl, rfl⟩ := Prod.mk.inj h
    exact ⟨[], .none, rfl⟩

theorem scanExponent_of_text (h : ExponentText text exponent) : scanExponent text =
      if exponent.natAbs ≤ maximumExponent then .ok (exponent, [])
      else .error (overflowError "amount exponent is too large") := by
  cases h with
  | none => rfl
  | @some mark sign digits factor hmark hsign hne hdigs =>
    have hread := readExponent_digits hdigs (Nat.zero_le maximumExponent)
    have habs : (factor * (textValue digits : ℤ)).natAbs = textValue digits := by
      cases hsign <;> simp
    have hval : (if factor < 0 then -(textValue digits : ℤ) else textValue digits) =
        factor * textValue digits := by
      cases hsign <;> simp
    have hpos : ¬ ([] : List Char).length = digits.length := fun he =>
      hne (eq_nil_of_length_eq_zero he.symm)
    change readExponent digits 0 =
      if textValue digits ≤ maximumExponent then some ((textValue digits : ℤ), []) else none at hread
    unfold scanExponent
    dsimp only
    rw [if_pos hmark, scanSign_of_text hsign hdigs]
    rw [hread, habs]
    split
    · rename_i hnone
      split at hnone
      · cases hnone
      · rename_i hbig
        rw [if_neg hbig]
    · rename_i hsome
      split at hsome
      · rename_i hle
        obtain ⟨rfl, rfl⟩ := Prod.mk.inj (Option.some.inj hsome)
        rw [if_neg hpos, if_pos hle, ← hval]
        simp only [decide_eq_true_eq]
      · cases hsome

theorem scanExponent_sound (h : scanExponent text = .ok (exponent, rest)) :
    ∃ front, ExponentText front exponent ∧ text = front ++ rest := by
  unfold scanExponent at h
  split at h
  · rename_i mark after
    split at h
    · rename_i hmark
      rcases hsigned : scanSign after with ⟨negative, signed⟩
      obtain ⟨sign, hsign, rfl⟩ := scanSign_sound hsigned
      simp only [hsigned] at h
      split at h
      · cases h
      · rename_i value remaining hread
        split at h
        · cases h
        · rename_i hne
          obtain ⟨rfl, rfl⟩ := Prod.mk.inj (ok.inj h)
          obtain ⟨taken, rfl, hdigs, hval⟩ := readExponent_sound hread
          obtain rfl : value = textValue taken := hval 0 rfl
          have htaken : taken ≠ [] := by
            rintro rfl
            exact hne rfl
          refine ⟨mark :: (sign ++ taken), ?_, by simp⟩
          convert ExponentText.some hmark hsign htaken hdigs using 1
          split <;> simp
    · obtain ⟨rfl, rfl⟩ := Prod.mk.inj (ok.inj h)
      exact ⟨[], .none, rfl⟩
  · obtain ⟨rfl, rfl⟩ := Prod.mk.inj (ok.inj h)
    exact ⟨[], .none, rfl⟩

/-- A text of the grammar is scanned as what it is, but for an exponent the loop refuses. -/
theorem scanNumber_of_text (h : NumberText text number) (hl : text.length ≤ 128) : scanNumber text =
      if number.exponent.natAbs ≤ maximumExponent then .ok number
      else .error (overflowError "amount exponent is too large") := by
  cases h with
  | @intro whole point fraction tail exponent hwhole hfrac hne htail =>
    have hhead : ∀ c ∈ (point ++ tail).head?, ¬ IsDigit c := by
      cases hfrac with
      | none => exact fun c hc => not_isDigit_mark (htail.head c hc)
      | some =>
        intro c hc
        cases hc
        decide
    have htext : (whole ++ (point ++ tail)).isEmpty = false := by
      cases hfrac with
      | none => cases whole <;> simp_all
      | some => simp
    have hdigs : (whole ++ fraction).isEmpty = false := by simpa using hne
    unfold scanNumber
    rw [htext, if_neg (by decide), if_neg (by omega)]
    simp only [span_digits hwhole hhead, scanFraction_of_text hfrac htail, hdigs,
      scanExponent_of_text htail, bind, Except.bind, pure, Except.pure]
    by_cases hle : exponent.natAbs ≤ maximumExponent
    · simp [hle]
    · simp [hle]

theorem scanNumber_sound (h : scanNumber text = .ok number) :
    NumberText text number ∧ text.length ≤ 128 := by
  unfold scanNumber at h
  simp only [bind, Except.bind, throw, throwThe, MonadExceptOf.throw, pure, Except.pure] at h
  repeat' (split at h <;> try cases h)
  rename_i hlen _ fraction hfrac hne _ final hexpo hrest
  obtain ⟨point, hpoint, haft⟩ := scanFraction_sound hfrac
  obtain ⟨front, hfront, htail⟩ := scanExponent_sound hexpo
  have hend : final.2 = [] := by simpa using hrest
  have htext : text = (text.span fun c => decide (IsDigit c)).1 ++ (point ++ front) := by
    conv_lhs => rw [← span_split text, haft, htail, hend, append_nil]
  have hwhole : ∀ c ∈ (text.span fun c => decide (IsDigit c)).1, IsDigit c :=
    fun c hc => isDigit_of_mem_span hc
  have hparts := NumberText.intro hwhole hpoint (by simpa using hne) hfront
  rw [← htext] at hparts
  exact ⟨hparts, Nat.le_of_not_lt hlen⟩

/-- The values an amount can have. -/
def Representable (value : ℚ) : Prop :=
  ∃ coefficient scale : ℕ, coefficient < 2 ^ 64 ∧ scale ≤ 18 ∧ value = coefficient / 10 ^ scale

theorem DecimalAmount.representable (a : DecimalAmount) : Representable a.value :=
  ⟨a.coefficient, a.scale, Nat.lt_of_le_of_lt a.coefficient_le (by decide), a.scale_le, rfl⟩

/-- A numerator without a factor of ten has the smallest scale its value can be written with. -/
theorem scale_least {numerator scale coefficient other : ℕ} (hn : numerator % 10 ≠ 0)
    (h : numerator * 10 ^ other = coefficient * 10 ^ scale) :
    scale ≤ other ∧ numerator ≤ coefficient := by
  have hle : scale ≤ other := by
    by_contra hlt
    obtain ⟨extra, hextra⟩ : ∃ extra, scale = other + (extra + 1) :=
      ⟨scale - other - 1, by omega⟩
    rw [hextra, pow_add, pow_succ, mul_comm numerator] at h
    have hfactor : numerator = coefficient * 10 ^ extra * 10 := by
      apply Nat.eq_of_mul_eq_mul_left (pow_pos (by decide : 0 < 10) other)
      rw [h]
      ring
    omega
  refine ⟨hle, ?_⟩
  have hsplit : 10 ^ other = 10 ^ (other - scale) * 10 ^ scale := by
    rw [← pow_add, Nat.sub_add_cancel hle]
  rw [hsplit, ← mul_assoc] at h
  have hcoef := Nat.eq_of_mul_eq_mul_right (pow_pos (by decide : 0 < 10) scale) h
  rw [← hcoef]
  exact Nat.le_mul_of_pos_right _ (pow_pos (by decide) _)

theorem div_pow_eq_iff {a b s t : ℕ} : (a : ℚ) / 10 ^ s = b / 10 ^ t ↔ a * 10 ^ t = b * 10 ^ s := by
  rw [div_eq_div_iff (by positivity) (by positivity)]
  exact_mod_cast Iff.rfl

/-- Amounts are canonical: one value is written in one way. -/
theorem DecimalAmount.eq_of_value {a b : DecimalAmount} (h : a.value = b.value) : a = b := by
  have heq := div_pow_eq_iff.1 h
  have hab : a.scale ≤ b.scale := by
    rcases a.canonical with hzero | hne
    · omega
    · exact (scale_least hne heq).1
  have hba : b.scale ≤ a.scale := by
    rcases b.canonical with hzero | hne
    · omega
    · exact (scale_least hne heq.symm).1
  have hsc := le_antisymm hab hba
  rw [hsc] at heq
  have hcoef := Nat.eq_of_mul_eq_mul_right (pow_pos (by decide) _) heq
  cases a
  cases b
  subst hsc hcoef
  rfl

theorem readCoefficient_digits (hd : ∀ c ∈ digits, IsDigit c) {start : ℕ} (hs : start ≤ uint64Max) :
    readCoefficient digits start =
      if Nat.ofDigitChars 10 digits start ≤ uint64Max then
        some (Nat.ofDigitChars 10 digits start)
      else none := by
  induction digits generalizing start with
  | nil => rw [readCoefficient, Nat.ofDigitChars_nil, if_pos hs]
  | cons c digits ih =>
    have hlt := digitValue_lt (hd c (by simp))
    have hmax : uint64Max = 2 ^ 64 - 1 := rfl
    have hnext : 10 * start + (c.toNat - '0'.toNat) = start * 10 + digitValue c := by
      unfold digitValue
      omega
    rw [readCoefficient, Nat.ofDigitChars_cons, hnext]
    by_cases hbig : start > (uint64Max - digitValue c) / 10
    · have hle := le_ofDigitChars digits (start * 10 + digitValue c)
      rw [if_pos hbig, if_neg (by omega)]
    · rw [if_neg hbig]
      exact ih (fun d hd' => hd d (by simp [hd'])) (by omega)

/-- What is stripped is zeros, no more of them than there are fractional digits. -/
theorem popTrailingZeros_split (reversed : List Char) (scale : ℤ) :
    ∃ zeros : ℕ, reversed = List.replicate zeros '0' ++ (popTrailingZeros reversed scale).1 ∧
      (popTrailingZeros reversed scale).2 = scale - zeros ∧
      (zeros = 0 ∨ 0 ≤ (popTrailingZeros reversed scale).2) := by
  induction reversed generalizing scale with
  | nil => exact ⟨0, rfl, by simp [popTrailingZeros], .inl rfl⟩
  | cons c reversed ih =>
    unfold popTrailingZeros
    split
    · rename_i hpop
      obtain ⟨zeros, hsplit, hsc, hlow⟩ := ih (scale - 1)
      refine ⟨zeros + 1, ?_, ?_, .inr ?_⟩
      · rw [replicate_succ, cons_append, ← hsplit, hpop.2]
      · rw [hsc]
        push_cast
        ring
      · rcases hlow with hnone | hlow
        · rw [hsc, hnone]
          omega
        · exact hlow
    · exact ⟨0, rfl, by simp, .inl rfl⟩

theorem textValue_append_one (digits : List Char) (c : Char) :
    textValue (digits ++ [c]) = 10 * textValue digits + digitValue c := by
  unfold textValue digitValue
  rw [Nat.ofDigitChars_append, Nat.ofDigitChars_cons, Nat.ofDigitChars_nil]

theorem textValue_ne_zero (hd : ∀ c ∈ digits, IsDigit c) (hz : ∃ c ∈ digits, c ≠ '0') :
    textValue digits ≠ 0 := by
  induction digits with
  | nil => simp at hz
  | cons c digits ih =>
    rw [textValue_cons]
    obtain ⟨hc, hdigs⟩ := forall_mem_cons.1 hd
    by_cases hzero : c = '0'
    · have hrest : ∃ d ∈ digits, d ≠ '0' := by
        obtain ⟨d, hmem, hne⟩ := hz
        rcases mem_cons.1 hmem with rfl | hmem
        · exact absurd hzero hne
        · exact ⟨d, hmem, hne⟩
      have := ih hdigs hrest
      omega
    · have hpos : 0 < 10 ^ digits.length * digitValue c :=
        Nat.mul_pos (pow_pos (by decide) _) (Nat.pos_of_ne_zero (digitValue_ne_zero hc hzero))
      omega

section Stripped

variable (digits) (scale : ℤ)

theorem stripped_value : (textValue digits : ℚ) / 10 ^ scale =
      textValue (popTrailingZeros digits.reverse scale).1.reverse /
        10 ^ (popTrailingZeros digits.reverse scale).2 := by
  obtain ⟨zeros, hsplit, hsc, -⟩ := popTrailingZeros_split digits.reverse scale
  have hdigs : digits =
      (popTrailingZeros digits.reverse scale).1.reverse ++ List.replicate zeros '0' := by
    rw [← reverse_inj, reverse_append, reverse_reverse, reverse_replicate]
    exact hsplit
  have htextValue := congrArg textValue hdigs
  rw [textValue_append_zeros] at htextValue
  rw [htextValue, hsc, zpow_sub₀ (by norm_num), zpow_natCast]
  push_cast
  field_simp

variable {digits}

theorem isDigit_stripped (hd : ∀ c ∈ digits, IsDigit c) :
    ∀ c ∈ (popTrailingZeros digits.reverse scale).1.reverse, IsDigit c := by
  intro c hc
  have hsub := (popTrailingZeros_suffix digits.reverse scale).subset
  exact hd c (mem_reverse.1 (hsub (mem_reverse.1 hc)))

theorem stripped_nonzero (hd : ∀ c ∈ digits, IsDigit c) (hz : ∃ c ∈ digits, c ≠ '0') :
    textValue (popTrailingZeros digits.reverse scale).1.reverse ≠ 0 := by
  intro hzero
  have hval := stripped_value digits scale
  have hpos : (10 : ℚ) ^ scale ≠ 0 := zpow_ne_zero _ (by norm_num)
  rw [hzero, Nat.cast_zero, zero_div, div_eq_zero_iff, or_iff_left hpos, Nat.cast_eq_zero] at hval
  exact textValue_ne_zero hd hz hval

variable {scale}

theorem stripped_mod (hd : ∀ c ∈ digits, IsDigit c) (hz : ∃ c ∈ digits, c ≠ '0')
    (hpos : 0 < (popTrailingZeros digits.reverse scale).2) :
    textValue (popTrailingZeros digits.reverse scale).1.reverse % 10 ≠ 0 := by
  have hdigs := isDigit_stripped scale hd
  have hnonzero := stripped_nonzero scale hd hz
  rcases popTrailingZeros_spec digits.reverse scale with hlow | hhead
  · omega
  · cases hr : (popTrailingZeros digits.reverse scale).1 with
    | nil =>
      rw [hr] at hnonzero
      exact absurd rfl hnonzero
    | cons last reversed =>
      rw [hr] at hdigs
      have hlast : IsDigit last := hdigs last (by simp)
      have hne : last ≠ '0' := hhead last (by rw [hr]; rfl)
      have hlt := digitValue_lt hlast
      rw [reverse_cons, textValue_append_one]
      have := digitValue_ne_zero hlast hne
      omega

/-- Nothing is stripped where there are zeros to append. -/
theorem stripped_negative (hneg : (popTrailingZeros digits.reverse scale).2 < 0) :
    (popTrailingZeros digits.reverse scale).2 = scale ∧
      (popTrailingZeros digits.reverse scale).1.reverse = digits := by
  obtain ⟨zeros, hsplit, hsc, hlow⟩ := popTrailingZeros_split digits.reverse scale
  obtain rfl : zeros = 0 := by omega
  refine ⟨by simpa using hsc, ?_⟩
  rw [replicate_zero, nil_append] at hsplit
  rw [← hsplit, reverse_reverse]

end Stripped

theorem checkedMultiply_none {value multiplier : ℕ} (h : checkedMultiply value multiplier = none) :
    uint64Max < value * multiplier := by
  unfold checkedMultiply at h
  split at h
  · rename_i hover
    exact (Nat.div_lt_iff_lt_mul (Nat.pos_of_ne_zero hover.1)).1 hover.2 |>.trans_eq
      (Nat.mul_comm _ _)
  · cases h

theorem readCoefficient_eq (hd : ∀ c ∈ digits, IsDigit c) : readCoefficient digits 0 =
      if textValue digits ≤ uint64Max then some (textValue digits) else none :=
  readCoefficient_digits hd (Nat.zero_le _)

theorem ofDigits_value {hd : ∀ c ∈ digits, IsDigit c} {hz : ∃ c ∈ digits, c ≠ '0'} {scale : ℤ}
    {a : DecimalAmount} (h : ofDigits digits hd hz scale = .ok a) :
    a.value = textValue digits / 10 ^ scale := by
  have hread := readCoefficient_eq (isDigit_stripped scale hd)
  rw [stripped_value]
  unfold ofDigits at h
  dsimp only at h
  split at h
  · cases h
  split at h
  · cases h
  rename_i coefficient hcoef
  rw [hread] at hcoef
  split at hcoef
  · cases hcoef
    split at h
    · rename_i hneg
      split at h
      · cases h
      split at h
      · cases h
      rename_i product hprod
      cases h
      obtain ⟨rfl, -⟩ := checkedMultiply_some hprod
      have hzeros : (popTrailingZeros digits.reverse scale).2 =
          -((-(popTrailingZeros digits.reverse scale).2).toNat : ℤ) := by omega
      conv_rhs => rw [hzeros]
      rw [zpow_neg, zpow_natCast, div_inv_eq_mul]
      unfold value
      push_cast
      simp
    · rename_i hneg
      cases h
      have hsc : (popTrailingZeros digits.reverse scale).2 =
          ((popTrailingZeros digits.reverse scale).2.toNat : ℤ) := by omega
      conv_rhs => rw [hsc]
      rw [zpow_natCast]
      rfl
  · cases hcoef

/-- Why digits are refused: the bounds of the code that what is left of them may pass. -/
theorem ofDigits_refused {hd : ∀ c ∈ digits, IsDigit c} {hz : ∃ c ∈ digits, c ≠ '0'} {scale : ℤ}
    {err : MoneyError} (h : ofDigits digits hd hz scale = .error err) :
    18 < (popTrailingZeros digits.reverse scale).2 ∨
    uint64Max < textValue (popTrailingZeros digits.reverse scale).1.reverse ∨
    ((popTrailingZeros digits.reverse scale).2 < 0 ∧
      (18 < (-(popTrailingZeros digits.reverse scale).2).toNat ∨
        uint64Max < textValue (popTrailingZeros digits.reverse scale).1.reverse *
          10 ^ (-(popTrailingZeros digits.reverse scale).2).toNat)) := by
  have hread := readCoefficient_eq (isDigit_stripped scale hd)
  unfold ofDigits at h
  dsimp only at h
  split at h
  · rename_i hsc
    exact .inl hsc
  split at h
  · rename_i hnone
    rw [hread] at hnone
    split at hnone
    · cases hnone
    · rename_i hbig
      exact .inr (.inl (Nat.lt_of_not_le hbig))
  rename_i coefficient hcoef
  rw [hread] at hcoef
  split at hcoef
  · cases hcoef
    split at h
    · rename_i hneg
      refine .inr (.inr ⟨hneg, ?_⟩)
      split at h
      · rename_i hzeros
        exact .inl hzeros
      split at h
      · rename_i hnone
        exact .inr (checkedMultiply_none hnone)
      · cases h
    · cases h
  · cases hcoef

theorem representable_ofDigits (hd : ∀ c ∈ digits, IsDigit c) (hz : ∃ c ∈ digits, c ≠ '0')
    {scale : ℤ} (hr : Representable (textValue digits / 10 ^ scale))
    (hten : ¬ (textValue digits = 1 ∧ scale = -19)) : ∃ a, ofDigits digits hd hz scale = .ok a := by
  cases hres : ofDigits digits hd hz scale with
  | ok a => exact ⟨a, rfl⟩
  | error err =>
    exfalso
    obtain ⟨coefficient, other, hcoef, hoth, hval⟩ := hr
    have hnonzero := stripped_nonzero scale hd hz
    have hmod := @stripped_mod digits scale hd hz
    have hneg := @stripped_negative digits scale
    have href := ofDigits_refused hres
    rw [stripped_value] at hval
    generalize (popTrailingZeros digits.reverse scale).2 = left at *
    generalize (popTrailingZeros digits.reverse scale).1.reverse = kept at *
    have hmax : uint64Max = 2 ^ 64 - 1 := rfl
    rcases lt_or_ge 0 left with hpos | hle
    · -- Fractional digits remain, so the scale is the least one and the numerator fits.
      obtain ⟨n, rfl⟩ := Int.eq_ofNat_of_zero_le hpos.le
      have hcross := div_pow_eq_iff.1 (by simpa using hval)
      obtain ⟨hsc, hnumerator⟩ := scale_least (hmod hpos) hcross
      omega
    · -- The value is an integer, which the numerator and the zeros after it make up.
      obtain ⟨n, rfl⟩ : ∃ n : ℕ, left = -n := ⟨(-left).toNat, by omega⟩
      have hinteger : textValue kept * 10 ^ n * 10 ^ other = coefficient := by
        rw [zpow_neg, zpow_natCast, div_inv_eq_mul, eq_div_iff (by positivity)] at hval
        exact_mod_cast hval
      have hprod : textValue kept * 10 ^ n ≤ coefficient := by
        rw [← hinteger]
        exact Nat.le_mul_of_pos_right _ (pow_pos (by decide) _)
      have hkept : textValue kept ≤ textValue kept * 10 ^ n :=
        Nat.le_mul_of_pos_right _ (pow_pos (by decide) _)
      rcases href with hsc | hbig | ⟨hblw, hzeros | hbig⟩
      · omega
      · omega
      · obtain ⟨hsc, rfl⟩ := hneg hblw
        rw [neg_neg, Int.toNat_natCast] at hzeros
        have hpow : 10 ^ n ≤ textValue kept * 10 ^ n :=
          Nat.le_mul_of_pos_left _ (Nat.pos_of_ne_zero hnonzero)
        have hn : n = 19 := by
          by_contra hne
          have : 10 ^ 20 ≤ 10 ^ n := Nat.pow_le_pow_right (by decide) (by omega)
          omega
        subst hn
        exact hten ⟨by omega, by omega⟩
      · rw [neg_neg, Int.toNat_natCast] at hbig
        omega

/-- The guard on the zeros to append forbids nineteen of them, whatever they are appended to. -/
theorem ofDigits_nineteen {hd : ∀ c ∈ digits, IsDigit c} {hz : ∃ c ∈ digits, c ≠ '0'} {scale : ℤ}
    (hsc : scale = -19) (a : DecimalAmount) : ofDigits digits hd hz scale ≠ .ok a := by
  intro h
  obtain ⟨zeros, -, hleft, hlow⟩ := popTrailingZeros_split digits.reverse scale
  have hstripped : (popTrailingZeros digits.reverse scale).2 = -19 := by omega
  unfold ofDigits at h
  dsimp only at h
  split at h
  · cases h
  split at h
  · cases h
  rw [if_pos (by omega), if_pos (by rw [hstripped]; decide)] at h
  cases h

theorem NumberText.isDigit (h : NumberText text number) : ∀ c ∈ number.digits, IsDigit c := by
  cases h with
  | intro hwhole hfrac _ _ =>
    cases hfrac with
    | none => simpa using hwhole
    | some _ hdigs => exact forall_mem_append.2 ⟨hwhole, hdigs⟩

theorem NumberText.lengths (h : NumberText text number) :
    number.digits.length ≤ text.length ∧ number.fractionDigits ≤ text.length := by
  cases h with
  | intro _ hfrac _ _ =>
    cases hfrac <;> simp only [length_append, length_cons, length_nil] <;> omega

theorem textValue_dropWhile (digits : List Char) :
    textValue (digits.dropWhile (· == '0')) = textValue digits := by
  have hzeros : digits.takeWhile (· == '0') =
      List.replicate (digits.takeWhile (· == '0')).length '0' := by
    refine eq_replicate_of_mem fun c hc => ?_
    simpa using mem_takeWhile_imp hc
  conv_rhs => rw [← takeWhile_append_dropWhile (p := (· == '0')) (l := digits), hzeros]
  rw [textValue_zeros_append]

theorem ScannedNumber.value_eq (number : ScannedNumber) :
    number.value = textValue (number.digits.dropWhile (· == '0')) /
      10 ^ ((number.fractionDigits : ℤ) - number.exponent) := by
  unfold ScannedNumber.value
  rw [textValue_dropWhile, zpow_sub₀ (by norm_num), zpow_natCast, div_div_eq_mul_div,
    div_mul_eq_mul_div]

theorem ofText_scanned {a : DecimalAmount} (h : ofText text = .ok a) :
    ∃ number, scanNumber text = .ok number ∧ a.value = number.value := by
  unfold ofText at h
  split at h
  · cases h
  rename_i number hnum
  refine ⟨number, hnum, ?_⟩
  rw [ScannedNumber.value_eq]
  split at h
  · rename_i hnil
    cases h
    rw [hnil, zero_value]
    simp [textValue]
  · exact ofDigits_value h

/-- A text has one reading in the grammar. -/
theorem NumberText.unique {other : ScannedNumber} (h : NumberText text number)
    (hscan : scanNumber text = .ok other) : number = other := by
  have hread := scanNumber_of_text h (scanNumber_sound hscan).2
  rw [hscan] at hread
  split at hread
  · exact (ok.inj hread).symm
  · cases hread

theorem ofText_accepts (h : NumberText text number) (hl : text.length ≤ 128)
    (hexpo : number.exponent.natAbs ≤ maximumExponent) (hr : Representable number.value)
    (hten : ¬ (textValue number.digits = 1 ∧ number.exponent - number.fractionDigits = 19)) :
    ∃ a, ofText text = .ok a := by
  have hscan := scanNumber_of_text h hl
  rw [if_pos hexpo] at hscan
  unfold ofText
  split
  · rename_i hfail
    rw [hscan] at hfail
    cases hfail
  · rename_i found hfnd
    rw [hscan] at hfnd
    cases hfnd
    split
    · exact ⟨zero, rfl⟩
    · rw [ScannedNumber.value_eq] at hr
      refine representable_ofDigits _ _ hr ?_
      rintro ⟨hone, hnineteen⟩
      rw [textValue_dropWhile] at hone
      exact hten ⟨hone, by omega⟩

theorem not_representable_of_exponent (h : NumberText text number) (hl : text.length ≤ 128)
    (hexpo : maximumExponent < number.exponent.natAbs) (hnonzero : textValue number.digits ≠ 0) :
    ¬ Representable number.value := by
  rintro ⟨coefficient, scale, hcoef, hsc, hval⟩
  obtain ⟨hlen, hfrac⟩ := h.lengths
  have hdigs : textValue number.digits < 10 ^ 128 :=
    (textValue_lt h.isDigit).trans_le (Nat.pow_le_pow_right (by decide) (by omega))
  have hpos : 0 < textValue number.digits := Nat.pos_of_ne_zero hnonzero
  have hbig : 10 ^ 200 ≤ 10 ^ number.exponent.natAbs :=
    Nat.pow_le_pow_right (by decide) (le_trans (by decide) hexpo.le)
  unfold ScannedNumber.value at hval
  rcases number.exponent.natAbs_eq with hplus | hminus
  · rw [hplus, zpow_natCast, div_mul_eq_mul_div] at hval
    have hcross : textValue number.digits * 10 ^ number.exponent.natAbs * 10 ^ scale =
        coefficient * 10 ^ number.fractionDigits := by
      refine div_pow_eq_iff.1 ?_
      push_cast
      exact hval
    have hleft : 10 ^ 200 ≤
        textValue number.digits * 10 ^ number.exponent.natAbs * 10 ^ scale :=
      (hbig.trans (Nat.le_mul_of_pos_left _ hpos)).trans
        (Nat.le_mul_of_pos_right _ (pow_pos (by decide) _))
    have hright : coefficient * 10 ^ number.fractionDigits ≤ 2 ^ 64 * 10 ^ 128 :=
      Nat.mul_le_mul hcoef.le (Nat.pow_le_pow_right (by decide) (hfrac.trans hl))
    have hgap : 2 ^ 64 * 10 ^ 128 < 10 ^ 200 := by norm_num
    omega
  · rw [hminus, zpow_neg, zpow_natCast, ← div_eq_mul_inv, div_div, ← pow_add] at hval
    have hcross := div_pow_eq_iff.1 hval
    have hcoefficientpos : 0 < coefficient := by
      refine Nat.pos_of_ne_zero fun hzero => ?_
      rw [hzero, Nat.zero_mul] at hcross
      exact (Nat.mul_pos hpos (pow_pos (by decide) _)).ne' hcross
    have hright : 10 ^ 200 ≤
        coefficient * 10 ^ (number.fractionDigits + number.exponent.natAbs) := by
      rw [pow_add]
      exact (hbig.trans (Nat.le_mul_of_pos_left _ (pow_pos (by decide) _))).trans
        (Nat.le_mul_of_pos_left _ hcoefficientpos)
    have hleft : textValue number.digits * 10 ^ scale ≤ 10 ^ 128 * 10 ^ 18 :=
      Nat.mul_le_mul hdigs.le (Nat.pow_le_pow_right (by decide) hsc)
    have hgap : 10 ^ 128 * 10 ^ 18 < 10 ^ 200 := by norm_num
    omega

/-- The spellings that the limits of the code overlook: a zero behind an exponent that the
loop does not read to its end, and a power of ten with as many zeros as the guard forbids. -/
def Overlooked (number : ScannedNumber) : Prop :=
  textValue number.digits = 0 ∧ maximumExponent < number.exponent.natAbs ∨
  textValue number.digits = 1 ∧ number.exponent - number.fractionDigits = 19

theorem Overlooked.representable (h : Overlooked number) : Representable number.value := by
  unfold ScannedNumber.value
  rcases h with ⟨hzero, -⟩ | ⟨hone, hnineteen⟩
  · rw [hzero]
    exact ⟨0, 0, by decide, by decide, by simp⟩
  · have hexpo : number.exponent = number.fractionDigits + (19 : ℕ) := by omega
    refine ⟨10 ^ 19, 0, by decide, by decide, ?_⟩
    rw [hone, hexpo, zpow_add₀ (by norm_num), zpow_natCast, zpow_natCast]
    push_cast
    field_simp
    norm_num

section

variable (h : NumberText text number) (hl : text.length ≤ 128)

include h hl

theorem Overlooked.refused
    (ho : Overlooked number) (a : DecimalAmount) : ofText text ≠ .ok a := by
  intro hok
  have hscan := scanNumber_of_text h hl
  obtain ⟨found, hfnd, -⟩ := ofText_scanned hok
  obtain rfl := h.unique hfnd
  rcases ho with ⟨-, hexpo⟩ | ⟨hone, hnineteen⟩
  · rw [hfnd, if_neg (by omega)] at hscan
    cases hscan
  · unfold ofText at hok
    split at hok
    · cases hok
    rename_i other hoth
    rw [hfnd] at hoth
    cases hoth
    split at hok
    · rename_i hnil
      have hval := textValue_dropWhile number.digits
      rw [hnil, hone] at hval
      cases hval
    · exact ofDigits_nineteen (by omega) a hok

/-- Apart from the overlooked spellings a text is accepted if and only if some amount has the
value it denotes. -/
theorem ofText_accepts_iff :
    ((ofText text).isOk ↔ Representable number.value) ↔ ¬ Overlooked number := by
  have hsound : (ofText text).isOk → Representable number.value := by
    intro hok
    obtain ⟨a, ha⟩ := Staged.isOk_iff.1 hok
    obtain ⟨found, hscan, hval⟩ := ofText_scanned ha
    rw [h.unique hscan, ← hval]
    exact a.representable
  constructor
  · intro hiff ho
    obtain ⟨a, ha⟩ := Staged.isOk_iff.1 (hiff.2 ho.representable)
    exact ho.refused h hl a ha
  · intro ho
    refine ⟨hsound, fun hr => ?_⟩
    have hexpo : number.exponent.natAbs ≤ maximumExponent := by
      by_contra hbig
      by_cases hzero : textValue number.digits = 0
      · exact ho (.inl ⟨hzero, by omega⟩)
      · exact not_representable_of_exponent h hl (by omega) hzero hr
    obtain ⟨a, ha⟩ := ofText_accepts h hl hexpo hr fun hten => ho (.inr hten)
    exact Staged.isOk_iff.2 ⟨a, ha⟩

/-- Parsing accepts a value however it is spelled, in every spelling that is not overlooked and
in none that is. -/
theorem spelling_accepted :
    (((DecimalAmount.ofText text).isOk ↔ Representable number.value) ↔ ¬ Overlooked number) ∧
    ∀ other spelling, NumberText other spelling → other.length ≤ 128 →
      spelling.value = number.value → ¬ Overlooked number → ¬ Overlooked spelling →
      ((DecimalAmount.ofText text).isOk ↔ (DecimalAmount.ofText other).isOk) := by
  refine ⟨ofText_accepts_iff h hl, ?_⟩
  intro other spelling hother hlength hvalue hnumber hspelling
  have htext := (ofText_accepts_iff h hl).2 hnumber
  have hagain := (ofText_accepts_iff hother hlength).2 hspelling
  rw [hvalue] at hagain
  exact htext.trans hagain.symm

end

theorem isDigit_nineteen : ∀ c ∈ ['1', '9'], IsDigit c :=
  forall_mem_cons.2 ⟨by decide, forall_mem_singleton.2 (by decide)⟩

theorem text_ten : NumberText ['1', 'e', '1', '9'] ⟨['1'], 0, 19⟩ :=
  @NumberText.intro ['1'] [] [] ['e', '1', '9'] 19 (forall_mem_singleton.2 (by decide))
    .none (by decide)
    (@ExponentText.some 'e' [] ['1', '9'] 1 (.inl rfl) .none (by decide) isDigit_nineteen)

theorem text_tens : NumberText ['1', '.', '0', 'e', '1', '9'] ⟨['1', '0'], 1, 19⟩ :=
  @NumberText.intro ['1'] ['.', '0'] ['0'] ['e', '1', '9'] 19
    (forall_mem_singleton.2 (by decide))
    (.some (by decide) (forall_mem_singleton.2 (by decide))) (by decide)
    (@ExponentText.some 'e' [] ['1', '9'] 1 (.inl rfl) .none (by decide) isDigit_nineteen)

theorem spelling_accepted_tens : (((DecimalAmount.ofText ['1', '.', '0', 'e', '1', '9']).isOk ↔
      Representable (ScannedNumber.value ⟨['1', '0'], 1, 19⟩)) ↔
        ¬ Overlooked ⟨['1', '0'], 1, 19⟩) :=
  (spelling_accepted text_tens (by decide)).1

/-- One value in two spellings, of which only the second is accepted. -/
theorem spelling_matters : ¬ ∀ text other number spelling, NumberText text number →
    NumberText other spelling → text.length ≤ 128 → other.length ≤ 128 →
    number.value = spelling.value →
    ((DecimalAmount.ofText text).isOk ↔ (DecimalAmount.ofText other).isOk) := by
  intro h
  have hvalue : ScannedNumber.value ⟨['1'], 0, 19⟩ = ScannedNumber.value ⟨['1', '0'], 1, 19⟩ := by
    have hone : textValue ['1'] = 1 := by decide
    have hten : textValue ['1', '0'] = 10 := by decide
    unfold ScannedNumber.value
    rw [hone, hten]
    norm_num
  have hiff := h _ _ _ _ text_ten text_tens (by decide) (by decide) hvalue
  have hrefused : ¬ (DecimalAmount.ofText ['1', 'e', '1', '9']).isOk := by decide
  have haccepted : (DecimalAmount.ofText ['1', '.', '0', 'e', '1', '9']).isOk := by decide
  exact hrefused (hiff.2 haccepted)

theorem insertPoint_text (hd : ∀ c ∈ digits, IsDigit c) (hne : digits ≠ []) (scale : ℕ) :
    ∃ number, NumberText (insertPoint digits scale) number ∧ number.exponent = 0 ∧
      number.value = textValue digits / 10 ^ scale := by
  by_cases hs : scale = 0
  · refine ⟨⟨digits ++ [], 0, 0⟩, ?_, rfl, ?_⟩
    · have htext := NumberText.intro hd .none (by simpa using hne) .none
      rw [append_nil, append_nil] at htext
      rw [insertPoint, if_pos hs, append_nil]
      simpa using htext
    · simp [ScannedNumber.value, hs]
  · generalize hpad : (if digits.length ≤ scale then leftPad digits (scale + 1) else digits) =
      padded
    have hval : textValue padded = textValue digits := by
      rw [← hpad]
      split
      · exact textValue_zeros_append digits _
      · rfl
    have hdigs : ∀ c ∈ padded, IsDigit c := by
      rw [← hpad]
      split
      · exact fun c hc => isDigit_leftPad hd hc
      · exact hd
    have hlen : scale < padded.length := by
      rw [← hpad]
      split
      · rw [length_leftPad (by omega)]
        omega
      · omega
    have hparts := take_append_drop (padded.length - scale) padded
    have hdrop : (padded.drop (padded.length - scale)).length = scale := by
      rw [length_drop]
      omega
    refine ⟨⟨padded.take (padded.length - scale) ++ padded.drop (padded.length - scale),
      (padded.drop (padded.length - scale)).length, 0⟩, ?_, rfl, ?_⟩
    · rw [insertPoint, if_neg hs]
      dsimp only
      rw [hpad, ← append_nil ('.' :: _)]
      refine .intro (fun c hc => hdigs c (mem_of_mem_take hc))
        (.some ?_ fun c hc => hdigs c (mem_of_mem_drop hc)) ?_ .none
      · exact ne_nil_of_length_pos (by omega)
      · rw [hparts]
        exact ne_nil_of_length_pos (by omega)
    · simp only [ScannedNumber.value, hparts, hdrop, hval, zpow_zero, mul_one]

theorem insertPoint_length (digits : List Char) (scale : ℕ) :
    (insertPoint digits scale).length ≤ max digits.length (scale + 1) + 1 := by
  unfold insertPoint
  split
  · omega
  · split
    · rename_i hsh
      simp only [length_append, length_cons, length_take, length_drop,
        length_leftPad (Nat.le_succ_of_le hsh)]
      omega
    · simp only [length_append, length_cons, length_take, length_drop]
      omega

/-- A numeral with a point put into it is read as the amount of that value, if there is one. -/
theorem ofText_insertPoint (hd : ∀ c ∈ digits, IsDigit c) (hne : digits ≠ []) {scale : ℕ}
    (hlen : digits.length < 128) (hsc : scale < 127) {a : DecimalAmount} :
    ofText (insertPoint digits scale) = .ok a ↔
      a.value = textValue digits / 10 ^ scale := by
  obtain ⟨number, htext, hexpo, hval⟩ := insertPoint_text hd hne scale
  have hbd := insertPoint_length digits scale
  have hread {b : DecimalAmount} (h : ofText (insertPoint digits scale) = .ok b) :
      b.value = textValue digits / 10 ^ scale := by
    obtain ⟨found, hscan, hfnd⟩ := ofText_scanned h
    rw [hfnd, ← htext.unique hscan, hval]
  constructor
  · exact hread
  · intro ha
    obtain ⟨b, hb⟩ := ofText_accepts htext (by omega) (by rw [hexpo]; exact Nat.zero_le _)
      (by rw [hval, ← ha]; exact a.representable) (by rw [hexpo]; omega)
    rw [hb, eq_of_value ((hread hb).trans ha.symm)]

theorem ofText_toText (a : DecimalAmount) : ofText a.toText = .ok a := by
  have hlen : (Nat.toDigits 10 a.coefficient).length ≤ 20 :=
    Nat.toDigits_length 10 _ 20 (by decide) (Nat.lt_of_le_of_lt a.coefficient_le (by decide))
  have hsc := a.scale_le
  refine (ofText_insertPoint (fun _ => isDigit_toDigits) Nat.toDigits_ne_nil (by omega) ?_).2 ?_
  · exact Nat.lt_of_le_of_lt hsc (by decide)
  · rw [textValue_toDigits]
    rfl

/-- Parsing is exact and its results are canonical. -/
theorem parsing_exact : (∀ text a, DecimalAmount.ofText text = .ok a →
      (∃ number, NumberText text number) ∧
      (∀ number, NumberText text number → a.value = number.value) ∧
      a.coefficient < 2 ^ 64 ∧ a.scale ≤ 18 ∧ (a.scale = 0 ∨ ¬ 10 ∣ a.coefficient)) ∧
    (∀ text other a b, DecimalAmount.ofText text = .ok a → DecimalAmount.ofText other = .ok b →
      (a.value = b.value ↔ a = b)) ∧
    ∀ a : DecimalAmount, DecimalAmount.ofText a.toText = .ok a := by
  refine ⟨?_, ?_, ofText_toText⟩
  · intro text a h
    obtain ⟨number, hscan, hvalue⟩ := ofText_scanned h
    refine ⟨⟨number, (scanNumber_sound hscan).1⟩, fun other hother => ?_,
      Nat.lt_of_le_of_lt a.coefficient_le (by decide), a.scale_le, ?_⟩
    · rw [hvalue, hother.unique hscan]
    · rw [Nat.dvd_iff_mod_eq_zero]
      exact a.canonical
  · intro _ _ a b _ _
    exact ⟨DecimalAmount.eq_of_value, congrArg _⟩

end Money
