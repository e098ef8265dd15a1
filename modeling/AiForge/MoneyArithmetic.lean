import AiForge.MoneyParsing

/-! # Arithmetic of amounts

Addition aligns both coefficients to the larger scale and gives up when their sum leaves 64 bits,
also where a factor of ten in it would have brought it back. Comparison and subtraction work on
digit strings, which have no such limit. -/
namespace Money

open DecimalDigits List

variable {left right : DecimalAmount}

/-- The sum of the coefficients at the larger scale of the two. -/
def alignedSum (left right : DecimalAmount) : ℕ :=
  left.coefficient * 10 ^ (max left.scale right.scale - left.scale) +
    right.coefficient * 10 ^ (max left.scale right.scale - right.scale)

theorem alignedSum_value (left right : DecimalAmount) :
    (alignedSum left right : ℚ) / 10 ^ max left.scale right.scale = left.value + right.value := by
  rw [← aligned_value left (le_max_left left.scale right.scale),
    ← aligned_value right (le_max_right left.scale right.scale), ← add_div]
  unfold alignedSum
  push_cast
  rfl

theorem add_ok_iff (left right : DecimalAmount) :
    (add left right).isOk ↔ alignedSum left right ≤ uint64Max := by
  unfold add alignedSum
  dsimp only
  split
  · rename_i leftCoefficient rightCoefficient hl hr
    obtain ⟨rfl, hleft⟩ := checkedMultiply_some hl
    obtain ⟨rfl, -⟩ := checkedMultiply_some hr
    split
    · rename_i hover
      exact iff_of_false (by simp [Except.isOk, Except.toBool]) (by omega)
    · rename_i hfits
      exact iff_of_true rfl (by omega)
  · rename_i hnone
    refine iff_of_false (by simp [Except.isOk, Except.toBool]) fun hle => ?_
    cases hl : checkedMultiply left.coefficient
        (10 ^ (max left.scale right.scale - left.scale)) with
    | none =>
      have := checkedMultiply_none hl
      omega
    | some =>
      cases hr : checkedMultiply right.coefficient
          (10 ^ (max left.scale right.scale - right.scale)) with
      | none =>
        have := checkedMultiply_none hr
        omega
      | some => exact hnone _ _ hl hr

theorem add_error {err : MoneyError} (h : add left right = .error err) :
    err = ⟨.amountOverflow, "amount addition overflows"⟩ := by
  unfold add at h
  dsimp only at h
  split at h
  · split at h
    · cases h
      rfl
    · cases h
  · cases h
    rfl

theorem alignedSum_comm (left right : DecimalAmount) :
    alignedSum left right = alignedSum right left := by
  unfold alignedSum
  rw [max_comm, Nat.add_comm]

theorem add_swap (left right : DecimalAmount) : add left right = add right left := by
  have hok := add_ok_iff left right
  rw [alignedSum_comm, ← add_ok_iff] at hok
  cases hl : add left right with
  | ok sum =>
    rw [hl] at hok
    obtain ⟨again, hr⟩ := Staged.isOk_iff.1 (hok.1 rfl)
    rw [hr]
    refine congrArg _ (DecimalAmount.eq_of_value ?_)
    rw [add_value hl, add_value hr]
    ring
  | error =>
    rw [hl] at hok
    cases hr : add right left with
    | ok =>
      rw [hr] at hok
      cases hok.2 rfl
    | error => rw [add_error hl, add_error hr]

/-- Both operands have the same fractional digits and their sum leaves 64 bits, but ends in a
zero that need not be kept. -/
def Carried (left right : DecimalAmount) : Prop :=
  left.scale = right.scale ∧ 0 < left.scale ∧ 10 ∣ left.coefficient + right.coefficient ∧
    2 ^ 64 ≤ left.coefficient + right.coefficient

/-- A numerator that nothing can be taken from has a value of an amount only if it fits. -/
theorem representable_reduced {numerator scale : ℕ} (hsc : scale ≤ 18)
    (hreduced : scale = 0 ∨ numerator % 10 ≠ 0) :
    Representable (numerator / 10 ^ scale) ↔ numerator ≤ uint64Max := by
  have hmax : uint64Max = 2 ^ 64 - 1 := rfl
  constructor
  · rintro ⟨coefficient, other, hcoef, -, hval⟩
    have hcross := div_pow_eq_iff.1 hval
    rcases hreduced with rfl | hmod
    · rw [pow_zero, Nat.mul_one] at hcross
      have := Nat.le_mul_of_pos_right numerator (pow_pos (by decide : 0 < 10) other)
      omega
    · have := (scale_least hmod hcross).2
      omega
  · intro hle
    exact ⟨numerator, scale, by omega, hsc, rfl⟩

theorem aligned_mod {coefficient scale other : ℕ} (hlt : scale < other) :
    coefficient * 10 ^ (other - scale) % 10 = 0 := by
  obtain ⟨extra, hextra⟩ : ∃ extra, other - scale = extra + 1 := ⟨other - scale - 1, by omega⟩
  rw [hextra, pow_succ, ← mul_assoc]
  exact Nat.mul_mod_left _ _

/-- With different scales the finer operand's last digit stays the last digit of the sum. -/
theorem alignedSum_reduced (hne : left.scale ≠ right.scale) : alignedSum left right % 10 ≠ 0 := by
  unfold alignedSum
  rcases Nat.lt_or_gt_of_ne hne with hlt | hgt
  · have hzero := @aligned_mod left.coefficient _ _ hlt
    have hlast : right.coefficient % 10 ≠ 0 := right.canonical.resolve_left (by omega)
    rw [Nat.max_eq_right hlt.le, Nat.sub_self, pow_zero, Nat.mul_one]
    omega
  · have hzero := @aligned_mod right.coefficient _ _ hgt
    have hlast : left.coefficient % 10 ≠ 0 := left.canonical.resolve_left (by omega)
    rw [Nat.max_eq_left hgt.le, Nat.sub_self, pow_zero, Nat.mul_one]
    omega

theorem representable_carried (h : Carried left right) :
    Representable (left.value + right.value) := by
  obtain ⟨hsc, hpos, ⟨tenth, htenth⟩, -⟩ := h
  have hl := left.coefficient_le
  have hr := right.coefficient_le
  have hmax : uint64Max = 2 ^ 64 - 1 := rfl
  have hle := left.scale_le
  refine ⟨tenth, left.scale - 1, by omega, (Nat.sub_le _ _).trans hle, ?_⟩
  unfold DecimalAmount.value
  rw [← hsc, ← add_div, ← Nat.cast_add, htenth]
  obtain ⟨scale, hpred⟩ : ∃ scale, left.scale = scale + 1 := ⟨left.scale - 1, by omega⟩
  rw [hpred, Nat.add_sub_cancel, pow_succ]
  push_cast
  field_simp

/-- Addition succeeds exactly where the sum is the value of an amount, unless it is carried. -/
theorem add_complete_iff (left right : DecimalAmount) :
    ((add left right).isOk ↔ Representable (left.value + right.value)) ↔ ¬ Carried left right := by
  have hval := alignedSum_value left right
  have hsc : max left.scale right.scale ≤ 18 := max_le left.scale_le right.scale_le
  have hmax : uint64Max = 2 ^ 64 - 1 := rfl
  rw [add_ok_iff]
  constructor
  · intro hiff hcarried
    have hfits := hiff.2 (representable_carried hcarried)
    obtain ⟨hsame, -, -, hbig⟩ := hcarried
    unfold alignedSum at hfits
    rw [hsame, max_self, Nat.sub_self, pow_zero, Nat.mul_one, Nat.mul_one] at hfits
    omega
  · intro hcarried
    by_cases hsame : left.scale = right.scale
    · have hsum : alignedSum left right = left.coefficient + right.coefficient := by
        unfold alignedSum
        rw [hsame, max_self, Nat.sub_self, pow_zero, Nat.mul_one, Nat.mul_one]
      by_cases hreduced : max left.scale right.scale = 0 ∨ alignedSum left right % 10 ≠ 0
      · rw [← hval, representable_reduced hsc hreduced]
      · have hfits : alignedSum left right ≤ uint64Max := by
          by_contra hbig
          exact hcarried ⟨hsame, by omega, Nat.dvd_of_mod_eq_zero (by omega), by omega⟩
        refine iff_of_true hfits ?_
        rw [← hval]
        exact ⟨_, _, by omega, hsc, rfl⟩
    · rw [← hval, representable_reduced hsc (.inr (alignedSum_reduced hsame))]

theorem foldlM_add_value {amounts : List DecimalAmount} {start total : DecimalAmount}
    (h : amounts.foldlM add start = .ok total) :
    total.value = start.value + (amounts.map DecimalAmount.value).sum := by
  induction amounts generalizing start with
  | nil =>
    cases h
    simp
  | cons amount _ ih =>
    obtain ⟨next, hnext, hrest⟩ := Staged.foldlM_cons_ok.1 h
    rw [ih hrest, add_value hnext, map_cons, sum_cons, add_assoc]

/-- Addition is exact, commutes, and is complete but for the carried sums; a total does not
depend on the order of what is added. -/
theorem addition_complete (left right : DecimalAmount) :
    (((add left right).isOk ↔ Representable (left.value + right.value)) ↔ ¬ Carried left right) ∧
    (∀ sum, add left right = .ok sum → sum.value = left.value + right.value) ∧
    add left right = add right left ∧
    ∀ (amounts others : List DecimalAmount) (start total again : DecimalAmount),
      amounts.Perm others → amounts.foldlM add start = .ok total →
      others.foldlM add start = .ok again → total = again := by
  refine ⟨add_complete_iff left right, fun _ => add_value, add_swap left right, ?_⟩
  intro amounts others start total again hperm htotal hagain
  apply DecimalAmount.eq_of_value
  rw [foldlM_add_value htotal, foldlM_add_value hagain,
    (hperm.map DecimalAmount.value).sum_eq]

/-- The most tenths that a coefficient can count; five more of them are a whole number. -/
def largestTenth : DecimalAmount :=
  ⟨2 ^ 64 - 1, 1, by decide, by decide, by decide⟩

def fiveTenths : DecimalAmount := ⟨5, 1, by decide, by decide, by decide⟩

theorem addition_overlooks : ¬ ∀ left right : DecimalAmount,
    ((add left right).isOk ↔ Representable (left.value + right.value)) := by
  intro h
  have hrefused : ¬ (add largestTenth fiveTenths).isOk := by decide
  refine hrefused ((h largestTenth fiveTenths).2 (representable_carried ?_))
  exact ⟨rfl, by decide, by decide, by decide⟩

theorem compare_eq_cmp (left right : DecimalAmount) :
    compare left right = cmp left.value right.value := by
  rcases lt_trichotomy left.value right.value with hlt | heq | hgt
  · rw [(cmp_eq_lt_iff _ _).2 hlt, compare_lt_iff]
    exact hlt
  · have hlt : compare left right ≠ .lt := by
      rw [Ne, compare_lt_iff]
      exact heq.not_lt
    have hgt : compare left right ≠ .gt := by
      rw [Ne, compare_gt_iff]
      exact heq.not_gt
    rw [(cmp_eq_eq_iff _ _).2 heq]
    cases hc : compare left right with
    | lt => exact absurd hc hlt
    | eq => rfl
    | gt => exact absurd hc hgt
  · rw [(cmp_eq_gt_iff _ _).2 hgt, compare_gt_iff]
    exact hgt

theorem digitValue_digitChar {n : ℕ} (h : n < 10) : digitValue (Nat.digitChar n) = n := by
  unfold digitValue
  rw [Nat.toNat_digitChar_of_lt_ten h]
  change 48 + n - 48 = n
  omega

theorem isDigit_digitChar {n : ℕ} (h : n < 10) : IsDigit (Nat.digitChar n) := by
  refine isDigit_toDigits (n := n) ?_
  rw [Nat.toDigits_of_lt_base h]
  exact mem_singleton.2 rfl

/-- Borrowing subtracts, least significant digit first, up to a borrow that is left. -/
theorem borrowDigits_spec {l r : List Char} {borrow : ℕ} (hl : ∀ c ∈ l, IsDigit c)
    (hr : ∀ c ∈ r, IsDigit c) (hlength : l.length = r.length) (hborrow : borrow ≤ 1) :
    (borrowDigits l r borrow).length = l.length ∧ (∀ c ∈ borrowDigits l r borrow, IsDigit c) ∧
    ∃ excess, textValue (borrowDigits l r borrow).reverse + textValue r.reverse + borrow =
      textValue l.reverse + excess * 10 ^ l.length := by
  induction l generalizing r borrow with
  | nil =>
    obtain rfl := eq_nil_of_length_eq_zero hlength.symm
    refine ⟨rfl, by simp [borrowDigits], borrow, ?_⟩
    simp [borrowDigits, textValue]
  | cons c l ih =>
    cases r with
    | nil => simp at hlength
    | cons d r =>
      obtain ⟨hc, hl⟩ := forall_mem_cons.1 hl
      obtain ⟨hd, hr⟩ := forall_mem_cons.1 hr
      have hclt := digitValue_lt hc
      have hdlt := digitValue_lt hd
      have hrest : l.length = r.length := Nat.succ.inj hlength
      unfold borrowDigits
      dsimp only
      split
      · rename_i hless
        obtain ⟨hlen, hdigs, excess, hval⟩ := ih hl hr hrest (Nat.le_refl 1)
        have hdigit : digitValue c + 10 - (digitValue d + borrow) < 10 := by omega
        refine ⟨congrArg Nat.succ hlen,
          forall_mem_cons.2 ⟨isDigit_digitChar hdigit, hdigs⟩, excess, ?_⟩
        simp only [reverse_cons, textValue_append_one, digitValue_digitChar hdigit,
          length_cons, pow_succ, ← mul_assoc]
        omega
      · rename_i hless
        obtain ⟨hlen, hdigs, excess, hval⟩ := ih hl hr hrest (Nat.zero_le 1)
        have hdigit : digitValue c - (digitValue d + borrow) < 10 := by omega
        refine ⟨congrArg Nat.succ hlen,
          forall_mem_cons.2 ⟨isDigit_digitChar hdigit, hdigs⟩, excess, ?_⟩
        simp only [reverse_cons, textValue_append_one, digitValue_digitChar hdigit,
          length_cons, pow_succ, ← mul_assoc]
        omega

theorem comparableDigits_spec (left right : DecimalAmount) :
    (∀ c ∈ (comparableDigits left right).1, IsDigit c) ∧
    (∀ c ∈ (comparableDigits left right).2, IsDigit c) ∧
    (comparableDigits left right).1.length = (comparableDigits left right).2.length ∧
    (0 < (comparableDigits left right).1.length ∧
      (comparableDigits left right).1.length ≤ 38) := by
  have hlen (a : DecimalAmount) : 0 < (alignedDigits a (max left.scale right.scale)).length ∧
      (alignedDigits a (max left.scale right.scale)).length ≤ 38 := by
    have hpos : 0 < (Nat.toDigits 10 a.coefficient).length := Nat.length_toDigits_pos
    have hcoef : (Nat.toDigits 10 a.coefficient).length ≤ 20 :=
      Nat.toDigits_length 10 _ 20 (by decide) (Nat.lt_of_le_of_lt a.coefficient_le (by decide))
    have hsc : max left.scale right.scale ≤ 18 := max_le left.scale_le right.scale_le
    unfold alignedDigits
    rw [length_append, length_replicate]
    omega
  have hl := hlen left
  have hr := hlen right
  unfold comparableDigits
  rw [length_leftPad (le_max_left _ _), length_leftPad (le_max_right _ _)]
  exact ⟨fun c hc => isDigit_leftPad (fun _ => isDigit_alignedDigits) hc,
    fun c hc => isDigit_leftPad (fun _ => isDigit_alignedDigits) hc, rfl, by omega, by omega⟩

/-- The digits of a difference that is not negative. -/
theorem subtract_text (hle : right.value ≤ left.value) : ∃ digits, subtract left right =
        DecimalAmount.ofText (insertPoint digits (max left.scale right.scale)) ∧
      (∀ c ∈ digits, IsDigit c) ∧ 0 < digits.length ∧ digits.length ≤ 38 ∧
      (textValue digits : ℚ) / 10 ^ max left.scale right.scale = left.value - right.value := by
  obtain ⟨hld, hrd, hwidth, hpos, hsh⟩ := comparableDigits_spec left right
  have hlv : textValue (comparableDigits left right).1 =
      left.coefficient * 10 ^ (max left.scale right.scale - left.scale) :=
    textValue_leftPad_aligned _ _ _
  have hrv : textValue (comparableDigits left right).2 =
      right.coefficient * 10 ^ (max left.scale right.scale - right.scale) :=
    textValue_leftPad_aligned _ _ _
  have hord : textValue (comparableDigits left right).2 ≤
      textValue (comparableDigits left right).1 := by
    rw [hlv, hrv]
    by_contra hlt
    exact absurd ((value_lt_iff left right).2 (Nat.lt_of_not_le hlt)) (not_lt.2 hle)
  have hcmp : compare left right ≠ .lt := by
    rw [Ne, compare_lt_iff, not_lt]
    exact hle
  obtain ⟨hlen, hdigs, excess, hval⟩ := borrowDigits_spec
    (fun c hc => hld c (mem_reverse.1 hc)) (fun c hc => hrd c (mem_reverse.1 hc))
    (by simpa using hwidth) (Nat.zero_le 1)
  refine ⟨_, by rw [subtract, if_neg hcmp], fun c hc => hdigs c (mem_reverse.1 hc), ?_⟩
  generalize borrowDigits (comparableDigits left right).1.reverse
    (comparableDigits left right).2.reverse 0 = result at *
  rw [reverse_reverse, reverse_reverse, length_reverse] at hval
  rw [length_reverse] at hlen
  have hbd := textValue_lt fun c hc => hdigs c (mem_reverse.1 hc)
  rw [length_reverse, hlen] at hbd
  -- A borrow that is left would make the result wider than the operands.
  have hexcess : excess = 0 := by
    by_contra hne
    have := Nat.le_mul_of_pos_left (10 ^ (comparableDigits left right).1.length)
      (Nat.pos_of_ne_zero hne)
    omega
  rw [hexcess, Nat.zero_mul, Nat.add_zero, Nat.add_zero] at hval
  refine ⟨by rw [length_reverse]; omega, by rw [length_reverse]; omega, ?_⟩
  rw [← aligned_value left (le_max_left left.scale right.scale),
    ← aligned_value right (le_max_right left.scale right.scale), ← hlv, ← hrv, ← hval]
  push_cast
  ring

/-- Subtraction succeeds exactly where the difference is the value of an amount. -/
theorem subtract_eq_ok {difference : DecimalAmount} : subtract left right = .ok difference ↔
      right.value ≤ left.value ∧ difference.value = left.value - right.value := by
  rcases lt_or_ge left.value right.value with hlt | hle
  · rw [subtract, if_pos ((compare_lt_iff left right).2 hlt)]
    exact iff_of_false nofun fun h => absurd h.1 (not_le.2 hlt)
  · obtain ⟨digits, hsub, hdigs, hpos, hsh, hval⟩ := subtract_text hle
    have hsc : max left.scale right.scale ≤ 18 := max_le left.scale_le right.scale_le
    rw [hsub, ofText_insertPoint hdigs (ne_nil_of_length_pos hpos) (by omega) (by omega),
      hval, and_iff_right hle]

theorem ofDigits_error {digits : List Char} {hd : ∀ c ∈ digits, IsDigit c}
    {hz : ∃ c ∈ digits, c ≠ '0'} {scale : ℤ} {err : MoneyError}
    (h : ofDigits digits hd hz scale = .error err) : err.code = .amountOverflow := by
  unfold ofDigits at h
  dsimp only at h
  repeat' (split at h <;> try cases h)
  all_goals rfl

theorem ofText_error {text : List Char} {number : ScannedNumber} {err : MoneyError}
    (hscan : scanNumber text = .ok number) (h : DecimalAmount.ofText text = .error err) :
    err.code = .amountOverflow := by
  unfold DecimalAmount.ofText at h
  split at h
  · rename_i hfail
    rw [hscan] at hfail
    cases hfail
  · split at h
    · cases h
    · exact ofDigits_error h

/-- A difference is reported as negative exactly where it is. -/
theorem subtract_error {err : MoneyError} (h : subtract left right = .error err) :
    err.code = .negativeResult ↔ left.value < right.value := by
  rcases lt_or_ge left.value right.value with hlt | hle
  · rw [subtract, if_pos ((compare_lt_iff left right).2 hlt)] at h
    cases h
    exact iff_of_true rfl hlt
  · obtain ⟨digits, hsub, hdigs, hpos, hsh, -⟩ := subtract_text hle
    have hsc : max left.scale right.scale ≤ 18 := max_le left.scale_le right.scale_le
    have hlen := insertPoint_length digits (max left.scale right.scale)
    obtain ⟨number, htext, hexpo, -⟩ :=
      insertPoint_text hdigs (ne_nil_of_length_pos hpos) (max left.scale right.scale)
    have hscan := scanNumber_of_text htext (by omega)
    rw [if_pos (by rw [hexpo]; exact Nat.zero_le _)] at hscan
    rw [hsub] at h
    rw [ofText_error hscan h]
    exact iff_of_false nofun (not_lt.2 hle)

/-- Comparison and subtraction are those of the rationals. -/
theorem comparison_subtraction_exact :
    (∀ left right, compare left right = cmp left.value right.value) ∧
    (∀ left right, compare left right = .eq ↔ left = right) ∧
    (∀ left right difference, subtract left right = .ok difference ↔
      right.value ≤ left.value ∧ difference.value = left.value - right.value) ∧
    (∀ left right sum, add left right = .ok sum → subtract sum right = .ok left) ∧
    ∀ left right err, subtract left right = .error err →
      (err.code = .negativeResult ↔ left.value < right.value) := by
  refine ⟨compare_eq_cmp, ?_, fun _ _ _ => subtract_eq_ok, ?_, fun _ _ _ => subtract_error⟩
  · intro left right
    rw [compare_eq_cmp, cmp_eq_eq_iff]
    exact ⟨DecimalAmount.eq_of_value, congrArg _⟩
  · intro left right sum h
    have hpos : 0 ≤ left.value := by
      unfold DecimalAmount.value
      positivity
    rw [subtract_eq_ok, add_value h]
    exact ⟨by linarith, by ring⟩

end Money
