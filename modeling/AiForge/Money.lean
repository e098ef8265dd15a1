import AiForge.DecimalDigits

/-! # Decimal money

Amounts are a 64-bit coefficient and a decimal scale of at most eighteen. The fields of
`DecimalAmount` carry what its private constructor guarantees: only parsing and addition
build one, and both strip trailing zeros. A text is a list of characters, one per byte. -/
namespace Money

open DecimalDigits List

inductive MoneyErrorCode where
  | invalidAmount | amountOverflow | negativeResult | invalidUnit | duplicateUnit | emptyCost
  | tooManyUnits

structure MoneyError where
  code : MoneyErrorCode
  message : String

def uint64Max : ℕ := 2 ^ 64 - 1

def maximumScale : ℕ := 18

def maximumSpendCeilingScale : ℕ := 6

def maximumUnits : ℕ := 16

structure DecimalAmount where
  (coefficient scale : ℕ)
  coefficient_le : coefficient ≤ uint64Max
  scale_le : scale ≤ maximumScale
  canonical : scale = 0 ∨ coefficient % 10 ≠ 0
  deriving DecidableEq

/-- The rational number an amount denotes. -/
def DecimalAmount.value (a : DecimalAmount) : ℚ := a.coefficient / 10 ^ a.scale

def checkedMultiply (value multiplier : ℕ) : Option ℕ :=
  if value ≠ 0 ∧ multiplier > uint64Max / value then none else some (value * multiplier)

theorem checkedMultiply_some {value multiplier product : ℕ}
    (h : checkedMultiply value multiplier = some product) :
    product = value * multiplier ∧ product ≤ uint64Max := by
  unfold checkedMultiply at h
  split at h
  · cases h
  · rename_i hg
    cases h
    refine ⟨rfl, ?_⟩
    by_cases hz : value = 0
    · simp [hz]
    · have hle : multiplier ≤ uint64Max / value := by
        by_contra hgt
        exact hg ⟨hz, by omega⟩
      calc value * multiplier ≤ value * (uint64Max / value) := Nat.mul_le_mul_left _ hle
        _ ≤ uint64Max := Nat.mul_div_le _ _

/-- The loop of addition that removes trailing zeros while fractional digits remain. -/
def normalize (coefficient : ℕ) : ℕ → ℕ × ℕ
  | 0 => (coefficient, 0)
  | scale + 1 =>
    if coefficient % 10 = 0 then normalize (coefficient / 10) scale else (coefficient, scale + 1)

theorem normalize_spec (coefficient scale : ℕ) : (normalize coefficient scale).1 ≤ coefficient ∧
    (normalize coefficient scale).2 ≤ scale ∧
    ((normalize coefficient scale).2 = 0 ∨ (normalize coefficient scale).1 % 10 ≠ 0) := by
  induction scale generalizing coefficient with
  | zero => simp [normalize]
  | succ _ ih =>
    unfold normalize
    split
    · obtain ⟨h₁, _, h₃⟩ := ih (coefficient / 10)
      exact ⟨h₁.trans (Nat.div_le_self _ _), by omega, h₃⟩
    · rename_i hne
      exact ⟨le_rfl, le_rfl, .inr hne⟩

theorem normalize_value (coefficient scale : ℕ) :
    ((normalize coefficient scale).1 : ℚ) / 10 ^ (normalize coefficient scale).2 =
      coefficient / 10 ^ scale := by
  induction scale generalizing coefficient with
  | zero => simp [normalize]
  | succ _ ih =>
    unfold normalize
    split
    · rename_i hz
      rw [ih]
      have hd : (coefficient : ℚ) = 10 * ((coefficient / 10 : ℕ) : ℚ) := by
        exact_mod_cast (Nat.mul_div_cancel' (Nat.dvd_of_mod_eq_zero hz)).symm
      rw [hd, pow_succ]
      field_simp
    · rfl

private theorem overflow_guard {left right : ℕ} (hl : left ≤ uint64Max)
    (hr : ¬ right > uint64Max - left) : left + right ≤ uint64Max := by
  omega

def add (left right : DecimalAmount) : Except MoneyError DecimalAmount :=
  let scale := max left.scale right.scale
  match hl : checkedMultiply left.coefficient (10 ^ (scale - left.scale)),
      checkedMultiply right.coefficient (10 ^ (scale - right.scale)) with
  | some leftCoefficient, some rightCoefficient =>
    if hr : rightCoefficient > uint64Max - leftCoefficient then
      .error ⟨.amountOverflow, "amount addition overflows"⟩
    else
      let normalized := normalize (leftCoefficient + rightCoefficient) scale
      .ok
        { coefficient := normalized.1
          scale := normalized.2
          coefficient_le := (normalize_spec _ _).1.trans
            (overflow_guard (checkedMultiply_some hl).2 hr)
          scale_le := (normalize_spec _ _).2.1.trans (max_le left.scale_le right.scale_le)
          canonical := (normalize_spec _ _).2.2 }
  | _, _ => .error ⟨.amountOverflow, "amount addition overflows"⟩

theorem aligned_value (a : DecimalAmount) {scale : ℕ} (h : a.scale ≤ scale) :
    ((a.coefficient * 10 ^ (scale - a.scale) : ℕ) : ℚ) / 10 ^ scale = a.value := by
  have hs : (10 : ℚ) ^ scale = 10 ^ (scale - a.scale) * 10 ^ a.scale := by
    rw [← pow_add, Nat.sub_add_cancel h]
  unfold DecimalAmount.value
  push_cast
  rw [hs]
  field_simp

/-- Whenever addition succeeds, its result denotes the exact rational sum. -/
theorem add_value {left right sum : DecimalAmount} (h : add left right = .ok sum) :
    sum.value = left.value + right.value := by
  unfold add at h
  dsimp only at h
  split at h
  · rename_i leftCoefficient rightCoefficient hl hr
    split at h
    · cases h
    · cases h
      obtain ⟨hl, -⟩ := checkedMultiply_some hl
      obtain ⟨hr, -⟩ := checkedMultiply_some hr
      rw [← aligned_value left (le_max_left left.scale right.scale),
        ← aligned_value right (le_max_right left.scale right.scale)]
      unfold DecimalAmount.value
      rw [normalize_value, hl, hr]
      push_cast
      ring
  · cases h

def alignedDigits (a : DecimalAmount) (scale : ℕ) : List Char :=
  Nat.toDigits 10 a.coefficient ++ List.replicate (scale - a.scale) '0'

def leftPad (value : List Char) (size : ℕ) : List Char :=
  List.replicate (size - value.length) '0' ++ value

/-- Both operands written with the same number of fractional digits and the same width. -/
def comparableDigits (left right : DecimalAmount) : List Char × List Char :=
  let scale := max left.scale right.scale
  let leftDigits := alignedDigits left scale
  let rightDigits := alignedDigits right scale
  let width := max leftDigits.length rightDigits.length
  (leftPad leftDigits width, leftPad rightDigits width)

def compare (left right : DecimalAmount) : Ordering :=
  let digits := comparableDigits left right
  if digits.1 < digits.2 then .lt else if digits.2 < digits.1 then .gt else .eq

variable {c : Char}

theorem isDigit_alignedDigits {a : DecimalAmount} {scale : ℕ}
    (h : c ∈ alignedDigits a scale) : IsDigit c := by
  rcases mem_append.1 h with h | h
  · exact isDigit_toDigits h
  · rw [eq_of_mem_replicate h]
    exact isDigit_zero

theorem isDigit_leftPad {value : List Char} {size : ℕ} (hv : ∀ c ∈ value, IsDigit c)
    (h : c ∈ leftPad value size) : IsDigit c := by
  rcases mem_append.1 h with h | h
  · rw [eq_of_mem_replicate h]
    exact isDigit_zero
  · exact hv c h

theorem textValue_leftPad_aligned (a : DecimalAmount) (scale size : ℕ) :
    textValue (leftPad (alignedDigits a scale) size) = a.coefficient * 10 ^ (scale - a.scale) := by
  unfold leftPad alignedDigits
  rw [textValue_zeros_append, textValue_append_zeros, textValue_toDigits]

theorem length_leftPad {value : List Char} {size : ℕ} (h : value.length ≤ size) :
    (leftPad value size).length = size := by
  simp [leftPad]
  omega

theorem value_lt_iff (left right : DecimalAmount) : left.value < right.value ↔
      left.coefficient * 10 ^ (max left.scale right.scale - left.scale) <
        right.coefficient * 10 ^ (max left.scale right.scale - right.scale) := by
  rw [← aligned_value left (le_max_left left.scale right.scale),
    ← aligned_value right (le_max_right left.scale right.scale),
    div_lt_div_iff_of_pos_right (by positivity)]
  exact Nat.cast_lt

theorem comparableDigits_lt (left right : DecimalAmount) :
    ((comparableDigits left right).1 < (comparableDigits left right).2 ↔
      left.value < right.value) ∧
    ((comparableDigits left right).2 < (comparableDigits left right).1 ↔
      right.value < left.value) := by
  have hl : ∀ c ∈ (comparableDigits left right).1, IsDigit c :=
    fun c hc => isDigit_leftPad (fun _ => isDigit_alignedDigits) hc
  have hr : ∀ c ∈ (comparableDigits left right).2, IsDigit c :=
    fun c hc => isDigit_leftPad (fun _ => isDigit_alignedDigits) hc
  have hw : (comparableDigits left right).1.length = (comparableDigits left right).2.length := by
    unfold comparableDigits
    rw [length_leftPad (le_max_left _ _), length_leftPad (le_max_right _ _)]
  rw [lt_iff_textValue_lt hl hr hw, lt_iff_textValue_lt hr hl hw.symm, value_lt_iff left right,
    value_lt_iff right left, max_comm right.scale left.scale]
  unfold comparableDigits
  rw [textValue_leftPad_aligned, textValue_leftPad_aligned]
  exact ⟨Iff.rfl, Iff.rfl⟩

/-- Comparison of digit strings orders amounts as the rationals they denote. -/
theorem compare_lt_iff (left right : DecimalAmount) :
    compare left right = .lt ↔ left.value < right.value := by
  obtain ⟨hl, -⟩ := comparableDigits_lt left right
  unfold compare
  dsimp only
  split
  · rename_i hlt
    exact iff_of_true rfl (hl.1 hlt)
  · rename_i hlt
    refine iff_of_false ?_ fun h => hlt (hl.2 h)
    split <;> simp

theorem compare_gt_iff (left right : DecimalAmount) :
    compare left right = .gt ↔ right.value < left.value := by
  obtain ⟨hl, hr⟩ := comparableDigits_lt left right
  unfold compare
  dsimp only
  split
  · rename_i hlt
    exact iff_of_false (by simp) (hl.1 hlt).not_gt
  · split
    · rename_i hgt
      exact iff_of_true rfl (hr.1 hgt)
    · rename_i hgt
      exact iff_of_false (by simp) fun h => hgt (hr.2 h)

def popTrailingZeros : List Char → ℤ → List Char × ℤ
  | [], scale => ([], scale)
  | c :: reversed, scale =>
    if 0 < scale ∧ c = '0' then popTrailingZeros reversed (scale - 1) else (c :: reversed, scale)

/-- Reads a coefficient digit by digit and gives up before a step would exceed 64 bits. -/
def readCoefficient : List Char → ℕ → Option ℕ
  | [], coefficient => some coefficient
  | c :: digits, coefficient =>
    if coefficient > (uint64Max - digitValue c) / 10 then none
    else readCoefficient digits (coefficient * 10 + digitValue c)

/-- The exponent loop: an exponent already above one thousand admits no further digit. -/
def readExponent : List Char → ℤ → Option (ℤ × List Char)
  | [], exponent => some (exponent, [])
  | c :: rest, exponent =>
    if IsDigit c then
      if exponent > 1000 then none else readExponent rest (exponent * 10 + digitValue c)
    else some (exponent, c :: rest)

theorem popTrailingZeros_spec (reversed : List Char) (scale : ℤ) :
    (popTrailingZeros reversed scale).2 ≤ 0 ∨
    ∀ c ∈ (popTrailingZeros reversed scale).1.head?, c ≠ '0' := by
  induction reversed generalizing scale with
  | nil => exact .inr (by simp [popTrailingZeros])
  | cons _ _ ih =>
    unfold popTrailingZeros
    split
    · exact ih (scale - 1)
    · rename_i h
      by_cases hs : 0 < scale
      · exact .inr (by simpa using fun hc => h ⟨hs, hc⟩)
      · exact .inl (by simpa using hs)

theorem popTrailingZeros_suffix (reversed : List Char) (scale : ℤ) :
    (popTrailingZeros reversed scale).1 <:+ reversed := by
  induction reversed generalizing scale with
  | nil => simp [popTrailingZeros]
  | cons c reversed ih =>
    unfold popTrailingZeros
    split
    · exact (ih (scale - 1)).trans (suffix_cons c reversed)
    · exact suffix_rfl

theorem eq_zero_of_popTrailingZeros_nil {reversed : List Char} {scale : ℤ}
    (h : (popTrailingZeros reversed scale).1 = []) : ∀ c ∈ reversed, c = '0' := by
  induction reversed generalizing scale with
  | nil => simp
  | cons _ _ ih =>
    unfold popTrailingZeros at h
    split at h
    · rename_i hz
      intro d hd
      rcases mem_cons.1 hd with rfl | hd
      · exact hz.2
      · exact ih h d hd
    · cases h

variable {digits : List Char}

theorem readCoefficient_le {start coefficient : ℕ}
    (hd : ∀ c ∈ digits, IsDigit c) (hs : start ≤ uint64Max)
    (h : readCoefficient digits start = some coefficient) : coefficient ≤ uint64Max := by
  induction digits generalizing start with
  | nil =>
    cases h
    exact hs
  | cons c _ ih =>
    unfold readCoefficient at h
    split at h
    · cases h
    · rename_i hg
      have hc := digitValue_lt (hd c (by simp))
      have hm : uint64Max = 2 ^ 64 - 1 := rfl
      exact ih (fun d hd' => hd d (by simp [hd'])) (by omega) h

/-- The last digit read is the last digit of the coefficient. -/
theorem readCoefficient_mod {last : Char} {start coefficient : ℕ}
    (hl : IsDigit last) (h : readCoefficient (digits ++ [last]) start = some coefficient) :
    coefficient % 10 = digitValue last := by
  induction digits generalizing start with
  | nil =>
    simp only [nil_append, readCoefficient] at h
    split at h
    · cases h
    · cases h
      have := digitValue_lt hl
      omega
  | cons _ _ ih =>
    simp only [cons_append, readCoefficient] at h
    split at h
    · cases h
    · exact ih h

theorem digitValue_ne_zero (hc : IsDigit c) (hz : c ≠ '0') : digitValue c ≠ 0 := by
  intro h
  have hl : '0'.toNat ≤ c.toNat := hc.1
  apply hz
  apply Char.ext
  apply UInt32.toNat.inj
  change c.toNat = '0'.toNat
  unfold digitValue at h
  omega

structure ScannedNumber where
  digits : List Char
  fractionDigits : ℕ
  exponent : ℤ

def overflowError (message : String) : MoneyError := ⟨.amountOverflow, message⟩

def invalidError (message : String) : MoneyError := ⟨.invalidAmount, message⟩

/-- The fraction after a point, if there is one, and the text behind it. -/
def scanFraction : List Char → Except MoneyError (List Char × List Char)
  | '.' :: rest =>
    let split := rest.span fun c => decide (IsDigit c)
    if split.1.isEmpty then .error (invalidError "amount fraction is empty") else .ok split
  | rest => .ok ([], rest)

def scanSign : List Char → Bool × List Char
  | '-' :: rest => (true, rest)
  | '+' :: rest => (false, rest)
  | rest => (false, rest)

def scanExponent (text : List Char) : Except MoneyError (ℤ × List Char) :=
  match text with
  | c :: rest =>
    if c = 'e' ∨ c = 'E' then
      let (negative, digits) := scanSign rest
      match readExponent digits 0 with
      | none => .error (overflowError "amount exponent is too large")
      | some (exponent, remaining) =>
        if remaining.length = digits.length then
          .error (invalidError "amount exponent is empty")
        else .ok (if negative then -exponent else exponent, remaining)
    else .ok (0, text)
  | [] => .ok (0, text)

def scanNumber (text : List Char) : Except MoneyError ScannedNumber := do
  if text.isEmpty then throw (invalidError "amount is empty")
  if text.length > 128 then throw (overflowError "amount text is too large")
  let (whole, rest) := text.span fun c => decide (IsDigit c)
  let (fraction, rest) ← scanFraction rest
  if (whole ++ fraction).isEmpty then throw (invalidError "amount has no digits")
  let (exponent, rest) ← scanExponent rest
  if ¬ rest.isEmpty then throw (invalidError "amount contains invalid characters")
  return ⟨whole ++ fraction, fraction.length, exponent⟩

variable {text : List Char}

theorem isDigit_of_mem_span (h : c ∈ (text.span fun c => decide (IsDigit c)).1) : IsDigit c := by
  rw [span_eq_takeWhile_dropWhile] at h
  simpa using mem_takeWhile_imp h

theorem scanFraction_digits {fraction rest : List Char}
    (h : scanFraction text = .ok (fraction, rest)) : ∀ c ∈ fraction, IsDigit c := by
  unfold scanFraction at h
  split at h
  · dsimp only at h
    split at h
    · cases h
    · intro c hc
      have he := Except.ok.inj h
      exact isDigit_of_mem_span (by rw [he]; exact hc)
  · obtain ⟨rfl, -⟩ := Prod.mk.inj (Except.ok.inj h)
    simp

theorem scanNumber_digits {number : ScannedNumber}
    (h : scanNumber text = .ok number) : ∀ c ∈ number.digits, IsDigit c := by
  unfold scanNumber at h
  simp only [bind, Except.bind, throw, throwThe, MonadExceptOf.throw, pure, Except.pure] at h
  repeat' (split at h <;> try cases h)
  rename_i hf _ _ _ _ _
  intro c hc
  rcases mem_append.1 hc with hc | hc
  · exact isDigit_of_mem_span hc
  · exact scanFraction_digits hf c hc

def zero : DecimalAmount := ⟨0, 0, by decide, by decide, Or.inl rfl⟩

def one : DecimalAmount := ⟨1, 0, by decide, by decide, Or.inl rfl⟩

theorem one_le_maximumScale : 1 ≤ maximumScale := by decide

def twoAndAHalf : DecimalAmount := ⟨25, 1, by decide, one_le_maximumScale, by decide⟩

@[simp] theorem zero_value : zero.value = 0 := by
  simp [DecimalAmount.value, zero]

/-- Trailing zeros go only while fractional digits remain, so what is left is canonical. -/
def ofDigits (digits : List Char) (hd : ∀ c ∈ digits, IsDigit c) (hz : ∃ c ∈ digits, c ≠ '0')
    (scale : ℤ) : Except MoneyError DecimalAmount :=
  let stripped := popTrailingZeros digits.reverse scale
  if hs : stripped.2 > maximumScale then
    .error (overflowError "amount has too many fractional digits")
  else
    match hc : readCoefficient stripped.1.reverse 0 with
    | none => .error (overflowError "amount coefficient overflows")
    | some coefficient =>
      if stripped.2 < 0 then
        if (-stripped.2).toNat > maximumScale then
          .error (overflowError "amount coefficient overflows")
        else
          match hm : checkedMultiply coefficient (10 ^ (-stripped.2).toNat) with
          | none => .error (overflowError "amount coefficient overflows")
          | some product =>
            .ok ⟨product, 0, (checkedMultiply_some hm).2, Nat.zero_le _, Or.inl rfl⟩
      else
        .ok
          { coefficient := coefficient
            scale := stripped.2.toNat
            coefficient_le := by
              refine readCoefficient_le (fun c hc => hd c ?_) (Nat.zero_le _) hc
              have hsub := (popTrailingZeros_suffix digits.reverse scale).subset
              exact List.mem_reverse.mp (hsub (List.mem_reverse.mp hc))
            scale_le := by omega
            canonical := by
              rcases popTrailingZeros_spec digits.reverse scale with h | h
              · exact Or.inl (Int.toNat_of_nonpos h)
              · right
                cases hr : stripped.1 with
                | nil =>
                  obtain ⟨c, hc, hne⟩ := hz
                  exact absurd
                    (eq_zero_of_popTrailingZeros_nil hr c (List.mem_reverse.mpr hc)) hne
                | cons last =>
                  rw [hr, List.reverse_cons] at hc
                  have hmem : last ∈ stripped.1 := by simp [hr]
                  have hsub := (popTrailingZeros_suffix digits.reverse scale).subset
                  have hl : IsDigit last := hd last (List.mem_reverse.mp (hsub hmem))
                  have hne : last ≠ '0' := h last (by change last ∈ stripped.1.head?; simp [hr])
                  rw [readCoefficient_mod hl hc]
                  exact digitValue_ne_zero hl hne }

theorem dropWhile_head (h : digits.dropWhile (· == '0') ≠ []) :
    ∃ c ∈ digits.dropWhile (· == '0'), c ≠ '0' := by
  refine ⟨_, head_mem h, ?_⟩
  have := head_dropWhile_not (· == '0') h
  simpa using this

/-- `DecimalAmount::from`: a text without a nonzero digit is the canonical zero. -/
def DecimalAmount.ofText (text : List Char) : Except MoneyError DecimalAmount :=
  match hn : scanNumber text with
  | .error e => .error e
  | .ok number =>
    if hz : number.digits.dropWhile (· == '0') = [] then .ok zero
    else
      ofDigits (number.digits.dropWhile (· == '0'))
        (fun c hc => scanNumber_digits hn c ((List.dropWhile_sublist _).subset hc))
        (dropWhile_head hz) (number.fractionDigits - number.exponent)

/-- Subtracts one digit string from another of the same width, from the right. -/
def borrowDigits : List Char → List Char → ℕ → List Char
  | l :: left, r :: right, borrow =>
    let due := digitValue r + borrow
    if digitValue l < due then Nat.digitChar (digitValue l + 10 - due) :: borrowDigits left right 1
    else Nat.digitChar (digitValue l - due) :: borrowDigits left right 0
  | _, _, _ => []

def insertPoint (digits : List Char) (scale : ℕ) : List Char :=
  if scale = 0 then digits
  else
    let padded := if digits.length ≤ scale then leftPad digits (scale + 1) else digits
    padded.take (padded.length - scale) ++ '.' :: padded.drop (padded.length - scale)

/-- `DecimalAmount::to_string`. -/
def DecimalAmount.toText (a : DecimalAmount) : List Char :=
  insertPoint (Nat.toDigits 10 a.coefficient) a.scale

def subtract (left right : DecimalAmount) : Except MoneyError DecimalAmount :=
  if compare left right = .lt then
    .error ⟨.negativeResult, "amount subtraction is negative"⟩
  else
    let digits := comparableDigits left right
    let difference := (borrowDigits digits.1.reverse digits.2.reverse 0).reverse
    DecimalAmount.ofText (insertPoint difference (max left.scale right.scale))

/-- A ceiling is positive and has at most six fractional digits: `create` admits no other. -/
structure SessionSpendCeiling where
  amount : DecimalAmount
  positive : amount.coefficient ≠ 0
  scale_le : amount.scale ≤ maximumSpendCeilingScale
  deriving DecidableEq

def SessionSpendCeiling.create (amount : DecimalAmount) : Except MoneyError SessionSpendCeiling :=
  if hp : amount.coefficient = 0 then
    .error (invalidError "session spend ceiling must be greater than zero")
  else if hs : amount.scale > maximumSpendCeilingScale then
    .error (invalidError "session spend ceiling supports at most six fractional digits")
  else .ok ⟨amount, hp, by omega⟩

def asciiAlpha (c : Char) : Bool := ('A' ≤ c ∧ c ≤ 'Z') ∨ ('a' ≤ c ∧ c ≤ 'z')

def validUnit (unit : String) : Bool :=
  match unit.toList with
  | [] => false
  | first :: rest =>
    unit.utf8ByteSize ≤ 64 && asciiAlpha first &&
      rest.all fun c => asciiAlpha c || decide (IsDigit c) || c == '.' || c == '_' || c == '-'

structure MonetaryAmount where
  unit : String
  amount : DecimalAmount
  unit_valid : validUnit unit
  deriving DecidableEq

def MonetaryAmount.create (unit : String) (amount : DecimalAmount) :
    Except MoneyError MonetaryAmount :=
  if h : validUnit unit then .ok ⟨unit, amount, h⟩
  else .error ⟨.invalidUnit, "money unit is invalid"⟩

def usd (amount : DecimalAmount) : MonetaryAmount := ⟨"USD", amount, by decide⟩

/-- Amounts of a reported cost are sorted by unit and name each unit once. -/
structure ReportedCost where
  amounts : List MonetaryAmount
  nonempty : amounts ≠ []
  length_le : amounts.length ≤ maximumUnits
  sorted : amounts.Pairwise fun a b => a.unit < b.unit
  deriving DecidableEq

def hasRepeatedUnit : List MonetaryAmount → Bool
  | a :: b :: rest => a.unit == b.unit || hasRepeatedUnit (b :: rest)
  | _ => false

def sortByUnit (amounts : List MonetaryAmount) : List MonetaryAmount :=
  amounts.mergeSort fun a b => decide (a.unit ≤ b.unit)

theorem sortByUnit_sorted (amounts : List MonetaryAmount) :
    (sortByUnit amounts).Pairwise fun a b => a.unit ≤ b.unit := by
  have h := @pairwise_mergeSort MonetaryAmount (fun a b => decide (a.unit ≤ b.unit))
    (fun a b c hab hbc => by simp only [decide_eq_true_eq] at *; exact hab.trans hbc)
    (fun a b => by simpa using le_total a.unit b.unit) amounts
  exact h.imp fun hab => by simpa using hab

theorem sorted_of_no_repeat {amounts : List MonetaryAmount}
    (hs : amounts.Pairwise fun a b => a.unit ≤ b.unit) (hr : hasRepeatedUnit amounts = false) :
    amounts.Pairwise fun a b => a.unit < b.unit := by
  induction amounts with
  | nil => exact List.Pairwise.nil
  | cons a rest ih =>
    cases rest with
    | nil => simp
    | cons b =>
      obtain ⟨ha, hrest⟩ := pairwise_cons.1 hs
      simp only [hasRepeatedUnit, Bool.or_eq_false_iff, beq_eq_false_iff_ne] at hr
      have hlt : a.unit < b.unit := lt_of_le_of_ne (ha b (by simp)) hr.1
      have htail := ih hrest hr.2
      refine pairwise_cons.2 ⟨fun c hc => ?_, htail⟩
      rcases mem_cons.1 hc with rfl | hc
      · exact hlt
      · exact hlt.trans ((pairwise_cons.1 htail).1 c hc)

def ReportedCost.create (amounts : List MonetaryAmount) : Except MoneyError ReportedCost :=
  if he : amounts = [] then .error ⟨.emptyCost, "reported cost has no amounts"⟩
  else if hl : amounts.length > maximumUnits then
    .error ⟨.tooManyUnits, "reported cost has too many units"⟩
  else if hr : hasRepeatedUnit (sortByUnit amounts) then
    .error ⟨.duplicateUnit, "reported cost repeats a unit"⟩
  else
    .ok
      { amounts := sortByUnit amounts
        nonempty := fun h => he (by simpa [sortByUnit] using congrArg List.length h)
        length_le := by simpa [sortByUnit] using hl
        sorted := sorted_of_no_repeat (sortByUnit_sorted amounts) (by simpa using hr) }

/-- One amount merged into a list sorted by unit, with `rest` merging what follows it. -/
def mergeHead (l : MonetaryAmount) (left : List MonetaryAmount)
    (rest : List MonetaryAmount → Except MoneyError (List MonetaryAmount)) :
    List MonetaryAmount → Except MoneyError (List MonetaryAmount)
  | [] => .ok (l :: left)
  | r :: right =>
    if l.unit < r.unit then do
      return l :: (← rest (r :: right))
    else if r.unit < l.unit then do
      return r :: (← mergeHead l left rest right)
    else do
      let amount ← add l.amount r.amount
      let combined ← MonetaryAmount.create l.unit amount
      return combined :: (← rest right)

def mergeAmounts : List MonetaryAmount → List MonetaryAmount →
    Except MoneyError (List MonetaryAmount)
  | [], right => .ok right
  | l :: left, right => mergeHead l left (mergeAmounts left) right

def ReportedCost.add (left right : ReportedCost) : Except MoneyError ReportedCost := do
  ReportedCost.create (← mergeAmounts left.amounts right.amounts)

end Money
