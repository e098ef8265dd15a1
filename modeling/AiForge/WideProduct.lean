import AiForge.MoneyArithmetic
import AiForge.UsageLedger

/-! # Wide products

The product of two 64-bit numbers is computed in parts below a thousand million, lowest first,
and written part by part. The parts make up the product, none of their sums leaves 64 bits, and
what is written is the numeral of the product. -/
namespace UsageLedger

open List Money

theorem ofDigits_numberParts {value : ℕ} (h : value < 10 ^ 27) :
    Nat.ofDigits multiplicationBase (numberParts value) = value := by
  unfold numberParts multiplicationBase
  simp only [Nat.ofDigits_cons, Nat.ofDigits_nil]
  omega

theorem numberParts_lt (value index : ℕ) :
    (numberParts value).getD index 0 < multiplicationBase := by
  have hpos : 0 < multiplicationBase := by decide
  rcases index with _ | _ | _ | index
  · exact Nat.mod_lt _ hpos
  · exact Nat.mod_lt _ hpos
  · exact Nat.mod_lt _ hpos
  · exact hpos

/-- Parts multiplied crosswise make up the product of what they make up. -/
theorem ofDigits_productParts (left right : ℕ) :
    Nat.ofDigits multiplicationBase (productParts (numberParts left) (numberParts right)) =
      Nat.ofDigits multiplicationBase (numberParts left) *
        Nat.ofDigits multiplicationBase (numberParts right) := by
  unfold productParts numberParts
  simp only [range_succ, range_zero, nil_append, cons_append, map_cons,
    map_nil, sum_cons, sum_nil, getD_cons_zero, getD_cons_succ,
    getD_nil, Nat.ofDigits_cons, Nat.ofDigits_nil]
  simp
  ring

theorem carryParts_cons (carry part next : ℕ) (rest : List ℕ) :
    carryParts carry (part :: next :: rest) = (part + carry) % multiplicationBase ::
      carryParts ((part + carry) / multiplicationBase) (next :: rest) := rfl

theorem ofDigits_carryParts (carry : ℕ) {parts : List ℕ} (hne : parts ≠ []) :
    Nat.ofDigits multiplicationBase (carryParts carry parts) =
      carry + Nat.ofDigits multiplicationBase parts := by
  induction parts generalizing carry with
  | nil => exact absurd rfl hne
  | cons part rest ih =>
    cases rest with
    | nil =>
      rw [carryParts, Nat.ofDigits_singleton, Nat.ofDigits_singleton, Nat.add_comm]
    | cons next rest =>
      have hsplit := Nat.mod_add_div (part + carry) multiplicationBase
      have hparts : Nat.ofDigits multiplicationBase (part :: next :: rest) =
          part + multiplicationBase * Nat.ofDigits multiplicationBase (next :: rest) :=
        Nat.ofDigits_cons
      rw [carryParts_cons, Nat.ofDigits_cons, ih _ (cons_ne_nil _ _), hparts, Nat.mul_add,
        ← Nat.add_assoc, hsplit]
      omega

theorem leftPad_snoc (text : List Char) (c : Char) (size : ℕ) :
    leftPad (text ++ [c]) (size + 1) = leftPad text size ++ [c] := by
  unfold leftPad
  rw [length_append, length_singleton, Nat.add_sub_add_right, append_assoc]

theorem toDigits_part {high part width : ℕ} (hhigh : 0 < high) (hpart : part < 10 ^ (width + 1)) :
    Nat.toDigits 10 (high * 10 ^ (width + 1) + part) =
      Nat.toDigits 10 high ++ leftPad (Nat.toDigits 10 part) (width + 1) := by
  induction width generalizing part with
  | zero =>
    have hsing : Nat.toDigits 10 part = [part.digitChar] := Nat.toDigits_of_lt_base (by omega)
    have hpad : leftPad [part.digitChar] (0 + 1) = [part.digitChar] := rfl
    rw [hsing, hpad, ← hsing, Nat.toDigits_append_toDigits (by decide) hhigh (by omega)]
    congr 1
    ring
  | succ width ih =>
    have hquotient : part / 10 < 10 ^ (width + 1) := by
      rw [pow_succ] at hpart
      omega
    have hval : high * 10 ^ (width + 1 + 1) + part =
        10 * (high * 10 ^ (width + 1) + part / 10) + part % 10 := by
      rw [pow_succ, ← mul_assoc]
      omega
    have hpos : 0 < high * 10 ^ (width + 1) + part / 10 :=
      Nat.add_pos_left (Nat.mul_pos hhigh (pow_pos (by decide) _)) _
    have hlast : Nat.toDigits 10 (part % 10) = [(part % 10).digitChar] :=
      Nat.toDigits_of_lt_base (Nat.mod_lt _ (by decide))
    have hpadded : leftPad (Nat.toDigits 10 part) (width + 1 + 1) =
        leftPad (Nat.toDigits 10 (part / 10)) (width + 1) ++ [(part % 10).digitChar] := by
      rcases Nat.lt_or_ge part 10 with hlt | hge
      · rw [Nat.toDigits_of_lt_base hlt, Nat.div_eq_of_lt hlt, Nat.mod_eq_of_lt hlt,
          Nat.toDigits_zero, ← nil_append [part.digitChar], leftPad_snoc]
        unfold leftPad
        rw [length_nil, length_singleton, Nat.sub_zero, Nat.add_sub_cancel,
          append_nil, ← replicate_succ', nil_append]
      · rw [Nat.toDigits_of_base_le (by decide) hge, leftPad_snoc]
    rw [hval, ← Nat.toDigits_append_toDigits (by decide) hpos (Nat.mod_lt _ (by decide)),
      ih hquotient, hlast, hpadded, append_assoc]

/-- The number that parts make up, the highest first, behind what stands before them. -/
def joined (high : ℕ) (parts : List ℕ) : ℕ :=
  parts.foldl (fun value part => value * multiplicationBase + part) high

theorem toDigits_joined {high : ℕ} {parts : List ℕ} (hhigh : 0 < high)
    (hparts : ∀ part ∈ parts, part < multiplicationBase) : Nat.toDigits 10 (joined high parts) =
      Nat.toDigits 10 high ++ parts.flatMap fun part => leftPad (Nat.toDigits 10 part) 9 := by
  induction parts generalizing high with
  | nil => simp [joined]
  | cons part parts ih =>
    obtain ⟨hpart, hrest⟩ := forall_mem_cons.1 hparts
    have hpos : 0 < high * multiplicationBase + part :=
      Nat.add_pos_left (Nat.mul_pos hhigh (by decide)) _
    have hjoin : joined high (part :: parts) = joined (high * multiplicationBase + part) parts := rfl
    have hfst := @toDigits_part high part 8 hhigh hpart
    rw [hjoin, ih hpos hrest, flatMap_cons, ← append_assoc]
    exact congrArg (· ++ _) hfst

theorem joined_reverse (parts : List ℕ) :
    joined 0 parts.reverse = Nat.ofDigits multiplicationBase parts := by
  unfold joined
  rw [foldl_reverse, Nat.ofDigits_eq_foldr]
  congr 1
  funext part value
  rw [Nat.cast_id, Nat.mul_comm, Nat.add_comm]

theorem joined_dropWhile (parts : List ℕ) :
    joined 0 (parts.dropWhile (· == 0)) = joined 0 parts := by
  induction parts with
  | nil => rfl
  | cons part parts ih =>
    rw [dropWhile_cons]
    split
    · rename_i hzero
      obtain rfl : part = 0 := by simpa using hzero
      rw [ih]
      rfl
    · rfl

theorem carryParts_lt {carry : ℕ} {parts : List ℕ} :
    ∀ part ∈ (carryParts carry parts).dropLast, part < multiplicationBase := by
  induction parts generalizing carry with
  | nil => simp [carryParts]
  | cons part rest ih =>
    cases rest with
    | nil => simp [carryParts]
    | cons next rest =>
      have hne : carryParts ((part + carry) / multiplicationBase) (next :: rest) ≠ [] := by
        cases rest <;> simp [carryParts]
      rw [carryParts_cons, dropLast_cons_of_ne_nil hne]
      exact forall_mem_cons.2 ⟨Nat.mod_lt _ (by decide), ih⟩

theorem multipliedText_eq {left right : ℕ} (hl : left < 10 ^ 27) (hr : right < 10 ^ 27) :
    multipliedText left right = Nat.toDigits 10 (left * right) := by
  have hprod : Nat.ofDigits multiplicationBase
      (carryParts 0 (productParts (numberParts left) (numberParts right))) = left * right := by
    rw [ofDigits_carryParts 0 (by simp [productParts]), ofDigits_productParts,
      ofDigits_numberParts hl, ofDigits_numberParts hr, Nat.zero_add]
  have hbd : ∀ part ∈
      (carryParts 0 (productParts (numberParts left) (numberParts right))).dropLast,
      part < multiplicationBase := carryParts_lt
  unfold multipliedText
  dsimp only
  generalize carryParts 0 (productParts (numberParts left) (numberParts right)) = parts at *
  have hjoin := joined_dropWhile parts.reverse
  rw [joined_reverse, hprod] at hjoin
  have hsuf : parts.reverse.dropWhile (· == 0) <:+ parts.reverse := dropWhile_suffix _
  split
  · rename_i hnil
    rw [hnil] at hjoin
    rw [← hjoin]
    rfl
  · rename_i highest rest hcons
    have hhighest : highest ≠ 0 := by
      have := head_dropWhile_not (· == 0) (l := parts.reverse) (by simp [hcons])
      simpa [hcons] using this
    rw [hcons] at hjoin hsuf
    have hrest : ∀ part ∈ rest, part < multiplicationBase := by
      intro part hpart
      obtain ⟨front, hfront⟩ := hsuf
      refine hbd part ?_
      have hparts : parts = rest.reverse ++ (highest :: front.reverse) := by
        rw [← reverse_inj, ← hfront]
        simp
      rw [hparts, dropLast_append_of_ne_nil (cons_ne_nil _ _)]
      exact mem_append_left _ (mem_reverse.2 hpart)
    have hhead : joined 0 (highest :: rest) = joined highest rest := by
      unfold joined
      rw [foldl_cons, Nat.zero_mul, Nat.zero_add]
    rw [← hjoin, hhead, toDigits_joined (Nat.pos_of_ne_zero hhighest) hrest]

/-- What has been summed up for a part of the product after so many of its terms. -/
def partialSum (left right : List ℕ) (k terms : ℕ) : ℕ :=
  ((List.range terms).map fun i => left.getD i 0 * right.getD (k - i) 0).sum

/-- What each part is together with the carry into it. -/
def carrySums : ℕ → List ℕ → List ℕ
  | _, [] => []
  | carry, part :: rest =>
    (part + carry) :: carrySums ((part + carry) / multiplicationBase) rest

theorem partialSum_le (left right k terms : ℕ) :
    partialSum (numberParts left) (numberParts right) k terms ≤ terms * 10 ^ 18 := by
  have hterm : ∀ term ∈ (List.range terms).map
      (fun i => (numberParts left).getD i 0 * (numberParts right).getD (k - i) 0),
      term ≤ multiplicationBase * multiplicationBase := by
    intro term hterm
    obtain ⟨i, -, rfl⟩ := mem_map.1 hterm
    exact Nat.mul_le_mul (numberParts_lt left i).le (numberParts_lt right (k - i)).le
  have hsquare : multiplicationBase * multiplicationBase = 10 ^ 18 := by decide
  have hsum := sum_le_card_nsmul _ _ hterm
  rwa [length_map, length_range, smul_eq_mul, hsquare] at hsum

theorem carrySums_le {bound carry : ℕ} {parts : List ℕ} (hparts : ∀ part ∈ parts, part ≤ bound)
    (hcarry : carry ≤ 10 ^ 11) (hbd : bound + 10 ^ 11 < 2 ^ 64) :
    ∀ sum ∈ carrySums carry parts, sum < 2 ^ 64 := by
  induction parts generalizing carry with
  | nil => simp [carrySums]
  | cons part rest ih =>
    obtain ⟨hpart, hrest⟩ := forall_mem_cons.1 hparts
    have hsum : part + carry < 2 ^ 64 := by omega
    have hnext : (part + carry) / multiplicationBase ≤ 10 ^ 11 := by
      unfold multiplicationBase
      omega
    exact forall_mem_cons.2 ⟨hsum, ih hrest hnext⟩

/-- The wide product is exact: its text is the numeral of the product, and every sum and every
carry on the way is a 64-bit number. -/
theorem multipliedText_exact (left right : UInt64) :
    multipliedText left.toNat right.toNat = Nat.toDigits 10 (left.toNat * right.toNat) ∧
    (∀ k < 7, ∀ terms ≤ k + 1,
      partialSum (numberParts left.toNat) (numberParts right.toNat) k terms < 2 ^ 64) ∧
    ∀ sum ∈ carrySums 0 (productParts (numberParts left.toNat) (numberParts right.toNat)),
      sum < 2 ^ 64 := by
  have hl := left.toNat_lt
  have hr := right.toNat_lt
  refine ⟨multipliedText_eq (by omega) (by omega), ?_, ?_⟩
  · intro k hk terms hterms
    have := partialSum_le left.toNat right.toNat k terms
    omega
  · refine @carrySums_le (7 * 10 ^ 18) 0 _ ?_ (Nat.zero_le _) (by decide)
    intro part hpart
    obtain ⟨k, hk, rfl⟩ := mem_map.1 hpart
    have hbound := partialSum_le left.toNat right.toNat k (k + 1)
    have hk : k < 7 := mem_range.1 hk
    exact hbound.trans (Nat.mul_le_mul_right _ hk)

end UsageLedger
