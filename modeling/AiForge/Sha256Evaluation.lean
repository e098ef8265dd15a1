import AiForge.Sha256Standard

/-! # Digests of given messages

The same digest with its words as natural numbers, on which the kernel computes with machine
arithmetic. It serves where the digest of a written-out message is wanted. -/
namespace Sha256Evaluation
open List Sha256 Sha256Standard

def rotrNat (word count : ℕ) : ℕ :=
  Nat.lor (Nat.shiftRight word count)
    (Nat.mod (Nat.shiftLeft word (Nat.sub 32 count)) 4294967296)

def blockNat : Bytes → List ℕ
  | a :: b :: c :: d :: rest =>
    Nat.lor (Nat.lor (Nat.lor (Nat.mod (Nat.shiftLeft a.toNat 24) 4294967296)
      (Nat.mod (Nat.shiftLeft b.toNat 16) 4294967296))
      (Nat.mod (Nat.shiftLeft c.toNat 8) 4294967296)) d.toNat :: blockNat rest
  | _ => []

/-- The word of the schedule after the given ones, of which the latest stands first. -/
def nextNat (words : List ℕ) : ℕ :=
  let after1 := words.tail
  let after6 := after1.tail.tail.tail.tail.tail
  let after14 := after6.tail.tail.tail.tail.tail.tail.tail.tail
  let early := after14.headD 0
  let late := after1.headD 0
  let s0 := Nat.xor (Nat.xor (rotrNat early 7) (rotrNat early 18)) (Nat.shiftRight early 3)
  let s1 := Nat.xor (Nat.xor (rotrNat late 17) (rotrNat late 19)) (Nat.shiftRight late 10)
  Nat.mod (Nat.add (Nat.add (Nat.add (after14.tail.headD 0) s0) (after6.headD 0)) s1) 4294967296

def scheduleNat : ℕ → List ℕ → List ℕ
  | 0, words => words
  | n + 1, words => scheduleNat n (nextNat words :: words)

def roundNat (state : List ℕ) (input : ℕ × ℕ) : List ℕ :=
  match state with
  | [a, b, c, d, e, f, g, h] =>
    let sum1 := Nat.xor (Nat.xor (rotrNat e 6) (rotrNat e 11)) (rotrNat e 25)
    let choice := Nat.xor (Nat.land e f) (Nat.land (Nat.sub 4294967295 e) g)
    let t1 := Nat.add (Nat.add (Nat.add (Nat.add h sum1) choice) input.1) input.2
    let sum0 := Nat.xor (Nat.xor (rotrNat a 2) (rotrNat a 13)) (rotrNat a 22)
    let t2 := Nat.add sum0 (Nat.xor (Nat.xor (Nat.land a b) (Nat.land a c)) (Nat.land b c))
    [Nat.mod (Nat.add t1 t2) 4294967296, a, b, c, Nat.mod (Nat.add d t1) 4294967296, e, f, g]
  | _ => state

def transformNat (state : List ℕ) (block : Bytes) : List ℕ :=
  let words := (scheduleNat 48 (blockNat block).reverse).reverse
  let mixed := ((constants.map UInt32.toNat).zip words).foldl roundNat state
  zipWith (fun first second => Nat.mod (Nat.add first second) 4294967296) state mixed

def hexNat (word : ℕ) : List Char :=
  (List.range 8).map fun index => hexDigits.getD (word / 16 ^ (7 - index) % 16) '0'

/-- The state after the first blocks of a message. -/
def absorbNat (state : List ℕ) (message : Bytes) : ℕ → List ℕ
  | 0 => state
  | n + 1 => absorbNat (transformNat state (message.take 64)) (message.drop 64) n

def digestNat (message : Bytes) : String :=
  let padded := message ++ padding message.length
  let state := absorbNat (initial.words.map UInt32.toNat) padded (padded.length / 64)
  String.ofList (state.flatMap hexNat)

theorem toNat_rotr (word : UInt32) {count : UInt32} (h : 0 < count.toNat ∧ count.toNat < 32) :
    (rotr word count).toNat = rotrNat word.toNat count.toNat := by
  have hback : (32 - count).toNat = 32 - count.toNat :=
    UInt32.toNat_sub_of_le _ _ (UInt32.le_iff_toNat_le.2 h.2.le)
  rw [rotr, UInt32.toNat_or, UInt32.toNat_shiftRight, UInt32.toNat_shiftLeft, hback,
    Nat.mod_eq_of_lt h.2, Nat.mod_eq_of_lt (a := 32 - count.toNat) (by omega)]
  rfl

theorem toNat_blockWords (block : Bytes) :
    (blockWords block).map UInt32.toNat = blockNat block := by
  induction block using blockWords.induct with
  | case1 a b c d rest ih =>
    rw [blockWords, blockNat, map_cons, ih]
    simp
    rfl
  | case2 block h =>
    rw [blockWords, blockNat]
    · rfl
    · exact h
    · exact h

theorem toNat_getD (words : List UInt32) (index : ℕ) :
    (words.getD index 0).toNat = (words.map UInt32.toNat).getD index 0 :=
  (getD_map (f := UInt32.toNat) (d := 0) ..).symm

theorem nextNat_eq (words : List ℕ) : nextNat words =
    (words.getD 15 0 + (rotrNat (words.getD 14 0) 7 ^^^ rotrNat (words.getD 14 0) 18 ^^^
      words.getD 14 0 >>> 3) + words.getD 6 0 + (rotrNat (words.getD 1 0) 17 ^^^
      rotrNat (words.getD 1 0) 19 ^^^ words.getD 1 0 >>> 10)) % 4294967296 := by
  have hback : ∀ count, (words.drop count).headD 0 = words.getD count 0 := by
    intro count
    rw [headD_eq_head?_getD, head?_drop, getD_eq_getElem?_getD]
  rw [← hback, ← hback, ← hback, ← hback]
  simp only [nextNat, ← drop_one, drop_drop]
  rfl

theorem toNat_schedule (n : ℕ) (words : List UInt32) :
    (Sha256.schedule n words).map UInt32.toNat = scheduleNat n (words.map UInt32.toNat) := by
  induction n generalizing words with
  | zero => rfl
  | succ n ih =>
    rw [Sha256.schedule, ih, scheduleNat, map_cons, nextNat_eq]
    simp only [← toNat_getD]
    simp (disch := decide) [toNat_rotr]

theorem toNat_round (state : List UInt32) (input : UInt32 × UInt32) :
    (Sha256.round state input).map UInt32.toNat =
      roundNat (state.map UInt32.toNat) (input.1.toNat, input.2.toNat) := by
  unfold Sha256.round
  split
  · simp (disch := decide) [roundNat, toNat_rotr]
    exact ⟨rfl, rfl⟩
  · rename_i hlen
    rcases state with _ | ⟨a, _ | ⟨b, _ | ⟨c, _ | ⟨d, _ | ⟨e, _ | ⟨f, _ | ⟨g, _ | ⟨h, _ | ⟨i, rest⟩⟩⟩⟩⟩⟩⟩⟩⟩
    all_goals first | rfl | exact absurd rfl (hlen _ _ _ _ _ _ _ _)

theorem toNat_rounds (inputs : List (UInt32 × UInt32)) (state : List UInt32) :
    (inputs.foldl Sha256.round state).map UInt32.toNat =
      (inputs.map (Prod.map UInt32.toNat UInt32.toNat)).foldl roundNat
        (state.map UInt32.toNat) := by
  induction inputs generalizing state with
  | nil => rfl
  | cons input _ ih => rw [foldl_cons, ih, toNat_round, map_cons, foldl_cons, Prod.map]

theorem toNat_transform (hasher : Hasher) : (transform hasher).state.map UInt32.toNat =
    transformNat (hasher.state.map UInt32.toNat) hasher.block := by
  have hwords := toNat_schedule 48 (blockWords hasher.block).reverse
  rw [map_reverse, toNat_blockWords] at hwords
  rw [transform, transformNat, ← hwords, ← map_reverse, zip_map, ← toNat_rounds,
    map_zipWith, zipWith_map]
  simp only [UInt32.toNat_add]
  rfl

/-- Compressing whole blocks is transforming the words of the state. -/
theorem toNat_compress (blocks : List Bytes) (hash : Registers)
    (h : ∀ block ∈ blocks, block.length = 64) :
    (blocks.foldl compress hash).words.map UInt32.toNat =
      blocks.foldl transformNat (hash.words.map UInt32.toNat) := by
  induction blocks generalizing hash with
  | nil => rfl
  | cons block blocks ih =>
    have hstep : (transform { state := hash.words, block := block }).state =
        (compress hash block).words := transform_eq rfl (h block mem_cons_self)
    rw [foldl_cons, foldl_cons, ih _ fun other hmem => h other (mem_cons_of_mem _ hmem), ← hstep,
      toNat_transform]

theorem length_blockAt {message : Bytes} {index : ℕ} (h : index < message.length / 64) :
    (blockAt message index).length = 64 := by
  rw [blockAt, length_take, length_drop]
  omega

theorem absorbNat_eq (n : ℕ) (state : List ℕ) (message : Bytes) :
    absorbNat state message n = ((List.range n).map (blockAt message)).foldl transformNat state := by
  induction n generalizing state message with
  | zero => rfl
  | succ n ih =>
    have hnext : blockAt message ∘ Nat.succ = blockAt (message.drop 64) := by
      funext index
      rw [Function.comp_apply, blockAt, blockAt, drop_drop, Nat.succ_eq_add_one, Nat.mul_add_one,
        Nat.add_comm]
    rw [absorbNat, ih, range_succ_eq_map, map_cons, foldl_cons, map_map, hnext]
    rfl

theorem digest_eq_digestNat {message : Bytes} (h : message.length < 2 ^ 61) :
    Sha256.digest message = digestNat message := by
  have hwords := toNat_compress
    ((List.range ((message ++ padding message.length).length / 64)).map
      (blockAt (message ++ padding message.length))) initial (by
        intro block hmem
        obtain ⟨index, hidx, rfl⟩ := mem_map.1 hmem
        exact length_blockAt (mem_range.1 hidx))
  rw [Sha256.digest, last_state (absorbed_update message) h, digestNat]
  rw [absorbNat_eq, ← hwords, ← hashed, flatMap_map]
  rfl

end Sha256Evaluation
