import Mathlib

/-! # SHA-256

The digest is fed byte by byte into blocks of 64 bytes. A full block is folded into the state
at once, so that fewer than 64 bytes are held back between two updates, and what is held back
depends only on the bytes, not on how they were handed over. -/
namespace Sha256

open List

abbrev Bytes := List UInt8

/-- The big-endian bytes of a number. -/
def bigEndian (width value : ℕ) : Bytes :=
  (List.range width).map fun index => UInt8.ofNat (value / 256 ^ (width - 1 - index))

structure Hasher where
  state : List UInt32 := [0x6a09e667, 0xbb67ae85, 0x3c6ef372, 0xa54ff53a,
    0x510e527f, 0x9b05688c, 0x1f83d9ab, 0x5be0cd19]
  block : Bytes := []
  byteCount : UInt64 := 0

def constants : List UInt32 := [
  0x428a2f98, 0x71374491, 0xb5c0fbcf, 0xe9b5dba5, 0x3956c25b, 0x59f111f1, 0x923f82a4, 0xab1c5ed5,
  0xd807aa98, 0x12835b01, 0x243185be, 0x550c7dc3, 0x72be5d74, 0x80deb1fe, 0x9bdc06a7, 0xc19bf174,
  0xe49b69c1, 0xefbe4786, 0x0fc19dc6, 0x240ca1cc, 0x2de92c6f, 0x4a7484aa, 0x5cb0a9dc, 0x76f988da,
  0x983e5152, 0xa831c66d, 0xb00327c8, 0xbf597fc7, 0xc6e00bf3, 0xd5a79147, 0x06ca6351, 0x14292967,
  0x27b70a85, 0x2e1b2138, 0x4d2c6dfc, 0x53380d13, 0x650a7354, 0x766a0abb, 0x81c2c92e, 0x92722c85,
  0xa2bfe8a1, 0xa81a664b, 0xc24b8b70, 0xc76c51a3, 0xd192e819, 0xd6990624, 0xf40e3585, 0x106aa070,
  0x19a4c116, 0x1e376c08, 0x2748774c, 0x34b0bcb5, 0x391c0cb3, 0x4ed8aa4a, 0x5b9cca4f, 0x682e6ff3,
  0x748f82ee, 0x78a5636f, 0x84c87814, 0x8cc70208, 0x90befffa, 0xa4506ceb, 0xbef9a3f7, 0xc67178f2]

def rotr (word : UInt32) (count : UInt32) : UInt32 :=
  (word >>> count) ||| (word <<< (32 - count))

def blockWords : Bytes → List UInt32
  | a :: b :: c :: d :: rest =>
    (a.toUInt32 <<< 24 ||| b.toUInt32 <<< 16 ||| c.toUInt32 <<< 8 ||| d.toUInt32) :: blockWords rest
  | _ => []

/-- More words of the schedule; the latest stands first. -/
def schedule : ℕ → List UInt32 → List UInt32
  | 0, words => words
  | n + 1, words =>
    let early := words.getD 14 0
    let late := words.getD 1 0
    let s0 := rotr early 7 ^^^ rotr early 18 ^^^ (early >>> 3)
    let s1 := rotr late 17 ^^^ rotr late 19 ^^^ (late >>> 10)
    schedule n ((words.getD 15 0 + s0 + words.getD 6 0 + s1) :: words)

def round (state : List UInt32) (input : UInt32 × UInt32) : List UInt32 :=
  match state with
  | [a, b, c, d, e, f, g, h] =>
    let sum1 := rotr e 6 ^^^ rotr e 11 ^^^ rotr e 25
    let choice := (e &&& f) ^^^ (~~~ e &&& g)
    let t1 := h + sum1 + choice + input.1 + input.2
    let sum0 := rotr a 2 ^^^ rotr a 13 ^^^ rotr a 22
    let t2 := sum0 + ((a &&& b) ^^^ (a &&& c) ^^^ (b &&& c))
    [t1 + t2, a, b, c, d + t1, e, f, g]
  | _ => state

def transform (hasher : Hasher) : Hasher :=
  let words := (schedule 48 (blockWords hasher.block).reverse).reverse
  let mixed := (constants.zip words).foldl round hasher.state
  { hasher with state := hasher.state.zipWith (· + ·) mixed, block := [] }

def updateByte (hasher : Hasher) (value : UInt8) : Hasher :=
  let hasher := { hasher with
    block := hasher.block ++ [value]
    byteCount := hasher.byteCount + 1 }
  if hasher.block.length = 64 then transform hasher else hasher

def update (hasher : Hasher) (bytes : Bytes) : Hasher := bytes.foldl updateByte hasher

def hexDigits : List Char :=
  ['0', '1', '2', '3', '4', '5', '6', '7', '8', '9', 'a', 'b', 'c', 'd', 'e', 'f']

def hexWord (word : UInt32) : List Char :=
  (List.range 8).map fun index => hexDigits.getD (word.toNat / 16 ^ (7 - index) % 16) '0'

def padTo (size : ℕ) (block : Bytes) : Bytes := block ++ List.replicate (size - block.length) 0

def finish (hasher : Hasher) : String :=
  let bitCount := hasher.byteCount * 8
  let marked := { hasher with block := hasher.block ++ [0x80] }
  let started := if 56 < marked.block.length then
      transform { marked with block := padTo 64 marked.block }
    else marked
  let last := transform { started with
    block := padTo 56 started.block ++ bigEndian 8 bitCount.toNat }
  String.ofList (last.state.flatMap hexWord)

def digest (bytes : Bytes) : String := finish (update {} bytes)

theorem update_append (hasher : Hasher) (first second : Bytes) :
    update (update hasher first) second = update hasher (first ++ second) := by
  unfold update
  rw [foldl_append]

variable {hasher : Hasher}

theorem updateByte_block (h : hasher.block.length < 64) (value : UInt8) :
    (updateByte hasher value).block.length < 64 := by
  unfold updateByte
  dsimp only
  split_ifs with hfull
  · simp [transform]
  · simp only [length_append, length_singleton] at hfull ⊢
    omega

/-- Between two updates the block has room left. -/
theorem update_block (h : hasher.block.length < 64) (bytes : Bytes) :
    (update hasher bytes).block.length < 64 := by
  induction bytes generalizing hasher with
  | nil => exact h
  | cons value _ ih => exact ih (updateByte_block h value)

theorem round_length {state : List UInt32} (h : state.length = 8) (input : UInt32 × UInt32) :
    (round state input).length = 8 := by
  unfold round
  split
  · rfl
  · exact h

theorem rounds_length (inputs : List (UInt32 × UInt32)) {state : List UInt32}
    (h : state.length = 8) : (inputs.foldl round state).length = 8 := by
  induction inputs generalizing state with
  | nil => exact h
  | cons input _ ih => exact ih (round_length h input)

theorem transform_length (h : hasher.state.length = 8) : (transform hasher).state.length = 8 := by
  have hm := rounds_length
    (constants.zip (schedule 48 (blockWords hasher.block).reverse).reverse) h
  simp only [transform, length_zipWith, h, hm, min_self]

theorem updateByte_length (h : hasher.state.length = 8) (value : UInt8) :
    (updateByte hasher value).state.length = 8 := by
  unfold updateByte
  dsimp only
  split
  · exact transform_length h
  · exact h

theorem update_length (bytes : Bytes) (h : hasher.state.length = 8) :
    (update hasher bytes).state.length = 8 := by
  induction bytes generalizing hasher with
  | nil => exact h
  | cons value _ ih => exact ih (updateByte_length h value)

theorem finish_words (h : hasher.state.length = 8) : ∃ words : List UInt32, words.length = 8 ∧
      finish hasher = String.ofList (words.flatMap hexWord) := by
  unfold finish
  refine ⟨_, transform_length ?_, rfl⟩
  split
  · exact transform_length h
  · exact h

theorem length_hexWords (words : List UInt32) :
    (words.flatMap hexWord).length = 8 * words.length := by
  induction words with
  | nil => rfl
  | cons word _ ih =>
    have hw : (hexWord word).length = 8 := by simp [hexWord]
    rw [flatMap_cons, length_append, ih, hw, length_cons]
    omega

theorem mem_hexDigits_of_mem_hexWord {word : UInt32} {c : Char} (h : c ∈ hexWord word) :
    c ∈ hexDigits := by
  obtain ⟨index, -, rfl⟩ := mem_map.1 h
  have hlt : word.toNat / 16 ^ (7 - index) % 16 < hexDigits.length := Nat.mod_lt _ (by decide)
  rw [getD_eq_getElem _ _ hlt]
  exact getElem_mem hlt

theorem utf8ByteSize_ofList_hex {cs : List Char} (h : ∀ c ∈ cs, c ∈ hexDigits) :
    (String.ofList cs).utf8ByteSize = cs.length := by
  induction cs with
  | nil => rfl
  | cons c cs ih =>
    have hc : c.utf8Size = 1 := by
      have := h c mem_cons_self
      revert this
      unfold hexDigits
      simp only [mem_cons, not_mem_nil, or_false]
      rintro (rfl | rfl | rfl | rfl | rfl | rfl | rfl | rfl | rfl | rfl | rfl | rfl | rfl | rfl |
        rfl | rfl) <;> decide
    have hs : String.ofList (c :: cs) = String.singleton c ++ String.ofList cs := by
      rw [String.singleton_eq_ofList, ← String.ofList_append]
      rfl
    rw [hs, String.utf8ByteSize_append, ih fun d hd => h d (mem_cons_of_mem _ hd),
      String.utf8ByteSize_singleton, hc, length_cons]
    omega

/-- Every digest is 64 bytes of lower-case hexadecimal digits. -/
theorem digest_shape (bytes : Bytes) :
    (digest bytes).utf8ByteSize = 64 ∧ ∀ c ∈ (digest bytes).toList, c ∈ hexDigits := by
  obtain ⟨words, hlen, hd⟩ := finish_words (update_length bytes (show ({} : Hasher).state.length = 8
    from rfl))
  have hmem : ∀ c ∈ words.flatMap hexWord, c ∈ hexDigits := by
    intro c hc
    obtain ⟨_, -, hw⟩ := mem_flatMap.1 hc
    exact mem_hexDigits_of_mem_hexWord hw
  unfold digest
  rw [hd]
  constructor
  · rw [utf8ByteSize_ofList_hex hmem, length_hexWords, hlen]
  · rw [String.toList_ofList]
    exact hmem

example : digest "abc".toUTF8.toList =
    "ba7816bf8f01cfea414140de5dae2223b00361a396177a9cb410ff61f20015ad" := by decide +kernel

end Sha256
