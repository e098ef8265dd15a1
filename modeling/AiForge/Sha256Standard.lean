import AiForge.Sha256

/-! # The digest of the standard

SHA-256 as FIPS 180-4 defines it: padding, message schedule, compression and digest, with the
constants as fractional parts of roots of primes. The code writes into a buffer of 64 bytes at a
cursor; here every index of that buffer is checked. -/
namespace Sha256Standard
open List Sha256

/-- The first 64 primes. -/
def primes : List ℕ := [2, 3, 5, 7, 11, 13, 17, 19, 23, 29, 31, 37, 41, 43, 47, 53, 59, 61, 67, 71,
  73, 79, 83, 89, 97, 101, 103, 107, 109, 113, 127, 131, 137, 139, 149, 151, 157, 163, 167, 173,
  179, 181, 191, 193, 197, 199, 211, 223, 227, 229, 233, 239, 241, 251, 257, 263, 269, 271, 277,
  281, 283, 293, 307, 311]

/-- The first 32 bits of the fractional parts of the cube roots of the first 64 primes. -/
def k : List UInt32 := primes.map fun p => UInt32.ofNat (Nat.nthRoot 3 (p * 2 ^ 96))

structure Registers where
  (a b c d e f g h : UInt32)

def Registers.words (r : Registers) : List UInt32 := [r.a, r.b, r.c, r.d, r.e, r.f, r.g, r.h]

/-- The first 32 bits of the fractional part of the square root of a prime. -/
def root (index : ℕ) : UInt32 := UInt32.ofNat (Nat.sqrt (primes.getD index 0 * 2 ^ 64))

def initial : Registers := ⟨root 0, root 1, root 2, root 3, root 4, root 5, root 6, root 7⟩

def word (block : Bytes) (t : ℕ) : UInt32 :=
  UInt32.ofNat (((block.drop (4 * t)).take 4).foldl (fun value byte => value * 256 + byte.toNat) 0)

def schedule (block : Bytes) (t : ℕ) : UInt32 :=
  if t < 16 then word block t
  else
    let early := schedule block (t - 15)
    let late := schedule block (t - 2)
    (rotr late 17 ^^^ rotr late 19 ^^^ (late >>> 10)) + schedule block (t - 7) +
      (rotr early 7 ^^^ rotr early 18 ^^^ (early >>> 3)) + schedule block (t - 16)

def round (block : Bytes) (r : Registers) (t : ℕ) : Registers :=
  let t1 := r.h + (rotr r.e 6 ^^^ rotr r.e 11 ^^^ rotr r.e 25) +
    ((r.e &&& r.f) ^^^ (~~~ r.e &&& r.g)) + k.getD t 0 + schedule block t
  let t2 := (rotr r.a 2 ^^^ rotr r.a 13 ^^^ rotr r.a 22) +
    ((r.a &&& r.b) ^^^ (r.a &&& r.c) ^^^ (r.b &&& r.c))
  ⟨t1 + t2, r.a, r.b, r.c, r.d + t1, r.e, r.f, r.g⟩

def compress (hash : Registers) (block : Bytes) : Registers :=
  let r := (List.range 64).foldl (round block) hash
  ⟨r.a + hash.a, r.b + hash.b, r.c + hash.c, r.d + hash.d, r.e + hash.e, r.f + hash.f,
    r.g + hash.g, r.h + hash.h⟩

/-- A bit, zeros up to the last eight bytes of a block and the length in bits. -/
def padding (length : ℕ) : Bytes :=
  0x80 :: List.replicate ((119 - length % 64) % 64) 0 ++ bigEndian 8 (8 * length)

def blockAt (message : Bytes) (index : ℕ) : Bytes := (message.drop (64 * index)).take 64

def hashed (message : Bytes) : Registers :=
  ((List.range (message.length / 64)).map (blockAt message)).foldl compress initial

def hexByte (byte : UInt8) : List Char :=
  [Nat.digitChar (byte.toNat / 16), Nat.digitChar (byte.toNat % 16)]

def digest (message : Bytes) : String :=
  let hash := hashed (message ++ padding message.length)
  String.ofList ((hash.words.flatMap fun word => bigEndian 4 word.toNat).flatMap hexByte)

theorem word_zero (a b c d : UInt8) (rest : Bytes) : word (a :: b :: c :: d :: rest) 0 =
    (a.toUInt32 <<< 24 ||| b.toUInt32 <<< 16 ||| c.toUInt32 <<< 8 ||| d.toUInt32) := by
  have ha := a.toNat_lt
  have hb := b.toNat_lt
  have hc := c.toNat_lt
  have hd := d.toNat_lt
  have hsplit : (((0 * 256 + a.toNat) * 256 + b.toNat) * 256 + c.toNat) * 256 + d.toNat =
      a.toNat <<< 24 ||| (b.toNat <<< 16 ||| (c.toNat <<< 8 ||| d.toNat)) := by
    rw [← Nat.shiftLeft_add_eq_or_of_lt (show d.toNat < 2 ^ 8 from hd),
      ← Nat.shiftLeft_add_eq_or_of_lt (show c.toNat <<< 8 + d.toNat < 2 ^ 16 by
        rw [Nat.shiftLeft_eq]
        omega),
      ← Nat.shiftLeft_add_eq_or_of_lt (show b.toNat <<< 16 + (c.toNat <<< 8 + d.toNat) < 2 ^ 24 by
        rw [Nat.shiftLeft_eq, Nat.shiftLeft_eq]
        omega)]
    omega
  have hshift : ∀ (byte : UInt8) (count : ℕ), count ≤ 24 →
      byte.toNat <<< count % 2 ^ 32 = byte.toNat <<< count := by
    intro byte count hcnt
    have hbyte := byte.toNat_lt
    rw [Nat.shiftLeft_eq, Nat.mod_eq_of_lt]
    calc byte.toNat * 2 ^ count < 2 ^ 8 * 2 ^ count := by gcongr
      _ = 2 ^ (8 + count) := (pow_add 2 8 count).symm
      _ ≤ 2 ^ 32 := Nat.pow_le_pow_right (by norm_num) (by omega)
  rw [← UInt32.toNat_inj]
  simp only [UInt32.toNat_or, UInt32.toNat_shiftLeft, UInt8.toNat_toUInt32, UInt32.reduceToNat,
    Nat.reduceMod]
  rw [hshift a 24 (by norm_num), hshift b 16 (by norm_num), hshift c 8 (by norm_num),
    Nat.or_assoc, Nat.or_assoc, ← hsplit]
  simp only [word, drop_zero, Nat.mul_zero, take_succ_cons, take_zero,
    foldl_cons, foldl_nil, UInt32.toNat_ofNat']
  omega

theorem blockWords_eq {n : ℕ} {block : Bytes} (h : block.length = 4 * n) :
    Sha256.blockWords block = (List.range n).map (word block) := by
  induction n generalizing block with
  | zero =>
    obtain rfl := eq_nil_of_length_eq_zero h
    rfl
  | succ _ ih =>
    rcases block with _ | ⟨_, _ | ⟨_, _ | ⟨_, _ | ⟨_, _⟩⟩⟩⟩
    · simp at h
    · simp at h
      omega
    · simp at h
      omega
    · simp at h
      omega
    · rw [Sha256.blockWords, range_succ_eq_map, map_cons, map_map, word_zero,
        ih (by simp at h; omega)]
      rfl

theorem schedule_getD (block : Bytes) {t back : ℕ} (h : back < t) :
    ((List.range t).map (schedule block)).reverse.getD back 0 = schedule block (t - 1 - back) := by
  rw [getD_eq_getElem _ _ (by simpa using h)]
  simp

/-- The program keeps the latest word in front. -/
theorem schedule_eq (block : Bytes) {n t : ℕ} (h : 16 ≤ t) :
    Sha256.schedule n ((List.range t).map (schedule block)).reverse =
      ((List.range (t + n)).map (schedule block)).reverse := by
  induction n generalizing t with
  | zero => rfl
  | succ n ih =>
    have hnext : schedule block t = schedule block (t - 16) +
        (rotr (schedule block (t - 15)) 7 ^^^ rotr (schedule block (t - 15)) 18 ^^^
          (schedule block (t - 15) >>> 3)) + schedule block (t - 7) +
        (rotr (schedule block (t - 2)) 17 ^^^ rotr (schedule block (t - 2)) 19 ^^^
          (schedule block (t - 2) >>> 10)) := by
      conv_lhs => rw [schedule, if_neg (by omega)]
      dsimp only
      ac_rfl
    rw [Sha256.schedule, schedule_getD block (by omega), schedule_getD block (by omega),
      schedule_getD block (by omega), schedule_getD block (by omega)]
    rw [show t - 1 - 15 = t - 16 by omega, show t - 1 - 14 = t - 15 by omega,
      show t - 1 - 6 = t - 7 by omega, show t - 1 - 1 = t - 2 by omega, ← hnext,
      show t + (n + 1) = t + 1 + n by omega, ← ih (by omega), range_succ,
      map_append, reverse_append]
    rfl

theorem words_eq {block : Bytes} (h : block.length = 64) :
    (Sha256.schedule 48 (Sha256.blockWords block).reverse).reverse =
      (List.range 64).map (schedule block) := by
  have hwords : (List.range 16).map (word block) = (List.range 16).map (schedule block) := by
    refine map_congr_left fun t ht => ?_
    rw [schedule, if_pos (mem_range.1 ht)]
  rw [blockWords_eq (n := 16) h, hwords, schedule_eq block (Nat.le_refl 16), reverse_reverse]

theorem constants_eq : Sha256.constants = k := by decide +kernel

theorem initial_eq : ({} : Sha256.Hasher).state = initial.words := by decide +kernel

theorem constants_map : Sha256.constants = (List.range 64).map fun t => k.getD t 0 := by
  rw [← constants_eq]
  decide +kernel

theorem rounds_eq (block : Bytes) (ts : List ℕ) (r : Registers) :
    (ts.map fun t => (k.getD t 0, schedule block t)).foldl Sha256.round r.words =
      (ts.foldl (round block) r).words := by
  induction ts generalizing r with
  | nil => rfl
  | cons t _ ih => exact ih (round block r t)

/-- The transformation of the buffer is the compression of a block. -/
theorem transform_eq {hasher : Sha256.Hasher} {hash : Registers}
    (hst : hasher.state = hash.words) (hblk : hasher.block.length = 64) :
    (Sha256.transform hasher).state = (compress hash hasher.block).words := by
  have hinputs : Sha256.constants.zip ((List.range 64).map (schedule hasher.block)) =
      (List.range 64).map fun t => (k.getD t 0, schedule hasher.block t) := by
    rw [constants_map, zip_map']
  rw [Sha256.transform, words_eq hblk, hinputs, hst, rounds_eq]
  simp only [compress, Registers.words, zipWith_cons_cons, zipWith_nil_left,
    UInt32.add_comm]

section Blocks

variable {message rest : Bytes}

/-- What stands behind the whole blocks. -/
def tail (message : Bytes) : Bytes := message.drop (64 * (message.length / 64))

theorem tail_length : (tail message).length = message.length % 64 := by
  rw [tail, length_drop]
  omega

theorem blocks_append {count : ℕ} (h : 64 * count ≤ message.length) :
    (List.range count).map (blockAt (message ++ rest)) =
      (List.range count).map (blockAt message) := by
  refine map_congr_left fun index hidx => ?_
  have hlt := mem_range.1 hidx
  rw [blockAt, blockAt, drop_append_of_le_length (by omega),
    take_append_of_le_length (by rw [length_drop]; omega)]

theorem hashed_within (h : message.length % 64 + rest.length < 64) :
    hashed (message ++ rest) = hashed message ∧ tail (message ++ rest) = tail message ++ rest := by
  have hcnt : (message ++ rest).length / 64 = message.length / 64 := by
    rw [length_append]
    omega
  rw [hashed, hashed, tail, tail, hcnt, blocks_append (by omega),
    drop_append_of_le_length (by omega)]
  exact ⟨rfl, rfl⟩

theorem hashed_full (h : message.length % 64 + rest.length = 64) :
    hashed (message ++ rest) = compress (hashed message) (tail message ++ rest) ∧
      tail (message ++ rest) = [] := by
  have hcnt : (message ++ rest).length / 64 = message.length / 64 + 1 := by
    rw [length_append]
    omega
  have hlast : blockAt (message ++ rest) (message.length / 64) = tail message ++ rest := by
    rw [blockAt, drop_append_of_le_length (by omega), ← tail, take_of_length_le]
    rw [length_append, tail_length, h]
  constructor
  · rw [hashed, hcnt, range_succ, map_append, blocks_append (by omega),
      foldl_append, map_singleton, hlast]
    rfl
  · rw [tail, hcnt, drop_eq_nil_of_le]
    rw [length_append]
    omega

/-- The hasher holds the hash of the whole blocks and the bytes behind them. -/
structure Absorbed (hasher : Sha256.Hasher) (message : Bytes) : Prop where
  state : hasher.state = (hashed message).words
  block : hasher.block = tail message
  byteCount : hasher.byteCount = UInt64.ofNat message.length

theorem absorbed_update (message : Bytes) : Absorbed (Sha256.update {} message) message := by
  induction message using List.reverseRecOn with
  | nil => exact ⟨initial_eq, rfl, rfl⟩
  | append_singleton message value ih =>
    have hblk := congrArg List.length ih.block
    rw [tail_length] at hblk
    have hcnt : (Sha256.update {} message).byteCount + 1 =
        UInt64.ofNat (message ++ [value]).length := by
      rw [ih.byteCount, length_append, length_singleton, UInt64.ofNat_add]
      rfl
    rw [Sha256.update, foldl_append, foldl_cons, foldl_nil, ← Sha256.update,
      Sha256.updateByte]
    rw [length_append, length_singleton, hblk]
    split
    · rename_i hfull
      obtain ⟨hhash, htail⟩ := hashed_full
        (show message.length % 64 + [value].length = 64 from hfull)
      refine ⟨?_, htail.symm, hcnt⟩
      rw [hhash, ← ih.block]
      refine transform_eq ih.state ?_
      rw [length_append, length_singleton, hblk, hfull]
    · rename_i hroom
      obtain ⟨hhash, htail⟩ := hashed_within
        (show message.length % 64 + [value].length < 64 by rw [length_singleton]; omega)
      exact ⟨hhash ▸ ih.state, by rw [htail, ih.block], hcnt⟩

theorem hexWord_eq (w : UInt32) : Sha256.hexWord w = (bigEndian 4 w.toNat).flatMap hexByte := by
  have hdigit : ∀ value < 16, Sha256.hexDigits.getD value '0' = Nat.digitChar value := by decide
  have hhex : Sha256.hexWord w =
      (List.range 8).map fun index => Nat.digitChar (w.toNat / 16 ^ (7 - index) % 16) :=
    map_congr_left fun index _ => hdigit _ (Nat.mod_lt _ (by norm_num))
  rw [hhex]
  simp only [bigEndian, range_succ, range_zero, nil_append, cons_append,
    map_cons, map_nil, flatMap_cons, flatMap_nil, hexByte,
    UInt8.toNat_ofNat', List.cons.injEq, and_true]
  norm_num only
  refine ⟨?_, ?_, ?_, ?_, ?_, ?_, ?_, ?_⟩ <;> congr 1 <;> omega

theorem length_bigEndian (width value : ℕ) : (bigEndian width value).length = width := by
  simp [bigEndian]

theorem last_state {hasher : Sha256.Hasher} (h : Absorbed hasher message)
    (hsh : message.length < 2 ^ 61) : Sha256.finish hasher = String.ofList
      ((hashed (message ++ padding message.length)).words.flatMap Sha256.hexWord) := by
  have hbits : (hasher.byteCount * 8).toNat = 8 * message.length := by
    rw [h.byteCount, UInt64.toNat_mul, UInt64.toNat_ofNat',
      show (8 : UInt64).toNat = 8 from rfl]
    omega
  have hlen := congrArg List.length h.block
  rw [tail_length] at hlen
  rw [Sha256.finish, hbits]
  rw [length_append, length_singleton, hlen]
  split
  · rename_i hlate
    have hpadding : padding message.length =
        (0x80 :: List.replicate (63 - message.length % 64) 0) ++
          (List.replicate 56 0 ++ bigEndian 8 (8 * message.length)) := by
      rw [padding, show (119 - message.length % 64) % 64 = 63 - message.length % 64 + 56 by omega,
        replicate_add]
      simp
    have hpad : Sha256.padTo 64 (hasher.block ++ [0x80]) =
        tail message ++ (0x80 :: List.replicate (63 - message.length % 64) 0) := by
      rw [Sha256.padTo, length_append, length_singleton, hlen, h.block,
        append_assoc, show 64 - (message.length % 64 + 1) = 63 - message.length % 64 by omega]
      rfl
    have hfull : message.length % 64 +
        (0x80 :: List.replicate (63 - message.length % 64) 0 : Bytes).length = 64 := by
      rw [length_cons, length_replicate]
      omega
    obtain ⟨hfst, hnone⟩ := hashed_full hfull
    have hbeg : (Sha256.transform { hasher with
        block := Sha256.padTo 64 (hasher.block ++ [0x80]) }).state =
          (hashed (message ++ (0x80 :: List.replicate (63 - message.length % 64) 0))).words := by
      rw [hfst, ← hpad]
      refine transform_eq h.state ?_
      rw [hpad, length_append, tail_length, hfull]
    have hwhole : (message ++ (0x80 :: List.replicate (63 - message.length % 64) 0)).length % 64 +
        (List.replicate 56 0 ++ bigEndian 8 (8 * message.length)).length = 64 := by
      rw [length_append, length_append, length_replicate, length_bigEndian]
      omega
    obtain ⟨hsnd, -⟩ := hashed_full hwhole
    rw [hnone, nil_append] at hsnd
    rw [hpadding, ← append_assoc, hsnd]
    refine congrArg (fun words : List UInt32 => String.ofList (words.flatMap Sha256.hexWord)) ?_
    refine transform_eq hbeg (show (List.replicate 56 0 ++ _ : Bytes).length = 64 from ?_)
    rw [length_append, length_replicate, length_bigEndian]
  · rename_i hearly
    have hpadding : padding message.length =
        0x80 :: List.replicate (55 - message.length % 64) 0 ++ bigEndian 8 (8 * message.length) := by
      rw [padding, show (119 - message.length % 64) % 64 = 55 - message.length % 64 by omega]
    have hpad : Sha256.padTo 56 (hasher.block ++ [0x80]) ++ bigEndian 8 (8 * message.length) =
        tail message ++ padding message.length := by
      rw [Sha256.padTo, length_append, length_singleton, hlen, h.block, hpadding,
        show 56 - (message.length % 64 + 1) = 55 - message.length % 64 by omega]
      simp
    have hfull : message.length % 64 + (padding message.length).length = 64 := by
      rw [hpadding, length_append, length_cons, length_replicate, length_bigEndian]
      omega
    rw [(hashed_full hfull).1, ← hpad]
    refine congrArg (fun words : List UInt32 => String.ofList (words.flatMap Sha256.hexWord)) ?_
    refine transform_eq h.state ?_
    rw [hpad, length_append, tail_length, hfull]

/-- The digest of the program is the digest of the standard. -/
theorem digest_eq (h : message.length < 2 ^ 61) : Sha256.digest message = digest message := by
  rw [Sha256.digest, last_state (absorbed_update message) h, digest, flatMap_assoc]
  exact congrArg _ (congrArg₂ _ (funext hexWord_eq) rfl)

end Blocks

/-- The hasher with its array of 64 bytes, which keeps what was written before. -/
structure Buffer where
  state : List UInt32 := ({} : Sha256.Hasher).state
  block : Bytes := List.replicate 64 0
  blockSize : ℕ := 0
  byteCount : UInt64 := 0

namespace Buffer

/-- `m_block[m_block_size++] = value` -/
def put (buffer : Buffer) (value : UInt8) : Option Buffer :=
  if buffer.blockSize < buffer.block.length then
    some { buffer with
      block := buffer.block.set buffer.blockSize value
      blockSize := buffer.blockSize + 1 }
  else none

/-- Four bytes are read for each of the sixteen words. -/
def transform (buffer : Buffer) : Option Buffer :=
  if (List.range 16).all fun index => index * 4 + 3 < buffer.block.length then
    some { buffer with
      state := (Sha256.transform { state := buffer.state, block := buffer.block }).state
      blockSize := 0 }
  else none

def updateByte (buffer : Buffer) (value : UInt8) : Option Buffer := do
  let buffer ← buffer.put value
  let buffer := { buffer with byteCount := buffer.byteCount + 1 }
  if buffer.blockSize = buffer.block.length then buffer.transform else some buffer

def update (buffer : Buffer) (bytes : Bytes) : Option Buffer := bytes.foldlM updateByte buffer

/-- The loop that writes zeros up to a limit. -/
def fill (buffer : Buffer) (limit : ℕ) : Option Buffer :=
  (List.replicate (limit - buffer.blockSize) 0).foldlM put buffer

/-- Where the length has no room, the block is completed first. -/
def complete (buffer : Buffer) : Option Buffer :=
  if 56 < buffer.blockSize then (buffer.fill 64).bind transform else some buffer

def finish (buffer : Buffer) : Option String := do
  let bitCount := buffer.byteCount * 8
  let buffer ← buffer.put 0x80
  let buffer ← buffer.complete
  let buffer ← buffer.fill 56
  let buffer ← (bigEndian 8 bitCount.toNat).foldlM put buffer
  let buffer ← buffer.transform
  return String.ofList (buffer.state.flatMap Sha256.hexWord)

/-- The buffer up to its cursor is the block of the hasher. -/
structure Holds (buffer : Buffer) (hasher : Sha256.Hasher) : Prop where
  state : buffer.state = hasher.state
  size : buffer.block.length = 64
  cursor : buffer.blockSize = hasher.block.length
  block : buffer.block.take buffer.blockSize = hasher.block
  byteCount : buffer.byteCount = hasher.byteCount

variable {buffer : Buffer} {hasher : Sha256.Hasher}

section

variable (h : Holds buffer hasher)

include h

theorem Holds.put (hroom : hasher.block.length < 64) (value : UInt8) :
    ∃ next, buffer.put value = some next ∧
      Holds next { hasher with block := hasher.block ++ [value] } := by
  have hin : buffer.blockSize < buffer.block.length := by
    rw [h.cursor, h.size]
    exact hroom
  refine ⟨_, if_pos hin, h.state, ?_, ?_, ?_, h.byteCount⟩
  · rw [length_set, h.size]
  · rw [length_append, length_singleton, h.cursor]
  · rw [take_succ_eq_append_getElem (by rw [length_set]; exact hin),
      getElem_set_self, take_set_of_le (Nat.le_refl _), h.block]

theorem Holds.puts {bytes : Bytes}
    (hroom : hasher.block.length + bytes.length ≤ 64) :
    ∃ next, bytes.foldlM Buffer.put buffer = some next ∧
      Holds next { hasher with block := hasher.block ++ bytes } := by
  induction bytes generalizing buffer hasher with
  | nil =>
    refine ⟨buffer, rfl, ?_⟩
    rw [append_nil]
    exact h
  | cons value bytes ih =>
    rw [length_cons] at hroom
    obtain ⟨_, hput, hmid⟩ := h.put (by omega) value
    have hleft : (hasher.block ++ [value]).length + bytes.length ≤ 64 := by
      rw [length_append, length_singleton]
      omega
    obtain ⟨next, hputs, hnext⟩ := ih hmid hleft
    refine ⟨next, ?_, ?_⟩
    · rw [foldlM_cons, hput]
      exact hputs
    · rw [append_assoc] at hnext
      exact hnext

theorem Holds.transform (hfull : hasher.block.length = 64) :
    ∃ next, buffer.transform = some next ∧ Holds next (Sha256.transform hasher) := by
  have hin : ((List.range 16).all fun index => index * 4 + 3 < buffer.block.length) = true := by
    rw [h.size]
    decide
  have hblk : buffer.block = hasher.block := by
    rw [← h.block, h.cursor, hfull, ← h.size, take_length]
  refine ⟨_, if_pos hin, ?_, h.size, rfl, rfl, h.byteCount⟩
  rw [h.state, hblk]
  rfl

theorem Holds.update (hroom : hasher.block.length < 64) (bytes : Bytes) :
    ∃ next, buffer.update bytes = some next ∧ Holds next (Sha256.update hasher bytes) := by
  induction bytes generalizing buffer hasher with
  | nil => exact ⟨buffer, rfl, h⟩
  | cons value _ ih =>
    obtain ⟨middle, hput, hmid⟩ := h.put hroom value
    obtain ⟨next, hbyte, hnext⟩ : ∃ next, buffer.updateByte value = some next ∧
        Holds next (Sha256.updateByte hasher value) := by
      have hcnt : Holds { middle with byteCount := middle.byteCount + 1 } { hasher with
          block := hasher.block ++ [value]
          byteCount := hasher.byteCount + 1 } :=
        ⟨hmid.state, hmid.size, hmid.cursor, hmid.block,
          congrArg (· + 1) hmid.byteCount⟩
      have hfull : middle.blockSize = middle.block.length ↔
          (hasher.block ++ [value]).length = 64 := by rw [hmid.cursor, hmid.size]
      rw [updateByte, hput, Option.bind_eq_bind, Option.bind_some, Sha256.updateByte]
      simp only [hfull]
      split
      · rename_i hlast
        exact hcnt.transform hlast
      · exact ⟨_, rfl, hcnt⟩
    obtain ⟨last, hlast, hholds⟩ := ih hnext (Sha256.updateByte_block hroom value)
    refine ⟨last, ?_, hholds⟩
    rw [Buffer.update, foldlM_cons, hbyte]
    exact hlast

theorem Holds.fill {limit : ℕ} (hlim : limit ≤ 64)
    (hroom : hasher.block.length ≤ 64) : ∃ next, buffer.fill limit = some next ∧
      Holds next { hasher with block := Sha256.padTo limit hasher.block } := by
  rw [Buffer.fill, h.cursor]
  refine h.puts ?_
  rw [length_replicate]
  omega

theorem Holds.finish (hroom : hasher.block.length < 64) :
    buffer.finish = some (Sha256.finish hasher) := by
  obtain ⟨marked, hput, hmark⟩ := h.put hroom 0x80
  have hsize : (hasher.block ++ [0x80]).length = hasher.block.length + 1 := length_append
  rw [Buffer.finish, hput, h.byteCount, Option.bind_eq_bind, Option.bind_some, Sha256.finish]
  generalize hstarted : (if 56 < (hasher.block ++ [0x80]).length then
    Sha256.transform { hasher with block := Sha256.padTo 64 (hasher.block ++ [0x80]) }
    else { hasher with block := hasher.block ++ [0x80] }) = started
  have hbeg : ∃ next, marked.complete = some next ∧ Holds next started ∧
      started.block.length ≤ 56 := by
    subst hstarted
    rw [complete, hmark.cursor]
    split
    · obtain ⟨_, hfill, hfilled⟩ := hmark.fill (Nat.le_refl 64) (by rw [hsize]; omega)
      have hfull : (Sha256.padTo 64 (hasher.block ++ [0x80])).length = 64 := by
        rw [Sha256.padTo, length_append, length_replicate, hsize]
        omega
      obtain ⟨next, hnext, hholds⟩ := hfilled.transform hfull
      exact ⟨next, by rw [hfill, Option.bind_some, hnext], hholds, Nat.zero_le 56⟩
    · rename_i hsh
      exact ⟨marked, rfl, hmark, Nat.le_of_not_lt hsh⟩
  obtain ⟨next, hnext, hholds, hsh⟩ := hbeg
  obtain ⟨_, hfill, hfilled⟩ := hholds.fill (show 56 ≤ 64 by norm_num) (by omega)
  have hpad : (Sha256.padTo 56 started.block).length = 56 := by
    rw [Sha256.padTo, length_append, length_replicate]
    omega
  have height : (Sha256.padTo 56 started.block).length +
      (bigEndian 8 (hasher.byteCount * 8).toNat).length = 64 := by
    rw [hpad, length_bigEndian]
  obtain ⟨_, hwr, hwrit⟩ := hfilled.puts height.le
  obtain ⟨_, hlast, hdone⟩ := hwrit.transform (length_append.trans height)
  rw [hnext, Option.bind_some, hfill, Option.bind_some, hwr, Option.bind_some, hlast,
    Option.bind_some, hdone.state]
  rfl

end

end Buffer

/-- However a message is cut, no index leaves the buffer and the digest is that of the standard. -/
theorem sha256_correct (chunks : List Bytes) (h : chunks.flatten.length < 2 ^ 61) :
    (chunks.foldlM Buffer.update {}).bind Buffer.finish = some (digest chunks.flatten) := by
  have hstart : Buffer.Holds {} {} := ⟨rfl, rfl, rfl, rfl, rfl⟩
  have hflat : ∀ (chunks : List Bytes) (buffer : Buffer),
      chunks.foldlM Buffer.update buffer = Buffer.update buffer chunks.flatten := by
    intro chunks
    induction chunks with
    | nil => exact fun _ => rfl
    | cons _ _ ih =>
      intro buffer
      rw [foldlM_cons, flatten_cons, Buffer.update, Buffer.update, foldlM_append]
      exact congrArg _ (funext ih)
  obtain ⟨buffer, hupdate, hholds⟩ := hstart.update (Nat.zero_lt_succ 63) chunks.flatten
  have hroom : (Sha256.update {} chunks.flatten).block.length < 64 :=
    Sha256.update_block (show ({} : Sha256.Hasher).block.length < 64 by decide) _
  rw [hflat, hupdate, Option.bind_some, hholds.finish hroom, ← digest_eq h, Sha256.digest]

theorem sha256_correct_abc : ([[0x61], [], [0x62, 0x63]] : List Bytes).flatten.length < 2 ^ 61 ∧
    (([[0x61], [], [0x62, 0x63]] : List Bytes).foldlM Buffer.update {}).bind Buffer.finish =
      some (digest [0x61, 0x62, 0x63]) :=
  ⟨by decide, sha256_correct [[0x61], [], [0x62, 0x63]] (by decide)⟩

end Sha256Standard
