import AiForge.Json

/-! # JSON as text

A compact printer and the reader that takes its texts back: a `Library`. Floating-point numbers
are printed by their bits with an exponent, which no integer has. -/
namespace Json

open List SafeText

def hexDigit (n : ℕ) : UInt8 := if n < 10 then UInt8.ofNat (0x30 + n) else UInt8.ofNat (0x57 + n)

def hexValue (c : UInt8) : ℕ := if c < 0x3a then c.toNat - 0x30 else c.toNat - 0x57

/-- The escapes of one letter, with the letters they are written by. -/
def shortEscapes : List (UInt8 × UInt8) :=
  [(0x22, 0x22), (0x5c, 0x5c), (0x08, 0x62), (0x0c, 0x66), (0x0a, 0x6e), (0x0d, 0x72), (0x09, 0x74)]

def escape (c : UInt8) : Bytes :=
  match shortEscapes.lookup c with
  | some letter => [0x5c, letter]
  | none =>
    if c < 0x20 then [0x5c, 0x75, 0x30, 0x30, hexDigit (c.toNat / 16), hexDigit (c.toNat % 16)]
    else [c]

def printText (value : Bytes) : Bytes := value.flatMap escape ++ [0x22]

def unescape (letter : UInt8) : UInt8 :=
  ((shortEscapes.find? fun pair => pair.2 == letter).map Prod.fst).getD letter

def readByte : Bytes → Option (UInt8 × Bytes)
  | [] => none
  | c :: rest =>
    if c ≠ 0x5c then some (c, rest)
    else match rest with
      | [] => none
      | letter :: rest =>
        if letter ≠ 0x75 then some (unescape letter, rest)
        else match rest with
          | _ :: _ :: high :: low :: rest =>
            some (UInt8.ofNat (16 * hexValue high + hexValue low), rest)
          | _ => none

def readText : ℕ → Bytes → Option (Bytes × Bytes)
  | 0, _ => none
  | n + 1, t =>
    if t.head? = some 0x22 then some ([], t.tail)
    else do
      let (c, t) ← readByte t
      let (value, t) ← readText n t
      return (c :: value, t)

/-- What every byte is printed as is decided byte by byte. -/
theorem escape_shape : ∀ c : UInt8, (escape c = [c] ∧ c ≠ 0x5c ∧ c ≠ 0x22) ∨
    (∃ letter, escape c = [0x5c, letter] ∧ letter ≠ 0x75 ∧ unescape letter = c) ∨
    (∃ high low, escape c = [0x5c, 0x75, 0x30, 0x30, high, low] ∧
      UInt8.ofNat (16 * hexValue high + hexValue low) = c) := by
  have hsh : ∀ pair ∈ shortEscapes, pair.2 ≠ 0x75 ∧ unescape pair.2 = pair.1 := by
    simp [shortEscapes, unescape]
  have hhex : ∀ n < 16, hexValue (hexDigit n) = n := by decide +kernel
  intro c
  unfold escape
  cases hlookup : shortEscapes.lookup c with
  | some letter =>
    have hmem : (c, letter) ∈ shortEscapes := by
      obtain ⟨_, _, heq, -⟩ := List.lookup_eq_some_iff.1 hlookup
      rw [heq]
      exact List.mem_append_right _ List.mem_cons_self
    obtain ⟨hletter, hback⟩ := hsh _ hmem
    exact .inr (.inl ⟨letter, rfl, hletter, hback⟩)
  | none =>
    dsimp only
    split
    · rename_i hc
      have hlt : c.toNat < 256 := c.toNat_lt
      refine .inr (.inr ⟨_, _, rfl, ?_⟩)
      rw [hhex _ (by omega), hhex _ (by omega), Nat.div_add_mod]
      exact UInt8.ofNat_toNat
    · refine .inl ⟨rfl, ?_, ?_⟩
      · rintro rfl
        cases hlookup
      · rintro rfl
        cases hlookup

theorem readByte_escape (c : UInt8) (rest : Bytes) :
    readByte (escape c ++ rest) = some (c, rest) := by
  rcases escape_shape c with ⟨he, hc, -⟩ | ⟨_, he, hletter, hback⟩ | ⟨_, _, he, hback⟩
  · rw [he]
    simp [readByte, hc]
  · rw [he]
    simp [readByte, hletter, hback]
  · rw [he]
    simp [readByte, hback]

theorem head_escape (c : UInt8) (rest : Bytes) : (escape c ++ rest).head? ≠ some 0x22 := by
  rcases escape_shape c with ⟨he, -, hc⟩ | ⟨_, he, -⟩ | ⟨_, _, he, -⟩
  · rw [he]
    simpa using hc
  · rw [he]
    simp
  · rw [he]
    simp

variable {n : ℕ}

theorem readText_printText (value rest : Bytes) (h : (printText value).length ≤ n) :
    readText n (printText value ++ rest) = some (value, rest) := by
  induction value generalizing n with
  | nil =>
    cases n with
    | zero => simp [printText] at h
    | succ => simp [printText, readText]
  | cons c value ih =>
    have hlong : (printText (c :: value)).length =
        (escape c).length + (printText value).length := by
      simp [printText]
    have hpos : 0 < (escape c).length := by
      rcases escape_shape c with ⟨he, -⟩ | ⟨_, he, -⟩ | ⟨_, _, he, -⟩ <;> simp [he]
    have htext : printText (c :: value) ++ rest = escape c ++ (printText value ++ rest) := by
      simp [printText]
    cases n with
    | zero => omega
    | succ =>
      rw [htext, readText, if_neg (head_escape c _), readByte_escape, Option.bind_eq_bind,
        Option.bind_some]
      dsimp only
      rw [ih (by omega)]
      rfl

def isDigit (c : UInt8) : Bool := 0x30 ≤ c && c ≤ 0x39

def digitByte (c : Char) : UInt8 := UInt8.ofNat c.toNat

def digitChar (c : UInt8) : Char := Char.ofNat c.toNat

def printNat (n : ℕ) : Bytes := (Nat.toDigits 10 n).map digitByte

def natOf (digits : Bytes) : ℕ := Nat.ofDigitChars 10 (digits.map digitChar) 0

theorem digitByte_spec {c : Char} (h : c.isDigit) :
    isDigit (digitByte c) ∧ digitChar (digitByte c) = c := by
  have hc : 0x30 ≤ c.toNat ∧ c.toNat ≤ 0x39 := by
    simp only [Char.isDigit, Bool.and_eq_true, decide_eq_true_eq, ge_iff_le] at h
    exact ⟨h.1, h.2⟩
  have hnat : (digitByte c).toNat = c.toNat := by
    unfold digitByte
    rw [UInt8.toNat_ofNat_of_lt']
    show c.toNat < 256
    omega
  constructor
  · simp only [isDigit, Bool.and_eq_true, decide_eq_true_eq, UInt8.le_iff_toNat_le, hnat]
    exact hc
  · unfold digitChar
    rw [hnat]
    exact Char.ofNat_toNat c

theorem printNat_digits (n : ℕ) : ∀ c ∈ printNat n, isDigit c := by
  intro c hc
  obtain ⟨_, hd, rfl⟩ := mem_map.1 hc
  exact (digitByte_spec (Nat.isDigit_of_mem_toDigits (by decide) (by decide) hd)).1

theorem natOf_printNat (n : ℕ) : natOf (printNat n) = n := by
  unfold natOf printNat
  rw [map_map]
  have hid : (Nat.toDigits 10 n).map (digitChar ∘ digitByte) = Nat.toDigits 10 n := by
    refine (map_congr_left fun c hc => ?_).trans (map_id _)
    exact (digitByte_spec (Nat.isDigit_of_mem_toDigits (by decide) (by decide) hc)).2
  rw [hid]
  exact Nat.ofDigitChars_ten_toDigits

/-- A text that ends a number. -/
def Stops (rest : Bytes) : Prop := ∀ c ∈ rest.head?, isDigit c = false ∧ c ≠ 0x65

theorem span_digits {digits rest : Bytes} (hd : ∀ c ∈ digits, isDigit c)
    (hr : ∀ c ∈ rest.head?, isDigit c = false) :
    (digits ++ rest).takeWhile isDigit = digits ∧ (digits ++ rest).dropWhile isDigit = rest := by
  induction digits with
  | nil =>
    cases rest with
    | nil => exact ⟨rfl, rfl⟩
    | cons c =>
      have hc := hr c rfl
      simp [hc]
  | cons c _ ih =>
    obtain ⟨hc, hcs⟩ := forall_mem_cons.1 hd
    obtain ⟨htake, hdrop⟩ := ih hcs
    rw [cons_append, takeWhile_cons, dropWhile_cons, hc]
    exact ⟨congrArg (c :: ·) htake, hdrop⟩

/-- A number without a sign; an exponent makes it a floating-point one. -/
def readNumber (t : Bytes) : Option (Json × Bytes) :=
  let value := natOf (t.takeWhile isDigit)
  let rest := t.dropWhile isDigit
  if rest.head? = some 0x65 then some (float (UInt64.ofNat value), rest.drop 2)
  else some (number value, rest)

theorem readNumber_printNat (n : ℕ) {rest : Bytes} (h : Stops rest) :
    readNumber (printNat n ++ rest) = some (number n, rest) := by
  obtain ⟨htake, hdrop⟩ := span_digits (printNat_digits n) fun c hc => (h c hc).1
  have hhead : rest.head? ≠ some 0x65 := fun he => (h _ he).2 rfl
  unfold readNumber
  rw [htake, hdrop, natOf_printNat, if_neg hhead]

theorem readNumber_float (bits : UInt64) (rest : Bytes) :
    readNumber (printNat bits.toNat ++ 0x65 :: 0x30 :: rest) = some (float bits, rest) := by
  have hstop : ∀ c ∈ (0x65 :: 0x30 :: rest : Bytes).head?, isDigit c = false := by
    simp [isDigit]
  obtain ⟨htake, hdrop⟩ := span_digits (printNat_digits bits.toNat) hstop
  unfold readNumber
  rw [htake, hdrop, natOf_printNat]
  simp

def separator {α : Type} (rest : List α) : Bytes := if rest.isEmpty then [] else [0x2c]

mutual

def print : Json → Bytes
  | null => [0x6e, 0x75, 0x6c, 0x6c]
  | boolean true => [0x74, 0x72, 0x75, 0x65]
  | boolean false => [0x66, 0x61, 0x6c, 0x73, 0x65]
  | number value =>
    if value < 0 then 0x2d :: printNat value.natAbs else printNat value.natAbs
  | float bits => printNat bits.toNat ++ [0x65, 0x30]
  | text value => 0x22 :: printText value
  | array items => 0x5b :: printItems items
  | object members => 0x7b :: printMembers members
termination_by structural value => value

def printItems : List Json → Bytes
  | [] => [0x5d]
  | item :: items => print item ++ (separator items ++ printItems items)
termination_by structural items => items

def printMember : Bytes × Json → Bytes
  | (key, value) => 0x22 :: (printText key ++ 0x3a :: print value)
termination_by structural member => member

def printMembers : List (Bytes × Json) → Bytes
  | [] => [0x7d]
  | member :: members => printMember member ++ (separator members ++ printMembers members)
termination_by structural members => members

end

def skip (c : UInt8) (t : Bytes) : Bytes := if t.head? = some c then t.tail else t

mutual

def readValue : ℕ → Bytes → Option (Json × Bytes)
  | 0, _ => none
  | n + 1, t =>
    if t.head? = some 0x6e then some (null, t.drop 4)
    else if t.head? = some 0x74 then some (boolean true, t.drop 4)
    else if t.head? = some 0x66 then some (boolean false, t.drop 5)
    else if t.head? = some 0x22 then
      (readText t.length t.tail).map fun found => (text found.1, found.2)
    else if t.head? = some 0x5b then
      (readItems n t.tail).map fun found => (array found.1, found.2)
    else if t.head? = some 0x7b then
      (readMembers n t.tail).map fun found => (object found.1, found.2)
    else if t.head? = some 0x2d then
      (some (number (-(natOf (t.tail.takeWhile isDigit) : ℤ)), t.tail.dropWhile isDigit))
    else readNumber t

def readItems : ℕ → Bytes → Option (List Json × Bytes)
  | 0, _ => none
  | n + 1, t =>
    if t.head? = some 0x5d then some ([], t.tail)
    else
      (readValue n t).bind fun item =>
      (readItems n (skip 0x2c item.2)).map fun items => (item.1 :: items.1, items.2)

def readMembers : ℕ → Bytes → Option (List (Bytes × Json) × Bytes)
  | 0, _ => none
  | n + 1, t =>
    if t.head? = some 0x7d then some ([], t.tail)
    else
      (readText t.length t.tail).bind fun key =>
      (readValue n key.2.tail).bind fun value =>
      (readMembers n (skip 0x2c value.2)).map fun members =>
        ((key.1, value.1) :: members.1, members.2)

end

theorem printNat_cons (n : ℕ) : ∃ c rest, printNat n = c :: rest ∧ isDigit c := by
  cases h : printNat n with
  | nil => exact absurd (map_eq_nil_iff.1 h) Nat.toDigits_ne_nil
  | cons c rest => exact ⟨c, rest, rfl, printNat_digits n c (by rw [h]; simp)⟩

theorem readValue_digits {c : UInt8} (hc : isDigit c) (n : ℕ) (t : Bytes) :
    readValue (n + 1) (c :: t) = readNumber (c :: t) := by
  have hne : ∀ d, isDigit d = false → c ≠ d := by
    rintro d hd rfl
    rw [hc] at hd
    cases hd
  simp [readValue, hne 0x6e rfl, hne 0x74 rfl, hne 0x66 rfl, hne 0x22 rfl, hne 0x5b rfl,
    hne 0x7b rfl, hne 0x2d rfl]

/-- A value is not taken for the end of an array. -/
theorem print_cons (value : Json) : ∃ c rest, print value = c :: rest ∧ c ≠ 0x5d := by
  have hdigit : ∀ n (rest : Bytes), ∃ c more, printNat n ++ rest = c :: more ∧ c ≠ 0x5d := by
    intro n rest
    obtain ⟨c, more, hc, hd⟩ := printNat_cons n
    refine ⟨c, more ++ rest, by rw [hc]; rfl, ?_⟩
    rintro rfl
    cases hd
  cases value with
  | null | text | array | object => exact ⟨_, _, rfl, by decide⟩
  | boolean value =>
    cases value with
    | false | true => exact ⟨_, _, rfl, by decide⟩
  | number value =>
    rw [print]
    split
    · exact ⟨_, _, rfl, by decide⟩
    · obtain ⟨c, rest, hc, hne⟩ := hdigit value.natAbs []
      rw [append_nil] at hc
      exact ⟨c, rest, hc, hne⟩
  | float bits => exact hdigit bits.toNat _

/-- A printed value is read back, whatever may follow a value. -/
def Restores (value : Json) : Prop :=
  ∀ n rest, (print value).length ≤ n → Stops rest →
    readValue n (print value ++ rest) = some (value, rest)

theorem restores_null : Restores null := by
  intro n rest hn _
  cases n with
  | zero => cases hn
  | succ => simp [print, readValue]

theorem restores_boolean (value : Bool) : Restores (boolean value) := by
  intro n rest hn _
  cases n with
  | zero => cases value <;> cases hn
  | succ => cases value <;> simp [print, readValue]

theorem restores_number (value : ℤ) : Restores (number value) := by
  intro n rest hn hrest
  rw [print] at hn ⊢
  split at hn
  · rename_i hneg
    rw [if_pos hneg]
    cases n with
    | zero => cases hn
    | succ =>
      obtain ⟨htake, hdrop⟩ := span_digits (printNat_digits value.natAbs) fun c hc => (hrest c hc).1
      simp only [readValue, cons_append, List.head?_cons, tail_cons, htake, hdrop,
        natOf_printNat]
      have hback : -(value.natAbs : ℤ) = value := by omega
      rw [hback]
      rfl
  · rename_i hneg
    rw [if_neg hneg]
    obtain ⟨c, _, hc, hd⟩ := printNat_cons value.natAbs
    have hread := readNumber_printNat value.natAbs hrest
    have hback : (value.natAbs : ℤ) = value := by omega
    rw [hback] at hread
    rw [hc] at hn hread ⊢
    cases n with
    | zero => cases hn
    | succ => rw [cons_append, readValue_digits hd, ← cons_append, hread]

theorem restores_float (bits : UInt64) : Restores (float bits) := by
  intro n rest hn _
  obtain ⟨_, _, hc, hd⟩ := printNat_cons bits.toNat
  have hread := readNumber_float bits rest
  rw [print] at hn ⊢
  rw [append_assoc]
  rw [hc] at hn hread ⊢
  cases n with
  | zero => cases hn
  | succ =>
    rw [cons_append, readValue_digits hd]
    exact hread

theorem restores_text (value : Bytes) : Restores (text value) := by
  intro n rest hn _
  cases n with
  | zero => cases hn
  | succ =>
    have hlong : (printText value).length ≤ (0x22 :: (printText value ++ rest)).length := by
      rw [length_cons, length_append]
      omega
    have hread := readText_printText value rest hlong
    rw [print, cons_append, readValue, tail_cons, hread]
    rfl

/-- What stands between two entries is skipped, and it ends a number. -/
theorem skip_separator {α : Type} (rest : List α) (close : UInt8) (more : Bytes)
    (hclose : isDigit close = false ∧ close ≠ 0x65 ∧ close ≠ 0x2c)
    (h : rest = [] → more.head? = some close) :
    skip 0x2c (separator rest ++ more) = more ∧ Stops (separator rest ++ more) := by
  cases rest with
  | nil =>
    have hhead := h rfl
    constructor
    · have hne : close ≠ 0x2c := hclose.2.2
      simp [separator, skip, hhead, hne]
    · intro c hc
      have hc : c = close := by
        rw [separator, isEmpty_nil, if_pos rfl, nil_append, hhead] at hc
        exact (Option.some.inj hc).symm
      rw [hc]
      exact ⟨hclose.1, hclose.2.1⟩
  | cons =>
    constructor
    · simp [separator, skip]
    · intro c hc
      have hc : c = 0x2c := by
        simpa [separator] using hc.symm
      rw [hc]
      decide

theorem readItems_printItems {items : List Json} (h : ∀ item ∈ items, Restores item)
    (hn : (printItems items).length ≤ n) (rest : Bytes) :
    readItems n (printItems items ++ rest) = some (items, rest) := by
  induction items generalizing n with
  | nil =>
    cases n with
    | zero => cases hn
    | succ => simp [printItems, readItems]
  | cons item items ih =>
    obtain ⟨hitem, hitems⟩ := forall_mem_cons.1 h
    obtain ⟨_, _, hc, hne⟩ := print_cons item
    rw [printItems, length_append, length_append] at hn
    have hpos : 0 < (printItems items).length := by
      cases items with
      | nil => simp [printItems]
      | cons first =>
        obtain ⟨_, _, hd, -⟩ := print_cons first
        simp [printItems, hd]
    obtain ⟨hskip, hstops⟩ := skip_separator items 0x5d (printItems items ++ rest)
      (by decide) (by rintro rfl; rfl)
    have hlen : 0 < (print item).length := by rw [hc]; simp
    cases n with
    | zero => omega
    | succ n =>
      have hfst := hitem n (separator items ++ (printItems items ++ rest)) (by omega) hstops
      have hhead : ((print item ++ (separator items ++ (printItems items ++ rest))).head? =
          some 0x5d) = False := by
        rw [hc]
        simp [hne]
      rw [printItems, append_assoc, append_assoc, readItems, if_neg (by rw [hhead]; simp),
        hfst, Option.bind_some, hskip, ih hitems (by omega)]
      rfl

theorem readMembers_printMembers {members : List (Bytes × Json)}
    (h : ∀ member ∈ members, Restores member.2)
    (hn : (printMembers members).length ≤ n) (rest : Bytes) :
    readMembers n (printMembers members ++ rest) = some (members, rest) := by
  induction members generalizing n with
  | nil =>
    cases n with
    | zero => cases hn
    | succ => simp [printMembers, readMembers]
  | cons member members ih =>
    obtain ⟨hmem, hmembers⟩ := forall_mem_cons.1 h
    obtain ⟨key, value⟩ := member
    obtain ⟨hskip, hstops⟩ := skip_separator members 0x7d (printMembers members ++ rest)
      (by decide) (by rintro rfl; rfl)
    have htext : printMembers ((key, value) :: members) ++ rest =
        0x22 :: (printText key ++ (0x3a :: (print value ++
          (separator members ++ (printMembers members ++ rest))))) := by
      simp [printMembers, printMember]
    simp only [printMembers, printMember, length_append, length_cons] at hn
    cases n with
    | zero => omega
    | succ n =>
      have hkey := readText_printText key
        (0x3a :: (print value ++ (separator members ++ (printMembers members ++ rest))))
        (n := (0x22 :: (printText key ++ (0x3a :: (print value ++
          (separator members ++ (printMembers members ++ rest)))))).length)
        (by simp only [length_cons, length_append]; omega)
      have hval := hmem n (separator members ++ (printMembers members ++ rest))
        (by dsimp only; omega) hstops
      rw [htext, readMembers, if_neg (by simp), tail_cons, hkey, Option.bind_some,
        tail_cons, hval, Option.bind_some, hskip, ih hmembers (by omega)]
      rfl

theorem restores (value : Json) : Restores value := by
  induction value using nesting with
  | null => exact restores_null
  | boolean value => exact restores_boolean value
  | number value => exact restores_number value
  | float bits => exact restores_float bits
  | text value => exact restores_text value
  | array _ ih =>
    intro n rest hn _
    cases n with
    | zero => cases hn
    | succ =>
      rw [print, length_cons] at hn
      rw [print, cons_append, readValue, tail_cons,
        readItems_printItems ih (by omega) rest]
      rfl
  | object _ ih =>
    intro n rest hn _
    cases n with
    | zero => cases hn
    | succ =>
      rw [print, length_cons] at hn
      rw [print, cons_append, readValue, tail_cons,
        readMembers_printMembers ih (by omega) rest]
      rfl

/-- The texts of the printer and no others. -/
def readDocument (document : Bytes) : Except ParseFailure Json :=
  match readValue document.length document with
  | some (value, _) => if print value = document then .ok value else .error .invalid
  | none => .error .invalid

def compact : Library where
  dump value := if value.canonical then some (print value) else none
  parse := readDocument
  dump_isSome value := by
    cases value.canonical <;> rfl
  parse_dump value document h := by
    have hcanonical : value.canonical := by
      by_contra hc
      rw [if_neg hc] at h
      cases h
    rw [if_pos hcanonical] at h
    cases h
    have hread := restores value (print value).length [] le_rfl (by simp [Stops])
    rw [List.append_nil] at hread
    unfold readDocument
    rw [hread]
    exact if_pos rfl

end Json
