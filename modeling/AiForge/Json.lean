import AiForge.SafeText
import AiForge.SortedBy

/-! # JSON values

Values as a parser builds them: an integer has one representation, and an object lists its
members in the order of their keys. Printing and parsing are left to a `Library`, of which only
this is known: it prints the values that its own types can hold, and parses what it printed. -/

open List SafeText SortedBy

inductive Json where
  | null
  | boolean (value : Bool)
  | number (value : ℤ)
  | float (bits : UInt64)
  | text (value : Bytes)
  | array (items : List Json)
  | object (members : List (Bytes × Json))
  deriving Repr

namespace Json

/-- Induction over the nesting of values. -/
@[elab_as_elim]
theorem nesting {motive : Json → Prop} (null : motive .null)
    (boolean : ∀ value, motive (.boolean value)) (number : ∀ value, motive (.number value))
    (float : ∀ bits, motive (.float bits)) (text : ∀ value, motive (.text value))
    (array : ∀ items, (∀ item ∈ items, motive item) → motive (.array items))
    (object : ∀ members, (∀ member ∈ members, motive member.2) → motive (.object members))
    (value : Json) : motive value := by
  refine @Json.rec motive (fun items => ∀ item ∈ items, motive item)
    (fun members => ∀ member ∈ members, motive member.2) (fun member => motive member.2)
    null boolean number float text array object ?_ ?_ ?_ ?_ ?_ value
  · intro item hitem
    cases hitem
  · intro first rest hfst hrest
    exact forall_mem_cons.2 ⟨hfst, hrest⟩
  · intro member hmem
    cases hmem
  · intro first rest hfst hrest
    exact forall_mem_cons.2 ⟨hfst, hrest⟩
  · intro key item hitem
    exact hitem

mutual

def beq : Json → Json → Bool
  | null, null => true
  | boolean a, boolean b => a == b
  | number a, number b => a == b
  | float a, float b => a == b
  | text a, text b => a == b
  | array a, array b => beqItems a b
  | object a, object b => beqMembers a b
  | _, _ => false
termination_by structural value => value

def beqItems : List Json → List Json → Bool
  | [], [] => true
  | a :: as, b :: bs => beq a b && beqItems as bs
  | _, _ => false
termination_by structural items => items

def beqMember : Bytes × Json → Bytes × Json → Bool
  | (k, a), (l, b) => k == l && beq a b
termination_by structural member => member

def beqMembers : List (Bytes × Json) → List (Bytes × Json) → Bool
  | [], [] => true
  | a :: as, b :: bs => beqMember a b && beqMembers as bs
  | _, _ => false
termination_by structural members => members

end

theorem beqItems_iff {as bs : List Json} (h : ∀ a ∈ as, ∀ b, beq a b ↔ a = b) :
    beqItems as bs ↔ as = bs := by
  induction as generalizing bs with
  | nil => cases bs <;> simp [beqItems]
  | cons _ _ ih =>
    obtain ⟨ha, has⟩ := forall_mem_cons.1 h
    cases bs with
    | nil => simp [beqItems]
    | cons => rw [beqItems, Bool.and_eq_true, ha, ih has, List.cons.injEq]

theorem beqMembers_iff {as bs : List (Bytes × Json)}
    (h : ∀ a ∈ as, ∀ b, beq a.2 b ↔ a.2 = b) : beqMembers as bs ↔ as = bs := by
  induction as generalizing bs with
  | nil => cases bs <;> simp [beqMembers]
  | cons _ _ ih =>
    obtain ⟨ha, has⟩ := forall_mem_cons.1 h
    cases bs with
    | nil => simp [beqMembers]
    | cons =>
      rw [beqMembers, Bool.and_eq_true, beqMember, Bool.and_eq_true, beq_iff_eq, ha, ih has,
        List.cons.injEq, Prod.ext_iff]

theorem beq_iff (a b : Json) : beq a b ↔ a = b := by
  induction a using nesting generalizing b with
  | null | boolean | number | float | text => cases b <;> simp [beq]
  | array _ ih =>
    cases b with
    | array => rw [beq, beqItems_iff ih, array.injEq]
    | _ => simp [beq]
  | object _ ih =>
    cases b with
    | object => rw [beq, beqMembers_iff ih, object.injEq]
    | _ => simp [beq]

instance : DecidableEq Json := fun a b => decidable_of_iff _ (beq_iff a b)

/-- The order of a map from byte strings. -/
def byteOrder (key : Bytes) : List ℕ := key.map UInt8.toNat

theorem byteOrder_inj : Function.Injective byteOrder :=
  map_injective_iff.2 fun _ _ => UInt8.toNat_inj.1

/-- The object with the given members, whose keys differ. -/
def obj (members : List (Bytes × Json)) : Json :=
  object (sortBy (fun member => byteOrder member.1) members)

def member (key : Bytes) : Json → Option Json
  | object members => members.lookup key
  | _ => none

def contains (value : Json) (key : Bytes) : Bool := (value.member key).isSome

def isObject : Json → Bool
  | object _ => true
  | _ => false

def isNull : Json → Bool
  | null => true
  | _ => false

def size : Json → ℕ
  | null => 0
  | array items => items.length
  | object members => members.length
  | _ => 1

variable {members : List (Bytes × Json)}

section

variable (h : (members.map Prod.fst).Nodup)

include h

theorem lookup_eq_some_iff {key : Bytes} {value : Json} :
    members.lookup key = some value ↔ (key, value) ∈ members := by
  induction members with
  | nil => simp
  | cons first rest ih =>
    obtain ⟨hfst, hrest⟩ := nodup_cons.1 h
    rw [lookup_cons]
    by_cases hk : key = first.1
    · subst hk
      have hnot : (first.1, value) ∉ rest := fun hmem =>
        hfst (mem_map.2 ⟨_, hmem, rfl⟩)
      simp only [beq_self_eq_true, Option.some.injEq, mem_cons, hnot, or_false]
      exact ⟨fun h => h ▸ rfl, fun h => by rw [← h]⟩
    · have hne : (key, value) ≠ first := fun h => hk (congrArg Prod.fst h)
      rw [beq_eq_false_iff_ne.2 hk, mem_cons, or_iff_right hne]
      exact ih hrest

theorem nodup_byteOrder : (members.map fun member => byteOrder member.1).Nodup := by
  have hmap := h.map byteOrder_inj
  rwa [map_map] at hmap

/-- The members of an object are found wherever they were listed. -/
theorem member_obj (key : Bytes) : (obj members).member key = members.lookup key := by
  have hperm := sortBy_perm (fun member : Bytes × Json => byteOrder member.1) members
  have hsort : ((sortBy (fun member : Bytes × Json => byteOrder member.1) members).map
      Prod.fst).Nodup := ((hperm.map Prod.fst).nodup_iff).2 h
  refine Option.ext fun value => ?_
  rw [obj, member, lookup_eq_some_iff hsort, lookup_eq_some_iff h, hperm.mem_iff]

end

@[simp] theorem size_obj (members : List (Bytes × Json)) : (obj members).size = members.length :=
  (sortBy_perm (fun member : Bytes × Json => byteOrder member.1) members).length_eq

@[simp] theorem isObject_obj (members : List (Bytes × Json)) : (obj members).isObject = true := rfl

def validText (value : Bytes) : Bool := decide (ByteArray.IsValidUTF8 ⟨value.toArray⟩)

/-- The keys of an object, in order and without repetition. -/
def sortedKeys (members : List (Bytes × Json)) : Bool :=
  decide ((members.map fun member => byteOrder member.1).Pairwise (· < ·))

mutual

/-- The values that the library's types can hold and print: sorted objects, integers of 64 bits
and texts in UTF-8. -/
def canonical : Json → Bool
  | null => true
  | boolean _ => true
  | number value => decide (-2 ^ 63 ≤ value ∧ value < 2 ^ 64)
  | float _ => true
  | text value => validText value
  | array items => canonicalItems items
  | object members => sortedKeys members && canonicalMembers members
termination_by structural value => value

def canonicalItems : List Json → Bool
  | [] => true
  | item :: items => canonical item && canonicalItems items
termination_by structural items => items

def canonicalMember : Bytes × Json → Bool
  | (key, value) => validText key && canonical value
termination_by structural member => member

def canonicalMembers : List (Bytes × Json) → Bool
  | [] => true
  | member :: members => canonicalMember member && canonicalMembers members
termination_by structural members => members

end

theorem canonicalMembers_iff : canonicalMembers members ↔
      ∀ member ∈ members, validText member.1 ∧ member.2.canonical := by
  induction members with
  | nil => simp [canonicalMembers]
  | cons _ _ ih =>
    rw [canonicalMembers, Bool.and_eq_true, ih, canonicalMember, Bool.and_eq_true,
      forall_mem_cons]

theorem canonical_obj (h : (members.map Prod.fst).Nodup) : (obj members).canonical ↔
      ∀ member ∈ members, validText member.1 ∧ member.2.canonical := by
  have hkeys : sortedKeys (sortBy (fun member => byteOrder member.1) members) = true := by
    have hle := sortBy_sorted (fun member : Bytes × Json => byteOrder member.1) members
    have hne := nodup_map_sortBy (nodup_byteOrder h)
    rw [nodup_iff_pairwise_ne, pairwise_map] at hne
    refine decide_eq_true ?_
    rw [pairwise_map]
    exact (hle.and hne).imp fun hab => lt_of_le_of_ne hab.1 hab.2
  rw [obj, canonical, hkeys, Bool.true_and, canonicalMembers_iff]
  constructor
  · intro hall member hmem
    exact hall member (mem_sortBy.2 hmem)
  · intro hall member hmem
    exact hall member (mem_sortBy.1 hmem)

theorem validText_bytesOf (value : String) : validText (bytesOf value) :=
  decide_eq_true value.isValidUTF8

inductive ParseFailure where
  | duplicateKey | invalid

structure Library where
  dump : Json → Option Bytes
  parse : Bytes → Except ParseFailure Json
  dump_isSome : ∀ value, (dump value).isSome = value.canonical
  parse_dump : ∀ value document, dump value = some document → parse document = .ok value

end Json
