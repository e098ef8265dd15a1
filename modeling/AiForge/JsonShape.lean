import AiForge.Json

/-! # The shape of JSON values

How many values are nested in a value, how many bytes of text they hold and how deep they lie.
The members of an object count wherever they were listed. -/

open List SafeText SortedBy

namespace Json

def children : Json → List Json
  | array items => items
  | object members => members.map Prod.snd
  | _ => []

mutual

/-- The value itself and everything nested in it. -/
def subvalues : Json → List Json
  | array items => array items :: subvaluesItems items
  | object members => object members :: subvaluesMembers members
  | value => [value]
termination_by structural value => value

def subvaluesItems : List Json → List Json
  | [] => []
  | item :: items => subvalues item ++ subvaluesItems items
termination_by structural items => items

def subvaluesMember : Bytes × Json → List Json
  | (_, value) => subvalues value
termination_by structural member => member

def subvaluesMembers : List (Bytes × Json) → List Json
  | [] => []
  | member :: members => subvaluesMember member ++ subvaluesMembers members
termination_by structural members => members

end

/-- Nothing lies deeper than this below the value. -/
def within : ℕ → Json → Bool
  | 0, value => value.children.isEmpty
  | depth + 1, value => value.children.all (within depth)

def nodes (value : Json) : ℕ := value.subvalues.length

def textLength : Json → ℕ
  | text value => value.length
  | _ => 0

def textBytes (value : Json) : ℕ := (value.subvalues.map textLength).sum

theorem subvaluesItems_eq (items : List Json) : subvaluesItems items = items.flatMap subvalues := by
  induction items with
  | nil => rfl
  | cons _ _ ih => rw [subvaluesItems, ih, flatMap_cons]

theorem subvaluesMembers_eq (members : List (Bytes × Json)) :
    subvaluesMembers members = (members.map Prod.snd).flatMap subvalues := by
  induction members with
  | nil => rfl
  | cons _ _ ih =>
    rw [subvaluesMembers, ih, map_cons, flatMap_cons, subvaluesMember]

theorem subvalues_eq (value : Json) :
    value.subvalues = value :: value.children.flatMap subvalues := by
  cases value with
  | array => rw [subvalues, subvaluesItems_eq, children]
  | object => rw [subvalues, subvaluesMembers_eq, children]
  | _ => rfl

theorem nodes_eq (value : Json) : value.nodes = (value.children.map nodes).sum + 1 := by
  unfold nodes
  rw [subvalues_eq, length_cons, length_flatMap]

theorem nodes_pos (value : Json) : 0 < value.nodes := by
  rw [nodes_eq]
  omega

theorem textBytes_eq (value : Json) :
    value.textBytes = value.textLength + (value.children.map textBytes).sum := by
  unfold textBytes
  rw [subvalues_eq, map_cons, sum_cons, map_flatMap, flatMap_def,
    sum_flatten, map_map]
  rfl

variable {value : Json}

theorem forall_subvalues {p : Json → Prop} : (∀ nested ∈ value.subvalues, p nested) ↔
      p value ∧ ∀ child ∈ value.children, ∀ nested ∈ child.subvalues, p nested := by
  rw [subvalues_eq, forall_mem_cons, forall_mem_flatMap]

variable {depth : ℕ}

theorem within_mono (h : value.within depth) : value.within (depth + 1) = true := by
  induction depth generalizing value with
  | zero =>
    rw [within, List.isEmpty_iff] at h
    rw [within, h]
    rfl
  | succ _ ih =>
    rw [within, List.all_eq_true] at h ⊢
    intro child hch
    exact ih (h child hch)

theorem within_le {bound : ℕ} (hle : depth ≤ bound)
    (h : value.within depth) : value.within bound := by
  induction hle with
  | refl => exact h
  | step _ ih => exact within_mono ih

section Objects

variable (members : List (Bytes × Json))

theorem children_obj_perm : (obj members).children.Perm (members.map Prod.snd) :=
  (sortBy_perm (fun member : Bytes × Json => byteOrder member.1) members).map Prod.snd

theorem nodes_obj : (obj members).nodes = (members.map fun member => member.2.nodes).sum + 1 := by
  have hsum := ((children_obj_perm members).map nodes).sum_eq
  rw [nodes_eq, hsum, map_map]
  rfl

theorem textBytes_obj :
    (obj members).textBytes = (members.map fun member => member.2.textBytes).sum := by
  have hsum := ((children_obj_perm members).map textBytes).sum_eq
  rw [textBytes_eq, hsum, map_map]
  exact Nat.zero_add _

theorem forall_children_obj {p : Json → Prop} :
    (∀ child ∈ (obj members).children, p child) ↔ ∀ member ∈ members, p member.2 := by
  constructor
  · intro h member hmember
    exact h _ ((children_obj_perm members).mem_iff.2 (mem_map_of_mem hmember))
  · intro h child hch
    have hmem := (children_obj_perm members).mem_iff.1 hch
    obtain ⟨member, hmember, rfl⟩ := mem_map.1 hmem
    exact h member hmember

theorem within_obj : (obj members).within (depth + 1) ↔
      ∀ member ∈ members, member.2.within depth := by
  rw [within, all_eq_true]
  exact forall_children_obj members

end Objects

theorem nodes_array (items : List Json) :
    (array items).nodes = (items.map nodes).sum + 1 := nodes_eq _

theorem textBytes_array (items : List Json) :
    (array items).textBytes = (items.map textBytes).sum := by
  rw [textBytes_eq]
  exact Nat.zero_add _

theorem within_array {items : List Json} :
    (array items).within (depth + 1) ↔ ∀ item ∈ items, item.within depth := by
  rw [within, all_eq_true]
  rfl

end Json
