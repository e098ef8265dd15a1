import AiForge.PayloadCodec

/-! # Documents with known members

A document is written as a list of members with different names, and a reader asks for them one
by one. What it finds under a name does not depend on the order in which the members were
listed. -/
namespace PayloadCodec

open SafeText Json Staged

theorem key_inj : Function.Injective key := bytesOf_injective

def Named (members : List (Bytes × Json)) (names : List String) : Prop :=
  members.map Prod.fst = names.map key ∧ names.Nodup

theorem Named.nodup {members : List (Bytes × Json)} {names : List String}
    (h : Named members names) : (members.map Prod.fst).Nodup := by
  rw [h.1]
  exact h.2.map key_inj

section Members

variable {members : List (Bytes × Json)} {names : List String}

section

variable (h : Named members names)

include h

theorem field_obj (name : String) (value : Json)
    (hv : (key name, value) ∈ members) : field (obj members) name = .ok value := by
  unfold field
  rw [member_obj h.nodup, (Json.lookup_eq_some_iff h.nodup).2 hv]

theorem fieldOr_obj {α : Type} (name : String) (value : Json)
    (hv : (key name, value) ∈ members) (missing : α) (read : Json → Result α) :
    fieldOr (obj members) name missing read = read value := by
  unfold fieldOr
  rw [member_obj h.nodup, (Json.lookup_eq_some_iff h.nodup).2 hv]

theorem member_none {name : String} (hn : name ∉ names) :
    (obj members).member (key name) = none := by
  rw [member_obj h.nodup, List.lookup_eq_none_iff]
  intro member hmem
  have hkey : member.1 ∈ names.map key := by
    rw [← h.1]
    exact List.mem_map_of_mem hmem
  obtain ⟨_, hoth, heq⟩ := List.mem_map.1 hkey
  rw [← heq, bne_iff_ne]
  intro hkeys
  exact hn (key_inj hkeys ▸ hoth)

theorem fieldOr_missing {α : Type} {name : String} (hn : name ∉ names)
    (missing : α) (read : Json → Result α) :
    fieldOr (obj members) name missing read = .ok missing := by
  unfold fieldOr
  rw [member_none h hn]

theorem contains_obj (name : String) :
    (obj members).contains (key name) = decide (name ∈ names) := by
  unfold Json.contains
  by_cases hn : name ∈ names
  · have hkey : key name ∈ members.map Prod.fst := by
      rw [h.1]
      exact List.mem_map_of_mem hn
    obtain ⟨⟨k, _⟩, hmem, hk⟩ := List.mem_map.1 hkey
    have hk : k = key name := hk
    subst hk
    rw [member_obj h.nodup, (Json.lookup_eq_some_iff h.nodup).2 hmem, decide_eq_true hn]
    rfl
  · rw [member_none h hn, decide_eq_false hn]
    rfl

/-- The names of the members are in UTF-8, so only the values matter. -/
theorem canonical_named :
    (obj members).canonical ↔ ∀ member ∈ members, member.2.canonical := by
  rw [canonical_obj h.nodup]
  constructor
  · intro hall member hmem
    exact (hall member hmem).2
  · intro hall member hmem
    have hkey : member.1 ∈ names.map key := by
      rw [← h.1]
      exact List.mem_map_of_mem hmem
    obtain ⟨name, -, hname⟩ := List.mem_map.1 hkey
    refine ⟨?_, hall member hmem⟩
    rw [← hname]
    exact Json.validText_bytesOf name

end

end Members

theorem requireConversationFields_obj {members : List (Bytes × Json)} {names : List String}
    (hn : Named members names) {fields : List String} :
    requireConversationFields (obj members) fields = .ok () ↔
      names.length = fields.length ∧ ∀ name ∈ fields, name ∈ names := by
  have hlen : members.length = names.length := by
    have h := congrArg List.length hn.1
    rwa [List.length_map, List.length_map] at h
  simp only [requireConversationFields, bind_ok, ensure_ok, contains_obj hn,
    Json.size_obj, Json.isObject_obj, hlen, decide_eq_true_eq, true_and]
  constructor
  · rintro ⟨-, hsize, hall⟩
    exact ⟨hsize, hall⟩
  · rintro ⟨hsize, hall⟩
    exact ⟨⟨⟩, hsize, hall⟩

end PayloadCodec
