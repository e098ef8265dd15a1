import Mathlib

/-! # Lexical paths

A path is a list of characters that separators cut into names. Reading it as a path forgets
repeated separators and a separator at its end, and its normal form resolves dots without
looking at any file. Two normal paths with the same names differ at most in a separator at the
end. -/
namespace LexicalPaths

open List

variable {α : Type*} [DecidableEq α] (slash dot : α)

def names (path : List α) : List (List α) := (path.splitOn slash).filter (· ≠ [])

def isAbsolute (path : List α) : Bool := path.head? == some slash

def endsOpen (path : List α) : Bool :=
  names slash path != [] && path.getLast? == some slash

def elements (path : List α) : List (List α) :=
  (if isAbsolute slash path then [[slash]] else []) ++ names slash path ++
    if endsOpen slash path then [[]] else []

/-- The path with one separator between two names. -/
def genericString (path : List α) : List α :=
  (if isAbsolute slash path then [slash] else []) ++ [slash].intercalate (names slash path) ++
    if endsOpen slash path then [slash] else []

def resolveStep (resolved : List (List α)) (component : List α) : List (List α) :=
  if component = [dot] then resolved
  else if component = [dot, dot] then resolved.dropLast
  else resolved ++ [component]

/-- The names that are left of an absolute path: two dots take the name before them along. -/
def resolve (components : List (List α)) : List (List α) :=
  components.foldl (resolveStep dot) []

/-- The normal form of an absolute path. -/
def lexicallyNormal (path : List α) : List α :=
  let resolved := resolve dot (names slash path)
  let dotted := (elements slash path).getLast?.any fun last =>
    decide (last = [] ∨ last = [dot] ∨ last = [dot, dot])
  slash :: [slash].intercalate resolved ++ if dotted ∧ resolved ≠ [] then [slash] else []

variable {slash dot} {path other : List α}

theorem not_mem_of_mem_splitOn {part : List α} (h : part ∈ path.splitOn slash) : slash ∉ part := by
  induction path generalizing part with
  | nil =>
    rw [splitOn_nil, mem_singleton] at h
    rw [h]
    exact not_mem_nil
  | cons _ rest ih =>
    rw [splitOn_cons_eq_if_modifyHead] at h
    split at h
    · rcases mem_cons.1 h with rfl | h
      · exact not_mem_nil
      · exact ih h
    · rename_i hne
      cases hrest : rest.splitOn slash with
      | nil => exact absurd hrest (splitOn_ne_nil _ _)
      | cons =>
        rw [hrest, modifyHead_cons] at h
        rcases mem_cons.1 h with rfl | h
        · have hnext := ih (hrest ▸ mem_cons_self)
          intro hmem
          rcases mem_cons.1 hmem with rfl | hmem
          · exact hne (beq_self_eq_true _)
          · exact hnext hmem
        · exact ih (hrest ▸ mem_cons_of_mem _ h)

theorem names_cons_slash : names slash (slash :: path) = names slash path := by
  have hsplit := splitOn_append_cons_self (a := slash) [] path
  rw [nil_append, splitOn_nil] at hsplit
  unfold names
  rw [hsplit]
  rfl

theorem names_append_slash : names slash (path ++ [slash]) = names slash path := by
  unfold names
  rw [splitOn_append_cons_self, splitOn_nil, filter_append]
  simp

variable {name : List α}

theorem names_ne_nil (h : name ∈ names slash path) : name ≠ [] :=
  of_decide_eq_true (mem_filter.1 h).2

theorem names_no_slash (h : name ∈ names slash path) : slash ∉ name :=
  not_mem_of_mem_splitOn (mem_filter.1 h).1

/-- Names are read back from the path that they are joined to. -/
theorem names_intercalate {parts : List (List α)} (h : ∀ part ∈ parts, part ≠ [] ∧ slash ∉ part) :
    names slash ([slash].intercalate parts) = parts := by
  by_cases hnil : parts = []
  · subst hnil
    rfl
  · unfold names
    rw [splitOn_intercalate slash (fun part hpart => (h part hpart).2) hnil]
    rw [filter_eq_self]
    intro part hpart
    exact decide_eq_true (h part hpart).1

/-- The names of an absolute path are what its elements say, an empty one aside. -/
theorem elements_filter (h : isAbsolute slash path) :
    (elements slash path).filter (· ≠ []) = [slash] :: names slash path := by
  have hnms : (names slash path).filter (· ≠ []) = names slash path := by
    rw [filter_eq_self]
    intro name hname
    exact decide_eq_true (names_ne_nil hname)
  unfold elements
  rw [if_pos h, filter_append, filter_append, hnms]
  split <;> simp

theorem elements_prefix (h : isAbsolute slash path) (hoth : isAbsolute slash other)
    (leads : elements slash path <+: elements slash other) :
    names slash path <+: names slash other := by
  have hfilter := leads.filter (· ≠ [])
  rw [elements_filter h, elements_filter hoth] at hfilter
  exact (cons_prefix_cons.1 hfilter).2

theorem mem_of_mem_resolveStep {resolved : List (List α)} {component : List α}
    (h : name ∈ resolveStep dot resolved component) : name ∈ resolved ∨ name = component := by
  unfold resolveStep at h
  split_ifs at h
  · exact .inl h
  · exact .inl (mem_of_mem_dropLast h)
  · rcases mem_append.1 h with hrslv | hlast
    · exact .inl hrslv
    · exact .inr (mem_singleton.1 hlast)

theorem mem_of_mem_foldl_resolveStep {resolved components : List (List α)}
    (h : name ∈ components.foldl (resolveStep dot) resolved) :
    name ∈ resolved ∨ name ∈ components := by
  induction components generalizing resolved with
  | nil => exact .inl h
  | cons _ _ ih =>
    rcases ih h with hstep | hmem
    · rcases mem_of_mem_resolveStep hstep with hrslv | rfl
      · exact .inl hrslv
      · exact .inr mem_cons_self
    · exact .inr (mem_cons_of_mem _ hmem)

theorem mem_of_mem_resolve {components : List (List α)}
    (h : name ∈ resolve dot components) : name ∈ components := by
  rcases mem_of_mem_foldl_resolveStep h with hnil | hmem
  · cases hnil
  · exact hmem

/-- An absolute path that is its own normal form is spelled by its names, up to a separator at
its end. -/
theorem normal_spelling (h : lexicallyNormal slash dot path = path) :
    path = slash :: [slash].intercalate (names slash path) ∨
      path = slash :: [slash].intercalate (names slash path) ++ [slash] := by
  have hparts : ∀ part ∈ resolve dot (names slash path), part ≠ [] ∧ slash ∉ part := by
    intro part hpart
    have hname := mem_of_mem_resolve hpart
    exact ⟨names_ne_nil hname, names_no_slash hname⟩
  have hread := names_intercalate hparts
  unfold lexicallyNormal at h
  dsimp only at h
  split_ifs at h with hopen
  · have hnms : names slash path = resolve dot (names slash path) := by
      conv_lhs => rw [← h]
      rw [names_append_slash, names_cons_slash, hread]
    right
    rw [hnms]
    exact h.symm
  · rw [append_nil] at h
    have hnms : names slash path = resolve dot (names slash path) := by
      conv_lhs => rw [← h]
      rw [names_cons_slash, hread]
    left
    rw [hnms]
    exact h.symm

omit [DecidableEq α] in
theorem intercalate_concat {parts : List (List α)} (last : List α) (h : parts ≠ []) :
    [slash].intercalate (parts ++ [last]) = [slash].intercalate parts ++ slash :: last := by
  induction parts with
  | nil => exact absurd rfl h
  | cons part parts ih =>
    by_cases hnil : parts = []
    · simp [hnil, intercalate]
    · rw [cons_append, intercalate_cons_of_ne_nil (by simp), intercalate_cons_of_ne_nil hnil,
        ih hnil, append_assoc, append_assoc, append_assoc]

theorem endsOpen_iff : endsOpen slash path ↔ names slash path ≠ [] ∧ path.getLast? = some slash := by
  simp [endsOpen]

/-- Nothing stands behind the last separator of a path exactly if the path ends with it. -/
theorem last_splitOn (h : path ≠ []) :
    (path.splitOn slash).getLast? = some [] ↔ path.getLast? = some slash := by
  have hread : [slash].intercalate (path.splitOn slash) = path := intercalate_splitOn slash
  rcases eq_nil_or_concat (path.splitOn slash) with hnil | ⟨parts, last, hsplit⟩
  · exact absurd hnil (splitOn_ne_nil _ _)
  rw [concat_eq_append] at hsplit
  have hplain : slash ∉ last := not_mem_of_mem_splitOn (hsplit ▸ mem_append_right _ mem_cons_self)
  have hlast : path.getLast? = some slash ↔ last = [] := by
    rcases eq_nil_or_concat last with rfl | ⟨name, final, rfl⟩
    · refine iff_of_true ?_ rfl
      have hparts : parts ≠ [] := by
        rintro rfl
        rw [hsplit] at hread
        exact h hread.symm
      rw [← hread, hsplit, intercalate_concat _ hparts, getLast?_concat]
    · rw [concat_eq_append] at hplain
      refine iff_of_false ?_ (by simp)
      have hends : path.getLast? = some final := by
        rw [← hread, hsplit]
        by_cases hparts : parts = []
        · simp [hparts]
        · rw [intercalate_concat _ hparts, concat_eq_append, ← cons_append, ← append_assoc,
            getLast?_concat]
      rw [hends]
      rintro ⟨⟩
      simp at hplain
  rw [hlast, hsplit, getLast?_concat]
  simp

theorem elements_last (h : names slash path ≠ []) :
    (elements slash path).getLast? = (path.splitOn slash).getLast? := by
  have hne : path ≠ [] := by
    rintro rfl
    exact h rfl
  rcases eq_nil_or_concat (path.splitOn slash) with hnil | ⟨parts, last, hsplit⟩
  · exact absurd hnil (splitOn_ne_nil _ _)
  have hopen : (path.splitOn slash).getLast? = some [] ↔ path.getLast? = some slash :=
    last_splitOn hne
  rw [concat_eq_append] at hsplit
  rw [hsplit, getLast?_concat] at hopen ⊢
  unfold elements
  by_cases hlast : last = []
  · subst hlast
    rw [if_pos (endsOpen_iff.2 ⟨h, hopen.1 rfl⟩), getLast?_concat]
  · have hclosed : ¬ endsOpen slash path :=
      fun hends => hlast (Option.some.inj (hopen.2 (endsOpen_iff.1 hends).2))
    rw [if_neg hclosed, append_nil]
    unfold names
    rw [hsplit, filter_append, ← append_assoc]
    simp [hlast]

/-- The elements of a normal path are what its separators cut it into. -/
theorem elements_normal (h : lexicallyNormal slash dot path = path) :
    elements slash path = [slash] :: if path.tail = [] then [] else path.tail.splitOn slash := by
  have hparts : ∀ part ∈ names slash path, part ≠ [] ∧ slash ∉ part :=
    fun part hpart => ⟨names_ne_nil hpart, names_no_slash hpart⟩
  have habs : isAbsolute slash path := by
    rw [← h]
    simp [isAbsolute, lexicallyNormal]
  unfold elements
  rw [if_pos habs]
  by_cases hnil : names slash path = []
  · have hroot : path = [slash] := by
      rw [← h]
      simp [lexicallyNormal, hnil, resolve, intercalate]
    have hclosed : endsOpen slash path = false := by simp [endsOpen, hnil]
    rw [hnil, hclosed, hroot]
    rfl
  have hread : ([slash].intercalate (names slash path)).splitOn slash = names slash path :=
    splitOn_intercalate slash (fun part hpart => (hparts part hpart).2) hnil
  have hne : [slash].intercalate (names slash path) ≠ [] := by
    intro hemp
    rw [hemp, splitOn_nil] at hread
    exact (hparts [] (hread ▸ mem_cons_self)).1 rfl
  have hpath : path ≠ [] := by
    rintro rfl
    exact hnil rfl
  have hopen : (path.splitOn slash).getLast? = some [] ↔ path.getLast? = some slash :=
    last_splitOn hpath
  rcases normal_spelling h with hspell | hspell
  · have hclosed : ¬ endsOpen slash path := by
      intro hends
      have hlast := hopen.2 (endsOpen_iff.1 hends).2
      have hsplit := splitOn_append_cons_self (a := slash) []
        ([slash].intercalate (names slash path))
      rw [nil_append, splitOn_nil, ← hspell, hread] at hsplit
      rw [hsplit, getLast?_append_of_ne_nil _ hnil] at hlast
      exact (hparts [] (mem_of_getLast? hlast)).1 rfl
    have htail : path.tail = [slash].intercalate (names slash path) := by
      conv_lhs => rw [hspell]
      rfl
    rw [htail, if_neg hne, hread, if_neg hclosed, append_nil]
    rfl
  · have hends : path.getLast? = some slash := by rw [hspell, getLast?_concat]
    have htail : path.tail = [slash].intercalate (names slash path) ++ [slash] := by
      conv_lhs => rw [hspell]
      rfl
    rw [htail, if_pos (endsOpen_iff.2 ⟨hnil, hends⟩), if_neg (by simp),
      splitOn_append_cons_self, hread, splitOn_nil]
    rfl

/-- One of the paths is the other with a separator at its end. -/
def SlashApart (slash : α) (path other : List α) : Prop :=
  path = other ++ [slash] ∨ other = path ++ [slash]

instance : Decidable (SlashApart slash path other) := inferInstanceAs (Decidable (_ ∨ _))

theorem normal_same_iff (h : lexicallyNormal slash dot path = path)
    (hoth : lexicallyNormal slash dot other = other) :
    names slash path = names slash other ↔ path = other ∨ SlashApart slash path other := by
  constructor
  · intro hnms
    rcases normal_spelling h with hpath | hpath <;> rcases normal_spelling hoth with ho | ho <;>
      rw [← hnms] at ho
    · exact .inl (hpath.trans ho.symm)
    · rw [← hpath] at ho
      exact .inr (.inr ho)
    · rw [← ho] at hpath
      exact .inr (.inl hpath)
    · exact .inl (hpath.trans ho.symm)
  · rintro (rfl | rfl | rfl)
    · rfl
    · exact names_append_slash
    · exact names_append_slash.symm

end LexicalPaths
