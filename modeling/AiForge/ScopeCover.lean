import AiForge.Capability
import AiForge.LexicalPaths
import AiForge.Staged

/-! # The order of capability scopes

A normal form is its own normal form, so that cover may be read off normal forms, and on
scopes that have one cover is a preorder. What a list of scopes covers it covers through any
list in between. A path covers the paths that its parts lead. -/
namespace ScopeCover

open Capability Content List SafeText Staged

variable {value : String}

theorem normalizePath_ok {normal : String} (h : normalizePath value = .ok normal) :
    normal = value := by
  unfold normalizePath at h
  split_ifs at h
  exact (Except.ok.inj h).symm

theorem normalizeExact_ok {label normal : String}
    (h : normalizeExact value label = .ok normal) : normal = value := by
  unfold normalizeExact at h
  split_ifs at h
  exact (Except.ok.inj h).symm

theorem toLower_cases (c : Char) : c.toLower = c ∨
    (65 ≤ c.toNat ∧ c.toNat ≤ 90 ∧ c.toLower.toNat = c.toNat + 32) := by
  by_cases hu : c.isUpper
  · right
    have hc : 65 ≤ c.toNat ∧ c.toNat ≤ 90 := by
      simpa [Char.isUpper, UInt32.le_iff_toNat_le] using hu
    have hval : (c.toNat + 32).isValidChar := .inl (by omega)
    refine ⟨hc.1, hc.2, ?_⟩
    rw [Char.toLower_eq_of_isUpper hu, Char.ofNat, dif_pos hval]
    rfl
  · exact .inl (Char.toLower_eq_of_not_isUpper hu)

variable {c : Char}

theorem utf8Size_ascii (h : c.toNat < 128) : c.utf8Size = 1 := by
  rw [Char.utf8Size_eq_one_iff, UInt32.le_iff_toNat_le]
  have hval : c.val.toNat = c.toNat := rfl
  have hmax : (127 : UInt32).toNat = 127 := rfl
  omega

theorem toLower_utf8Size (c : Char) : c.toLower.utf8Size = c.utf8Size := by
  rcases toLower_cases c with h | ⟨-, _, _⟩
  · rw [h]
  · rw [utf8Size_ascii (by omega), utf8Size_ascii (by omega)]

theorem utf8Len_map_toLower (cs : List Char) :
    String.utf8Len (cs.map Char.toLower) = String.utf8Len cs := by
  induction cs with
  | nil => rfl
  | cons _ _ ih => simp [String.utf8Len, toLower_utf8Size, ih]

theorem hostCharacter_ascii (h : hostCharacter c) :
    0x20 ≤ c.toNat ∧ c.toNat < 0x7f ∧ c ∉ ['/', '@', '*'] := by
  unfold hostCharacter at h
  simp only [Bool.or_eq_true, decide_eq_true_eq, contains_iff_mem] at h
  rcases h with (⟨h₁, h₂⟩ | ⟨h₁, h₂⟩) | h
  · rw [Char.le_def, UInt32.le_iff_toNat_le] at h₁ h₂
    have hlow : 97 ≤ c.toNat := h₁
    have hhigh : c.toNat ≤ 122 := h₂
    refine ⟨by omega, by omega, ?_⟩
    simp only [mem_cons, not_mem_nil, or_false, not_or]
    refine ⟨?_, ?_, ?_⟩ <;> rintro rfl <;> revert hlow <;> decide
  · rw [Char.le_def, UInt32.le_iff_toNat_le] at h₁ h₂
    have hlow : 48 ≤ c.toNat := h₁
    have hhigh : c.toNat ≤ 57 := h₂
    refine ⟨by omega, by omega, ?_⟩
    simp only [mem_cons, not_mem_nil, or_false, not_or]
    refine ⟨?_, ?_, ?_⟩ <;> rintro rfl <;> revert hlow hhigh <;> decide
  · fin_cases h <;> decide

theorem bytesOf_ofList (cs : List Char) :
    bytesOf (String.ofList cs) = cs.flatMap String.utf8EncodeChar := by
  unfold bytesOf
  simp [String.toUTF8, List.utf8Encode]

theorem host_printable {cs : List Char} (h : ∀ c ∈ cs, hostCharacter c) :
    hasControlCharacter (String.ofList cs) = false := by
  unfold hasControlCharacter
  rw [bytesOf_ofList, any_eq_false]
  intro byte hbyte
  obtain ⟨c, hc, hbyte⟩ := mem_flatMap.1 hbyte
  obtain ⟨hlow, _, -⟩ := hostCharacter_ascii (h c hc)
  rw [String.utf8EncodeChar_eq_singleton (utf8Size_ascii (by omega)), mem_singleton] at hbyte
  have hnat : byte.toNat = c.toNat := by
    rw [hbyte, UInt32.toNat_toUInt8]
    exact Nat.mod_eq_of_lt (show c.toNat < 2 ^ 8 by omega)
  have hlt : ¬ byte < 0x20 := by
    rw [UInt8.lt_iff_toNat_lt, hnat]
    exact not_lt.2 hlow
  have hne : byte ≠ 0x7f := by
    intro he
    have : byte.toNat = 0x7f := by rw [he]; rfl
    omega
  simp [hlt, hne]

theorem toLower_ne_dot (h : c ≠ '.') : c.toLower ≠ '.' := by
  rcases toLower_cases c with hsame | ⟨_, -, hlower⟩
  · rwa [hsame]
  · intro he
    rw [he] at hlower
    have : ('.' : Char).toNat = 46 := rfl
    omega

theorem normalizeHost_idem {normal : String} (h : normalizeHost value = .ok normal) :
    normalizeHost normal = .ok normal := by
  unfold normalizeHost at h
  dsimp only at h
  split_ifs at h with hbad
  cases h
  simp only [not_or, Bool.not_eq_true] at hbad
  obtain ⟨hne, hsize, -, -, hhead, hlast, hchars⟩ := hbad
  have hhost : ∀ c ∈ value.toList.map Char.toLower, hostCharacter c := by
    intro c hc
    have hfalse := any_eq_false.1 hchars c hc
    simpa using hfalse
  have hsame : (value.toList.map Char.toLower).map Char.toLower = value.toList.map Char.toLower := by
    rw [map_map]
    exact map_congr_left fun c _ => Char.toLower_toLower_eq_toLower c
  have hdot : ∀ o : Option Char, o ≠ some '.' → o.map Char.toLower ≠ some '.' := by
    intro o ho
    cases o with
    | none => simp
    | some =>
      intro he
      exact toLower_ne_dot (fun hc => ho (by rw [hc])) (Option.some.inj he)
  have hslash : (value.toList.map Char.toLower).any ['/', '@', '*'].contains = false := by
    rw [any_eq_false]
    intro c hc
    have := (hostCharacter_ascii (hhost c hc)).2.2
    simpa using this
  have hsize' : (String.ofList (value.toList.map Char.toLower)).utf8ByteSize ≤ 253 := by
    rw [String.utf8ByteSize_ofList, utf8Len_map_toLower, ← String.utf8ByteSize_ofList,
      String.ofList_toList]
    exact not_lt.1 hsize
  unfold normalizeHost
  dsimp only
  rw [String.toList_ofList, hsame, if_neg]
  simp only [not_or, Bool.not_eq_true]
  refine ⟨by simpa using hne, not_lt.2 hsize', host_printable hhost, hslash, ?_, ?_, hchars⟩
  · rw [List.head?_map]
    exact hdot _ hhead
  · rw [List.getLast?_map]
    exact hdot _ hlast

theorem normalizeValue_idem {kind normal : String}
    (h : normalizeValue kind value = .ok normal) : normalizeValue kind normal = .ok normal := by
  have h₀ := h
  unfold normalizeValue at h
  split_ifs at h with hpath hhost hnet hword hspend hamt hart hid
  · rwa [normalizePath_ok h] at h₀ ⊢
  · have hidem := normalizeHost_idem h
    unfold normalizeValue
    rwa [if_neg hpath, if_pos hhost]
  · rwa [← Except.ok.inj h] at h₀ ⊢
  · rwa [← Except.ok.inj h] at h₀ ⊢
  · rwa [← Except.ok.inj h] at h₀ ⊢
  · rwa [normalizeExact_ok h] at h₀ ⊢

variable {normal scope : CapabilityScope}

theorem normalizeCapabilityScope_idem (h : normalizeCapabilityScope scope = .ok normal) :
    normalizeCapabilityScope normal = .ok normal := by
  unfold normalizeCapabilityScope at h
  dsimp only at h
  generalize hkind : (if scope.kind = "root" then "filesystem.root" else scope.kind) = kind at h
  split_ifs at h with hallowed
  obtain ⟨_, hval, h⟩ := bind_ok.1 h
  cases h
  have hroot : kind ≠ "root" := by
    rw [← hkind]
    split_ifs with hr
    · decide
    · exact hr
  unfold normalizeCapabilityScope
  rw [if_neg hroot, if_neg hallowed, normalizeValue_idem hval]
  rfl

/-- The order of normal forms. -/
def Above (grant requested : CapabilityScope) : Prop :=
  grant.effect = requested.effect ∧ grant.kind = requested.kind ∧
    if grant.kind = "filesystem.root" then
      pathParts grant.value.toList <+: pathParts requested.value.toList
    else if grant.kind = "spend.microunits" then
      ∃ granted amount, parseMicrounits grant.value = some granted ∧
        parseMicrounits requested.value = some amount ∧ amount ≤ granted
    else grant.value = requested.value

theorem covers_iff {grant requested : CapabilityScope} :
    capabilityScopeCovers grant requested ↔
      ∃ g r, normalizeCapabilityScope grant = .ok g ∧ normalizeCapabilityScope requested = .ok r ∧
        Above g r := by
  unfold capabilityScopeCovers
  cases hg : normalizeCapabilityScope grant with
  | error => simp
  | ok g =>
    cases hr : normalizeCapabilityScope requested with
    | error => simp
    | ok r =>
      unfold Above
      dsimp only
      by_cases hsame : g.effect ≠ r.effect ∨ g.kind ≠ r.kind
      · rw [if_pos hsame]
        rcases hsame with he | hk
        · simp [he]
        · simp [hk]
      · rw [if_neg hsame]
        push Not at hsame
        by_cases hroot : g.kind = "filesystem.root"
        · simp [hroot, hsame.1, ← hsame.2]
        · by_cases hspend : g.kind = "spend.microunits"
          · cases hx : parseMicrounits g.value <;> cases hy : parseMicrounits r.value <;>
              simp [hspend, hsame.1, ← hsame.2, hx, hy]
          · simp [hroot, hspend, hsame.1, ← hsame.2]

theorem normal_amount
    (h : normalizeCapabilityScope scope = .ok normal) (hk : normal.kind = "spend.microunits") :
    ∃ amount, parseMicrounits normal.value = some amount := by
  have h' := normalizeCapabilityScope_idem h
  unfold normalizeCapabilityScope at h'
  dsimp only at h'
  have hroot : ¬ "spend.microunits" = "root" := by decide
  rw [hk, if_neg hroot] at h'
  split_ifs at h' with hallowed
  obtain ⟨value, hval, -⟩ := bind_ok.1 h'
  unfold normalizeValue at hval
  simp only [String.reduceEq, or_self, if_false, if_true] at hval
  split_ifs at hval with hsome
  exact Option.isSome_iff_exists.1 hsome

theorem above_refl (h : normalizeCapabilityScope scope = .ok normal) : Above normal normal := by
  refine ⟨rfl, rfl, ?_⟩
  split_ifs with hroot hspend
  · exact prefix_refl _
  · obtain ⟨amount, ha⟩ := normal_amount h hspend
    exact ⟨amount, amount, ha, ha, le_refl amount⟩
  · rfl

theorem above_trans {a b c : CapabilityScope} (hab : Above a b) (hbc : Above b c) : Above a c := by
  obtain ⟨he, hk, hv⟩ := hab
  obtain ⟨he', hk', hv'⟩ := hbc
  refine ⟨he.trans he', hk.trans hk', ?_⟩
  rw [← hk] at hv'
  split_ifs at hv hv' ⊢ with hroot hspend
  · exact hv.trans hv'
  · obtain ⟨x, _, hx, hy, hxy⟩ := hv
    obtain ⟨_, z, hy', hz, hyz⟩ := hv'
    rw [hy] at hy'
    cases hy'
    exact ⟨x, z, hx, hz, hyz.trans hxy⟩
  · exact hv.trans hv'

theorem covers_refl (h : normalizeCapabilityScope scope = .ok normal) :
    capabilityScopeCovers scope scope :=
  covers_iff.2 ⟨normal, normal, h, h, above_refl h⟩

theorem covers_trans {a b c : CapabilityScope} (hab : capabilityScopeCovers a b)
    (hbc : capabilityScopeCovers b c) : capabilityScopeCovers a c := by
  obtain ⟨x, _, hx, hy, hxy⟩ := covers_iff.1 hab
  obtain ⟨_, z, hy', hz, hyz⟩ := covers_iff.1 hbc
  rw [hy] at hy'
  cases hy'
  exact covers_iff.2 ⟨x, z, hx, hz, above_trans hxy hyz⟩

/-- A scope and its normal form cover each other. -/
theorem covers_normal (h : normalizeCapabilityScope scope = .ok normal) :
    capabilityScopeCovers scope normal ∧ capabilityScopeCovers normal scope :=
  ⟨covers_iff.2 ⟨normal, normal, h, normalizeCapabilityScope_idem h, above_refl h⟩,
    covers_iff.2 ⟨normal, normal, normalizeCapabilityScope_idem h, h, above_refl h⟩⟩

theorem covers_effect {grant requested : CapabilityScope}
    (h : capabilityScopeCovers grant requested) : grant.effect = requested.effect := by
  obtain ⟨_, _, hg, hr, he, -⟩ := covers_iff.1 h
  have hkeeps : ∀ {scope normal : CapabilityScope}, normalizeCapabilityScope scope = .ok normal →
      normal.effect = scope.effect := by
    intro scope normal hn
    unfold normalizeCapabilityScope at hn
    dsimp only at hn
    split_ifs at hn
    all_goals
      obtain ⟨_, -, hn⟩ := bind_ok.1 hn
      rw [← Except.ok.inj hn]
  rw [← hkeeps hg, ← hkeeps hr, he]

theorem scopesCover_iff {grants requested : List CapabilityScope} :
    scopesCover grants requested ↔
      ∀ scope ∈ requested, ∃ grant ∈ grants, capabilityScopeCovers grant scope := by
  simp [scopesCover]

theorem scopesCover_trans {a b c : List CapabilityScope} (hab : scopesCover a b)
    (hbc : scopesCover b c) : scopesCover a c := by
  rw [scopesCover_iff] at hab hbc ⊢
  intro scope hs
  obtain ⟨middle, hm, hms⟩ := hbc scope hs
  obtain ⟨grant, hg, hgm⟩ := hab middle hm
  exact ⟨grant, hg, covers_trans hgm hms⟩

theorem normalizeScopes_ok {scopes normal : List CapabilityScope}
    (h : normalizeScopes scopes = .ok normal) :
    scopes.mapM normalizeCapabilityScope = .ok normal ∧ normal.Nodup := by
  obtain ⟨_, hxs, h⟩ := bind_ok.1 h
  split_ifs at h with hn
  cases h
  exact ⟨hxs, hn⟩

theorem scopesCover_normal {scopes normal : List CapabilityScope}
    (h : normalizeScopes scopes = .ok normal) :
    scopesCover scopes normal ∧ scopesCover normal scopes := by
  have hall := mapM_eq_ok.1 (normalizeScopes_ok h).1
  rw [scopesCover_iff, scopesCover_iff]
  constructor
  · intro n hn
    obtain ⟨i, hi, rfl⟩ := getElem_of_mem hn
    have hlen := hall.length_eq
    have hpair := hall.get (by omega) hi
    exact ⟨scopes[i], getElem_mem _, (covers_normal hpair).1⟩
  · intro n hn
    obtain ⟨i, hi, rfl⟩ := getElem_of_mem hn
    have hlen := hall.length_eq
    have hpair := hall.get hi (by omega)
    exact ⟨normal[i], getElem_mem _, (covers_normal hpair).2⟩

theorem intercalate_append {xs ys : List (List Char)} (hx : xs ≠ []) (hy : ys ≠ []) :
    ['/'].intercalate (xs ++ ys) = ['/'].intercalate xs ++ '/' :: ['/'].intercalate ys := by
  induction xs with
  | nil => exact absurd rfl hx
  | cons _ xs ih =>
    cases xs with
    | nil => simp [intercalate_cons_of_ne_nil hy]
    | cons => simpa [intercalate_cons_cons] using ih (cons_ne_nil _ _)

/-- The parts of one path lead those of another if that is the path itself or has a separator
behind it. -/
theorem splitOn_prefix_iff {xs ys : List Char} : xs.splitOn '/' <+: ys.splitOn '/' ↔
    ys = xs ∨ ∃ rest, ys = xs ++ '/' :: rest := by
  constructor
  · rintro ⟨more, hmore⟩
    have hys : List.intercalate ['/'] (ys.splitOn '/') = ys := intercalate_splitOn '/'
    rw [← hmore] at hys
    by_cases hmore' : more = []
    · rw [hmore', append_nil, intercalate_splitOn] at hys
      exact .inl hys.symm
    · rw [intercalate_append (splitOn_ne_nil _ _) hmore', intercalate_splitOn] at hys
      exact .inr ⟨_, hys.symm⟩
  · rintro (rfl | ⟨rest, rfl⟩)
    · exact prefix_refl _
    · rw [splitOn_append_cons_self]
      exact prefix_append _ _

theorem pathParts_prefix_iff {path other : List Char} (hpath : path.head? = some '/')
    (hoth : other.head? = some '/') : pathParts path <+: pathParts other ↔
      path = ['/'] ∨ other = path ∨ ∃ rest, other = path ++ '/' :: rest := by
  obtain ⟨xs, rfl⟩ : ∃ xs, path = '/' :: xs := List.head?_eq_some_iff.1 hpath
  obtain ⟨ys, rfl⟩ : ∃ ys, other = '/' :: ys := List.head?_eq_some_iff.1 hoth
  unfold pathParts
  rw [cons_prefix_cons, tail_cons, tail_cons]
  by_cases hx : xs = []
  · simp [hx]
  · rw [if_neg hx]
    by_cases hy : ys = []
    · simp [hx, hy, splitOn_ne_nil, eq_comm (a := ([] : List Char))]
    · simp [hx, hy, splitOn_prefix_iff]

/-- What a normal path keeps of a path's components. -/
def Kept (component : List Char) : Prop := component ≠ ['.'] ∧ '/' ∉ component

theorem kept_of_mem_resolveComponents {components : List (List Char)}
    (hplain : ∀ component ∈ components, '/' ∉ component) :
    ∀ component ∈ resolveComponents components, Kept component := by
  apply List.foldlRecOn components _
    (motive := fun resolved => ∀ component ∈ resolved, Kept component)
  · exact fun component hmem => absurd hmem not_mem_nil
  · intro resolved hrslv next hnext component hmem
    split_ifs at hmem with hskip hup
    · exact hrslv component hmem
    · exact hrslv component (mem_of_mem_dropLast hmem)
    · rcases mem_append.1 hmem with hmem | hlast
      · exact hrslv component hmem
      · rw [mem_singleton.1 hlast]
        exact ⟨fun hdot => hskip (.inr hdot), hplain next hnext⟩

/-- No part of a normal path is a single dot. -/
theorem lexicallyNormal_parts (path : List Char) : ∃ tail, lexicallyNormal path = '/' :: tail ∧
    (tail = [] ∨ ∀ part ∈ tail.splitOn '/', part ≠ ['.']) := by
  have hkept := kept_of_mem_resolveComponents fun component (hc : component ∈ path.splitOn '/') =>
    LexicalPaths.not_mem_of_mem_splitOn hc
  unfold lexicallyNormal
  refine ⟨_, cons_append, ?_⟩
  generalize resolveComponents (path.splitOn '/') = resolved at hkept
  by_cases hne : resolved = []
  · left
    simp [hne, intercalate_nil]
  · right
    have hread := splitOn_intercalate '/' (fun component hc => (hkept component hc).2) hne
    split_ifs with hopen
    · rw [splitOn_append_cons_self, hread, splitOn_nil]
      intro part hpart
      rcases mem_append.1 hpart with hmem | hlast
      · exact (hkept part hmem).1
      · rw [mem_singleton.1 hlast]
        decide
    · rw [append_nil, hread]
      exact fun part hpart => (hkept part hpart).1

/-- The parts of a path that is its own normal form are names. -/
theorem parts_of_normalizePath (h : normalizePath value = .ok value) :
    value.toList.head? = some '/' ∧
      ∀ part ∈ pathParts value.toList, part ≠ ['.'] ∧ part ≠ ['.', '.'] := by
  unfold normalizePath at h
  split_ifs at h with hbad hroot hamb
  rw [not_or, not_not] at hamb
  obtain ⟨hsame, hup⟩ := hamb
  refine ⟨not_not.1 hroot, ?_⟩
  obtain ⟨tail, htail, hdot⟩ := lexicallyNormal_parts value.toList
  rw [htail, show ('/' :: tail).splitOn '/' = [] :: tail.splitOn '/' from
    splitOn_append_cons_self (a := '/') [] tail] at hup
  rw [← hsame, htail]
  intro part hpart
  unfold pathParts at hpart
  rw [tail_cons] at hpart
  rcases mem_cons.1 hpart with rfl | hpart
  · decide
  · split_ifs at hpart with hemp
    · cases hpart
    · exact ⟨(hdot.resolve_left hemp) part hpart,
        fun hdots => hup (mem_cons_of_mem _ (hdots ▸ hpart))⟩

theorem resolveComponents_eq (components : List (List Char)) :
    resolveComponents components = LexicalPaths.resolve '.' (components.filter (· ≠ [])) := by
  unfold resolveComponents LexicalPaths.resolve
  rw [foldl_filter]
  congr 1
  funext resolved component
  unfold LexicalPaths.resolveStep
  by_cases hemp : component = []
  · simp [hemp]
  · simp [hemp]

/-- The normal form of a path is the one that lexical paths have. -/
theorem lexicallyNormal_eq (path : List Char) :
    lexicallyNormal path = LexicalPaths.lexicallyNormal '/' '.' path := by
  have hnames : (path.splitOn '/').filter (· ≠ []) = LexicalPaths.names '/' path := rfl
  unfold lexicallyNormal LexicalPaths.lexicallyNormal
  dsimp only
  rw [resolveComponents_eq, hnames]
  by_cases hnil : LexicalPaths.names '/' path = []
  · rw [hnil]
    simp [LexicalPaths.resolve]
  · rw [LexicalPaths.elements_last hnil]

/-- The parts of a path that is its own normal form are its elements. -/
theorem pathParts_eq (h : normalizePath value = .ok value) :
    pathParts value.toList = LexicalPaths.elements '/' value.toList := by
  unfold normalizePath at h
  split_ifs at h with hbad hroot hamb
  rw [not_or, not_not] at hamb
  rw [lexicallyNormal_eq] at hamb
  rw [LexicalPaths.elements_normal hamb.1]
  rfl

theorem path_of_normal
    (h : normalizeCapabilityScope scope = .ok normal) (hroot : normal.kind = "filesystem.root") :
    normalizePath normal.value = .ok normal.value := by
  unfold normalizeCapabilityScope at h
  dsimp only at h
  split_ifs at h
  all_goals
    obtain ⟨value, hval, h⟩ := bind_ok.1 h
    cases h
    unfold normalizeValue at hval
    rw [if_pos (.inl hroot)] at hval
    have hsame := normalizePath_ok hval
    rwa [← hsame] at hval

/-- What an intersection is made of is covered from both sides. -/
theorem intersectCapabilityScopes_covered {parent requested result : List CapabilityScope}
    (h : intersectCapabilityScopes parent requested = .ok result) :
    scopesCover parent result ∧ scopesCover requested result := by
  obtain ⟨_, hgranted, h⟩ := bind_ok.1 h
  obtain ⟨_, hnorm, h⟩ := bind_ok.1 h
  split_ifs at h with hcover
  cases h
  exact ⟨scopesCover_trans (scopesCover_normal hgranted).1 hcover, (scopesCover_normal hnorm).1⟩

/-- Normal forms are stable, cover is a preorder on what has one, paths of one effect cover what
lies below them, and an intersection lies below both sides. -/
theorem scope_algebra : (∀ scope normal, normalizeCapabilityScope scope = .ok normal →
      normalizeCapabilityScope normal = .ok normal ∧ capabilityScopeCovers scope scope) ∧
    (∀ a b c, capabilityScopeCovers a b → capabilityScopeCovers b c →
      capabilityScopeCovers a c) ∧
    (∀ a b g r, normalizeCapabilityScope a = .ok g → normalizeCapabilityScope b = .ok r →
      g.kind = "filesystem.root" → r.kind = "filesystem.root" → (capabilityScopeCovers a b ↔
        g.effect = r.effect ∧ pathParts g.value.toList <+: pathParts r.value.toList) ∧
      (pathParts g.value.toList <+: pathParts r.value.toList ↔ g.value.toList = ['/'] ∨
        r.value.toList = g.value.toList ∨ ∃ rest, r.value.toList = g.value.toList ++ '/' :: rest) ∧
      ∀ part ∈ pathParts r.value.toList, part ≠ ['.'] ∧ part ≠ ['.', '.']) ∧
    ∀ parent requested result, intersectCapabilityScopes parent requested = .ok result →
      ∀ scope ∈ result, (∃ grant ∈ parent, capabilityScopeCovers grant scope) ∧
        ∃ child ∈ requested, capabilityScopeCovers child scope := by
  refine ⟨?_, fun a b c => covers_trans, ?_, ?_⟩
  · exact fun scope normal h => ⟨normalizeCapabilityScope_idem h, covers_refl h⟩
  · intro a b g r hg hr hroot hroot'
    obtain ⟨hhead, -⟩ := parts_of_normalizePath (path_of_normal hg hroot)
    obtain ⟨hhead', hparts⟩ := parts_of_normalizePath (path_of_normal hr hroot')
    refine ⟨?_, pathParts_prefix_iff hhead hhead', hparts⟩
    rw [covers_iff]
    constructor
    · rintro ⟨_, _, hg', hr', heffect, -, hvalue⟩
      obtain rfl := Except.ok.inj (hg.symm.trans hg')
      obtain rfl := Except.ok.inj (hr.symm.trans hr')
      rw [if_pos hroot] at hvalue
      exact ⟨heffect, hvalue⟩
    · rintro ⟨heffect, _⟩
      exact ⟨g, r, hg, hr, heffect, hroot.trans hroot'.symm, by rwa [if_pos hroot]⟩
  · intro parent requested result h scope hs
    obtain ⟨hparent, hchild⟩ := intersectCapabilityScopes_covered h
    exact ⟨scopesCover_iff.1 hparent scope hs, scopesCover_iff.1 hchild scope hs⟩

/-- A scope to read covers no scope to write below it. -/
theorem effects_kept_apart : ¬ ∀ a b g r, normalizeCapabilityScope a = .ok g →
    normalizeCapabilityScope b = .ok r → g.kind = "filesystem.root" → r.kind = "filesystem.root" →
      (capabilityScopeCovers a b ↔
        pathParts g.value.toList <+: pathParts r.value.toList) := by
  intro h
  have hcover := h ⟨.read, "root", "/a"⟩ ⟨.write, "root", "/a/b"⟩ ⟨.read, "filesystem.root", "/a"⟩
    ⟨.write, "filesystem.root", "/a/b"⟩ (by decide +kernel) (by decide +kernel) rfl rfl
  exact absurd (hcover.2 (by decide +kernel)) (by decide +kernel)

end ScopeCover
