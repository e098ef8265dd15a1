import AiForge.DecimalDigits

/-! # Self-delimiting encodings

An encoding is read from the front: what stands there and what is left over are determined
together. Records are then encoded by writing their parts one after the other, an optional part
behind a tag and a list behind its length, and each record reads back in the order in which it
was written. A netstring is such an encoding of a string of bytes by bytes. -/
namespace Framing

open List

section SelfDelimiting

variable {α β ι κ : Type*}

def SelfDelimiting (encode : α → List ι) : Prop :=
  ∀ x y r s, encode x ++ r = encode y ++ s → x = y ∧ r = s

/-- A tag says whether the optional part follows. -/
def tagged (tag : Bool → ι) (encode : α → List ι) (value : Option α) : List ι :=
  tag value.isSome :: value.elim [] encode

/-- The length of the list stands before its elements. -/
def counted (count : ℕ → ι) (encode : α → List ι) (values : List α) : List ι :=
  count values.length :: values.flatMap encode

variable {encode : α → List ι}

theorem SelfDelimiting.injective (h : SelfDelimiting encode) : Function.Injective encode := by
  intro x y hxy
  have := h x y [] [] (by rw [hxy])
  exact this.1

theorem delimited_single {f : α → ι} (hf : Function.Injective f) :
    SelfDelimiting fun x => [f x] := by
  intro x y r s h
  obtain ⟨hx, hr⟩ := List.cons.inj h
  exact ⟨hf hx, hr⟩

/-- The values of one shape are read back up to what `view` shows of them. -/
def ReadsBack (p : α → Prop) (shape : α → κ) (view : α → β) (encode : α → List ι) : Prop :=
  ∀ x y r s, p x → p y → shape x = shape y → encode x ++ r = encode y ++ s →
    view x = view y ∧ r = s

variable {p : α → Prop} {view : α → β} {xs ys : List α}

/-- Lists of values with the same shapes read back element by element. -/
theorem ReadsBack.flatMap {shape : α → κ}
    (h : ReadsBack p shape view encode) {r s : List ι} (hx : ∀ x ∈ xs, p x)
    (hy : ∀ y ∈ ys, p y) (hshp : xs.map shape = ys.map shape)
    (hxy : xs.flatMap encode ++ r = ys.flatMap encode ++ s) :
    xs.map view = ys.map view ∧ r = s := by
  induction xs generalizing ys with
  | nil =>
    have hn := map_eq_nil_iff.1 hshp.symm
    subst hn
    exact ⟨rfl, hxy⟩
  | cons x _ ih =>
    cases ys with
    | nil => cases hshp
    | cons y =>
      simp only [flatMap_cons, append_assoc] at hxy
      obtain ⟨hsame, hshp⟩ := List.cons.inj hshp
      obtain ⟨hpx, hpxs⟩ := forall_mem_cons.1 hx
      obtain ⟨hpy, hpys⟩ := forall_mem_cons.1 hy
      obtain ⟨hview, hrest⟩ := h x y _ _ hpx hpy hsame hxy
      obtain ⟨hvs, hr⟩ := ih hpxs hpys hshp hrest
      exact ⟨by rw [map_cons, map_cons, hview, hvs], hr⟩

/-- A list is read back without its length where no record can be mistaken for what comes behind
the list. What may come behind a record is up to `Ends`. -/
theorem readBack_until {Ends : List ι → Prop}
    (hread : ∀ x y r s, p x → p y → Ends r → Ends s → encode x ++ r = encode y ++ s →
      view x = view y ∧ r = s)
    (hnext : ∀ x rest, p x → Ends (encode x ++ rest)) {r s : List ι} (hr : Ends r) (hs : Ends s)
    (hnr : ∀ x rest, p x → Ends rest → r ≠ encode x ++ rest)
    (hns : ∀ x rest, p x → Ends rest → s ≠ encode x ++ rest)
    (hx : ∀ x ∈ xs, p x) (hy : ∀ y ∈ ys, p y)
    (hxy : xs.flatMap encode ++ r = ys.flatMap encode ++ s) :
    xs.map view = ys.map view ∧ r = s := by
  have hends {zs : List α} {t : List ι} (hz : ∀ z ∈ zs, p z) (ht : Ends t) :
      Ends (zs.flatMap encode ++ t) := by
    cases zs with
    | nil => exact ht
    | cons z _ =>
      rw [flatMap_cons, append_assoc]
      exact hnext z _ (hz z mem_cons_self)
  induction xs generalizing ys with
  | nil =>
    cases ys with
    | nil => exact ⟨rfl, hxy⟩
    | cons y _ =>
      obtain ⟨hpy, hpys⟩ := forall_mem_cons.1 hy
      rw [flatMap_cons, append_assoc] at hxy
      exact absurd hxy (hnr y _ hpy (hends hpys hs))
  | cons x _ ih =>
    obtain ⟨hpx, hpxs⟩ := forall_mem_cons.1 hx
    cases ys with
    | nil =>
      rw [flatMap_cons, append_assoc] at hxy
      exact absurd hxy.symm (hns x _ hpx (hends hpxs hr))
    | cons y _ =>
      obtain ⟨hpy, hpys⟩ := forall_mem_cons.1 hy
      rw [flatMap_cons, flatMap_cons, append_assoc, append_assoc] at hxy
      obtain ⟨hview, hrest⟩ := hread x y _ _ hpx hpy (hends hpxs hr) (hends hpys hs) hxy
      obtain ⟨hviews, hrest⟩ := ih hpxs hpys hrest
      exact ⟨by rw [map_cons, map_cons, hview, hviews], hrest⟩

/-- An encoding that needs no shape and is never empty marks the end of a list by itself. -/
theorem ReadsBack.flatMap_inj (h : ReadsBack p (fun _ => ()) view encode) (hne : ∀ x, encode x ≠ [])
    (hx : ∀ x ∈ xs, p x) (hy : ∀ y ∈ ys, p y) (hxy : xs.flatMap encode = ys.flatMap encode) :
    xs.map view = ys.map view := by
  have hnil : ∀ x rest, p x → True → [] ≠ encode x ++ rest := by
    intro x rest _ _ heq
    exact hne x (append_eq_nil_iff.1 heq.symm).1
  have hread : ∀ x y r s, p x → p y → True → True → encode x ++ r = encode y ++ s →
      view x = view y ∧ r = s := fun x y r s hpx hpy _ _ => h x y r s hpx hpy rfl
  exact (readBack_until hread (fun _ _ _ => trivial) trivial trivial hnil hnil hx hy 
    (by rw [append_nil, append_nil, hxy])).1

theorem readsBack_tagged {tag : Bool → ι}
    (ht : Function.Injective tag) (h : ReadsBack p (fun _ => ()) view encode) :
    ReadsBack (fun value : Option α => ∀ x ∈ value, p x) (fun _ => ()) (Option.map view)
      (tagged tag encode) := by
  intro x y r s hx hy _ hxy
  obtain ⟨hp, hxy⟩ := List.cons.inj hxy
  have hp := ht hp
  cases x with
  | none =>
    cases y with
    | none => exact ⟨rfl, hxy⟩
    | some => cases hp
  | some x =>
    cases y with
    | none => cases hp
    | some y =>
      obtain ⟨hview, hr⟩ := h x y r s (hx x rfl) (hy y rfl) rfl hxy
      exact ⟨congrArg some hview, hr⟩

/-- The values that satisfy `p` are read back whole, whatever their shape. -/
def SelfDelimitingOn (p : α → Prop) (encode : α → List ι) : Prop :=
  ReadsBack p (fun _ => ()) id encode

theorem SelfDelimiting.on (h : SelfDelimiting encode) (p : α → Prop) :
    SelfDelimitingOn p encode := by
  intro x y r s _ _ _ hxy
  exact h x y r s hxy

theorem delimited_tagged {tag : Bool → ι}
    (ht : Function.Injective tag) (h : SelfDelimiting encode) :
    SelfDelimiting (tagged tag encode) := by
  intro x y r s hxy
  have hview := readsBack_tagged ht (h.on fun _ => True) x y r s (fun _ _ => trivial)
    (fun _ _ => trivial) rfl hxy
  rwa [Option.map_id] at hview

theorem SelfDelimitingOn.injective
    (h : SelfDelimitingOn p encode) {x y : α} (hx : p x) (hy : p y) (hsame : encode x = encode y) :
    x = y :=
  (h x y [] [] hx hy rfl (by rw [hsame])).1

theorem SelfDelimitingOn.flatMap (h : SelfDelimitingOn p encode) {r s : List ι} (hx : ∀ x ∈ xs, p x)
    (hy : ∀ y ∈ ys, p y) (hl : xs.length = ys.length)
    (hxy : xs.flatMap encode ++ r = ys.flatMap encode ++ s) : xs = ys ∧ r = s := by
  have hshp : xs.map (fun _ => ()) = ys.map (fun _ => ()) := by
    rw [map_const', map_const', hl]
  obtain ⟨hvs, hr⟩ := ReadsBack.flatMap h hx hy hshp hxy
  rw [map_id, map_id] at hvs
  exact ⟨hvs, hr⟩

theorem SelfDelimitingOn.flatMap_inj (h : SelfDelimitingOn p encode) (hne : ∀ x, encode x ≠ [])
    (hx : ∀ x ∈ xs, p x) (hy : ∀ y ∈ ys, p y) (hxy : xs.flatMap encode = ys.flatMap encode) :
    xs = ys := by
  have hvs := ReadsBack.flatMap_inj h hne hx hy hxy
  rwa [map_id, map_id] at hvs

theorem delimitedOn_counted {count : ℕ → ι}
    (hc : Function.Injective count) (h : SelfDelimitingOn p encode) :
    SelfDelimitingOn (fun xs : List α => ∀ x ∈ xs, p x) (counted count encode) := by
  intro xs ys r s hx hy _ hxy
  obtain ⟨hl, hxy⟩ := List.cons.inj hxy
  exact h.flatMap hx hy (hc hl) hxy

theorem delimited_counted {count : ℕ → ι}
    (hc : Function.Injective count) (h : SelfDelimiting encode) :
    SelfDelimiting (counted count encode) := by
  intro xs ys r s hxy
  exact delimitedOn_counted hc (h.on fun _ => True) xs ys r s (fun _ _ => trivial)
    (fun _ _ => trivial) rfl hxy

end SelfDelimiting

section Netstring

open DecimalDigits

def decimal (n : ℕ) : List UInt8 := (Nat.toDigits 10 n).map Char.toUInt8

/-- The decimal length, a colon and the string itself. -/
def netstring (value : List UInt8) : List UInt8 := decimal value.length ++ 58 :: value

theorem ofNat_toUInt8 {c : Char} (h : IsDigit c) : Char.ofNat c.toUInt8.toNat = c := by
  obtain ⟨_, hu⟩ := h
  have hn : c.toNat ≤ 57 := hu
  have hb : c.toUInt8.toNat = c.toNat := by
    exact Nat.mod_eq_of_lt (by change c.val.toNat ≤ 57 at hn; omega)
  rw [hb, Char.ofNat_toNat]

theorem decimal_injective : Function.Injective decimal := by
  have hback : ∀ n, (decimal n).map (fun b => Char.ofNat b.toNat) = Nat.toDigits 10 n := by
    intro n
    rw [decimal, map_map]
    conv_rhs => rw [← map_id (Nat.toDigits 10 n)]
    apply map_congr_left
    intro c hc
    exact ofNat_toUInt8 (isDigit_toDigits hc)
  intro n m h
  have hd : Nat.toDigits 10 n = Nat.toDigits 10 m := by rw [← hback n, ← hback m, h]
  rw [← textValue_toDigits n, ← textValue_toDigits m, hd]

theorem decimal_inj {m n : ℕ} : decimal m = decimal n ↔ m = n := decimal_injective.eq_iff

theorem colon_not_mem_decimal (n : ℕ) : (58 : UInt8) ∉ decimal n := by
  intro h
  obtain ⟨_, hc, he⟩ := mem_map.1 h
  have hd := isDigit_toDigits hc
  have hb := ofNat_toUInt8 hd
  rw [he] at hb
  rw [← hb] at hd
  exact absurd hd.2 (by decide)

/-- A mark that occurs in neither front splits both lists at the same place. -/
theorem append_mark_inj {α : Type*} [DecidableEq α] {mark : α} {a b r s : List α} (ha : mark ∉ a)
    (hb : mark ∉ b) (h : a ++ mark :: r = b ++ mark :: s) : a = b ∧ r = s := by
  have hfront : ∀ {front : List α} (rest : List α), mark ∉ front →
      (front ++ mark :: rest).takeWhile (fun x => decide (x ≠ mark)) = front := by
    intro front rest hm
    rw [takeWhile_append_of_pos]
    · simp
    · intro x hx
      have : x ≠ mark := fun he => hm (he ▸ hx)
      simpa using this
  have hab : a = b := by rw [← hfront r ha, ← hfront s hb, h]
  subst hab
  have hrest := append_cancel_left h
  exact ⟨rfl, (List.cons.inj hrest).2⟩

theorem delimited_netstring : SelfDelimiting netstring := by
  intro v w r s h
  simp only [netstring, append_assoc, cons_append] at h
  obtain ⟨hl, hvw⟩ := append_mark_inj (colon_not_mem_decimal _) (colon_not_mem_decimal _) h
  exact append_inj hvw (decimal_injective hl)

theorem netstring_ne_nil (value : List UInt8) : netstring value ≠ [] := by simp [netstring]

/-- A list of strings is determined by its netstrings written one after the other. -/
theorem netstrings_inj : Function.Injective fun fields : List (List UInt8) =>
    fields.flatMap netstring := by
  intro first second h
  exact (delimited_netstring.on fun _ => True).flatMap_inj netstring_ne_nil
    (fun _ _ => trivial) (fun _ _ => trivial) h

end Netstring

end Framing
