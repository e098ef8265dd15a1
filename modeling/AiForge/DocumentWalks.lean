import AiForge.ConversationDocument
import AiForge.ConversationSummary

/-! # Walks over documents

Three decoders bound a document before they copy anything out of it. Each walks the document
with an explicit stack, pays for every value out of a budget that it only ever subtracts from,
and refuses to queue children that the budget does not cover. In whichever order the values are
visited, a walk passes exactly the documents whose counts are within the budgets. -/
namespace DocumentWalks

open ConversationDocument Json List PayloadCodec Staged

/-- A value takes its place among the values that wait, however that place is chosen. -/
structure VisitOrder where
  queue : List (Json × ℕ) → List (Json × ℕ) → List (Json × ℕ)
  perm : ∀ children pending, (queue children pending).Perm (children ++ pending)

/-- The last child that was pushed is visited next. -/
def stackOrder : VisitOrder where
  queue children pending := children.reverse ++ pending
  perm children _ := (List.reverse_perm children).append_right _

/-- How a walk checks one value, and what the check asks of it: `check` takes the budget for
text and the depth, `covers` the budget for values, how many of them wait and how many come. -/
structure Walker where
  check : Json → ℕ → ℕ → Result ℕ
  covers : ℕ → ℕ → ℕ → Bool
  bounds : Failure
  depth : ℕ
  cost : Json → ℕ
  Admits : Json → Prop
  check_eq_ok : ∀ {value bytes level left}, check value bytes level = .ok left ↔
    level ≤ depth ∧ Admits value ∧ cost value ≤ bytes ∧ left = bytes - cost value
  covers_iff : ∀ {nodes waiting size}, waiting ≤ nodes → nodes < 2 ^ 64 →
    (covers nodes waiting size ↔ size + waiting ≤ nodes)

/-- The values still to be checked with their depths, the next one first. -/
def Walker.walk (w : Walker) (order : VisitOrder) : ℕ → ℕ → List (Json × ℕ) → Result Unit
  | _, _, [] => .ok ()
  | 0, _, _ :: _ => .error w.bounds
  | nodes + 1, bytes, (item, depth) :: pending => do
    let bytes ← w.check item bytes depth
    -- The budget must cover every queued child before the children are queued.
    onlyIf (isContainer item) (ensure (w.covers nodes pending.length item.size) w.bounds)
    w.walk order nodes bytes (order.queue (item.children.map fun child => (child, depth + 1)) pending)

/-- The budgets and the values that wait whenever the walk comes to its loop. -/
inductive Walker.Reached (w : Walker) (order : VisitOrder) (nodes bytes : ℕ) (value : Json) :
    ℕ → ℕ → List (Json × ℕ) → Prop
  | start : w.Reached order nodes bytes value nodes bytes [(value, 0)]
  | visit {left rest paid depth : ℕ} {item : Json} {pending : List (Json × ℕ)} :
      w.Reached order nodes bytes value (left + 1) rest ((item, depth) :: pending) →
      w.check item rest depth = .ok paid →
      (isContainer item → w.covers left pending.length item.size) →
      w.Reached order nodes bytes value left paid
        (order.queue (item.children.map fun child => (child, depth + 1)) pending)

variable {w : Walker} {order : VisitOrder} {value item : Json} {nodes bytes depth : ℕ}
  {pending : List (Json × ℕ)}

theorem size_eq_children (h : isContainer value) : value.size = value.children.length := by
  cases value with
  | array => rfl
  | object => exact (length_map _).symm
  | _ => cases h

theorem children_of_leaf (h : isContainer value = false) : value.children = [] := by
  cases value with
  | array | object => cases h
  | _ => rfl

/-- What is queued after a check is covered by what the check leaves. -/
theorem length_queue (hlen : pending.length ≤ nodes) (hnodes : nodes < 2 ^ 64)
    (hcov : isContainer item → w.covers nodes pending.length item.size) :
    (order.queue (item.children.map fun child => (child, depth + 1)) pending).length ≤ nodes := by
  rw [(order.perm _ _).length_eq, length_append, length_map]
  cases hcont : isContainer item with
  | false =>
    rw [children_of_leaf hcont, length_nil]
    omega
  | true =>
    have := (w.covers_iff hlen hnodes).1 (hcov hcont)
    rw [size_eq_children hcont] at this
    exact this

/-- No subtraction of a walk is from less than it takes: neither that of the waiting values from
the budget for values nor that of a text from the budget for text. -/
theorem Walker.Reached.no_wrap {left rest : ℕ} (hnodes : nodes < 2 ^ 64)
    (h : w.Reached order nodes bytes value (left + 1) rest ((item, depth) :: pending)) :
    pending.length ≤ left ∧ ∀ paid, w.check item rest depth = .ok paid → w.cost item ≤ rest := by
  have hlen : ∀ {left rest : ℕ} {waiting : List (Json × ℕ)},
      w.Reached order nodes bytes value left rest waiting →
        left < 2 ^ 64 ∧ (waiting.length ≤ left ∨ left = 0) := by
    intro left rest waiting hreach
    induction hreach with
    | start => exact ⟨hnodes, by rw [length_singleton]; omega⟩
    | visit _ _ hcov ih =>
      obtain ⟨hlt, hle⟩ := ih
      rw [length_cons] at hle
      exact ⟨by omega, .inl (length_queue (by omega) (by omega) hcov)⟩
  obtain ⟨-, hle⟩ := hlen h
  rw [length_cons] at hle
  exact ⟨by omega, fun paid hpaid => (w.check_eq_ok.1 hpaid).2.2.1⟩

/-- What all values of a document cost together. -/
def Walker.total (w : Walker) (value : Json) : ℕ := (value.subvalues.map w.cost).sum

theorem total_eq (value : Json) :
    w.total value = w.cost value + (value.children.map w.total).sum := by
  unfold Walker.total
  rw [Json.subvalues_eq, map_cons, sum_cons, map_flatMap, flatMap_def,
    sum_flatten, map_map]
  rfl

/-- The values still to be checked are within what is left of the budgets. -/
structure Walker.Fits (w : Walker) (nodes bytes : ℕ) (pending : List (Json × ℕ)) : Prop where
  nodes : (pending.map fun item => item.1.nodes).sum ≤ nodes
  bytes : (pending.map fun item => w.total item.1).sum ≤ bytes
  depth : ∀ item ∈ pending, item.2 ≤ w.depth ∧ item.1.within (w.depth - item.2) = true
  admits : ∀ item ∈ pending, ∀ nested ∈ item.1.subvalues, w.Admits nested

theorem within_iff_children {maximum : ℕ} (h : depth ≤ maximum) :
    value.within (maximum - depth) ↔
      ∀ child ∈ value.children,
        depth + 1 ≤ maximum ∧ child.within (maximum - (depth + 1)) = true := by
  rcases Nat.lt_or_eq_of_le h with hlt | heq
  · have hsplit : maximum - depth = maximum - (depth + 1) + 1 := by omega
    rw [hsplit, within, List.all_eq_true]
    constructor
    · intro hall child hch
      exact ⟨hlt, hall child hch⟩
    · intro hall child hch
      exact (hall child hch).2
  · rw [heq, Nat.sub_self, within, List.isEmpty_iff]
    constructor
    · intro hnil child hch
      rw [hnil] at hch
      cases hch
    · intro hall
      refine List.eq_nil_iff_forall_not_mem.2 ?_
      intro child hch
      have := (hall child hch).1
      omega

theorem length_le_nodes (pending : List (Json × ℕ)) :
    pending.length ≤ (pending.map fun item => item.1.nodes).sum := by
  induction pending with
  | nil => exact Nat.le_refl _
  | cons item =>
    have hpos := nodes_pos item.1
    rw [length_cons, map_cons, sum_cons]
    omega

/-- Checking a value leaves its children to be checked with the rest of the budgets. -/
theorem fits_cons : w.Fits (nodes + 1) bytes ((item, depth) :: pending) ↔
      depth ≤ w.depth ∧ w.Admits item ∧ w.cost item ≤ bytes ∧
        w.Fits nodes (bytes - w.cost item)
          (order.queue (item.children.map fun child => (child, depth + 1)) pending) := by
  have hperm := order.perm (item.children.map fun child => (child, depth + 1)) pending
  have hnodes : ((order.queue (item.children.map fun child => (child, depth + 1)) pending).map
      fun item => item.1.nodes).sum + 1 =
        item.nodes + (pending.map fun item => item.1.nodes).sum := by
    rw [(hperm.map _).sum_eq, map_append, sum_append, map_map, nodes_eq item]
    have heta : (item.children.map ((fun item => item.1.nodes) ∘ fun child => (child, depth + 1))) =
        item.children.map Json.nodes := rfl
    rw [heta]
    omega
  have hbs : w.cost item +
      ((order.queue (item.children.map fun child => (child, depth + 1)) pending).map
        fun item => w.total item.1).sum =
        w.total item + (pending.map fun item => w.total item.1).sum := by
    rw [(hperm.map _).sum_eq, map_append, sum_append, map_map, total_eq item]
    have heta : (item.children.map
        ((fun item => w.total item.1) ∘ fun child => (child, depth + 1))) =
        item.children.map w.total := rfl
    rw [heta]
    omega
  have hforall : ∀ p : Json × ℕ → Prop,
      (∀ entry ∈ order.queue (item.children.map fun child => (child, depth + 1)) pending,
        p entry) ↔
        (∀ child ∈ item.children, p (child, depth + 1)) ∧ ∀ entry ∈ pending, p entry := by
    intro p
    simp only [hperm.mem_iff]
    rw [forall_mem_append, forall_mem_map]
  constructor
  · rintro ⟨hn, hb, hdepth, hadm⟩
    simp only [map_cons, sum_cons] at hn hb
    obtain ⟨⟨hle, hin⟩, hdepths⟩ := forall_mem_cons.1 hdepth
    obtain ⟨hnested, hrest⟩ := forall_mem_cons.1 hadm
    obtain ⟨hself, hchildren⟩ := Json.forall_subvalues.1 hnested
    refine ⟨hle, hself, by omega, by omega, by omega, ?_, ?_⟩
    · exact (hforall _).2 ⟨(within_iff_children hle).1 hin, hdepths⟩
    · exact (hforall _).2 ⟨hchildren, hrest⟩
  · rintro ⟨hle, hself, _, hn, hb, hdepth, hadm⟩
    obtain ⟨hin, hdepths⟩ := (hforall _).1 hdepth
    obtain ⟨hchildren, hrest⟩ := (hforall _).1 hadm
    refine ⟨?_, ?_, ?_, ?_⟩
    · simp only [map_cons, sum_cons]
      omega
    · simp only [map_cons, sum_cons]
      omega
    · exact forall_mem_cons.2 ⟨⟨hle, (within_iff_children hle).2 hin⟩, hdepths⟩
    · exact forall_mem_cons.2 ⟨Json.forall_subvalues.2 ⟨hself, hchildren⟩, hrest⟩

/-- A walk succeeds exactly on what fits; the reservations before the children are queued
reject nothing else. -/
theorem walk_ok (hlen : pending.length ≤ nodes) (hnodes : nodes < 2 ^ 64) :
    w.walk order nodes bytes pending = .ok () ↔ w.Fits nodes bytes pending := by
  induction nodes generalizing bytes pending with
  | zero =>
    obtain rfl := eq_nil_of_length_eq_zero (Nat.le_zero.1 hlen)
    rw [Walker.walk]
    exact iff_of_true rfl ⟨Nat.zero_le _, Nat.zero_le _, nofun, nofun⟩
  | succ nodes ih =>
    cases pending with
    | nil =>
      rw [Walker.walk]
      exact iff_of_true rfl ⟨Nat.zero_le _, Nat.zero_le _, nofun, nofun⟩
    | cons item pending =>
      obtain ⟨item, depth⟩ := item
      have hpend : pending.length ≤ nodes := Nat.le_of_succ_le_succ hlen
      have hlt : nodes < 2 ^ 64 := by omega
      rw [@fits_cons w order, Walker.walk]
      simp only [bind_ok, w.check_eq_ok]
      constructor
      · rintro ⟨_, ⟨hdepth, hadm, hcost, rfl⟩, _, hguard, hrest⟩
        have hcov (hcont : isContainer item) :
            w.covers nodes pending.length item.size := by
          rw [onlyIf, if_pos hcont, ensure_ok] at hguard
          exact hguard
        exact ⟨hdepth, hadm, hcost, (ih (length_queue hpend hlt hcov) hlt).1 hrest⟩
      · rintro ⟨hdepth, hadm, hcost, hrest⟩
        have hqueue := (length_le_nodes _).trans hrest.nodes
        refine ⟨_, ⟨hdepth, hadm, hcost, rfl⟩, ⟨⟩, ?_, (ih hqueue hlt).2 hrest⟩
        rw [(order.perm _ _).length_eq, length_append, length_map] at hqueue
        unfold onlyIf
        split
        · rename_i hcont
          rw [ensure_ok, w.covers_iff hpend hlt, size_eq_children hcont]
          exact hqueue
        · rfl

/-- From a document alone, a walk is its plain recursive count. -/
theorem walk_document (hnodes : nodes < 2 ^ 64) : w.walk order nodes bytes [(value, 0)] = .ok () ↔
      value.nodes ≤ nodes ∧ w.total value ≤ bytes ∧ value.within w.depth ∧
        ∀ nested ∈ value.subvalues, w.Admits nested := by
  have hpos := nodes_pos value
  cases nodes with
  | zero =>
    refine iff_of_false nofun fun h => ?_
    have := h.1
    omega
  | succ nodes =>
    rw [walk_ok (by simp) hnodes]
    constructor
    · rintro ⟨hn, hb, hdepth, hadm⟩
      obtain ⟨⟨-, hin⟩, -⟩ := forall_mem_cons.1 hdepth
      obtain ⟨hnested, -⟩ := forall_mem_cons.1 hadm
      exact ⟨by simpa using hn, by simpa using hb, hin, hnested⟩
    · rintro ⟨hn, hb, hin, hadm⟩
      refine ⟨by simpa using hn, by simpa using hb, ?_, ?_⟩
      · exact forall_mem_cons.2 ⟨⟨Nat.zero_le _, hin⟩, nofun⟩
      · exact forall_mem_cons.2 ⟨hadm, nofun⟩

/-- The check of a node where texts are limited too. -/
def checkNode (maximumDepth maximumText : ℕ) (shape text : Failure) (value : Json)
    (bytes depth : ℕ) : Result ℕ := do
  ensure (depth ≤ maximumDepth ∧ ¬ isSigned value) shape
  match value with
  | .text content => do
    ensure (content.length ≤ maximumText ∧ content.length ≤ bytes) text
    return bytes - content.length
  | _ => return bytes

theorem checkNode_ok {maximumDepth maximumText : ℕ} {shape text : Failure} {left : ℕ} :
    checkNode maximumDepth maximumText shape text value bytes depth = .ok left ↔
      depth ≤ maximumDepth ∧ (isSigned value = false ∧ value.textLength ≤ maximumText) ∧
        value.textLength ≤ bytes ∧ left = bytes - value.textLength := by
  have hnode : ∀ (h : value.textLength = 0),
      ((ensure (depth ≤ maximumDepth ∧ ¬ isSigned value) shape : Result Unit) >>=
        fun _ => pure bytes) = .ok left ↔
      depth ≤ maximumDepth ∧ (isSigned value = false ∧ value.textLength ≤ maximumText) ∧
        value.textLength ≤ bytes ∧ left = bytes - value.textLength := by
    intro h
    rw [bind_ok, h]
    constructor
    · rintro ⟨_, hchk, hleft⟩
      obtain ⟨hdepth, hsign⟩ := ensure_ok.1 hchk
      refine ⟨hdepth, ⟨Bool.eq_false_iff.2 hsign, Nat.zero_le _⟩, Nat.zero_le _, ?_⟩
      exact (Except.ok.inj hleft).symm
    · rintro ⟨hdepth, ⟨hunsigned, -⟩, -, hleft⟩
      refine ⟨⟨⟩, ensure_ok.2 ⟨hdepth, Bool.eq_false_iff.1 hunsigned⟩, ?_⟩
      rw [hleft]
      rfl
  cases value with
  | text =>
    simp only [checkNode, bind_ok, ensure_ok]
    constructor
    · rintro ⟨_, ⟨hdepth, hsign⟩, _, ⟨hsh, hbs⟩, hleft⟩
      exact ⟨hdepth, ⟨rfl, hsh⟩, hbs, (Except.ok.inj hleft).symm⟩
    · rintro ⟨hdepth, ⟨hunsigned, hsh⟩, hbs, hleft⟩
      exact ⟨⟨⟩, ⟨hdepth, Bool.eq_false_iff.1 hunsigned⟩, ⟨⟩, ⟨hsh, hbs⟩,
        congrArg Except.ok hleft.symm⟩
  | null | boolean | number | float | array | object => exact hnode rfl

def textWalker (maximumDepth maximumText : ℕ) (shape text : Failure) : Walker where
  check := checkNode maximumDepth maximumText shape text
  covers nodes waiting size := decide (waiting ≤ nodes ∧ size ≤ nodes - waiting)
  bounds := shape
  depth := maximumDepth
  cost := textLength
  Admits value := isSigned value = false ∧ value.textLength ≤ maximumText
  check_eq_ok := checkNode_ok
  covers_iff := by
    intro nodes waiting size hle _
    rw [decide_eq_true_iff]
    omega

def conversationWalker : Walker :=
  textWalker maximumDepth Admission.conversationMaximumProvenanceBytes shapeBounds
    (.codec "conversation metadata exceeds text bounds")

def summaryWalker : Walker :=
  textWalker 12 Summary.summaryMaximumTextBytes (.codec "summary metadata exceeds shape bounds")
    (.codec "summary metadata exceeds text bounds")

/-- Summary payloads are bounded before anything is copied out of them. -/
def checkSummaryShape (value : Json) : Result Unit :=
  summaryWalker.walk stackOrder
    (Summary.summaryMaximumEntries * 32 + Summary.summaryMaximumGroups * 8 + 512)
    (Admission.summaryMaximumManifestBytes + Summary.summaryMaximumTextBytes) [(value, 0)]

def repositoryBounds : Failure := .codec "repository context metadata exceeds shape bounds"

/-- The subtraction of unsigned numbers, which wraps below zero. -/
def wrappingSub (left right : ℕ) : ℕ := (left + 2 ^ 64 - right) % 2 ^ 64

/-- Texts cost nothing here, and the number of waiting values is subtracted unchecked. -/
def repositoryWalker : Walker where
  check value bytes depth := do
    ensure (depth ≤ 12 ∧ ¬ isSigned value) repositoryBounds
    return bytes
  covers nodes waiting size := decide (size ≤ wrappingSub nodes waiting)
  bounds := repositoryBounds
  depth := 12
  cost _ := 0
  Admits value := isSigned value = false
  check_eq_ok := by
    intro value bytes depth left
    rw [bind_ok]
    constructor
    · rintro ⟨_, hcheck, hleft⟩
      obtain ⟨hdepth, hsigned⟩ := ensure_ok.mp hcheck
      exact ⟨hdepth, Bool.eq_false_iff.mpr hsigned, Nat.zero_le _, (Except.ok.inj hleft).symm⟩
    · rintro ⟨hdepth, hunsigned, -, hleft⟩
      exact ⟨⟨⟩, ensure_ok.mpr ⟨hdepth, Bool.eq_false_iff.mp hunsigned⟩,
        congrArg Except.ok hleft.symm⟩
  covers_iff := by
    intro nodes waiting size hle hlt
    have hsub : wrappingSub nodes waiting = nodes - waiting := by
      unfold wrappingSub
      omega
    rw [decide_eq_true_iff, hsub]
    omega

def validateRepositoryJsonShape (value : Json) (remaining : ℕ) : Result Unit :=
  repositoryWalker.walk stackOrder remaining 0 [(value, 0)]

theorem checkConversationPending_walk (nodes bytes : ℕ) (pending : List (Json × ℕ)) :
    checkConversationPending nodes bytes pending =
      conversationWalker.walk stackOrder nodes bytes pending := by
  induction nodes generalizing bytes pending with
  | zero => cases pending <;> rfl
  | succ nodes ih =>
    cases pending with
    | nil => rfl
    | cons item pending =>
      obtain ⟨item, depth⟩ := item
      have hchk : checkConversationNode item bytes depth =
          conversationWalker.check item bytes depth := by
        cases item <;> rfl
      have hguard : (ensure (pending.length ≤ nodes ∧ item.size ≤ nodes - pending.length)
          shapeBounds : Result Unit) =
          ensure (conversationWalker.covers nodes pending.length item.size) shapeBounds := by
        simp only [conversationWalker, textWalker, ensure, decide_eq_true_eq]
      rw [checkConversationPending, Walker.walk, hchk, hguard]
      simp only [ih]
      rfl

theorem total_repository (value : Json) : repositoryWalker.total value = 0 := by
  exact sum_eq_zero fun cost hcost => by
    obtain ⟨_, -, rfl⟩ := mem_map.1 hcost
    rfl

theorem conversationShape_eq_ok : checkConversationShape value = .ok () ↔
      value.nodes ≤ maximumNodes ∧ value.textBytes ≤ Admission.conversationMaximumManifestBytes ∧
        value.within maximumDepth ∧ ∀ nested ∈ value.subvalues, isSigned nested = false ∧
          nested.textLength ≤ Admission.conversationMaximumProvenanceBytes := by
  rw [checkConversationShape, checkConversationPending_walk, walk_document (by decide)]
  rfl

/-- The walks decide exactly their limits: each passes a document if and only if its nodes, its
depth, its numbers and, where they are limited, its texts are within them. No order of visiting
the nodes changes that, and no budget wraps on the way. -/
theorem document_walks_exact : (∀ (value : Json) (remaining : UInt64),
      validateRepositoryJsonShape value remaining.toNat = .ok () ↔
        value.nodes ≤ remaining.toNat ∧ value.within 12 ∧
          ∀ nested ∈ value.subvalues, isSigned nested = false) ∧
    (∀ value : Json, checkConversationShape value = .ok () ↔
      value.nodes ≤ maximumNodes ∧ value.textBytes ≤ Admission.conversationMaximumManifestBytes ∧
        value.within maximumDepth ∧ ∀ nested ∈ value.subvalues, isSigned nested = false ∧
          nested.textLength ≤ Admission.conversationMaximumProvenanceBytes) ∧
    (∀ value : Json, checkSummaryShape value = .ok () ↔
      value.nodes ≤ Summary.summaryMaximumEntries * 32 + Summary.summaryMaximumGroups * 8 + 512 ∧
        value.textBytes ≤ Admission.summaryMaximumManifestBytes + Summary.summaryMaximumTextBytes ∧
        value.within 12 ∧ ∀ nested ∈ value.subvalues, isSigned nested = false ∧
          nested.textLength ≤ Summary.summaryMaximumTextBytes) ∧
    (∀ (w : Walker) (order : VisitOrder) (value : Json) (nodes : UInt64) (bytes : ℕ),
      w.walk order nodes.toNat bytes [(value, 0)] = .ok () ↔
        w.walk stackOrder nodes.toNat bytes [(value, 0)] = .ok ()) ∧
    ∀ (w : Walker) (order : VisitOrder) (value item : Json) (nodes : UInt64)
      (bytes left rest depth : ℕ) (pending : List (Json × ℕ)),
      w.Reached order nodes.toNat bytes value (left + 1) rest ((item, depth) :: pending) →
        pending.length ≤ left ∧ ∀ paid, w.check item rest depth = .ok paid → w.cost item ≤ rest := by
  refine ⟨?_, fun _ => conversationShape_eq_ok, ?_, ?_, ?_⟩
  · intro value remaining
    rw [validateRepositoryJsonShape, walk_document remaining.toNat_lt, total_repository]
    exact and_congr_right fun _ => and_iff_right (Nat.le_refl 0)
  · intro value
    rw [checkSummaryShape, walk_document (by decide)]
    rfl
  · intro w order value nodes bytes
    rw [walk_document nodes.toNat_lt, walk_document nodes.toNat_lt]
  · intro w order value item nodes bytes left rest depth pending hreached
    exact hreached.no_wrap nodes.toNat_lt

end DocumentWalks
