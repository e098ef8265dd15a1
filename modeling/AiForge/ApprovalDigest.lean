import AiForge.ApprovalQuota
import AiForge.Sealing

/-! # What the digest of a request tells

The texts of a request are hashed behind their lengths, so the bytes tell the list of texts. The
effects and the scopes follow each other without a count: three more effects take the place of
a scope. The invocation is the key of the table and is not hashed. -/
namespace ApprovalDigest

open ApprovalMatcher Content Framing List SafeText Sealing

def scopeTexts (scope : CapabilityScope) : List String :=
  [effectName scope.effect, scope.kind, scope.value]

def requestTexts (request : AutomaticApprovalMatchRequest) : List Bytes :=
  ["aiforge.automatic-approval-request.v1", request.sessionId, request.runId, request.toolName,
      request.arguments.canonicalizationIdentity,
      request.arguments.value.mediaType].map bytesOf ++ [request.arguments.value.data] ++
    (restrictionName request.selectedRestriction :: request.effects.map effectName ++
      request.scopes.flatMap scopeTexts).map bytesOf

def requestPreimage (request : AutomaticApprovalMatchRequest) : Bytes :=
  fields (requestTexts request)

/-- The length of every text fits the eight bytes before it. -/
def Sized (request : AutomaticApprovalMatchRequest) : Prop :=
  ∀ text ∈ requestTexts request, text.length < 2 ^ 64

theorem bigEndian_inj {m n : ℕ} (hm : m < 2 ^ 64) (hn : n < 2 ^ 64)
    (h : Sha256.bigEndian 8 m = Sha256.bigEndian 8 n) : m = n := by
  simp [Sha256.bigEndian, range_succ, ← UInt8.toNat_inj] at h
  omega

theorem field_delimited :
    SelfDelimitingOn (fun value : Bytes => value.length < 2 ^ 64) field := by
  intro x y r s hx hy _ h
  simp only [field, append_assoc] at h
  have hwidth : ∀ n, (Sha256.bigEndian 8 n).length = 8 := by simp [Sha256.bigEndian]
  obtain ⟨hl, hrest⟩ := append_inj h (by rw [hwidth, hwidth])
  exact append_inj hrest (bigEndian_inj hx hy hl)

theorem effectName_inj : Function.Injective effectName := by
  intro first second h
  cases first <;> cases second <;> first | rfl | exact absurd h (by decide)

theorem restrictionName_inj : Function.Injective restrictionName := by
  intro first second h
  cases first <;> cases second <;> first | rfl | exact absurd h (by decide)

theorem scopeTexts_delimited : SelfDelimiting scopeTexts := by
  rintro ⟨⟩ ⟨⟩ _ _ h
  simp only [scopeTexts, cons_append, nil_append, List.cons.injEq] at h
  obtain ⟨heff, rfl, rfl, hr⟩ := h
  rw [effectName_inj heff]
  exact ⟨rfl, hr⟩

theorem length_scopeTexts (scopes : List CapabilityScope) :
    (scopes.flatMap scopeTexts).length = scopes.length * 3 := by
  induction scopes with
  | nil => rfl
  | cons scope scopes ih => simp [ih, scopeTexts]; omega

theorem requestTexts_inj {first second : AutomaticApprovalMatchRequest} (hf : Sized first)
    (hs : Sized second) (h : requestPreimage first = requestPreimage second) :
    requestTexts first = requestTexts second := by
  apply field_delimited.flatMap_inj _ hf hs h
  intro value hnil
  have := congrArg List.length hnil
  simp [field, Sha256.bigEndian] at this

/-- The effects and the scopes as the bytes hold them, one text after the other. -/
def effectTexts (request : AutomaticApprovalMatchRequest) : List String :=
  request.effects.map effectName ++ request.scopes.flatMap scopeTexts

/-- Two requests that differ at most in their invocation and in where their effects end. -/
structure SameTexts (first second : AutomaticApprovalMatchRequest) : Prop where
  rest : second = { first with
    invocationId := second.invocationId
    effects := second.effects
    scopes := second.scopes }
  texts : effectTexts first = effectTexts second

/-- No scope has a kind that could be read as an effect. -/
def PlainKinds (request : AutomaticApprovalMatchRequest) : Prop :=
  ∀ scope ∈ request.scopes, ∀ effect, scope.kind ≠ effectName effect

theorem sameTexts_iff {first second : AutomaticApprovalMatchRequest} (hf : Sized first)
    (hs : Sized second) :
    requestPreimage first = requestPreimage second ↔ SameTexts first second := by
  constructor
  · intro h
    replace h := requestTexts_inj hf hs h
    obtain ⟨_, _, _, _, ⟨_, ⟨_, _⟩⟩, _, _, _⟩ := second
    simp only [requestTexts, map_cons, map_nil, cons_append, nil_append,
      List.cons.injEq, bytesOf_inj, true_and] at h
    obtain ⟨rfl, rfl, rfl, rfl, rfl, rfl, hlvl, h⟩ := h
    obtain rfl := restrictionName_inj hlvl
    exact ⟨rfl, map_injective_iff.2 bytesOf_injective h⟩
  · rintro ⟨hrest, htexts⟩
    simp only [effectTexts] at htexts
    rw [requestPreimage, requestPreimage, requestTexts, requestTexts, cons_append, cons_append,
      htexts, hrest]

/-- Effects in front of the scopes would take the place of a scope, its kind included. -/
theorem no_more_effects {more : List Effect} {scopes others : List CapabilityScope}
    (hkinds : ∀ scope ∈ scopes, ∀ effect, scope.kind ≠ effectName effect)
    (h : scopes.flatMap scopeTexts = more.map effectName ++ others.flatMap scopeTexts) :
    more = [] := by
  have hlen := congrArg List.length h
  simp only [length_append, length_map, length_scopeTexts] at hlen
  cases scopes with
  | nil =>
    rw [length_nil] at hlen
    exact length_eq_zero_iff.1 (by omega)
  | cons scope =>
    rcases more with _ | ⟨_, _ | ⟨effect, _⟩⟩
    · rfl
    · rw [length_singleton] at hlen
      omega
    · simp only [map_cons, flatMap_cons, scopeTexts, cons_append, List.cons.injEq] at h
      exact absurd h.2.1 (hkinds scope mem_cons_self effect)

theorem effects_end {effects effects' : List Effect} {scopes scopes' : List CapabilityScope}
    (hkinds : ∀ scope ∈ scopes, ∀ effect, scope.kind ≠ effectName effect)
    (hkinds' : ∀ scope ∈ scopes', ∀ effect, scope.kind ≠ effectName effect)
    (h : effects.map effectName ++ scopes.flatMap scopeTexts =
      effects'.map effectName ++ scopes'.flatMap scopeTexts) : effects = effects' := by
  rcases append_eq_append_iff.1 h with ⟨_, hlonger, hsc⟩ | ⟨_, hlonger, hsc⟩
  · obtain ⟨_, more, rfl, hkept, rfl⟩ := map_eq_append_iff.1 hlonger
    rw [no_more_effects hkinds hsc, append_nil]
    exact map_injective_iff.2 effectName_inj hkept.symm
  · obtain ⟨_, more, rfl, hkept, rfl⟩ := map_eq_append_iff.1 hlonger
    rw [no_more_effects hkinds' hsc, append_nil]
    exact map_injective_iff.2 effectName_inj hkept

theorem same_of_plain {first second : AutomaticApprovalMatchRequest}
    (hf : PlainKinds first) (hs : PlainKinds second) :
    SameTexts first second ↔ second = { first with invocationId := second.invocationId } := by
  constructor
  · rintro ⟨hrest, htexts⟩
    have heff := effects_end hf hs htexts
    have hsc : first.scopes = second.scopes := by
      simp only [effectTexts, heff, append_cancel_left_eq] at htexts
      exact (scopeTexts_delimited.on fun _ => True).flatMap_inj
        (fun _ => cons_ne_nil _ _) (fun _ _ => trivial) (fun _ _ => trivial) htexts
    rw [hrest, heff, hsc]
  · intro h
    rw [h]
    exact ⟨rfl, rfl⟩

/-- The bytes tell everything but the invocation and where the effects end, which they tell as
well when no kind of a scope is the name of an effect. What has been approved for a request is
answered for no request that the bytes tell from it. -/
theorem request_told {first second : AutomaticApprovalMatchRequest} (hf : Sized first)
    (hs : Sized second) :
    (requestPreimage first = requestPreimage second ↔ SameTexts first second) ∧
    (PlainKinds first → PlainKinds second → (requestPreimage first = requestPreimage second ↔
      second = { first with invocationId := second.invocationId })) ∧
    ((canonicalRequestDigest first = canonicalRequestDigest second →
        requestPreimage first = requestPreimage second) →
      ∀ json world matcher prior evidence, prior.key = first.key →
        prior.requestDigest = canonicalRequestDigest first →
        findReservation matcher second.key = some prior →
        (matchRequest json world matcher second).1 = .ok (some evidence) →
        first.invocationId = second.invocationId ∧ SameTexts first second ∧
        (PlainKinds first → PlainKinds second → second = first)) := by
  refine ⟨sameTexts_iff hf hs, ?_, ?_⟩
  · intro hplain hplain'
    rw [sameTexts_iff hf hs, same_of_plain hplain hplain']
  · intro hcollision json world matcher prior evidence hkey hdigest hfound hanswer
    have hthis : prior.key = second.key := KeyedList.lookup_key hfound
    have hinvocation : first.invocationId = second.invocationId :=
      congrArg (·.2.2) (hkey.symm.trans hthis)
    have hreplay : prior.requestDigest = canonicalRequestDigest second := by
      unfold matchRequest at hanswer
      split at hanswer
      · cases hanswer
      · rw [hfound] at hanswer
        dsimp only at hanswer
        exact (ApprovalQuota.replay_evidence hanswer).1
    have hsame := (sameTexts_iff hf hs).1 (hcollision (hdigest.symm.trans hreplay))
    refine ⟨hinvocation, hsame, ?_⟩
    intro hplain hplain'
    rw [(same_of_plain hplain hplain').1 hsame, ← hinvocation]

def plainRequest : AutomaticApprovalMatchRequest :=
  ⟨"s", "r", "i", "echo", ⟨"", ⟨"application/json", []⟩⟩, .high, [.read], []⟩

theorem write_told_apart :
    requestPreimage plainRequest ≠ requestPreimage { plainRequest with effects := [.write] } := by
  intro h
  have hread : Sized plainRequest := by
    unfold Sized
    decide +kernel
  have hwrite : Sized { plainRequest with effects := [.write] } := by
    unfold Sized
    decide +kernel
  have hplain : PlainKinds plainRequest := nofun
  have hsame := ((request_told hread hwrite).2.1 hplain hplain).1 h
  exact absurd hsame (by decide)

/-- Neither the invocation nor the end of the effects is in the bytes. -/
theorem bytes_leave_out :
    (∃ first second, first ≠ second ∧ first.invocationId ≠ second.invocationId ∧
      requestPreimage first = requestPreimage second) ∧
    ∃ first second, first ≠ second ∧ first.invocationId = second.invocationId ∧
      requestPreimage first = requestPreimage second := by
  constructor
  · exact ⟨plainRequest, { plainRequest with invocationId := "j" }, by decide, by decide, rfl⟩
  · exact ⟨{ plainRequest with effects := [.read, .write, .remove] },
      { plainRequest with effects := [], scopes := [⟨.read, "write", "remove"⟩] },
      by decide, rfl, rfl⟩

end ApprovalDigest
