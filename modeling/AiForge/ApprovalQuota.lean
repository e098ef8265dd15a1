import AiForge.ApprovalMatcher

/-! # Quota of automatic approvals

Every approval is a reservation in the table, and each reservation has taken one match from the
rule it names. So the table can grow no longer than the rules' matches last, and whatever is
approved over a run is in the table at its end. -/
namespace ApprovalQuota

open ApprovalMatcher Events KernelState KeyedList List Staged CompiledRule Except

section Request

variable {json : JsonLibrary} {world : Surroundings} {limits : AutomaticApprovalMatcherLimits}
  {request : AutomaticApprovalMatchRequest}

/-- A request with everything that is looked at to answer it, the rules apart. -/
structure Inquiry where
  json : JsonLibrary
  world : Surroundings
  limits : AutomaticApprovalMatcherLimits
  request : AutomaticApprovalMatchRequest

/-- What a rule answers; one that may not be asked does not match. -/
def hit (q : Inquiry) (rule : CompiledRule) : Matching Bool :=
  if rule.remainingMatches = 0 ∨ rule.current q.world q.request = false then .ok false
  else conditionMatches q.json q.world q.limits rule q.request

def improve (index : ℕ) (rule : CompiledRule) : Option Candidate → Candidate
  | none => ⟨index, rule.precedence, false⟩
  | some candidate =>
    if candidate.precedence < rule.precedence then ⟨index, rule.precedence, false⟩
    else if rule.precedence = candidate.precedence then { candidate with ambiguous := true }
    else candidate

variable {q : Inquiry} {rule : CompiledRule} {rules done rest : List CompiledRule} {index : ℕ}
  {best : Option Candidate}

theorem matchingRule_cons :
    matchingRule q.json q.world q.limits q.request index (rule :: rest) best =
    (do let found ← hit q rule
        matchingRule q.json q.world q.limits q.request (index + 1) rest
          (if found then some (improve index rule best) else best)) := by
  rw [matchingRule.eq_def]
  unfold hit
  dsimp only
  split
  · rfl
  · cases conditionMatches q.json q.world q.limits rule q.request with
    | error => rfl
    | ok found =>
      cases found with
      | false => rfl
      | true =>
        cases best with
        | none => rfl
        | some candidate =>
          simp only [ok_bind, improve, Bool.true_eq_false, reduceIte]
          split_ifs <;> rfl

def Fails (q : Inquiry) (rules : List CompiledRule) (err : AutomaticApprovalMatcherError) : Prop :=
  ∃ rule ∈ rules, hit q rule = .error err

def Answered (q : Inquiry) (rules : List CompiledRule) : Prop :=
  ∀ rule ∈ rules, ∃ found, hit q rule = .ok found

def hits (q : Inquiry) (rule : CompiledRule) : Bool := (hit q rule).toOption == some true

/-- The rules of a precedence that match. -/
def level (q : Inquiry) (precedence : ℕ) (rule : CompiledRule) : Bool :=
  hits q rule && rule.precedence == precedence

/-- The best rule among those that match, and whether another one is as good. -/
structure Best (q : Inquiry) (rules : List CompiledRule) (best : Candidate) : Prop where
  found : ∃ rule, rules[best.index]? = some rule ∧
    level q best.precedence rule
  highest : ∀ rule ∈ rules, hits q rule →
    rule.precedence ≤ best.precedence
  tied : best.ambiguous = false ↔
    rules.countP (level q best.precedence) = 1

def Scanned (q : Inquiry) (rules : List CompiledRule) : Option Candidate → Prop
  | none => ∀ rule ∈ rules, hits q rule = false
  | some best => Best q rules best

theorem Best.outrank {best : Candidate} (h : Best q done best)
    (hlow : hits q rule → rule.precedence < best.precedence) :
    Best q (done ++ [rule]) best := by
  obtain ⟨first, hat, hfst⟩ := h.found
  have hlvl : level q best.precedence rule = false := by
    by_contra hlvl
    simp only [level, Bool.not_eq_false, Bool.and_eq_true, beq_iff_eq] at hlvl
    exact (hlow hlvl.1).ne hlvl.2
  refine ⟨⟨first, ?_, hfst⟩, ?_, ?_⟩
  · rwa [List.getElem?_append_left (List.getElem?_eq_some_iff.1 hat).1]
  · intro other hoth hhits
    rcases mem_append.1 hoth with hoth | hoth
    · exact h.highest other hoth hhits
    · obtain rfl := mem_singleton.1 hoth
      exact (hlow hhits).le
  · rw [h.tied, countP_append, countP_singleton, hlvl]
    rfl

theorem best_new (hhits : hits q rule) (hhigh : ∀ other ∈ done, hits q other →
      other.precedence < rule.precedence) :
    Best q (done ++ [rule]) ⟨done.length, rule.precedence, false⟩ := by
  have hlvl : level q rule.precedence rule := by
    simp [level, hhits]
  refine ⟨⟨rule, List.getElem?_concat_length, hlvl⟩, ?_, ?_⟩
  · intro other hoth hmat
    rcases mem_append.1 hoth with hoth | hoth
    · exact (hhigh other hoth hmat).le
    · rw [mem_singleton.1 hoth]
  · have hnone : done.countP (level q rule.precedence) = 0 := by
      rw [countP_eq_zero]
      intro other hoth hlvl
      simp only [level, Bool.and_eq_true, beq_iff_eq] at hlvl
      exact (hhigh other hoth hlvl.1).ne hlvl.2
    simp [hnone, hlvl]

theorem improve_best (h : Scanned q done best) (hhits : hits q rule) :
    Best q (done ++ [rule]) (improve done.length rule best) := by
  cases best with
  | none => exact best_new hhits fun other hoth hmat => by simp [h other hoth] at hmat
  | some best =>
    obtain ⟨first, hat, hfst⟩ := h.found
    dsimp only [improve]
    split
    next hlt =>
      exact best_new hhits fun other hoth hmat =>
        (h.highest other hoth hmat).trans_lt hlt
    next hnot =>
      split
      next hsame =>
        refine ⟨⟨first, ?_, hfst⟩, ?_, ?_⟩
        · rwa [List.getElem?_append_left (List.getElem?_eq_some_iff.1 hat).1]
        · intro other hoth hmat
          rcases mem_append.1 hoth with hoth | hoth
          · exact h.highest other hoth hmat
          · exact (mem_singleton.1 hoth ▸ hsame).le
        · have hmany := countP_pos_iff.2 ⟨first, mem_of_getElem? hat, hfst⟩
          simp [level, hhits, hsame] at hmany ⊢
          omega
      next hoth => exact h.outrank fun _ => lt_of_le_of_ne (not_lt.1 hnot) hoth

/-- The scan over the rest of the rules: it stops at an authority that fails. -/
theorem matchingRule_scanned (hbest : Scanned q done best) :
    (∀ result, matchingRule q.json q.world q.limits q.request done.length rest best = .ok result →
      Scanned q (done ++ rest) result ∧
        Answered q rest) ∧
    ∀ err, matchingRule q.json q.world q.limits q.request done.length rest best = .error err →
      Fails q rest err := by
  induction rest generalizing done best with
  | nil =>
    refine ⟨?_, nofun⟩
    intro result h
    cases h
    exact ⟨by rwa [append_nil], nofun⟩
  | cons rule rest ih =>
    rw [matchingRule_cons]
    cases hfnd : hit q rule with
    | error e =>
      refine ⟨nofun, ?_⟩
      intro err h
      obtain rfl := Except.error.inj h
      exact ⟨rule, mem_cons_self, hfnd⟩
    | ok found =>
      have hnext : Scanned q (done ++ [rule])
          (if found then some (improve done.length rule best) else best) := by
        cases found with
        | true => exact improve_best hbest (by simp [hits, hfnd, Except.toOption])
        | false =>
          have hmiss : hits q rule = false := by
            simp [hits, hfnd, Except.toOption]
          cases best with
          | none => exact forall_mem_append.2 ⟨hbest, forall_mem_singleton.2 hmiss⟩
          | some best => exact hbest.outrank (by simp [hmiss])
      obtain ⟨hok, herr⟩ := ih hnext
      rw [length_append, length_singleton] at hok herr
      constructor
      · intro result h
        obtain ⟨hscan, hans⟩ := hok result h
        exact ⟨by rwa [append_cons], forall_mem_cons.2 ⟨⟨found, hfnd⟩, hans⟩⟩
      · intro err h
        obtain ⟨other, hoth, hfails⟩ := herr err h
        exact ⟨other, mem_cons_of_mem rule hoth, hfails⟩

theorem scanned_nil : Scanned q [] none := nofun

/-- The rule matches, none that matches comes before it, and it is the only one of its level. -/
structure Selects (q : Inquiry) (rules : List CompiledRule) (rule : CompiledRule) : Prop where
  mem : rule ∈ rules
  matching : hits q rule
  highest : ∀ other ∈ rules, hits q other →
    other.precedence ≤ rule.precedence
  alone : rules.countP (level q rule.precedence) = 1

theorem eq_of_countP {α : Type} {p : α → Bool} {xs : List α} (h : xs.countP p = 1) {x y : α}
    (hx : x ∈ xs) (hpx : p x) (hy : y ∈ xs) (hpy : p y) : x = y := by
  rw [countP_eq_length_filter, length_eq_one_iff] at h
  obtain ⟨z, hz⟩ := h
  have hxz : x ∈ [z] := hz ▸ mem_filter.2 ⟨hx, hpx⟩
  have hyz : y ∈ [z] := hz ▸ mem_filter.2 ⟨hy, hpy⟩
  rw [mem_singleton.1 hxz, mem_singleton.1 hyz]

theorem uniqueMatchingRule_selects {found : Option ℕ}
    (h : uniqueMatchingRule q.json q.world q.limits rules q.request = .ok found) :
    (∀ rule, (∃ i, found = some i ∧ rules[i]? = some rule) ↔
      Selects q rules rule) ∧
    (∀ i, found = some i → ∃ rule, rules[i]? = some rule) ∧ Answered q rules := by
  obtain ⟨best, hbest, h⟩ := bind_ok.1 h
  cases h
  obtain ⟨hscan, hans⟩ := (matchingRule_scanned scanned_nil).1 best hbest
  rw [nil_append] at hscan
  cases best with
  | none =>
    refine ⟨fun rule => iff_of_false nofun ?_, nofun, hans⟩
    intro hs
    simpa [hscan rule hs.mem] using hs.matching
  | some best =>
    obtain ⟨first, hat, hfst⟩ := hscan.found
    have hmem := mem_of_getElem? hat
    obtain ⟨hmat, hprecedence⟩ : hits q first ∧
        first.precedence = best.precedence := by simpa [level] using hfst
    have hsel : ∀ rule, Selects q rules rule →
        best.ambiguous = false ∧ rule = first := by
      intro rule hs
      have hsame : rule.precedence = best.precedence := by
        have hle := hscan.highest rule hs.mem hs.matching
        have hge := hs.highest first hmem hmat
        omega
      have halone := hs.alone
      rw [hsame] at halone
      exact ⟨hscan.tied.2 halone,
        eq_of_countP halone hs.mem (by simp [level, hs.matching, hsame]) hmem hfst⟩
    cases hamb : best.ambiguous with
    | true =>
      refine ⟨fun rule => iff_of_false ?_ ?_, ?_, hans⟩
      · simp [Option.filter, hamb]
      · intro hs
        simpa [hamb] using (hsel rule hs).1
      · simp [Option.filter, hamb]
    | false =>
      have hfnd : ((some best).filter fun candidate => !candidate.ambiguous).map
          Candidate.index = some best.index := by simp [Option.filter, hamb]
      rw [hfnd]
      refine ⟨fun rule => ⟨?_, ?_⟩, ?_, hans⟩
      · rintro ⟨i, hi, hrule⟩
        cases hi
        obtain rfl := Option.some.inj (hat.symm.trans hrule)
        exact ⟨hmem, hmat, hprecedence ▸ hscan.highest,
          hprecedence ▸ hscan.tied.1 hamb⟩
      · intro hs
        exact ⟨best.index, rfl, (hsel rule hs).2 ▸ hat⟩
      · intro i hi
        cases hi
        exact ⟨first, hat⟩

theorem uniqueMatchingRule_fails {err : AutomaticApprovalMatcherError}
    (h : uniqueMatchingRule q.json q.world q.limits rules q.request = .error err) :
    Fails q rules err := by
  unfold uniqueMatchingRule at h
  cases hscan : matchingRule q.json q.world q.limits q.request 0 rules none with
  | error =>
    rw [hscan] at h
    obtain rfl := error.inj h
    exact (matchingRule_scanned scanned_nil).2 _ hscan
  | ok =>
    rw [hscan] at h
    cases h

theorem uniqueMatchingRule_left
    (h : uniqueMatchingRule q.json q.world q.limits rules q.request = .ok (some index)) :
    ∀ rule, rules[index]? = some rule → rule.remainingMatches ≠ 0 := by
  intro rule hrule hzero
  have hsel := ((uniqueMatchingRule_selects h).1 rule).1 ⟨index, rfl, hrule⟩
  simpa [hits, hit, hzero, Except.toOption] using hsel.matching

/-- A replay approves only an unchanged request, with the evidence of before. -/
theorem replay_evidence {matcher : Matcher} {prior : Reservation}
    {evidence : AutomaticApprovalEvidence}
    (h : replayReservation json world matcher prior request = .ok (some evidence)) :
    prior.requestDigest = canonicalRequestDigest request ∧ prior.evidence = evidence := by
  unfold replayReservation at h
  split at h
  · cases h
  · rename_i hdig
    refine ⟨not_not.1 hdig, ?_⟩
    dsimp only at h
    split at h
    · cases h
    · split at h
      · cases h
      · obtain ⟨_, -, h⟩ := bind_ok.1 h
        split at h
        · cases h
        · obtain ⟨⟨⟩, -, h⟩ := bind_ok.1 h
          exact Option.some.inj (ok.inj h)

/-- What one request can do: answer without a change, from the table at best, or take a match
of a rule that has one left for an invocation that is new. -/
theorem matchRequest_cases (json : JsonLibrary) (world : Surroundings) (matcher : Matcher)
    (request : AutomaticApprovalMatchRequest) :
    ((matchRequest json world matcher request).2 = matcher ∧
      ∀ evidence, (matchRequest json world matcher request).1 = .ok (some evidence) →
        ⟨request.key, canonicalRequestDigest request, evidence⟩ ∈ matcher.reservations) ∨
    (lookup Reservation.key request.key matcher.reservations = none ∧
      ∃ index selected, matcher.rules[index]? = some selected ∧ selected.remainingMatches ≠ 0 ∧
        matchRequest json world matcher request =
          (.ok (some (reserve matcher index selected request).1),
            (reserve matcher index selected request).2)) := by
  unfold matchRequest
  split
  · exact .inl ⟨rfl, by simp⟩
  · cases hprior : findReservation matcher request.key with
    | some prior =>
      dsimp only
      refine .inl ⟨rfl, ?_⟩
      intro evidence h
      obtain ⟨hdig, hev⟩ := replay_evidence h
      have hkey : prior.key = request.key := lookup_key hprior
      rw [← hkey, ← hdig, ← hev]
      exact lookup_mem hprior
    | none =>
      cases huniq : uniqueMatchingRule json world matcher.limits matcher.rules request with
      | error => exact .inl ⟨rfl, by simp⟩
      | ok found =>
        cases found with
        | none => exact .inl ⟨rfl, by simp⟩
        | some index =>
          dsimp only
          cases hsel : matcher.rules[index]? with
          | none => exact .inl ⟨rfl, by simp⟩
          | some selected =>
            right
            exact ⟨hprior, index, selected, hsel,
              uniqueMatchingRule_left (q := ⟨json, world, matcher.limits, request⟩) huniq
                selected hsel, rfl⟩

end Request

def usedBy (identity : String) (reservations : List Reservation) : ℕ :=
  reservations.countP fun reservation => reservation.evidence.ruleIdentity = identity

def matchesLeft (rules : List CompiledRule) : ℕ := (rules.map CompiledRule.remainingMatches).sum

/-- How a matcher agrees with the rules it was compiled to. -/
structure Consistent (start : Matcher) (matcher : Matcher) : Prop where
  identity : matcher.identity = start.identity
  limits : matcher.limits = start.limits
  identities : matcher.rules.map CompiledRule.identity = start.rules.map CompiledRule.identity
  keys : Distinct Reservation.key matcher.reservations
  attributed : ∀ reservation ∈ matcher.reservations,
    reservation.evidence.policyIdentity = start.identity ∧
      reservation.evidence.ruleIdentity ∈ start.rules.map CompiledRule.identity
  /-- A rule's matches are left or taken. -/
  spent : ∀ (i : ℕ) (rule rule₀ : CompiledRule), matcher.rules[i]? = some rule →
    start.rules[i]? = some rule₀ → rule.remainingMatches +
      usedBy rule₀.identity matcher.reservations = rule₀.remainingMatches
  total : matchesLeft matcher.rules + matcher.reservations.length = matchesLeft start.rules

theorem sum_set {xs : List ℕ} {i x : ℕ} (hx : xs[i]? = some (x + 1)) :
    (xs.set i x).sum + 1 = xs.sum := by
  induction xs generalizing i with
  | nil => cases hx
  | cons _ _ ih =>
    cases i with
    | zero =>
      cases hx
      simp only [set_cons_zero, sum_cons]
      omega
    | succ =>
      have hrest := ih (by simpa using hx)
      simp only [set_cons_succ, sum_cons]
      omega

theorem matchesLeft_set {rules : List CompiledRule} {i : ℕ} {rule : CompiledRule}
    (h : rules[i]? = some rule) (hleft : rule.remainingMatches ≠ 0) :
    matchesLeft (rules.set i { rule with remainingMatches := rule.remainingMatches - 1 }) + 1 =
      matchesLeft rules := by
  unfold matchesLeft
  rw [map_set]
  apply sum_set
  rw [List.getElem?_map, h]
  simp only [Option.map_some, Option.some.injEq]
  omega

variable {matcher : Matcher}

theorem identity_at {start : Matcher} (h : Consistent start matcher) {i : ℕ}
    {rule rule₀ : CompiledRule} (hr : matcher.rules[i]? = some rule)
    (hr₀ : start.rules[i]? = some rule₀) : rule.identity = rule₀.identity := by
  have hsame := congrArg (·[i]?) h.identities
  simpa [hr, hr₀] using hsame

theorem identities_set {rules : List CompiledRule} {index : ℕ} {rule : CompiledRule}
    (h : rules[index]? = some rule) (left : ℕ) :
    (rules.set index { rule with remainingMatches := left }).map identity =
      rules.map identity := by
  have hat : (rules.map identity)[index]? = some rule.identity := by
    rw [List.getElem?_map, h]
    rfl
  obtain ⟨hlt, hsame⟩ := List.getElem?_eq_some_iff.1 hat
  rw [map_set]
  rw [← hsame]
  exact set_getElem_self hlt

/-- A reservation takes its match from the rule it names and from no other. -/
theorem reserve_consistent {start : Matcher} {index : ℕ} {selected : CompiledRule}
    {request : AutomaticApprovalMatchRequest}
    (hdist : (start.rules.map identity).Nodup) (h : Consistent start matcher)
    (hnew : lookup Reservation.key request.key matcher.reservations = none)
    (hs : matcher.rules[index]? = some selected) (hleft : selected.remainingMatches ≠ 0) :
    Consistent start (reserve matcher index selected request).2 := by
  have hlt : index < matcher.rules.length := (List.getElem?_eq_some_iff.1 hs).1
  refine ⟨h.identity, h.limits, (identities_set hs _).trans h.identities,
    distinct_snoc h.keys hnew, ?_, ?_, ?_⟩
  · intro reservation hmem
    rcases mem_append.1 hmem with hmem | hmem
    · exact h.attributed reservation hmem
    · obtain rfl := mem_singleton.1 hmem
      refine ⟨h.identity, ?_⟩
      rw [← h.identities]
      exact mem_map_of_mem (mem_of_getElem? hs)
  · intro i rule rule₀ hr hr₀
    have hused : usedBy rule₀.identity (reserve matcher index selected request).2.reservations =
        usedBy rule₀.identity matcher.reservations +
          if selected.identity = rule₀.identity then 1 else 0 := by
      unfold usedBy reserve
      rw [countP_append, countP_singleton]
      simp only [decide_eq_true_eq]
    rw [hused]
    by_cases hi : i = index
    · subst hi
      have hset : rule = { selected with remainingMatches := selected.remainingMatches - 1 } := by
        have : (matcher.rules.set i
          { selected with remainingMatches := selected.remainingMatches - 1 })[i]? = some rule := hr
        rw [List.getElem?_set_self hlt] at this
        exact (Option.some.inj this).symm
      have hspent := h.spent i selected rule₀ hs hr₀
      rw [if_pos (identity_at h hs hr₀), hset]
      dsimp only
      omega
    · have hsame : matcher.rules[i]? = some rule := by
        have : (matcher.rules.set index
          { selected with remainingMatches := selected.remainingMatches - 1 })[i]? = some rule := hr
        rwa [List.getElem?_set_ne (Ne.symm hi)] at this
      have hoth : selected.identity ≠ rule₀.identity := by
        intro he
        have h₀ : (start.rules.map identity)[i]? = some rule₀.identity := by
          rw [List.getElem?_map, hr₀]
          rfl
        have hs₀ : (start.rules.map identity)[index]? = some rule₀.identity := by
          rw [← h.identities, List.getElem?_map, hs, ← he]
          rfl
        obtain ⟨_, hat⟩ := List.getElem?_eq_some_iff.1 h₀
        obtain ⟨_, hat'⟩ := List.getElem?_eq_some_iff.1 hs₀
        exact hi ((hdist.getElem_inj_iff).1 (hat.trans hat'.symm))
      have hspent := h.spent i rule rule₀ hsame hr₀
      rw [if_neg hoth]
      omega
  · have hsum := matchesLeft_set hs hleft
    have htot := h.total
    unfold reserve
    dsimp only
    rw [length_append, length_singleton]
    omega

abbrev Call := Surroundings × AutomaticApprovalMatchRequest

section Run

variable (json : JsonLibrary)

def answer (matcher : Matcher) (call : Call) :
    Matching (Option AutomaticApprovalEvidence) × Matcher :=
  matchRequest json call.1 matcher call.2

def run (matcher : Matcher) (calls : List Call) : Matcher :=
  calls.foldl (fun matcher call => (answer json matcher call).2) matcher

/-- What a call approves, with the key and the digest of its request. -/
def approval (matcher : Matcher) (call : Call) : Option Reservation :=
  match (answer json matcher call).1 with
  | .ok (some evidence) => some ⟨call.2.key, canonicalRequestDigest call.2, evidence⟩
  | _ => none

def approvals : Matcher → List Call → List Reservation
  | _, [] => []
  | matcher, call :: rest =>
    (approval json matcher call).toList ++ approvals (answer json matcher call).2 rest

variable {json} {start matcher : Matcher} {call : Call} {r : Reservation}

theorem approval_some : approval json matcher call = some r ↔
      ∃ evidence, (answer json matcher call).1 = .ok (some evidence) ∧
        r = ⟨call.2.key, canonicalRequestDigest call.2, evidence⟩ := by
  unfold approval
  constructor
  · intro h
    split at h
    · rename_i evidence hans
      exact ⟨evidence, hans, (Option.some.inj h).symm⟩
    · cases h
  · rintro ⟨evidence, hans, rfl⟩
    rw [hans]

theorem answer_consistent (hdist : (start.rules.map identity).Nodup)
    (h : Consistent start matcher) (call : Call) :
    Consistent start (answer json matcher call).2 := by
  unfold answer
  rcases matchRequest_cases json call.1 matcher call.2 with
    ⟨hsame, -⟩ | ⟨hnew, _, _, hs, hleft, heq⟩
  · rwa [hsame]
  · rw [heq]
    exact reserve_consistent hdist h hnew hs hleft

theorem approval_reserved
    (h : approval json matcher call = some r) : r ∈ (answer json matcher call).2.reservations := by
  obtain ⟨evidence, hans, rfl⟩ := approval_some.1 h
  unfold answer at hans ⊢
  rcases matchRequest_cases json call.1 matcher call.2 with
    ⟨hsame, htbl⟩ | ⟨_, _, _, _, _, heq⟩
  · rw [hsame]
    exact htbl evidence hans
  · rw [heq] at hans ⊢
    rw [← Option.some.inj (ok.inj hans)]
    exact mem_append_right _ (mem_singleton_self _)

theorem answer_keeps (h : r ∈ matcher.reservations) :
    r ∈ (answer json matcher call).2.reservations := by
  unfold answer
  rcases matchRequest_cases json call.1 matcher call.2 with
    ⟨hsame, -⟩ | ⟨_, _, _, _, _, heq⟩
  · rwa [hsame]
  · rw [heq]
    exact mem_append_left _ h

theorem run_keeps {calls : List Call} (h : r ∈ matcher.reservations) :
    r ∈ (run json matcher calls).reservations := by
  induction calls generalizing matcher with
  | nil => exact h
  | cons _ _ ih => exact ih (answer_keeps h)

theorem run_consistent (hdist : (start.rules.map identity).Nodup)
    (h : Consistent start matcher) (calls : List Call) :
    Consistent start (run json matcher calls) := by
  induction calls generalizing matcher with
  | nil => exact h
  | cons call _ ih => exact ih (answer_consistent hdist h call)

theorem approvals_reserved {calls : List Call}
    (h : r ∈ approvals json matcher calls) : r ∈ (run json matcher calls).reservations := by
  induction calls generalizing matcher with
  | nil => cases h
  | cons call rest ih =>
    rcases mem_append.1 h with hhere | hlat
    · have hkept : r ∈ (run json (answer json matcher call).2 rest).reservations :=
        run_keeps (approval_reserved (Option.mem_toList.1 hhere))
      exact hkept
    · exact ih hlat

end Run

def keysOf (entries : List Reservation) : Finset Key := (entries.map Reservation.key).toFinset

def under (identity : String) (entries : List Reservation) : List Reservation :=
  entries.filter fun entry => entry.evidence.ruleIdentity = identity

theorem keysOf_card_le {entries table : List Reservation} (h : ∀ r ∈ entries, r ∈ table) :
    (keysOf entries).card ≤ table.length := by
  have hsub : keysOf entries ⊆ keysOf table := by
    intro k hk
    unfold keysOf at hk ⊢
    rw [mem_toFinset] at hk ⊢
    obtain ⟨r, hr, rfl⟩ := mem_map.1 hk
    exact mem_map_of_mem (h r hr)
  calc (keysOf entries).card ≤ (keysOf table).card := Finset.card_le_card hsub
    _ ≤ (table.map Reservation.key).length := toFinset_card_le _
    _ = table.length := length_map _

/-- What holds of every run of a matcher compiled from the rules. -/
structure QuotaKept (json : JsonLibrary) (limits : AutomaticApprovalMatcherLimits)
    (rules : List AutomaticApprovalRule) (matcher : Matcher) : Prop where
  /-- No rule approves more invocations than it allows. -/
  perRule : ∀ (i : ℕ) (rule : AutomaticApprovalRule), rules[i]? = some rule →
    ∃ compiled, matcher.rules[i]? = some compiled ∧ ∀ calls,
      (keysOf (under compiled.identity (approvals json matcher calls))).card ≤
        rule.constraints.maximumMatches
  total : ∀ calls, (keysOf (approvals json matcher calls)).card ≤ limits.maximumTotalMatches
  /-- Every approval names a rule of the matcher. -/
  attributed : ∀ calls, ∀ entry ∈ approvals json matcher calls,
    entry.evidence.ruleIdentity ∈ matcher.rules.map CompiledRule.identity
  /-- A repeated call takes nothing and has the evidence of before or none. -/
  repeated : ∀ calls call, ∀ earlier ∈ approvals json matcher calls, earlier.key = call.2.key →
    (answer json (run json matcher calls) call).2 = run json matcher calls ∧
      ∀ evidence, (answer json (run json matcher calls) call).1 = .ok (some evidence) →
        evidence = earlier.evidence
  /-- A call with another request for an invocation that has been approved is not approved. -/
  changed : ∀ calls call, ∀ earlier ∈ approvals json matcher calls, earlier.key = call.2.key →
    earlier.requestDigest ≠ canonicalRequestDigest call.2 →
    ∀ evidence, (answer json (run json matcher calls) call).1 ≠ .ok (some evidence)

section Compile

variable {json : JsonLibrary} {world : Surroundings} {limits : AutomaticApprovalMatcherLimits}

/-- What the rules compiled so far add up to. -/
structure Compiled (limits : AutomaticApprovalMatcherLimits) (rules : List AutomaticApprovalRule)
    (acc : Compilation) : Prop where
  distinct : (acc.rules.map CompiledRule.identity).Nodup
  quotas : acc.rules.map CompiledRule.remainingMatches =
    rules.map fun rule => rule.constraints.maximumMatches
  total : matchesLeft acc.rules = acc.totalMatches
  bounded : acc.totalMatches ≤ limits.maximumTotalMatches

theorem compileRule_matches {rule : AutomaticApprovalRule} {converted : CompiledRuleResult}
    (h : compileRule json world limits rule = .ok converted) :
    converted.rule.remainingMatches = rule.constraints.maximumMatches := by
  obtain ⟨_, -, h⟩ := bind_ok.1 h
  obtain ⟨⟨_, _, _, _⟩, -, h⟩ := bind_ok.1 h
  obtain ⟨_, -, h⟩ := bind_ok.1 h
  rw [← ok.inj h]

variable {rules : List AutomaticApprovalRule}

theorem compileNext_ok {acc next : Compilation} {rule : AutomaticApprovalRule} :
    compileNext json world limits acc rule = .ok next ↔
      ∃ converted, compileRule json world limits rule = .ok converted ∧
        rule.constraints.maximumMatches ≤ limits.maximumTotalMatches - acc.totalMatches ∧
        acc.totalBytes + converted.bytes ≤ limits.maximumTotalRuleBytes ∧
        converted.rule.identity ∉ acc.rules.map identity ∧
        next = ⟨acc.rules ++ [converted.rule], acc.toolNames ++ [converted.toolName],
          acc.totalBytes + converted.bytes,
          acc.totalMatches + rule.constraints.maximumMatches⟩ := by
  unfold compileNext
  split
  next hfull => exact iff_of_false nofun fun ⟨_, _, hroom, _⟩ => absurd hfull (not_lt.2 hroom)
  next hroom =>
    rw [bind_ok]
    refine exists_congr fun converted => and_congr_right fun _ => ?_
    split
    next hbad =>
      refine iff_of_false nofun ?_
      rintro ⟨-, hbs, hnew, -⟩
      exact hbad.elim (not_lt.2 hbs) hnew
    next hgood =>
      obtain ⟨hbs, hnew⟩ := not_or.1 hgood
      constructor
      · intro h
        exact ⟨not_lt.1 hroom, not_lt.1 hbs, hnew, (ok.inj h).symm⟩
      · rintro ⟨-, -, -, rfl⟩
        rfl

theorem compileNext_compiled {acc next : Compilation}
    {rule : AutomaticApprovalRule} (hacc : Compiled limits rules acc)
    (h : compileNext json world limits acc rule = .ok next) :
    Compiled limits (rules ++ [rule]) next := by
  obtain ⟨_, hconverted, hroom, -, hnew, rfl⟩ := compileNext_ok.1 h
  have hmat := compileRule_matches hconverted
  refine ⟨?_, ?_, ?_, ?_⟩
  · rw [map_append, map_singleton, nodup_append]
    refine ⟨hacc.distinct, nodup_singleton _, ?_⟩
    intro a ha b hb he
    rw [mem_singleton] at hb
    exact hnew (hb ▸ he ▸ ha)
  · rw [map_append, map_append, hacc.quotas, map_singleton, map_singleton,
      hmat]
  · have htot := hacc.total
    unfold matchesLeft at htot ⊢
    rw [map_append, sum_append, htot, map_singleton, sum_singleton, hmat]
  · have hbd := hacc.bounded
    dsimp only
    omega

theorem compileAll_compiled {result : Compilation}
    (h : rules.foldlM (compileNext json world limits) {} = .ok result) :
    Compiled limits rules result := by
  have hall : ∀ (done rest : List AutomaticApprovalRule) (acc : Compilation),
      Compiled limits done acc → rest.foldlM (compileNext json world limits) acc = .ok result →
      Compiled limits (done ++ rest) result := by
    intro done rest
    induction rest generalizing done with
    | nil =>
      intro acc hacc hrun
      cases hrun
      rwa [append_nil]
    | cons rule _ ih =>
      intro acc hacc hrun
      rw [foldlM_cons] at hrun
      obtain ⟨middle, hm, hrun⟩ := bind_ok.1 hrun
      have hrest := ih (done ++ [rule]) middle (compileNext_compiled hacc hm) hrun
      rwa [append_assoc] at hrest
  exact hall [] rules {} ⟨nodup_nil, rfl, rfl, Nat.zero_le _⟩ h

theorem compile_compiled
    (h : compileAutomaticApprovalMatcher json world limits rules = .ok matcher) :
    (matcher.rules.map identity).Nodup ∧
      matcher.rules.map remainingMatches =
        (rules.map fun rule => rule.constraints.maximumMatches) ∧
      matchesLeft matcher.rules ≤ limits.maximumTotalMatches ∧ matcher.reservations = [] := by
  unfold compileAutomaticApprovalMatcher at h
  split at h
  · cases h
  · obtain ⟨_, hcomp, h⟩ := bind_ok.1 h
    cases h
    have hc := compileAll_compiled hcomp
    exact ⟨hc.distinct, hc.quotas, hc.total.trans_le hc.bounded, rfl⟩

end Compile

theorem start_consistent (h : matcher.reservations = []) : Consistent matcher matcher := by
  refine ⟨rfl, rfl, rfl, ?_, ?_, ?_, ?_⟩
  · rw [h]
    exact nodup_nil
  · rw [h]
    simp
  · intro i rule rule₀ hr hr₀
    rw [hr] at hr₀
    rw [h, Option.some.inj hr₀]
    rfl
  · rw [h]
    rfl

/-- Every matcher that compiles keeps to its quotas, whatever it is asked. -/
theorem automatic_approval_quota {json : JsonLibrary} {world : Surroundings}
    {limits : AutomaticApprovalMatcherLimits} {rules : List AutomaticApprovalRule}
    {matcher : Matcher}
    (h : compileAutomaticApprovalMatcher json world limits rules = .ok matcher) :
    QuotaKept json limits rules matcher := by
  obtain ⟨hdistinct, hquotas, hbounded, hempty⟩ := compile_compiled h
  have hrun : ∀ calls, Consistent matcher (run json matcher calls) :=
    run_consistent hdistinct (start_consistent hempty)
  -- the entry of an approved key is the only one in the table
  have htable : ∀ calls (call : Call), ∀ earlier ∈ approvals json matcher calls,
      earlier.key = call.2.key →
      lookup Reservation.key call.2.key (run json matcher calls).reservations = some earlier := by
    intro calls call earlier he hkey
    rw [← hkey]
    exact lookup_of_mem (hrun calls).keys (approvals_reserved he)
  -- so that a repeated call can only be answered from it
  have hrepeat : ∀ calls call, ∀ earlier ∈ approvals json matcher calls,
      earlier.key = call.2.key →
      (answer json (run json matcher calls) call).2 = run json matcher calls ∧
        ∀ evidence, (answer json (run json matcher calls) call).1 = .ok (some evidence) →
          earlier = ⟨call.2.key, canonicalRequestDigest call.2, evidence⟩ := by
    intro calls call earlier he hkey
    have hfound := htable calls call earlier he hkey
    rcases matchRequest_cases json call.1 (run json matcher calls) call.2 with
      ⟨hsame, hentry⟩ | ⟨hnew, -⟩
    · refine ⟨hsame, ?_⟩
      intro evidence hanswer
      have hmem := lookup_of_mem (hrun calls).keys (hentry evidence hanswer)
      rw [hfound] at hmem
      exact Option.some.inj hmem
    · rw [hfound] at hnew
      cases hnew
  refine ⟨?_, ?_, ?_, ?_, ?_⟩
  · intro i rule hrule
    have hquota := congrArg (·[i]?) hquotas
    simp only [List.getElem?_map, hrule, Option.map_some] at hquota
    obtain ⟨compiled, hcompiled, hmatches⟩ := Option.map_eq_some_iff.1 hquota
    refine ⟨compiled, hcompiled, ?_⟩
    intro calls
    have hc := hrun calls
    have hlength : (run json matcher calls).rules.length = matcher.rules.length := by
      simpa using congrArg List.length hc.identities
    have hi : i < (run json matcher calls).rules.length := by
      rw [hlength]
      exact (List.getElem?_eq_some_iff.1 hcompiled).1
    have hspent := hc.spent i _ compiled (List.getElem?_eq_getElem hi) hcompiled
    have hsub : ∀ r ∈ under compiled.identity (approvals json matcher calls),
        r ∈ under compiled.identity (run json matcher calls).reservations := by
      intro r hr
      obtain ⟨hr, hid⟩ := mem_filter.1 hr
      exact mem_filter.2 ⟨approvals_reserved hr, hid⟩
    calc (keysOf (under compiled.identity (approvals json matcher calls))).card
        ≤ (under compiled.identity (run json matcher calls).reservations).length :=
          keysOf_card_le hsub
      _ = usedBy compiled.identity (run json matcher calls).reservations :=
          countP_eq_length_filter.symm
      _ ≤ compiled.remainingMatches := by omega
      _ = rule.constraints.maximumMatches := hmatches
  · intro calls
    have htotal := (hrun calls).total
    calc (keysOf (approvals json matcher calls)).card
        ≤ (run json matcher calls).reservations.length :=
          keysOf_card_le fun r hr => approvals_reserved hr
      _ ≤ matchesLeft matcher.rules := by omega
      _ ≤ limits.maximumTotalMatches := hbounded
  · intro calls entry he
    exact ((hrun calls).attributed entry (approvals_reserved he)).2
  · intro calls call earlier he hkey
    obtain ⟨hsame, hevidence⟩ := hrepeat calls call earlier he hkey
    refine ⟨hsame, ?_⟩
    intro evidence hanswer
    rw [hevidence evidence hanswer]
  · intro calls call earlier he hkey hdigest evidence hanswer
    apply hdigest
    rw [(hrepeat calls call earlier he hkey).2 evidence hanswer]

/-! One rule for one tool without arguments. -/

def emptyObject : JsonLibrary where
  read text := if text = SafeText.bytesOf "\x7b\x7d" then some (.object []) else none
  dump _ := SafeText.bytesOf "\x7b\x7d"

def noArguments : CanonicalToolArguments :=
  ⟨"aiforge.canonical-tool-json.v1", ⟨"application/json", SafeText.bytesOf "\x7b\x7d"⟩⟩

def echoRule : AutomaticApprovalRule := .exact "echo" noArguments ⟨[.high], 2, none, 0⟩

def noAuthorities : Surroundings := ⟨0, fun _ => "", fun _ _ _ => .ok false⟩

theorem echo_rule_quota :
    ∃ matcher, compileAutomaticApprovalMatcher emptyObject noAuthorities {} [echoRule] =
        .ok matcher ∧ QuotaKept emptyObject {} [echoRule] matcher := by
  have hok : (compileAutomaticApprovalMatcher emptyObject noAuthorities {} [echoRule]).isOk =
      true := by decide +kernel
  cases h : compileAutomaticApprovalMatcher emptyObject noAuthorities {} [echoRule] with
  | error =>
    rw [h] at hok
    cases hok
  | ok matcher => exact ⟨matcher, rfl, automatic_approval_quota h⟩

end ApprovalQuota
