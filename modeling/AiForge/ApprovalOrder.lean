import AiForge.ApprovalQuota
import AiForge.SortedBy

/-! # The order of the rules

The rules of a policy have no order among themselves: a matcher that is compiled from them in
another order has the same identity and answers every call in the same way. Only where
authorities fail does the order say which of their errors a call reports. -/
namespace ApprovalOrder

open List

open ApprovalMatcher ApprovalQuota KeyedList SafeText SortedBy Staged

theorem set_perm {α : Type} {xs ys : List α} {i j : ℕ} {x : α} (hperm : xs.Perm ys)
    (hi : xs[i]? = some x) (hj : ys[j]? = some x) (y : α) : (xs.set i y).Perm (ys.set j y) := by
  obtain ⟨hlt, rfl⟩ := List.getElem?_eq_some_iff.1 hi
  obtain ⟨hlt', hsame⟩ := List.getElem?_eq_some_iff.1 hj
  have hrest : (xs.eraseIdx i).Perm (ys.eraseIdx j) := by
    refine (perm_cons xs[i]).1 ?_
    calc (xs[i] :: xs.eraseIdx i).Perm xs := getElem_cons_eraseIdx_perm hlt
      List.Perm _ ys := hperm
      List.Perm _ (ys[j] :: ys.eraseIdx j) := (getElem_cons_eraseIdx_perm hlt').symm
      _ = xs[i] :: ys.eraseIdx j := by rw [hsame]
  calc (xs.set i y).Perm (y :: xs.eraseIdx i) := set_perm_cons_eraseIdx hlt y
    List.Perm _ (y :: ys.eraseIdx j) := hrest.cons y
    List.Perm _ (ys.set j y) := (set_perm_cons_eraseIdx hlt' y).symm

/-- Two matchers that differ in the order of their rules alone. -/
structure Rearranged (m n : Matcher) : Prop where
  identity : n.identity = m.identity
  limits : n.limits = m.limits
  reservations : n.reservations = m.reservations
  rules : m.rules.Perm n.rules
  distinct : (m.rules.map CompiledRule.identity).Nodup

section Call

variable {json : JsonLibrary} {world : Surroundings} {request : AutomaticApprovalMatchRequest}
  {m n : Matcher} {q : Inquiry} {rules others : List CompiledRule} {α β : Type}
  {err : AutomaticApprovalMatcherError}

/-- The same outcome, or an error of a rule that is asked on both sides. -/
def Alike (q : Inquiry) (rules : List CompiledRule) (a b : Matching α) : Prop :=
  a = b ∨ ∃ e e', a = .error e ∧ b = .error e' ∧ Fails q rules e ∧ Fails q rules e'

theorem Alike.bind {a b : Matching α} (h : Alike q rules a b) (next : α → Matching β) :
    Alike q rules (a >>= next) (b >>= next) := by
  rcases h with rfl | ⟨e, e', rfl, rfl, he, he'⟩
  · exact .inl rfl
  · exact .inr ⟨e, e', rfl, rfl, he, he'⟩

theorem fails_perm (h : rules.Perm others) : Fails q others err → Fails q rules err :=
  fun ⟨rule, hrule, herr⟩ => ⟨rule, h.mem_iff.2 hrule, herr⟩

theorem not_fails (h : Answered q rules) : ¬ Fails q rules err := by
  rintro ⟨rule, hrule, herr⟩
  obtain ⟨_, hfnd⟩ := h rule hrule
  rw [hfnd] at herr
  cases herr

theorem selects_perm (h : rules.Perm others) {rule : CompiledRule} (hs : Selects q others rule) :
    Selects q rules rule :=
  ⟨h.mem_iff.2 hs.mem, hs.matching, fun other hoth => hs.highest other (h.mem_iff.1 hoth),
    (h.countP_eq _).trans hs.alone⟩

/-- Where the selected rule answers, the others are asked until one of them fails. -/
theorem verify_cases {selected index : ℕ} (hself : ∀ i rule, rules[i]? = some rule →
      index + i = selected → ∃ found, hit q rule = .ok found) :
    (verifyOtherRepositoryAuthorities q.json q.world q.limits selected q.request index rules =
        .ok () ∧ Answered q rules) ∨
      ∃ err, verifyOtherRepositoryAuthorities q.json q.world q.limits selected q.request index
        rules = .error err ∧ Fails q rules err := by
  induction rules generalizing index with
  | nil => exact .inl ⟨rfl, nofun⟩
  | cons rule rest ih =>
    have hrest := @ih (index + 1) fun i other hi he => hself (i + 1) other hi (by omega)
    rw [verifyOtherRepositoryAuthorities.eq_def]
    dsimp only
    split
    next hskip =>
      have hans : ∃ found, hit q rule = .ok found := by
        by_cases hidx : index = selected
        · exact hself 0 rule rfl hidx
        unfold hit
        split
        · exact ⟨false, rfl⟩
        next hasked =>
          have hkind : rule.condition.isRepository = false := by tauto
          unfold conditionMatches
          cases hcondition : rule.condition with
          | repository => simp [hcondition, CompiledCondition.isRepository] at hkind
          | _ => exact ⟨_, rfl⟩
      rcases hrest with ⟨hdone, hanswered⟩ | ⟨err, hstop, other, hoth, hfails⟩
      · exact .inl ⟨hdone, forall_mem_cons.2 ⟨hans, hanswered⟩⟩
      · exact .inr ⟨err, hstop, other, mem_cons_of_mem rule hoth, hfails⟩
    next hasked =>
      have hhit : hit q rule = conditionMatches q.json q.world q.limits rule q.request :=
        if_neg (by tauto)
      rw [← hhit]
      cases hans : hit q rule with
      | error err => exact .inr ⟨err, rfl, rule, mem_cons_self, hans⟩
      | ok found =>
        rcases hrest with ⟨hdone, hanswered⟩ | ⟨err, hstop, other, hoth, hfails⟩
        · exact .inl ⟨hdone, forall_mem_cons.2 ⟨⟨found, hans⟩, hanswered⟩⟩
        · exact .inr ⟨err, hstop, other, mem_cons_of_mem rule hoth, hfails⟩

theorem replay_alike (h : Rearranged m n) (prior : Reservation) :
    Alike ⟨json, world, m.limits, request⟩ m.rules (replayReservation json world m prior request)
      (replayReservation json world n prior request) := by
  unfold replayReservation
  rw [h.limits]
  split
  · exact .inl rfl
  · dsimp only
    have hsame : n.rules[n.rules.findIdx fun rule => rule.identity = prior.evidence.ruleIdentity]? =
        m.rules[m.rules.findIdx fun rule => rule.identity = prior.evidence.ruleIdentity]? := by
      rw [← List.find?_eq_getElem?_findIdx, ← List.find?_eq_getElem?_findIdx]
      exact (lookup_perm h.rules h.distinct).symm
    rw [hsame]
    cases hsel :
        m.rules[m.rules.findIdx fun rule => rule.identity = prior.evidence.ruleIdentity]? with
    | none => exact .inl rfl
    | some selected =>
      rw [hsel] at hsame
      dsimp only
      split
      · exact .inl rfl
      · cases hmat : conditionMatches json world m.limits selected request with
        | error => exact .inl rfl
        | ok found =>
          cases found with
          | false => exact .inl rfl
          | true =>
            have hself {rules : List CompiledRule} {index : ℕ} (hat : rules[index]? = some selected)
                (i : ℕ) (rule : CompiledRule) (hi : rules[i]? = some rule) (he : 0 + i = index) :
                ∃ found, hit ⟨json, world, m.limits, request⟩ rule = .ok found := by
              rw [Nat.zero_add] at he
              obtain rfl := Option.some.inj (hat.symm.trans (he ▸ hi))
              unfold hit
              split
              · exact ⟨false, rfl⟩
              · exact ⟨true, hmat⟩
            dsimp only [ok_bind]
            refine Alike.bind ?_ _
            rcases verify_cases (hself hsel) with ⟨hm, hans⟩ | ⟨e, hm, hfails⟩
            · rcases verify_cases (hself hsame) with ⟨hn, -⟩ | ⟨e, -, hfails⟩
              · exact .inl (hm.trans hn.symm)
              · exact absurd (fails_perm h.rules hfails) (not_fails hans)
            · rcases verify_cases (hself hsame) with ⟨-, hans⟩ | ⟨e', hn, hfails'⟩
              · exact absurd (fails_perm h.rules.symm hfails) (not_fails hans)
              · exact .inr ⟨e, e', hm, hn, hfails, fails_perm h.rules hfails'⟩

/-- What a call answers and leaves behind does not depend on the order of the rules. -/
theorem matchRequest_alike (h : Rearranged m n) :
    Alike ⟨json, world, m.limits, request⟩ m.rules (matchRequest json world m request).1
        (matchRequest json world n request).1 ∧
      Rearranged (matchRequest json world m request).2 (matchRequest json world n request).2 := by
  have hval : validMatchRequest json n request = validMatchRequest json m request := by
    rw [validMatchRequest, h.limits, validMatchRequest]
  have hprior : findReservation n request.key = findReservation m request.key := by
    rw [findReservation, h.reservations, findReservation]
  let q : Inquiry := ⟨json, world, m.limits, request⟩
  unfold matchRequest
  rw [hval, hprior, h.limits]
  by_cases hbad : validMatchRequest json m request = false
  · rw [if_pos hbad, if_pos hbad]
    exact ⟨.inl rfl, h⟩
  rw [if_neg hbad, if_neg hbad]
  cases findReservation m request.key with
  | some prior =>
    dsimp only
    exact ⟨replay_alike h prior, h⟩
  | none =>
    cases hm : uniqueMatchingRule json world m.limits m.rules request with
    | error e =>
      have hfails := uniqueMatchingRule_fails (q := q) hm
      cases hn : uniqueMatchingRule json world m.limits n.rules request with
      | error e' =>
        have hfails' := fails_perm h.rules (uniqueMatchingRule_fails (q := q) hn)
        exact ⟨.inr ⟨e, e', rfl, rfl, hfails, hfails'⟩, h⟩
      | ok found =>
        exact absurd (fails_perm h.rules.symm hfails)
          (not_fails (uniqueMatchingRule_selects (q := q) hn).2.2)
    | ok found =>
      obtain ⟨hsel, hat, hans⟩ := uniqueMatchingRule_selects (q := q) hm
      cases hn : uniqueMatchingRule json world m.limits n.rules request with
      | error e =>
        exact absurd (fails_perm h.rules (uniqueMatchingRule_fails (q := q) hn))
          (not_fails hans)
      | ok found' =>
        obtain ⟨hsel', hat', -⟩ := uniqueMatchingRule_selects (q := q) hn
        cases found with
        | none =>
          cases found' with
          | none => exact ⟨.inl rfl, h⟩
          | some j =>
            obtain ⟨rule, hj⟩ := hat' j rfl
            obtain ⟨i, hi, -⟩ :=
              (hsel rule).2 (selects_perm h.rules ((hsel' rule).1 ⟨j, rfl, hj⟩))
            cases hi
        | some i =>
          obtain ⟨rule, hi⟩ := hat i rfl
          obtain ⟨j, rfl, hj⟩ :=
            (hsel' rule).2 (selects_perm h.rules.symm ((hsel rule).1 ⟨i, rfl, hi⟩))
          dsimp only
          rw [hi, hj]
          dsimp only [reserve]
          rw [h.identity, h.reservations]
          refine ⟨.inl rfl, rfl, h.limits, rfl, set_perm h.rules hi hj _, ?_⟩
          exact (identities_set hi _).symm ▸ h.distinct

end Call

section Compile

variable {json : JsonLibrary} {world : Surroundings} {limits : AutomaticApprovalMatcherLimits}
  {rules others : List AutomaticApprovalRule} {matcher : Matcher}

structure SameParts (acc acc' : Compilation) : Prop where
  rules : acc.rules.Perm acc'.rules
  totalBytes : acc.totalBytes = acc'.totalBytes
  totalMatches : acc.totalMatches = acc'.totalMatches

theorem compileNext_congr (rule : AutomaticApprovalRule) {acc acc' next : Compilation}
    (h : SameParts acc acc') (hnext : compileNext json world limits acc rule = .ok next) :
    ∃ next', compileNext json world limits acc' rule = .ok next' ∧ SameParts next next' := by
  obtain ⟨converted, hconverted, hroom, hbs, hnew, rfl⟩ := compileNext_ok.1 hnext
  rw [h.totalMatches] at hroom
  rw [h.totalBytes] at hbs
  rw [(h.rules.map _).mem_iff] at hnew
  refine ⟨_, compileNext_ok.2 ⟨converted, hconverted, hroom, hbs, hnew, rfl⟩, ?_⟩
  exact ⟨h.rules.append_right _, congrArg (· + _) h.totalBytes, congrArg (· + _) h.totalMatches⟩

theorem compileNext_swap (first second : AutomaticApprovalRule) {acc next last : Compilation}
    (hfst : compileNext json world limits acc first = .ok next)
    (hsnd : compileNext json world limits next second = .ok last) :
    ∃ next' last', compileNext json world limits acc second = .ok next' ∧
      compileNext json world limits next' first = .ok last' ∧ SameParts last last' := by
  obtain ⟨c, hc, hroom, hbs, hnew, rfl⟩ := compileNext_ok.1 hfst
  obtain ⟨d, hd, hroom', hbs', hnew', rfl⟩ := compileNext_ok.1 hsnd
  dsimp only at hroom' hbs'
  rw [map_append, mem_append, not_or] at hnew'
  refine ⟨_, _, compileNext_ok.2 ⟨d, hd, by omega, by omega, hnew'.1, rfl⟩,
    compileNext_ok.2 ⟨c, hc, ?_, ?_, ?_, rfl⟩, ?_⟩
  · dsimp only
    omega
  · dsimp only
    omega
  · rw [map_append, mem_append, not_or]
    refine ⟨hnew, ?_⟩
    simpa [eq_comm] using hnew'.2
  · refine ⟨?_, Nat.add_right_comm _ _ _, Nat.add_right_comm _ _ _⟩
    simp only [append_assoc]
    exact (List.Perm.swap d.rule c.rule []).append_left acc.rules

theorem ordered_perm {texts names : List String} (h : texts.Perm names) :
    ordered texts = ordered names := by
  have hsort : sortBy id texts.dedup = sortBy id names.dedup :=
    sortBy_eq_of_perm h.dedup (by simp [nodup_dedup])
  exact hsort

theorem compile_rearranged (hperm : rules.Perm others)
    (h : compileAutomaticApprovalMatcher json world limits rules = .ok matcher) :
    ∃ arranged, compileAutomaticApprovalMatcher json world limits others = .ok arranged ∧
      Rearranged matcher arranged := by
  have hdist := (compile_compiled h).1
  unfold compileAutomaticApprovalMatcher at h ⊢
  rw [← hperm.length_eq]
  split at h
  · cases h
  next hlim =>
    obtain ⟨compiled, hcomp, h⟩ := bind_ok.1 h
    obtain rfl := Except.ok.inj h
    obtain ⟨compiled', hcomp', hsame⟩ := foldlM_related (fun _ => ⟨.rfl, rfl, rfl⟩)
      (fun h h' => ⟨h.rules.trans h'.rules, h.totalBytes.trans h'.totalBytes,
        h.totalMatches.trans h'.totalMatches⟩) compileNext_congr compileNext_swap hperm hcomp
    rw [if_neg hlim, hcomp', ordered_perm (hsame.rules.map _)]
    exact ⟨_, rfl, rfl, rfl, rfl, hsame.rules, hdist⟩

end Compile

theorem run_rearranged {json : JsonLibrary} {m n : Matcher} (h : Rearranged m n)
    (calls : List Call) : Rearranged (run json m calls) (run json n calls) := by
  induction calls generalizing m n with
  | nil => exact h
  | cons _ _ ih => exact ih (matchRequest_alike h).2

/-- Where the matcher answers, every rule that it asks has answered, and it selects the rule that
matches where no other such rule has its precedence or a higher one. Where it fails, one of the
rules fails with its error. Neither the identity of a policy nor what its matcher answers to any
sequence of calls depends on the order of the rules, up to which failing rule an error is of. -/
theorem rule_selection : (∀ (q : Inquiry) (rules : List CompiledRule),
      (∀ found, uniqueMatchingRule q.json q.world q.limits rules q.request = .ok found →
        Answered q rules ∧ (∀ i, found = some i → ∃ rule, rules[i]? = some rule) ∧
        ∀ rule, (∃ i, found = some i ∧ rules[i]? = some rule) ↔ Selects q rules rule) ∧
      ∀ err, uniqueMatchingRule q.json q.world q.limits rules q.request = .error err →
        Fails q rules err) ∧
    ∀ json world limits rules others matcher, rules.Perm others →
      compileAutomaticApprovalMatcher json world limits rules = .ok matcher →
      ∃ arranged, compileAutomaticApprovalMatcher json world limits others = .ok arranged ∧
        arranged.identity = matcher.identity ∧
        ∀ calls (call : Call), Alike ⟨json, call.1, (run json matcher calls).limits, call.2⟩
          (run json matcher calls).rules (answer json (run json matcher calls) call).1
          (answer json (run json arranged calls) call).1 := by
  constructor
  · intro q rules
    refine ⟨?_, fun _ h => uniqueMatchingRule_fails h⟩
    intro found h
    obtain ⟨hsel, hat, hans⟩ := uniqueMatchingRule_selects h
    exact ⟨hans, hat, hsel⟩
  · intro json world limits rules others matcher hperm h
    obtain ⟨arranged, hcompiled, hsame⟩ := compile_rearranged hperm h
    refine ⟨arranged, hcompiled, hsame.identity, ?_⟩
    intro calls call
    exact (matchRequest_alike (run_rearranged hsame calls)).1

/-! Two rules on two roots that cannot be read, for different reasons. -/

def pathText : Bytes := bytesOf "\x7b\"relative_path\":\"a\"\x7d"

def pathDocument : JsonLibrary where
  read text := if text = pathText then some (.object [("relative_path", .string "a")]) else none
  dump _ := pathText

def unreadable : Surroundings where
  now := 0
  identity root := "sha256:" ++ String.ofList (List.replicate 64 (if root = 0 then 'a' else 'b'))
  contains root _ _ := .error ⟨.pathUnavailable, if root = 0 then
    "repository approval root changed or is unavailable"
    else "repository approval path is unavailable"⟩

def rootRule (root : PathAuthority) : AutomaticApprovalRule :=
  .repositoryRead (some root) "" ⟨[.high], 1, none, 0⟩

def readRequest : AutomaticApprovalMatchRequest where
  sessionId := "session"
  runId := "run"
  invocationId := "invocation"
  toolName := "read_repository_file"
  arguments := ⟨"aiforge.canonical-tool-json.v1", ⟨"application/json", pathText⟩⟩

def failure (rules : List AutomaticApprovalRule) : Option String :=
  match compileAutomaticApprovalMatcher pathDocument unreadable {} rules with
  | .ok matcher =>
    match (matchRequest pathDocument unreadable matcher readRequest).1 with
    | .ok _ => none
    | .error err => some err.message
  | .error _ => none

theorem failure_some {rules : List AutomaticApprovalRule} {text : String}
    (h : failure rules = some text) : ∃ matcher err,
      compileAutomaticApprovalMatcher pathDocument unreadable {} rules = .ok matcher ∧
      (matchRequest pathDocument unreadable matcher readRequest).1 = .error err ∧
      err.message = text := by
  unfold failure at h
  split at h
  next matcher hcomp =>
    split at h
    · cases h
    next err herr => exact ⟨matcher, err, hcomp, herr, Option.some.inj h⟩
  · cases h

theorem error_depends_on_order :
    ¬ ∀ json world limits rules others matcher arranged request, rules.Perm others →
      compileAutomaticApprovalMatcher json world limits rules = .ok matcher →
      compileAutomaticApprovalMatcher json world limits others = .ok arranged →
      (matchRequest json world matcher request).1 =
        (matchRequest json world arranged request).1 := by
  intro h
  have hfirst : failure [rootRule 0, rootRule 1] =
      some "repository approval root changed or is unavailable" := by decide +kernel
  have hsecond : failure [rootRule 1, rootRule 0] =
      some "repository approval path is unavailable" := by decide +kernel
  obtain ⟨matcher, err, hm, herr, hmessage⟩ := failure_some hfirst
  obtain ⟨arranged, err', hn, herr', hmessage'⟩ := failure_some hsecond
  have hsame := h _ _ _ _ _ matcher arranged readRequest (.swap _ _ _) hm hn
  rw [herr, herr'] at hsame
  have htexts : "repository approval root changed or is unavailable" =
      "repository approval path is unavailable" := by
    rw [← hmessage, Except.error.inj hsame, hmessage']
  exact absurd htexts (by decide)

end ApprovalOrder
