import AiForge.GrantRegistryChanges

/-! # The registry of folder grants never resurrects authority -/
namespace GrantRegistry

open EvidenceContext hiding LocalSourceError LocalSourceErrorCode
open Content LocalSource

section Sections

variable {s : State}

section

variable (h : Sound s)

include h

theorem Sound.activateSession (session : SessionId) (epoch : ℕ) :
    Moves s (s.activateSession session epoch).2 := by
  unfold State.activateSession
  split
  next => exact h.still
  next =>
    have retired := h.retire (s.occupied.map Prod.fst)
    refine retired.trans (retired.sound.rescope (h.retire_idle ?_) _ _ _)
    intro id record held _
    exact List.mem_map.2 ⟨(id, record), held, rfl⟩

theorem Sound.close : Moves s s.close := by
  have retired := h.retire (s.occupied.map Prod.fst)
  refine retired.trans (retired.sound.rescope (h.retire_idle ?_) _ _ _)
  intro id record held _
  exact List.mem_map.2 ⟨(id, record), held, rfl⟩

theorem Sound.invalidateSession (session : SessionId) : Moves s (s.invalidateSession session) := by
  unfold State.invalidateSession
  have retired := h.retire
    ((s.occupied.filter fun slot => slot.2.request.token.sessionId = session).map Prod.fst)
  by_cases ours : s.scope.any (fun scope => scope.session == session) = true
  · refine retired.trans ?_
    simp only [ours, if_true]
    refine retired.sound.rescope (h.retire_idle ?_) none _ _
    intro id record held active
    -- What is active belongs to the session of the scope.
    obtain ⟨-, found⟩ := State.mem_occupied.1 held
    obtain ⟨scope, inScope, -, holds, -⟩ := (h.active id record found active).accepted
    simp only [inScope, Option.any_some, beq_iff_eq] at ours
    simp only [Scope.holds, Bool.and_eq_true, beq_iff_eq] at holds
    refine List.mem_map.2 ⟨(id, record), List.mem_filter.2 ⟨held, ?_⟩, rfl⟩
    simp [← holds.1, ours]
  · simp only [ours]
    exact retired

theorem Sound.resolve (session : SessionId) (root : LocalRootIdentity)
    (stopped allocated : Bool) : Moves s (s.resolve session root stopped allocated).2 := by
  unfold State.resolve
  split
  · exact h.still
  split
  · exact h.still
  split
  next => exact h.still
  next id record taken =>
    split
    · have granted := List.find?_some taken
      obtain ⟨-, found⟩ := State.mem_occupied.1 (List.mem_of_find?_eq_some taken)
      simp only [State.grants, Bool.and_eq_true] at granted
      exact h.borrow found (by simpa using granted.1.1.1.2)
    · exact h.still

theorem Sound.revoke (session : SessionId) (root : LocalRootIdentity)
    (leaseGeneration : ℕ) : Moves s (s.revoke session root leaseGeneration).2 := by
  unfold State.revoke
  split
  · exact h.still
  split
  · exact h.retire _
  · exact h.still

/-- A new record takes the first slot that is free. -/
theorem Sound.place {free : ℕ}
    (found : (s.slots.take s.capacity).findIdx? Option.isNone = some free)
    (request : LocalFolderGrantRequest) (lastRequest lastGeneration : ℕ) : Moves s { s with
      slots := s.slots.set free (some s.made)
      records := Function.update s.records s.made (some { request })
      made := s.made + 1
      lastRequest := lastRequest
      lastGeneration := lastGeneration } := by
  obtain ⟨within, empty, -⟩ := List.findIdx?_eq_some_iff_getElem.1 found
  rw [List.length_take] at within
  have bounded : free < s.capacity := by omega
  have inside : free < s.slots.length := by omega
  have vacant : s.slots[free]? = some none := by
    rw [List.getElem_take] at empty
    rw [List.getElem?_eq_getElem inside, Option.isNone_iff_eq_none.1 empty]
  have fresh : s.records s.made = none := by
    cases known : s.records s.made with
    | none => rfl
    | some record => exact absurd (h.made s.made record known) (lt_irrefl _)
  have differs : ∀ id record, s.records id = some record → id ≠ s.made := by
    rintro id record known rfl
    simp [fresh] at known
  have other : ∀ id record, s.records id = some record →
      Function.update s.records s.made (some { request }) id = some record := by
    intro id record known
    rw [Function.update_of_ne (differs id record known)]
    exact known
  have cases : ∀ id record, Function.update s.records s.made (some { request }) id = some record →
      (id = s.made ∧ record = { request }) ∨ s.records id = some record := by
    intro id record known
    by_cases same : id = s.made
    · subst same
      rw [Function.update_self, Option.some.injEq] at known
      exact .inl ⟨rfl, known.symm⟩
    · rw [Function.update_of_ne same] at known
      exact .inr known
  have elsewhere : ∀ index id : ℕ, s.slots[index]? = some (some id) →
      (s.slots.set free (some s.made))[index]? = some (some id) := by
    intro index id held
    have differs' : free ≠ index := by
      rintro rfl
      simp [vacant] at held
    rw [List.getElem?_set_ne differs']
    exact held
  refine ⟨⟨?_, fun id record known => ⟨record, other id record known, rfl, fun retired => retired⟩,
    rfl⟩, elsewhere⟩
  constructor
  case made =>
    intro id record known
    show id < s.made + 1
    rcases cases id record known with ⟨rfl, -⟩ | before
    · omega
    · have := h.made id record before
      omega
  case beyond =>
    intro index id held
    by_cases same : index = free
    · subst same
      exact bounded
    · have differs' : free ≠ index := fun equal => same equal.symm
      rw [List.getElem?_set_ne differs'] at held
      exact h.beyond index id held
  case placed =>
    intro id record known kept
    rcases cases id record known with ⟨rfl, -⟩ | before
    · exact List.mem_set inside _
    · obtain ⟨index, held⟩ := List.mem_iff_getElem?.1 (h.placed id record before kept)
      exact List.mem_iff_getElem?.2 ⟨index, elsewhere index id held⟩
  case active =>
    intro id record known granted
    rcases cases id record known with ⟨-, rfl⟩ | before
    · simp at granted
    · obtain ⟨kept, settled, attempted, accepted⟩ := h.active id record before granted
      exact ⟨kept, settled, attempted, accepted⟩
  case unique =>
    intro id record other rival known known' granted granted' session root
    rcases cases id record known with ⟨-, rfl⟩ | before
    · simp at granted
    rcases cases other rival known' with ⟨-, rfl⟩ | before'
    · simp at granted'
    exact h.unique id record other rival before before' granted granted' session root
  case retired =>
    intro id noted
    obtain ⟨record, known, retired⟩ := h.retired id noted
    exact ⟨record, other id record known, retired⟩
  case dispatched =>
    intro id request noted
    obtain ⟨record, known, facts⟩ := h.dispatched id request noted
    exact ⟨record, other id record known, facts⟩
  case once => exact h.once
  case borrowed =>
    intro id
    rw [h.borrowed id]
    by_cases same : id = s.made
    · subst same
      simp [fresh]
    · simp [same]
  case calling =>
    intro id busy
    obtain ⟨record, known, running⟩ := h.calling id busy
    exact ⟨record, other id record known, running⟩
  case reclaiming =>
    intro slot id destroying
    obtain ⟨held, record, known, unused⟩ := h.reclaiming slot id destroying
    exact ⟨elsewhere slot id held, record, other id record known, unused⟩

theorem Sound.reserve (request : LocalFolderGrantRequest) (pinned : Bool) :
    Moves s (s.reserve request pinned).2 := by
  unfold State.reserve
  split
  · exact h.still
  split
  · exact h.still
  split
  next => exact h.still
  next free found => exact h.place found request _ _

theorem Sound.dispatch (id : ℕ) (request : LocalFolderGrantRequest) :
    Moves s (s.dispatch id request) := by
  unfold State.dispatch
  split
  next => exact h.still
  next record found =>
    split
    next => exact h.still
    next allowed =>
      simp only [not_or, Bool.not_eq_true, ne_eq, not_not] at allowed
      obtain ⟨unattempted, kept, -, rfl⟩ := allowed
      have begun : Moves s ((s.change id fun record =>
          { record with attempted := true, running := true }).setCall id (some .invoking)) := by
        refine h.alterKept ?_ ?_ ?_
        · intro other taken known
          by_cases same : other = id
          · subst same
            obtain rfl : record = taken := by simpa [found] using known
            simp only [if_true]
            -- A record that was not attempted is neither active nor retired.
            exact ⟨⟨rfl, fun _ => rfl, fun known => known,
              fun unused => absurd unused.retired (by simp [kept])⟩,
              fun active => absurd (h.active other record found active).attempted
                (by simp [unattempted])⟩
          · simpa [same] using KeepsGrants.same taken
        · intro other
          show s.borrows.count other = _
          rw [h.borrowed other]
          cases s.records other with
          | none => rfl
          | some => by_cases same : other = id <;> simp [same]
        · intro other busy
          by_cases same : other = id
          · subst same
            exact ⟨record, found, by simp⟩
          · obtain ⟨taken, known, running⟩ := h.calling other (by simpa [same] using busy)
            exact ⟨taken, known, by simpa [same] using running⟩
      refine begun.trans (begun.sound.note ?_ ?_ ?_)
      · intro other noted
        simp at noted
      · intro other request noted
        simp only [List.mem_singleton, Event.dispatched.injEq] at noted
        obtain ⟨rfl, rfl⟩ := noted
        exact ⟨{ record with attempted := true, running := true },
          by simp [State.setCall, State.records_change, found], rfl, rfl⟩
      · rw [List.filterMap_append, List.nodup_append]
        refine ⟨h.once, by simp [dispatchedId], ?_⟩
        intro other earlier last now
        obtain rfl : last = id := by simpa [dispatchedId] using now
        rintro rfl
        -- A call that was dispatched before was attempted before.
        obtain ⟨event, noted, same⟩ := List.mem_filterMap.1 earlier
        cases event with
        | dispatched named asked =>
          obtain rfl : named = other := by simpa [dispatchedId] using same
          obtain ⟨taken, known, attempted, -⟩ := h.dispatched named asked noted
          obtain rfl : record = taken := by simpa [found] using known
          simp [unattempted] at attempted
        | accepted | retired => simp [dispatchedId] at same

theorem Sound.answer (id : ℕ) (result : Option LocalFolderGrantResult)
    (stopped : Bool) : Moves s (s.answer id result stopped) := by
  unfold State.answer
  split
  next invoking => exact h.setCall (by simp [invoking]) _
  next => exact h.still

theorem Sound.discardCall (id : ℕ) : Moves s (s.discardCall id) := by
  unfold State.discardCall
  split
  next result discarding =>
    have discarded := h.discard id
    refine discarded.trans (discarded.sound.setCall ?_ _)
    show s.calls id ≠ none
    simp [discarding]
  next => exact h.still

end

variable {id : ℕ}

/-- The reserved record receives a root only while its call runs, when nobody can resolve it. -/
theorem Sound.setRoot (h : Sound s) (busy : s.calls id ≠ none) (root : LocalRootIdentity) :
    Moves s (s.change id fun record => { record with root := some root }) := by
  refine h.change ?_ (fun _ => rfl) (fun _ => rfl)
  intro record found
  refine ⟨⟨rfl, fun known => known, fun known => known, fun unused =>
    ⟨unused.retired, unused.settled, unused.returned⟩⟩, ?_⟩
  intro active
  obtain ⟨taken, known, running⟩ := h.calling id busy
  obtain rfl : record = taken := by simpa [found] using known
  have settled := (h.active id record found active).settled
  simp [running] at settled

theorem Sound.setPhysical (h : Sound s) (id : ℕ) (lease : Option LocalSourceLease) :
    Moves s (s.change id fun record => { record with physical := lease }) := by
  refine h.change ?_ (fun _ => rfl) (fun _ => rfl)
  exact fun record _ => .of_eq rfl rfl rfl rfl rfl rfl rfl

theorem Sound.stageResult (h : Sound s) (id : ℕ) (allocated : Bool) :
    Moves s (s.stageResult id allocated) := by
  unfold State.stageResult
  split
  next result record staging found =>
    have busy : s.calls id ≠ none := by simp [staging]
    have staged := h.setPhysical id result.lease
    split
    next =>
      have retired := staged.sound.retire [id]
      exact (staged.trans retired).trans (retired.sound.setCall busy _)
    next allowed =>
      simp only [not_or, Bool.not_eq_true] at allowed
      have rooted := staged.sound.setRoot busy result.root
      split
      · have staged' : ((s.change id fun record =>
            { record with physical := result.lease }).change id fun record =>
            { record with root := some result.root }).records id =
            some { record with physical := result.lease, root := some result.root } := by
          simp [State.records_change, found]
        have borrowed := rooted.sound.borrow staged' allowed.2.1
        exact ((staged.trans rooted).trans borrowed).trans (borrowed.sound.setCall busy _)
      · exact (staged.trans rooted).trans (rooted.sound.setCall busy _)
  next => exact h.still

theorem Sound.settle (h : Sound s) (busy : s.calls id ≠ none) :
    Moves s ((s.change id fun record => { record with running := false }).setCall id none) := by
  refine h.alterKept ?_ ?_ ?_
  · intro other record _
    by_cases same : other = id
    · subst same
      simp only [if_true]
      exact ⟨⟨rfl, fun known => known, fun known => known, fun unused =>
        ⟨unused.retired, rfl, unused.returned⟩⟩,
        fun active => ⟨active, rfl, fun known => known, fun _ => rfl⟩⟩
    · simpa [same] using KeepsGrants.same record
  · intro other
    show s.borrows.count other = _
    rw [h.borrowed other]
    cases s.records other with
    | none => rfl
    | some => by_cases same : other = id <;> simp [same]
  · intro other calls
    by_cases same : other = id
    · subst same
      simp at calls
    · obtain ⟨record, known, running⟩ := h.calling other (by simpa [same] using calls)
      exact ⟨record, known, by simpa [same] using running⟩

theorem Sound.finish (h : Sound s) (id : ℕ) : Moves s (s.finish id) := by
  unfold State.finish
  split
  next failed finishing =>
    have busy : s.calls id ≠ none := by simp [finishing]
    cases failed with
    | false => exact h.settle busy
    | true =>
      have retired := h.retire [id]
      exact retired.trans (retired.sound.settle busy)
  next => exact h.still

variable {record : Record}

/-- A record becomes active when it is accepted and no other record of its session has its
root. -/
theorem Sound.activate (h : Sound s) (found : s.records id = some record)
    (granted : Granted s id record)
    (alone : ∀ other rival, s.records other = some rival → rival.active →
      rival.request.token.sessionId = record.request.token.sessionId →
      rival.root = record.root → other = id) :
    Moves s (s.change id fun record => { record with active := true }) := by
  refine h.alterWith ?_ ?_ ?_ ?_ ?_
  · intro other taken known
    by_cases same : other = id
    · subst same
      obtain rfl : record = taken := by simpa [found] using known
      simp only [if_true]
      exact ⟨rfl, fun known => known, fun known => known,
        fun unused => absurd unused.retired (by simp [granted.kept])⟩
    · simpa [same] using (KeepsGrants.same taken).toKeeps
  · intro other taken known active
    by_cases same : other = id
    · subst same
      obtain rfl : record = taken := by simpa [found] using known
      obtain ⟨kept, settled, attempted, accepted⟩ := granted
      simp only [if_true]
      exact ⟨kept, settled, attempted, accepted⟩
    · simp only [same, if_false] at active ⊢
      exact h.active other taken known active
  · intro one taken other rival known known' active active' session root
    by_cases same : one = id
    · by_cases same' : other = id
      · rw [same, same']
      · subst same
        obtain rfl : record = taken := by simpa [found] using known
        simp only [same', if_true, if_false] at active' root
        exact (alone other rival known' active' session.symm root.symm).symm
    · by_cases same' : other = id
      · subst same'
        obtain rfl : record = rival := by simpa [found] using known'
        simp only [same, if_true, if_false] at active root
        exact alone one taken known active session root
      · simp only [same, same', if_false] at active active' root
        exact h.unique one taken other rival known known' active active' session root
  · intro other
    rw [h.borrowed other]
    cases s.records other with
    | none => rfl
    | some => by_cases same : other = id <;> simp [same]
  · intro other busy
    obtain ⟨taken, known, running⟩ := h.calling other busy
    refine ⟨taken, known, ?_⟩
    split <;> exact running

theorem State.duplicateRoot_false
    (h : s.duplicateRoot id record = false) {other : ℕ} {rival : Record}
    (held : (other, rival) ∈ s.occupied) (active : rival.active)
    (kept : rival.retired = false)
    (session : rival.request.token.sessionId = record.request.token.sessionId)
    (root : rival.root = record.root) : other = id := by
  unfold State.duplicateRoot at h
  rw [List.any_eq_false] at h
  have alone := h (other, rival) held
  by_contra differs
  simp [differs, active, kept, session, root] at alone

theorem Sound.accept (h : Sound s) (id : ℕ) (result : LocalFolderGrantResult)
    (allocated : Bool) : Moves s (s.accept id result allocated).2 := by
  unfold State.accept
  split
  next => exact h.still
  next record found =>
    split
    · exact h.discard id
    split
    · split
      · exact h.still
      · exact h.discard id
    next allowed =>
      rw [Bool.not_eq_false] at allowed
      simp only [State.acceptable, State.current, Bool.and_eq_true, Bool.not_eq_true',
        decide_eq_true_eq, beq_iff_eq, Option.any_eq_true] at allowed
      obtain ⟨⟨⟨⟨⟨⟨⟨⟨⟨⟨-, kept⟩, settled⟩, attempted⟩, -⟩, -⟩, opened, scope, inScope, holds⟩,
        token⟩, -⟩, -⟩, alone⟩ := allowed
      rw [token] at holds
      have borrowed := h.borrow found kept
      have noted : Moves (s.borrow id) { s.borrow id with
          history := (s.borrow id).history ++ (s.scope.map (Event.accepted id)).toList } := by
        refine borrowed.sound.note ?_ ?_ ?_
        · intro other noted
          simp [inScope] at noted
        · intro other request noted
          simp [inScope] at noted
        · have silent : [Event.accepted id scope].filterMap dispatchedId = [] := rfl
          rw [inScope, Option.map_some, Option.toList_some, List.filterMap_append, silent,
            List.append_nil]
          exact borrowed.sound.once
      have remembered := noted.sound.setAccepted (insert id s.accepted)
      have lent : (s.borrow id).records id =
          some { record with borrowers := record.borrowers + 1 } := by
        simp [State.borrow, State.records_change, found]
      refine ((borrowed.trans noted).trans remembered).trans
        (remembered.sound.activate lent ?_ ?_)
      · refine ⟨kept, settled, attempted, scope, inScope, opened, holds, ?_⟩
        simp [inScope]
      · intro other rival known active session root
        replace known : ((s.borrow id).records other) = some rival := known
        simp only [State.borrow, State.records_change, Option.map_eq_some_iff] at known
        obtain ⟨before, known, rfl⟩ := known
        by_cases same : other = id
        · exact same
        · simp only [same, if_false] at active session root
          exact s.duplicateRoot_false alone (h.active_occupied known active) active
            (h.active other before known active).kept session root

theorem Sound.drop (h : Sound s) (id : ℕ) : Moves s (s.drop id) := by
  unfold State.drop
  split
  · exact h.still
  · exact h.discard id

theorem State.reclaimSlot_some {shared : List ℕ} {slot : ℕ}
    (h : s.reclaimSlot shared = some (slot, id, record)) :
    s.slots[slot]? = some (some id) ∧ s.records id = some record ∧
      reclaimable shared id record := by
  obtain ⟨⟨held, _⟩, among, found⟩ := List.exists_of_findSome?_eq_some h
  rw [List.mem_zipIdx_iff_getElem?] at among
  cases held with
  | none => simp at found
  | some other =>
    simp only [Option.bind_some] at found
    cases known : s.records other with
    | none => simp [known] at found
    | some =>
      rw [known, Option.bind_some] at found
      split at found
      next allowed =>
        obtain ⟨rfl, rfl, rfl⟩ := found
        exact ⟨among, known, allowed⟩
      next => simp at found

section

variable (h : Sound s)

include h

theorem Sound.reclaim (shared : List ℕ) : Moves s (s.reclaim shared) := by
  unfold State.reclaim
  split
  next slot id record idle found =>
    obtain ⟨held, known, allowed⟩ := s.reclaimSlot_some found
    split
    next =>
      have dropped : Moves s (s.change id fun record =>
          { record with factory := false, destroying := true }) := by
        refine h.change ?_ (fun _ => rfl) (fun _ => rfl)
        exact fun record _ => .of_eq rfl rfl rfl rfl rfl rfl rfl
      refine dropped.trans (dropped.sound.setReclaimer ?_)
      intro slot id impossible
      simp at impossible
    next released =>
      have marked : Moves s (s.change id fun record =>
          { record with destroying := true, physical := none }) := by
        refine h.change ?_ (fun _ => rfl) (fun _ => rfl)
        exact fun record _ => .of_eq rfl rfl rfl rfl rfl rfl rfl
      refine marked.trans (marked.sound.setReclaimer ?_)
      rintro _ _ ⟨⟩
      simp only [State.reclaimable, released, Bool.and_eq_true, Bool.not_eq_true', Bool.false_or,
        beq_iff_eq] at allowed
      obtain ⟨⟨⟨retired, settled⟩, -⟩, returned, -⟩ := allowed
      exact ⟨held, { record with destroying := true, physical := none },
        by simp [State.records_change, known], retired, settled, returned⟩
  next => exact h.still

theorem Sound.free {slot : ℕ} (destroying : s.reclaimer = .destroying slot id) :
    Follows s { s with slots := s.slots.set slot none, reclaimer := .idle } := by
  obtain ⟨held, record, found, unused⟩ := h.reclaiming slot id destroying
  refine ⟨?_, fun id record known => ⟨record, known, rfl, fun retired => retired⟩, rfl⟩
  exact { h with
    beyond := by
      intro index other taken
      by_cases same : slot = index
      · subst same
        rw [List.getElem?_set_self'] at taken
        simp at taken
      · rw [List.getElem?_set_ne same] at taken
        exact h.beyond index other taken
    placed := by
      intro other rival known kept
      obtain ⟨index, taken⟩ := List.mem_iff_getElem?.1 (h.placed other rival known kept)
      have differs : slot ≠ index := by
        rintro rfl
        obtain rfl : id = other := by simpa [held] using taken
        obtain rfl : record = rival := by simpa [found] using known
        simp [unused.retired] at kept
      exact List.mem_iff_getElem?.2 ⟨index, by rw [List.getElem?_set_ne differs]; exact taken⟩
    active := by
      intro other rival known granted
      obtain ⟨kept, settled, attempted, accepted⟩ := h.active other rival known granted
      exact ⟨kept, settled, attempted, accepted⟩
    reclaiming := by
      intro slot id impossible
      simp at impossible }

theorem Sound.reclaimed : Follows s s.reclaimed := by
  unfold State.reclaimed
  split
  next => exact h.stays
  next id dropping =>
    have changed : Moves s (s.change id fun record => { record with destroying := false }) := by
      refine h.change ?_ (fun _ => rfl) (fun _ => rfl)
      exact fun record _ => .of_eq rfl rfl rfl rfl rfl rfl rfl
    refine changed.toFollows.trans (changed.sound.setReclaimer ?_).toFollows
    intro slot id impossible
    simp at impossible
  next slot id destroying => exact h.free destroying

theorem moves_next {act : Act} (other : act ≠ .reclaimed) : Moves s (next s act) := by
  cases act with
  | reserve request pinned => exact h.reserve request pinned
  | dispatch id request => exact h.dispatch id request
  | answer id result stopped => exact h.answer id result stopped
  | discardCall id => exact h.discardCall id
  | stageResult id allocated => exact h.stageResult id allocated
  | finish id => exact h.finish id
  | accept id result allocated => exact h.accept id result allocated
  | drop id => exact h.drop id
  | resolve session root stopped allocated => exact h.resolve session root stopped allocated
  | revoke session root leaseGeneration => exact h.revoke session root leaseGeneration
  | activateSession session epoch => exact h.activateSession session epoch
  | invalidateSession session => exact h.invalidateSession session
  | close => exact h.close
  | release id => exact h.release id
  | reclaim shared => exact h.reclaim shared
  | reclaimed => exact absurd rfl other

theorem follows_next (act : Act) : Follows s (next s act) := by
  by_cases reclaims : act = .reclaimed
  · subst reclaims
    exact h.reclaimed
  · exact (moves_next h reclaims).toFollows

/-- Only the reclaimer frees a slot, when nobody uses its record. -/
theorem unused_of_freed {act : Act} {index : ℕ}
    (held : s.slots[index]? = some (some id)) (gone : (next s act).slots[index]? ≠ some (some id)) :
    ∃ record, s.records id = some record ∧ Unused record := by
  by_cases reclaims : act = .reclaimed
  · subst reclaims
    simp only [next, State.reclaimed] at gone
    split at gone
    next => exact absurd held gone
    next => exact absurd held gone
    next slot destroyed destroying =>
      by_cases same : slot = index
      · subst same
        obtain ⟨held', unused⟩ := h.reclaiming slot destroyed destroying
        obtain rfl : id = destroyed := by simpa [held] using held'
        exact unused
      · rw [List.getElem?_set_ne same] at gone
        exact absurd held gone
  · exact absurd ((moves_next h reclaims).slots index id held) gone

theorem follows_foldl (acts : List Act) : Follows s (acts.foldl next s) := by
  induction acts generalizing s with
  | nil => exact h.stays
  | cons act _ ih =>
    have first := follows_next h act
    exact first.trans (ih first.sound)

theorem Sound.occupiedSlots_le : s.occupiedSlots ≤ s.capacity := by
  have parts : s.occupiedSlots =
      (s.slots.take s.capacity).countP Option.isSome +
        (s.slots.drop s.capacity).countP Option.isSome := by
    rw [State.occupiedSlots, ← List.countP_append, List.take_append_drop]
  have within : (s.slots.take s.capacity).countP Option.isSome ≤ s.capacity :=
    le_trans List.countP_le_length (by rw [List.length_take]; exact min_le_left _ _)
  have beyond : (s.slots.drop s.capacity).countP Option.isSome = 0 := by
    rw [List.countP_eq_zero]
    intro slot among taken
    obtain ⟨id, rfl⟩ := Option.isSome_iff_exists.1 taken
    obtain ⟨_, held⟩ := List.mem_iff_getElem?.1 among
    rw [List.getElem?_drop] at held
    have bounded := h.beyond _ id held
    omega
  omega

theorem Sound.not_borrowed
    (found : s.records id = some record) (returned : record.borrowers = 0) : id ∉ s.borrows := by
  have counted := h.borrowed id
  rw [found] at counted
  exact List.count_eq_zero.1 (counted.trans returned)

theorem Sound.resolve_granted {session : SessionId} {root : LocalRootIdentity}
    {stopped allocated : Bool} {grant : LocalContextGrant}
    (resolves : (s.resolve session root stopped allocated).1 = .ok (some grant)) :
    ∃ id record scope, s.records id = some record ∧ some id ∈ s.slots ∧
      grant = resolved record root ∧ record.request.token.sessionId = session ∧
      record.root = some root ∧ s.scope = some scope ∧ s.closed = false ∧
      scope.holds record.request.token ∧ Event.accepted id scope ∈ s.history ∧
      Event.retired id ∉ s.history := by
  unfold State.resolve at resolves
  split at resolves
  · simp at resolves
  split at resolves
  · simp at resolves
  split at resolves
  next => simp at resolves
  next id record taken =>
    split at resolves
    next =>
      simp only [Except.ok.injEq, Option.some.injEq] at resolves
      obtain ⟨held, found⟩ := State.mem_occupied.1 (List.mem_of_find?_eq_some taken)
      have granted := List.find?_some taken
      simp only [State.grants, Bool.and_eq_true, beq_iff_eq, Bool.not_eq_true'] at granted
      obtain ⟨⟨⟨⟨active, kept⟩, -⟩, owned⟩, rooted⟩ := granted
      obtain ⟨scope, inScope, opened, holds, accepted⟩ := (h.active id record found active).accepted
      refine ⟨id, record, scope, found, held, resolves.symm, owned, rooted, inScope, opened, holds,
        accepted, ?_⟩
      intro noted
      obtain ⟨same, known, retired⟩ := h.retired id noted
      obtain rfl : record = same := by simpa [found] using known
      simp [kept] at retired
    next => simp at resolves

end

end Sections

theorem sound_run (capacity : ℕ) (acts : List Act) : Sound (run capacity acts) :=
  (follows_foldl (sound_initial capacity) acts).sound

structure Safe (capacity : ℕ) (s : State) : Prop where
  resolves : ∀ session root stopped allocated grant,
    (s.resolve session root stopped allocated).1 = .ok (some grant) →
    ∃ id record scope, s.records id = some record ∧ some id ∈ s.slots ∧
      grant = resolved record root ∧ record.request.token.sessionId = session ∧
      record.root = some root ∧ s.scope = some scope ∧ s.closed = false ∧
      scope.holds record.request.token ∧ Event.accepted id scope ∈ s.history ∧
      Event.retired id ∉ s.history
  distinct : ∀ id record other rival, s.records id = some record → s.records other = some rival →
    record.active → rival.active →
    record.request.token.sessionId = rival.request.token.sessionId → record.root = rival.root →
    id = other
  dispatchedOnce : (s.history.filterMap dispatchedId).Nodup
  dispatchedOwn : ∀ id request, Event.dispatched id request ∈ s.history →
    ∃ record, s.records id = some record ∧ record.request = request
  retiredForever : ∀ id record (more : List Act), s.records id = some record →
    record.retired →
    ∃ record', (more.foldl next s).records id = some record' ∧
      record'.request = record.request ∧ record'.retired ∧ record'.active = false
  freed : ∀ act (index id : ℕ), s.slots[index]? = some (some id) →
    (next s act).slots[index]? ≠ some (some id) →
    ∃ record, s.records id = some record ∧ record.retired ∧ record.running = false ∧
      record.borrowers = 0 ∧ id ∉ s.borrows
  bounded : s.occupiedSlots ≤ capacity

/-- In every run, whatever the order of the sections. -/
theorem registry_safe (capacity : ℕ) (acts : List Act) : Safe capacity (run capacity acts) := by
  have follows := follows_foldl (sound_initial capacity) acts
  have h := sound_run capacity acts
  constructor
  case resolves =>
    intro session root stopped allocated grant resolves
    exact h.resolve_granted resolves
  case distinct => exact h.unique
  case dispatchedOnce => exact h.once
  case dispatchedOwn =>
    intro id request noted
    obtain ⟨record, found, -, own⟩ := h.dispatched id request noted
    exact ⟨record, found, own⟩
  case retiredForever =>
    intro id record more found retired
    have later := follows_foldl h more
    obtain ⟨record', found', request, still⟩ := later.records id record found
    refine ⟨record', found', request, still retired, ?_⟩
    by_contra active
    rw [Bool.not_eq_false] at active
    have kept := (later.sound.active id record' found' active).kept
    simp [still retired] at kept
  case freed =>
    intro act index id held gone
    obtain ⟨record, found, unused⟩ := unused_of_freed h held gone
    exact ⟨record, found, unused.retired, unused.settled, unused.returned,
      h.not_borrowed found unused.returned⟩
  case bounded =>
    have capacity_kept : (run capacity acts).capacity = capacity := follows.capacity
    have bounded := h.occupiedSlots_le
    omega

end GrantRegistry
