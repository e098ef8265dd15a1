import AiForge.GrantRegistry

/-! # What a section may change in the registry of folder grants

A sound state keeps what an active record rests on, what the threads and the borrowers rely on
and what the history tells. Each kind of change has one lemma; the sections are put together from
them. -/
namespace GrantRegistry

open EvidenceContext hiding LocalSourceError LocalSourceErrorCode
open LocalSource

def dispatchedId : Event → Option ℕ
  | .dispatched id _ => some id
  | _ => none

/-- What stands behind an active record. -/
structure Granted (s : State) (id : ℕ) (record : Record) : Prop where
  kept : record.retired = false
  settled : record.running = false
  attempted : record.attempted
  accepted : ∃ scope, s.scope = some scope ∧ s.closed = false ∧
    scope.holds record.request.token ∧ Event.accepted id scope ∈ s.history

/-- The record may be destroyed: nobody uses it or can come to use it. -/
structure Unused (record : Record) : Prop where
  retired : record.retired
  settled : record.running = false
  returned : record.borrowers = 0

structure Sound (s : State) : Prop where
  made : ∀ id record, s.records id = some record → id < s.made
  beyond : ∀ index id, s.slots[index]? = some (some id) → index < s.capacity
  placed : ∀ id record, s.records id = some record → record.retired = false → some id ∈ s.slots
  active : ∀ id record, s.records id = some record → record.active → Granted s id record
  unique : ∀ id record other rival, s.records id = some record → s.records other = some rival →
    record.active → rival.active →
    record.request.token.sessionId = rival.request.token.sessionId → record.root = rival.root →
    id = other
  retired : ∀ id, Event.retired id ∈ s.history →
    ∃ record, s.records id = some record ∧ record.retired
  dispatched : ∀ id request, Event.dispatched id request ∈ s.history →
    ∃ record, s.records id = some record ∧ record.attempted ∧ record.request = request
  once : (s.history.filterMap dispatchedId).Nodup
  borrowed : ∀ id, s.borrows.count id = (s.records id).elim 0 Record.borrowers
  calling : ∀ id, s.calls id ≠ none → ∃ record, s.records id = some record ∧ record.running
  reclaiming : ∀ slot id, s.reclaimer = .destroying slot id →
    s.slots[slot]? = some (some id) ∧ ∃ record, s.records id = some record ∧ Unused record

/-- A sound state that comes later: nothing forgot what it was made for or that it is retired. -/
structure Follows (s s' : State) : Prop where
  sound : Sound s'
  records : ∀ id record, s.records id = some record → ∃ record', s'.records id = some record' ∧
    record'.request = record.request ∧ (record.retired → record'.retired)
  capacity : s'.capacity = s.capacity

/-- A step that frees no slot. -/
structure Moves (s s' : State) : Prop extends Follows s s' where
  slots : ∀ index id : ℕ, s.slots[index]? = some (some id) → s'.slots[index]? = some (some id)

variable {s : State}

theorem Sound.stays (h : Sound s) : Follows s s :=
  ⟨h, fun _ record found => ⟨record, found, rfl, fun retired => retired⟩, rfl⟩

theorem Sound.still (h : Sound s) : Moves s s := ⟨h.stays, fun _ _ held => held⟩

theorem Follows.trans {s' s'' : State} (first : Follows s s') (second : Follows s' s'') :
    Follows s s'' where
  sound := second.sound
  records := by
    intro id record found
    obtain ⟨middle, atMiddle, request, retired⟩ := first.records id record found
    obtain ⟨last, atLast, request', retired'⟩ := second.records id middle atMiddle
    exact ⟨last, atLast, request'.trans request, fun known => retired' (retired known)⟩
  capacity := second.capacity.trans first.capacity

theorem Moves.trans {s' s'' : State} (first : Moves s s') (second : Moves s' s'') : Moves s s'' :=
  ⟨first.toFollows.trans second.toFollows,
    fun index id held => second.slots index id (first.slots index id held)⟩

theorem sound_initial (capacity : ℕ) : Sound { capacity } where
  made := by simp
  beyond := by
    intro index id at_index
    have none_there := List.mem_of_getElem? at_index
    simp at none_there
  placed := by simp
  active := by simp
  unique := by simp
  retired := by simp
  dispatched := by simp
  once := by simp
  borrowed := by simp
  calling := by simp
  reclaiming := by simp

section Changes

variable {s : State}

@[simp] theorem State.records_alter (f : ℕ → Record → Record) (id : ℕ) :
    (s.alter f).records id = (s.records id).map (f id) := rfl

theorem State.records_change (id : ℕ) (f : Record → Record) (other : ℕ) :
    (s.change id f).records other =
      (s.records other).map fun record => if other = id then f record else record := rfl

theorem State.records_retire (ids : List ℕ) (id : ℕ) : (s.retire ids).records id =
      (s.records id).map fun record => if id ∈ ids then retireRecord record else record := rfl

@[simp] theorem State.calls_change (id : ℕ) (f : Record → Record) :
    (s.change id f).calls = s.calls := rfl

/-- A change that undoes nothing: a record that may be destroyed stays so. -/
structure Keeps (record changed : Record) : Prop where
  request : changed.request = record.request
  attempted : record.attempted → changed.attempted
  retired : record.retired → changed.retired
  unused : Unused record → Unused changed

/-- A change that grants nothing either. -/
structure KeepsGrants (record changed : Record) : Prop extends Keeps record changed where
  active : changed.active → record.active ∧ changed.root = record.root ∧
    (record.retired = false → changed.retired = false) ∧
    (record.running = false → changed.running = false)

variable {record : Record}

/-- Neither a lease nor a factory matters. -/
theorem KeepsGrants.of_eq {changed : Record} (request : changed.request = record.request)
    (attempted : changed.attempted = record.attempted) (retired : changed.retired = record.retired)
    (running : changed.running = record.running) (borrowers : changed.borrowers = record.borrowers)
    (active : changed.active = record.active) (root : changed.root = record.root) :
    KeepsGrants record changed where
  request := request
  attempted := attempted.trans
  retired := retired.trans
  unused := fun unused => ⟨retired.trans unused.retired, running.trans unused.settled,
    borrowers.trans unused.returned⟩
  active := fun granted => ⟨active.symm.trans granted, root, retired.trans, running.trans⟩

theorem KeepsGrants.same (record : Record) : KeepsGrants record record :=
  .of_eq rfl rfl rfl rfl rfl rfl rfl

theorem keepsGrants_retire (record : Record) : KeepsGrants record (retireRecord record) :=
  ⟨⟨rfl, fun known => known, fun _ => rfl, fun unused => ⟨rfl, unused.settled, unused.returned⟩⟩,
    fun active => absurd active (by simp [retireRecord])⟩

variable {f : ℕ → Record → Record} {calls : ℕ → Option Phase}

theorem Sound.alterWith (h : Sound s) {borrows : List ℕ}
    (keeps : ∀ id record, s.records id = some record → Keeps record (f id record))
    (active : ∀ id record, s.records id = some record → (f id record).active →
      Granted s id (f id record))
    (unique : ∀ id record other rival, s.records id = some record →
      s.records other = some rival → (f id record).active → (f other rival).active →
      record.request.token.sessionId = rival.request.token.sessionId →
      (f id record).root = (f other rival).root → id = other)
    (borrowed : ∀ id, borrows.count id = ((s.records id).map (f id)).elim 0 Record.borrowers)
    (calling : ∀ id, calls id ≠ none →
      ∃ record, s.records id = some record ∧ (f id record).running) :
    Moves s { s.alter f with borrows := borrows, calls := calls } where
  sound := { h with
    made := by
      intro id record found
      obtain ⟨before, known, -⟩ := Option.map_eq_some_iff.1 found
      exact h.made id before known
    placed := by
      intro id record found kept
      obtain ⟨before, known, rfl⟩ := Option.map_eq_some_iff.1 found
      refine h.placed id before known ?_
      by_contra retired
      have still := (keeps id before known).retired (by simpa using retired)
      simp [still] at kept
    active := by
      intro id record found granted
      obtain ⟨before, known, rfl⟩ := Option.map_eq_some_iff.1 found
      obtain ⟨kept, settled, attempted, accepted⟩ := active id before known granted
      exact ⟨kept, settled, attempted, accepted⟩
    unique := by
      intro id record other rival found found' granted granted' session root
      obtain ⟨before, known, rfl⟩ := Option.map_eq_some_iff.1 found
      obtain ⟨before', known', rfl⟩ := Option.map_eq_some_iff.1 found'
      rw [(keeps id before known).request, (keeps other before' known').request] at session
      exact unique id before other before' known known' granted granted' session root
    retired := by
      intro id noted
      obtain ⟨record, known, retired⟩ := h.retired id noted
      exact ⟨f id record, by simp [known], (keeps id record known).retired retired⟩
    dispatched := by
      intro id request noted
      obtain ⟨record, known, attempted, rfl⟩ := h.dispatched id request noted
      have kept := keeps id record known
      exact ⟨f id record, by simp [known], kept.attempted attempted, kept.request⟩
    borrowed := borrowed
    calling := by
      intro id busy
      obtain ⟨record, known, running⟩ := calling id busy
      exact ⟨f id record, by simp [known], running⟩
    reclaiming := by
      intro slot id destroying
      obtain ⟨held, record, known, unused⟩ := h.reclaiming slot id destroying
      exact ⟨held, f id record, by simp [known], (keeps id record known).unused unused⟩ }
  records := by
    intro id record found
    have kept := keeps id record found
    exact ⟨f id record, by simp [found], kept.request, kept.retired⟩
  capacity := rfl
  slots := fun _ _ held => held

section

variable (h : Sound s)
  (keeps : ∀ id record, s.records id = some record → KeepsGrants record (f id record))

include h keeps

/-- A change that grants nothing leaves the active records among themselves. -/
theorem Sound.alterKept {borrows : List ℕ}
    (borrowed : ∀ id, borrows.count id = ((s.records id).map (f id)).elim 0 Record.borrowers)
    (calling : ∀ id, calls id ≠ none →
      ∃ record, s.records id = some record ∧ (f id record).running) :
    Moves s { s.alter f with borrows := borrows, calls := calls } := by
  refine h.alterWith (fun id record found => (keeps id record found).toKeeps) ?_ ?_ borrowed calling
  · intro id record found granted
    have kept := keeps id record found
    obtain ⟨active, -, unretired, settled⟩ := kept.active granted
    have before := h.active id record found active
    obtain ⟨scope, accepted⟩ := before.accepted
    exact ⟨unretired before.kept, settled before.settled, kept.attempted before.attempted,
      scope, by rw [kept.request]; exact accepted⟩
  · intro id record other rival found found' granted granted' session root
    obtain ⟨active, sameRoot, -⟩ := (keeps id record found).active granted
    obtain ⟨active', sameRoot', -⟩ := (keeps other rival found').active granted'
    rw [sameRoot, sameRoot'] at root
    exact h.unique id record other rival found found' active active' session root

theorem Sound.alter (borrowers : ∀ id record, s.records id = some record →
      (f id record).borrowers = record.borrowers)
    (running : ∀ id record, s.records id = some record →
      (f id record).running = record.running) :
    Moves s (s.alter f) := by
  refine h.alterKept keeps ?_ ?_
  · intro id
    rw [h.borrowed id]
    cases known : s.records id with
    | none => rfl
    | some record => exact (borrowers id record known).symm
  · intro id busy
    obtain ⟨record, known, run⟩ := h.calling id busy
    exact ⟨record, known, (running id record known).trans run⟩

end

variable {id : ℕ}

section

variable (h : Sound s)

include h

theorem Sound.change {f : Record → Record}
    (keeps : ∀ record, s.records id = some record → KeepsGrants record (f record))
    (borrowers : ∀ record, (f record).borrowers = record.borrowers)
    (running : ∀ record, (f record).running = record.running) : Moves s (s.change id f) := by
  refine h.alter ?_ ?_ ?_
  · intro other record found
    by_cases same : other = id
    · subst same
      simpa using keeps record found
    · simpa [same] using KeepsGrants.same record
  · intro other record _
    split
    · exact borrowers record
    · rfl
  · intro other record _
    split
    · exact running record
    · rfl

/-- Events go to the end of the history, and a call is dispatched once only. -/
theorem Sound.note {events : List Event} (retired : ∀ id, Event.retired id ∈ events →
      ∃ record, s.records id = some record ∧ record.retired)
    (dispatched : ∀ id request, Event.dispatched id request ∈ events →
      ∃ record, s.records id = some record ∧ record.attempted ∧ record.request = request)
    (once : ((s.history ++ events).filterMap dispatchedId).Nodup) :
    Moves s { s with history := s.history ++ events } where
  sound := { h with
    active := by
      intro id record found granted
      have before := h.active id record found granted
      obtain ⟨scope, inScope, opened, held, noted⟩ := before.accepted
      exact ⟨before.kept, before.settled, before.attempted, scope, inScope, opened, held,
        List.mem_append_left events noted⟩
    retired := by
      intro id noted
      rcases List.mem_append.1 noted with earlier | now
      · exact h.retired id earlier
      · exact retired id now
    dispatched := by
      intro id request noted
      rcases List.mem_append.1 noted with earlier | now
      · exact h.dispatched id request earlier
      · exact dispatched id request now
    once := once }
  records := fun _ record found => ⟨record, found, rfl, fun known => known⟩
  capacity := rfl
  slots := fun _ _ held => held

theorem Sound.retire (ids : List ℕ) : Moves s (s.retire ids) := by
  have altered : Moves s (s.alter fun id record =>
      if id ∈ ids then retireRecord record else record) := by
    refine h.alter ?_ ?_ ?_
    · intro id record _
      split
      · exact keepsGrants_retire record
      · exact KeepsGrants.same record
    · intro id record _
      split <;> rfl
    · intro id record _
      split <;> rfl
  refine altered.trans (altered.sound.note ?_ ?_ ?_)
  · intro id noted
    obtain ⟨_, among, ⟨⟩⟩ := List.mem_map.1 noted
    obtain ⟨member, known⟩ := List.mem_filter.1 among
    obtain ⟨record, found⟩ := Option.isSome_iff_exists.1 known
    exact ⟨retireRecord record, by simp [found, member], rfl⟩
  · intro id request noted
    simp at noted
  · have silent : ((ids.filter fun id => (s.records id).isSome).map Event.retired).filterMap
        dispatchedId = [] := by
      rw [List.filterMap_eq_nil_iff]
      intro event noted
      obtain ⟨id, -, rfl⟩ := List.mem_map.1 noted
      rfl
    rw [List.filterMap_append, silent, List.append_nil]
    exact altered.sound.once

theorem Sound.discard (id : ℕ) : Moves s (s.discard id) := h.retire [id]

/-- A borrow is taken only from a record that is not retired. -/
theorem Sound.borrow (found : s.records id = some record)
    (kept : record.retired = false) : Moves s (s.borrow id) := by
  refine h.alterKept ?_ ?_ ?_
  · intro other taken known
    by_cases same : other = id
    · subst same
      obtain rfl : record = taken := by simpa [found] using known
      simp only [if_true]
      exact ⟨⟨rfl, fun known => known, fun known => known,
        fun unused => absurd unused.retired (by simp [kept])⟩,
        fun active => ⟨active, rfl, fun known => known, fun known => known⟩⟩
    · simpa [same] using KeepsGrants.same taken
  · intro other
    rw [List.count_cons, h.borrowed other]
    by_cases same : other = id
    · subst same
      simp [found]
    · have differs : ¬ id = other := fun equal => same equal.symm
      cases known : s.records other with
      | none => simp [differs]
      | some => simp [same, differs]
  · intro other busy
    obtain ⟨taken, known, running⟩ := h.calling other busy
    refine ⟨taken, known, ?_⟩
    split <;> exact running

theorem Sound.release (id : ℕ) : Moves s (s.release id) := by
  unfold State.release
  split
  next taken =>
    refine h.alterKept ?_ ?_ ?_
    · intro other record _
      by_cases same : other = id
      · subst same
        simp only [if_true]
        exact ⟨⟨rfl, fun known => known, fun known => known, fun unused =>
          ⟨unused.retired, unused.settled, by simp [unused.returned]⟩⟩,
          fun active => ⟨active, rfl, fun known => known, fun known => known⟩⟩
      · simpa [same] using KeepsGrants.same record
    · intro other
      rw [List.count_erase, h.borrowed other]
      by_cases same : other = id
      · subst same
        cases s.records other <;> simp
      · have differs : ¬ id = other := fun equal => same equal.symm
        cases s.records other <;> simp [same, differs]
    · intro other busy
      obtain ⟨record, known, running⟩ := h.calling other busy
      refine ⟨record, known, ?_⟩
      split <;> exact running
  next => exact h.still

/-- A new scope comes when nothing is active. -/
theorem Sound.rescope (idle : ∀ id record, s.records id = some record → record.active = false)
    (scope : Option Scope) (lastEpoch : ℕ) (closed : Bool) :
    Moves s { s with scope := scope, lastEpoch := lastEpoch, closed := closed } where
  sound := { h with
    active := by
      intro id record found granted
      simp [idle id record found] at granted }
  records := fun _ record found => ⟨record, found, rfl, fun known => known⟩
  capacity := rfl
  slots := fun _ _ held => held

theorem Sound.remember {reclaimer : Reclaimer}
    {accepted : Finset ℕ} (calling : ∀ id, calls id ≠ none → s.calls id ≠ none)
    (reclaiming : ∀ slot id, reclaimer = .destroying slot id →
      s.slots[slot]? = some (some id) ∧ ∃ record, s.records id = some record ∧ Unused record) :
    Moves s { s with calls := calls, reclaimer := reclaimer, accepted := accepted } where
  sound := { h with
    active := by
      intro other record found granted
      obtain ⟨kept, settled, attempted, accepted⟩ := h.active other record found granted
      exact ⟨kept, settled, attempted, accepted⟩
    calling := fun id busy => h.calling id (calling id busy)
    reclaiming := reclaiming }
  records := fun _ record found => ⟨record, found, rfl, fun known => known⟩
  capacity := rfl
  slots := fun _ _ held => held

theorem Sound.setCall (busy : s.calls id ≠ none) (phase : Phase) :
    Moves s (s.setCall id (some phase)) := by
  refine h.remember ?_ h.reclaiming
  intro other calls
  by_cases same : other = id
  · subst same
    exact busy
  · simpa [same] using calls

theorem Sound.setReclaimer {reclaimer : Reclaimer}
    (reclaiming : ∀ slot id, reclaimer = .destroying slot id →
      s.slots[slot]? = some (some id) ∧ ∃ record, s.records id = some record ∧ Unused record) :
    Moves s { s with reclaimer := reclaimer } := h.remember (fun _ busy => busy) reclaiming

theorem Sound.setAccepted (accepted : Finset ℕ) :
    Moves s { s with accepted := accepted } := h.remember (fun _ busy => busy) h.reclaiming

end

theorem State.mem_occupied :
    (id, record) ∈ s.occupied ↔ some id ∈ s.slots ∧ s.records id = some record := by
  unfold State.occupied
  rw [List.mem_filterMap]
  constructor
  · rintro ⟨slot, held, found⟩
    cases slot with
    | none => simp at found
    | some =>
      simp only [Option.bind_some, Option.map_eq_some_iff, Prod.mk.injEq] at found
      obtain ⟨_, known, rfl, rfl⟩ := found
      exact ⟨held, known⟩
  · rintro ⟨held, found⟩
    exact ⟨some id, held, by simp [found]⟩

theorem Sound.active_occupied (h : Sound s)
    (found : s.records id = some record) (active : record.active) :
    (id, record) ∈ s.occupied :=
  State.mem_occupied.2 ⟨h.placed id record found (h.active id record found active).kept, found⟩

theorem Sound.retire_idle (h : Sound s) {ids : List ℕ}
    (all : ∀ id record, (id, record) ∈ s.occupied → record.active → id ∈ ids) :
    ∀ id record, (s.retire ids).records id = some record → record.active = false := by
  intro id record found
  rw [State.records_retire] at found
  obtain ⟨before, known, rfl⟩ := Option.map_eq_some_iff.1 found
  by_cases among : id ∈ ids
  · simp [among, retireRecord]
  · rw [if_neg among]
    by_contra active
    rw [Bool.not_eq_false] at active
    exact among (all id before (h.active_occupied known active) active)

end Changes

end GrantRegistry
