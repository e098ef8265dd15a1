import AiForge.LocalSource

/-! # The registry of folder grants

The registry is shared by its owner, by the threads that work on the grants and by the thread
that reclaims slots. Each section under its lock is one step, and what a party remembers between
two of its sections is part of the state. Records outlive their slots: a reservation or a borrow
may still point to one. -/
namespace GrantRegistry

open EvidenceContext hiding LocalSourceError LocalSourceErrorCode
open Content LocalSource

def maximumCapacity : ℕ := 16

structure Record where
  request : LocalFolderGrantRequest
  factory : Bool := true
  physical : Option LocalSourceLease := none
  root : Option LocalRootIdentity := none
  borrowers : ℕ := 0
  (attempted running active retired destroying : Bool := false)

structure Scope where
  session : SessionId
  epoch : ℕ

/-- The token was made in the scope. -/
def Scope.holds (scope : Scope) (token : LocalFolderGrantToken) : Bool :=
  scope.session == token.sessionId && scope.epoch == token.sessionEpoch

structure LocalContextGrant where
  sessionId : SessionId
  root : LocalRootIdentity
  leaseGeneration : ℕ
  reader : Option LocalSourceLease

def failure (code : LocalSourceErrorCode) (message : String) : LocalSourceError := ⟨code, message⟩

/-- Where a dispatched call of a factory stands. -/
inductive Phase where
  | invoking
  | discarding (result : LocalFolderGrantResult)
  | staging (result : LocalFolderGrantResult)
  | finishing (failed : Bool)

/-- What the reclaimer destroys while it does not hold the lock. -/
inductive Reclaimer where
  | idle
  | droppingFactory (id : ℕ)
  | destroying (slot id : ℕ)

/-- What happened to the records so far. -/
inductive Event where
  | dispatched (id : ℕ) (request : LocalFolderGrantRequest)
  | accepted (id : ℕ) (scope : Scope)
  | retired (id : ℕ)

/-- Records are numbered in the order in which they were made. `accepted` belongs to the
reservations, `calls` to the threads and `borrows` to whoever holds a grant. -/
structure State where
  capacity : ℕ
  slots : List (Option ℕ) := List.replicate maximumCapacity none
  records : ℕ → Option Record := fun _ => none
  made : ℕ := 0
  scope : Option Scope := none
  (lastEpoch lastRequest lastGeneration : ℕ := 0)
  closed : Bool := false
  accepted : Finset ℕ := ∅
  calls : ℕ → Option Phase := fun _ => none
  borrows : List ℕ := []
  reclaimer : Reclaimer := .idle
  history : List Event := []

def retireRecord (record : Record) : Record := { record with retired := true, active := false }

def resolved (record : Record) (root : LocalRootIdentity) : LocalContextGrant :=
  ⟨record.request.token.sessionId, root, record.request.leaseGeneration, record.physical⟩

def internalFailure : LocalSourceError :=
  failure .internalFailure "local grant registry failed internally"

namespace State

variable (s : State)

def current (token : LocalFolderGrantToken) : Bool :=
  !s.closed && s.scope.any fun scope => scope.holds token

/-- The records that have a slot, in the order of the slots. -/
def occupied : List (ℕ × Record) :=
  s.slots.filterMap fun slot => slot.bind fun id => (s.records id).map (Prod.mk id)

def alter (f : ℕ → Record → Record) : State :=
  { s with records := fun id => (s.records id).map (f id) }

def change (id : ℕ) (f : Record → Record) : State :=
  s.alter fun other record => if other = id then f record else record

def retire (ids : List ℕ) : State :=
  { s.alter (fun id record => if id ∈ ids then retireRecord record else record) with
    history := s.history ++ (ids.filter fun id => (s.records id).isSome).map .retired }

def setCall (id : ℕ) (phase : Option Phase) : State :=
  { s with calls := Function.update s.calls id phase }

def borrow (id : ℕ) : State :=
  { s.change id (fun record => { record with borrowers := record.borrowers + 1 }) with
    borrows := id :: s.borrows }

def activateSession (session : SessionId) (epoch : ℕ) : Except LocalSourceError Unit × State :=
  if s.closed ∨ epoch = 0 ∨ epoch ≤ s.lastEpoch then
    (.error (failure .staleLease "local session epoch is stale"), s)
  else (.ok (), { s.retire (s.occupied.map Prod.fst) with
    scope := some ⟨session, epoch⟩
    lastEpoch := epoch })

/-- `pinned` says whether there is a factory that guarantees pinned sources. -/
def reserve (request : LocalFolderGrantRequest) (pinned : Bool) :
    Except LocalSourceError ℕ × State :=
  if (validateLocalFolderGrantRequest request).isOk = false ∨ pinned = false then
    (.error (failure .invalidRequest "local folder reservation is invalid"), s)
  else if s.current request.token = false ∨ request.token.requestId ≤ s.lastRequest ∨
      request.leaseGeneration ≤ s.lastGeneration then
    (.error (failure .staleLease "local folder reservation identity is stale"), s)
  else match (s.slots.take s.capacity).findIdx? Option.isNone with
    | none => (.error (failure .resourceExhausted "local grant capacity remains occupied"), s)
    | some free => (.ok s.made, { s with
        slots := s.slots.set free (some s.made)
        records := Function.update s.records s.made (some { request })
        made := s.made + 1
        lastRequest := request.token.requestId
        lastGeneration := request.leaseGeneration })

def grants (session : SessionId) (root : LocalRootIdentity) (record : Record) : Bool :=
  record.active && !record.retired && s.current record.request.token &&
    record.request.token.sessionId == session && record.root == some root

/-- `allocated` says whether a borrow finds memory. -/
def resolve (session : SessionId) (root : LocalRootIdentity) (stopped allocated : Bool) :
    Except LocalSourceError (Option LocalContextGrant) × State :=
  if stopped then (.error (failure .cancelled "local grant lookup cancelled"), s)
  else if (Local.validateLocalRootIdentity root).isOk = false then
    (.error (failure .invalidRequest "local root identity is invalid"), s)
  else match s.occupied.find? fun slot => s.grants session root slot.2 with
    | none => (.ok none, s)
    | some (id, record) =>
      if allocated then (.ok (some (resolved record root)), s.borrow id)
      else (.error internalFailure, s)

def revoke (session : SessionId) (root : LocalRootIdentity) (leaseGeneration : ℕ) :
    Except LocalSourceError Unit × State :=
  if (Local.validateLocalRootIdentity root).isOk = false ∨ leaseGeneration = 0 then
    (.error (failure .invalidRequest "local grant revocation is invalid"), s)
  else match s.occupied.find? fun slot => slot.2.active && !slot.2.retired &&
      slot.2.request.token.sessionId == session && slot.2.root == some root &&
      slot.2.request.leaseGeneration == leaseGeneration with
    | some (id, _) => (.ok (), s.retire [id])
    | none => (.error (failure .staleLease "local grant is no longer active"), s)

def invalidateSession (session : SessionId) : State :=
  let owned := s.occupied.filter fun slot => slot.2.request.token.sessionId = session
  { s.retire (owned.map Prod.fst) with
    scope := if s.scope.any (fun scope => scope.session == session) then none else s.scope }

/-- The owner goes away; the reclaimer goes on until every slot is free. -/
def close : State :=
  { s.retire (s.occupied.map Prod.fst) with closed := true, scope := none }

def occupiedSlots : ℕ := s.slots.countP Option.isSome

/-- Another active record of the session has the root. -/
def duplicateRoot (id : ℕ) (record : Record) : Bool :=
  s.occupied.any fun slot => slot.1 != id && slot.2.active && !slot.2.retired &&
    slot.2.request.token.sessionId == record.request.token.sessionId &&
    slot.2.root == record.root

def acceptable (id : ℕ) (record : Record) (result : LocalFolderGrantResult) : Bool :=
  decide (id ∉ s.accepted) && !record.retired && !record.running && record.attempted &&
    record.physical.isSome && record.root.isSome && s.current result.token &&
    result.token == record.request.token && some result.root == record.root &&
    result.lease == record.physical && !s.duplicateRoot id record

def discard (id : ℕ) : State := s.retire [id]

/-- Whatever finds no memory, an answer or a borrow, discards the record. -/
def accept (id : ℕ) (result : LocalFolderGrantResult) (allocated : Bool) :
    Except LocalSourceError LocalContextGrant × State :=
  match s.records id with
  | none => (.error internalFailure, s)
  | some record =>
    if allocated = false then (.error internalFailure, s.discard id)
    else if s.acceptable id record result = false then
      (.error (failure .staleLease "local folder grant cannot be accepted"),
        if id ∈ s.accepted then s else s.discard id)
    else (.ok (resolved record result.root),
      { (s.borrow id).change id (fun record => { record with active := true }) with
        accepted := insert id s.accepted
        history := s.history ++ (s.scope.map (Event.accepted id)).toList })

/-- A reservation that goes away before it was accepted discards its record. -/
def drop (id : ℕ) : State := if id ∈ s.accepted then s else s.discard id

/-- A call of the producer begins, with whatever request it was called. -/
def dispatch (id : ℕ) (request : LocalFolderGrantRequest) : State :=
  match s.records id with
  | none => s
  | some record =>
    if record.attempted ∨ record.retired ∨ s.current request.token = false ∨
        request ≠ record.request then s
    else { (s.change id fun record => { record with attempted := true, running := true }).setCall
        id (some .invoking) with
      history := s.history ++ [.dispatched id request] }

/-- The factory answers outside of the lock: with nothing when it failed or was not called. -/
def answer (id : ℕ) (result : Option LocalFolderGrantResult) (stopped : Bool) : State :=
  match s.calls id with
  | some .invoking => s.setCall id (some (match result with
      | none => .finishing true
      | some result => if stopped then .discarding result else .staging result))
  | _ => s

/-- A call that was stopped discards its record before it stages the result. -/
def discardCall (id : ℕ) : State :=
  match s.calls id with
  | some (.discarding result) => (s.discard id).setCall id (some (.staging result))
  | _ => s

def stageResult (id : ℕ) (allocated : Bool) : State :=
  match s.calls id, s.records id with
  | some (.staging result), some record =>
    let staged := s.change id fun record => { record with physical := result.lease }
    if matchesGrant record.request result = false ∨ record.retired ∨
        s.current result.token = false then
      (staged.retire [id]).setCall id (some (.finishing true))
    else
      let rooted := staged.change id fun record => { record with root := some result.root }
      if allocated then (rooted.borrow id).setCall id (some (.finishing false))
      else rooted.setCall id (some (.finishing true))
  | _, _ => s

def finish (id : ℕ) : State :=
  match s.calls id with
  | some (.finishing failed) =>
    let settled := if failed then s.retire [id] else s
    (settled.change id fun record => { record with running := false }).setCall id none
  | _ => s

def release (id : ℕ) : State :=
  if id ∈ s.borrows then
    { s.change id (fun record => { record with borrowers := record.borrowers - 1 }) with
      borrows := s.borrows.erase id }
  else s

/-- `shared` names the records whose lease has an owner beside the record. -/
def reclaimable (shared : List ℕ) (id : ℕ) (record : Record) : Bool :=
  record.retired && !record.running && !record.destroying &&
    (record.factory || (record.borrowers == 0 && (record.physical.isNone || !shared.contains id)))

def reclaimSlot (shared : List ℕ) : Option (ℕ × ℕ × Record) :=
  s.slots.zipIdx.findSome? fun (slot, index) =>
    slot.bind fun id => (s.records id).bind fun record =>
      if reclaimable shared id record then some (index, id, record) else none

/-- The reclaimer drops the factory first and destroys the lease in a later pass. -/
def reclaim (shared : List ℕ) : State :=
  match s.reclaimer, s.reclaimSlot shared with
  | .idle, some (slot, id, record) =>
    if record.factory then
      { s.change id (fun record => { record with factory := false, destroying := true }) with
        reclaimer := .droppingFactory id }
    else
      { s.change id (fun record => { record with destroying := true, physical := none }) with
        reclaimer := .destroying slot id }
  | _, _ => s

/-- The reclaimer comes back to the lock. -/
def reclaimed : State :=
  match s.reclaimer with
  | .idle => s
  | .droppingFactory id =>
    { s.change id (fun record => { record with destroying := false }) with reclaimer := .idle }
  | .destroying slot _ => { s with slots := s.slots.set slot none, reclaimer := .idle }

end State

inductive Act where
  | reserve (request : LocalFolderGrantRequest) (pinned : Bool)
  | dispatch (id : ℕ) (request : LocalFolderGrantRequest)
  | answer (id : ℕ) (result : Option LocalFolderGrantResult) (stopped : Bool)
  | discardCall (id : ℕ)
  | stageResult (id : ℕ) (allocated : Bool)
  | finish (id : ℕ)
  | accept (id : ℕ) (result : LocalFolderGrantResult) (allocated : Bool)
  | drop (id : ℕ)
  | resolve (session : SessionId) (root : LocalRootIdentity) (stopped allocated : Bool)
  | revoke (session : SessionId) (root : LocalRootIdentity) (leaseGeneration : ℕ)
  | activateSession (session : SessionId) (epoch : ℕ)
  | invalidateSession (session : SessionId)
  | close
  | release (id : ℕ)
  | reclaim (shared : List ℕ)
  | reclaimed
  deriving DecidableEq

def next (s : State) : Act → State
  | .reserve request pinned => (s.reserve request pinned).2
  | .dispatch id request => s.dispatch id request
  | .answer id result stopped => s.answer id result stopped
  | .discardCall id => s.discardCall id
  | .stageResult id allocated => s.stageResult id allocated
  | .finish id => s.finish id
  | .accept id result allocated => (s.accept id result allocated).2
  | .drop id => s.drop id
  | .resolve session root stopped allocated => (s.resolve session root stopped allocated).2
  | .revoke session root leaseGeneration => (s.revoke session root leaseGeneration).2
  | .activateSession session epoch => (s.activateSession session epoch).2
  | .invalidateSession session => s.invalidateSession session
  | .close => s.close
  | .release id => s.release id
  | .reclaim shared => s.reclaim shared
  | .reclaimed => s.reclaimed

def run (capacity : ℕ) (acts : List Act) : State := acts.foldl next { capacity }

end GrantRegistry
