import AiForge.Money
import AiForge.OpsAuthority

/-! # The ops observation broker

Executors ask for observations at an endpoint and wait. The owner serves what they asked for
with a worker, and takes what was observed when it is to be published. Both sides meet in a
mailbox under a lock; here every critical section is one step. What the clock, the worker and
the stop tokens answer are inputs of the steps. -/
namespace OpsBroker

open Content OpsEvidence OpsTarget Money Staged

inductive OpsBrokerError where
  | invalidRequest | closed | busy | staleRequest | timedOut | cancelled | sourceFailure
  | internalFailure | resourceExhausted
  deriving DecidableEq

inductive OpsObservationSourceError where
  | unavailable | authenticationFailed | trustFailed | permissionDenied | sourceChanged
  | disconnected | timedOut | cancelled | unsupported | resourceExhausted | invalidResult
  | internalFailure
  deriving DecidableEq

structure OpsBrokerFailure where
  code : OpsBrokerError := .internalFailure
  source : Option OpsObservationSourceError := none
  deriving DecidableEq

def failure (code : OpsBrokerError) : OpsBrokerFailure := { code := code }

inductive LocalSourceWorkerErrorCode where
  | invalidRequest | busy | staleRequest | internalFailure | resourceExhausted

def workerFailure : LocalSourceWorkerErrorCode → OpsBrokerFailure
  | .busy => failure .busy
  | .staleRequest => failure .staleRequest
  | .resourceExhausted => failure .resourceExhausted
  | .invalidRequest => failure .invalidRequest
  | .internalFailure => failure .internalFailure

structure OpsObservationWorkToken where
  sessionId : SessionId
  (sessionEpoch requestId : ℕ)
  observation : OpsObservationRequest
  deriving DecidableEq

/-- What the broker asks a source about itself. -/
structure OpsObservationSource where
  guaranteesBoundReadOnlyObservations : Bool
  targetBinding : OpsTargetBinding
  deriving DecidableEq

structure OpsBrokerLimits where
  maximumPending : ℕ := 2

/-- Nanoseconds of the steady clock. -/
abbrev Time := ℤ

abbrev StopToken := ℕ

/-- A receipt names its mailbox by the epoch in which that was made. -/
structure OpsObservationReceipt where
  (issuer ticket : ℕ)
  deriving DecidableEq

structure Entry where
  ticket : ℕ
  invocation : InvocationId
  request : OpsObservationRequest
  deadline : Time
  stop : StopToken
  claimed : Bool := false
  token : Option OpsObservationWorkToken := none
  result : Option OpsObservation := none
  error : Option OpsBrokerFailure := none

/-- `objects` holds every entry that was ever made, by its ticket: a call that waits keeps its
entry, also after it has left the list of the pending ones. -/
structure OpsObservationMailbox where
  session : SessionId
  capacity : ℕ
  lastTicket : ℕ := 0
  (closed failed : Bool := false)
  objects : ℕ → Option Entry := fun _ => none
  entries : List ℕ := []

namespace OpsObservationMailbox

variable (box : OpsObservationMailbox)

def pending : List Entry := box.entries.filterMap box.objects

def modify (ticket : ℕ) (change : Entry → Entry) : OpsObservationMailbox :=
  { box with objects := Function.update box.objects ticket ((box.objects ticket).map change) }

/-- The section in which `observe` enters its request. -/
def admission (invocation : InvocationId) (request : OpsObservationRequest) (deadline : Time)
    (stop : StopToken) : Except OpsBrokerFailure OpsObservationMailbox := do
  ensure (box.failed = false) (failure .internalFailure)
  ensure (box.closed = false) (failure .closed)
  ensure (request.sessionId = box.session) (failure .invalidRequest)
  ensure (box.entries.length < box.capacity) (failure .busy)
  ensure (∀ entry ∈ box.pending,
    entry.invocation ≠ invocation ∧ entry.request.requestId ≠ request.requestId)
    (failure .staleRequest)
  ensure (box.lastTicket ≠ uint64Max) (failure .resourceExhausted)
  let ticket := box.lastTicket + 1
  return { box with
    lastTicket := ticket
    objects := Function.update box.objects ticket (some {
      ticket := ticket, invocation := invocation, request := request
      deadline := deadline, stop := stop })
    entries := box.entries ++ [ticket] }

/-- The section in which `observe` wakes and answers, whatever woke it. -/
def answer (stopped : StopToken → Bool) (ticket : ℕ) (now : Time) :
    Except OpsBrokerFailure Unit × OpsObservationMailbox :=
  if box.failed then (.error (failure .internalFailure), box)
  else if box.closed then (.error (failure .closed), box)
  else
    match box.objects ticket with
    | none => (.error (failure .internalFailure), box)
    | some entry =>
      let error :=
        if stopped entry.stop then some (failure .cancelled)
        else if entry.deadline ≤ now then some (failure .timedOut)
        else entry.error
      let box := box.modify ticket fun entry => { entry with error := error }
      match error with
      | some error => (.error error, box)
      | none => (if entry.result.isSome then .ok () else .error (failure .internalFailure), box)

def withdraw (error : OpsBrokerFailure) (entry : Entry) : Entry :=
  { entry with error := some error, result := none }

def discard (ticket : ℕ) (error : OpsBrokerFailure) : OpsObservationMailbox :=
  { box.modify ticket (withdraw error) with entries := box.entries.erase ticket }

def discardAll (code : OpsBrokerError) (closeState : Bool) : OpsObservationMailbox :=
  { box with
    closed := closeState
    entries := []
    objects := fun ticket => if ticket ∈ box.entries
      then (box.objects ticket).map (withdraw (failure code)) else box.objects ticket }

/-- What an exception leaves behind: the mailbox admits and publishes nothing any more. -/
def failClosed : OpsObservationMailbox := { box with failed := true }

def store (ticket : ℕ) (observation : OpsObservation) : OpsObservationMailbox :=
  box.modify ticket fun entry =>
    if entry.error.isNone then { entry with result := some observation } else entry

end OpsObservationMailbox

/-- The checks that `observe` makes before it takes the lock, and the deadline it waits for. -/
def observeDeadline (invocation : InvocationId) (request : OpsObservationRequest)
    (now deadline : Time) (stopRequested : Bool) : Except OpsBrokerFailure Time := do
  ensure (identifier invocation ∧ (validateRecordedOpsRequest request).isOk)
    (failure .invalidRequest)
  ensure (stopRequested = false) (failure .cancelled)
  ensure (now < deadline) (failure .timedOut)
  return min deadline (now + request.limits.timeout * 1000000)

structure OpsLogConsentActivation where
  sessionId : SessionId
  active : Bool := true
  current : Option OpsObservationAuthoritySpec := none

namespace OpsLogConsentActivation

def isCurrent (activation : OpsLogConsentActivation) (spec : OpsObservationAuthoritySpec) : Bool :=
  activation.active && activation.current == some spec

def revoke (activation : OpsLogConsentActivation) : OpsLogConsentActivation :=
  { activation with
    active := false
    current := activation.current.map fun spec =>
      { spec with logs := { spec.logs with enabled := false, permittedSources := [] } } }

def revokeStale (activation : OpsLogConsentActivation) (selected : OpsObservationAuthoritySpec) :
    OpsLogConsentActivation :=
  if !activation.active || activation.current.isNone || activation.current == some selected
  then activation else activation.revoke

end OpsLogConsentActivation

def hasLogCapability (spec : OpsObservationAuthoritySpec) : Bool :=
  spec.logs.enabled || !spec.logs.permittedSources.isEmpty || spec.operations.any logsOperation

/-- `state` and the consent belong together and are both named by the epoch. -/
structure Impl where
  limits : OpsBrokerLimits
  state : Option ℕ := none
  authority : Option OpsObservationAuthority := none
  source : Option OpsObservationSource := none
  epoch : ℕ := 0
  closed : Bool := false

structure ServiceLoop where
  now : Time
  rest : List ℕ
  firstDisconnect : Option OpsBrokerFailure := none
  deriving DecidableEq

/-- Where the owner is between two critical sections. -/
inductive OwnerPc where
  | idle
  | selecting (authority : OpsObservationAuthority) (source : Option OpsObservationSource)
  | cancelling (ticket : ℕ) (invocation : InvocationId)
  | taking (receipt : OpsObservationReceipt) (invocation : InvocationId)
      (request : OpsObservationRequest) (now : Time)
  /-- An exception was caught and the mailbox is to be latched. -/
  | failing
  /-- The latch was set by `service`, which still discards everything. -/
  | clearing
  | starting (now : Time)
  | servicing (loop : ServiceLoop)
  | submitting (ticket : ℕ) (loop : ServiceLoop)
  | polling (ticket : ℕ) (loop : ServiceLoop)
  | checking (ticket : ℕ) (observation : OpsObservation) (loop : ServiceLoop)
  | storing (ticket : ℕ) (observation : OpsObservation) (loop : ServiceLoop)
  | discarding (ticket : ℕ) (error : OpsBrokerFailure) (reported : Option OpsBrokerFailure)
      (loop : ServiceLoop)
  deriving DecidableEq

/-- The broker, all mailboxes that it ever made and the calls that wait at them. -/
structure System where
  impl : Impl
  boxes : ℕ → Option OpsObservationMailbox := fun _ => none
  consents : ℕ → Option OpsLogConsentActivation := fun _ => none
  stopped : StopToken → Bool := fun _ => false
  (waiting receipts : List OpsObservationReceipt := [])
  pc : OwnerPc := .idle

def create (limits : OpsBrokerLimits) : Except OpsBrokerFailure System := do
  ensure (limits.maximumPending ≠ 0 ∧ limits.maximumPending ≤ 8) (failure .invalidRequest)
  return { impl := { limits := limits } }

namespace System

variable (s : System)

def mailbox : Option OpsObservationMailbox := s.impl.state.bind s.boxes

def update (epoch : ℕ) (change : OpsObservationMailbox → OpsObservationMailbox) : System :=
  { s with boxes := Function.update s.boxes epoch ((s.boxes epoch).map change) }

def onState (change : OpsObservationMailbox → OpsObservationMailbox) : System :=
  s.impl.state.elim s fun epoch => s.update epoch change

def onConsent (change : OpsLogConsentActivation → OpsLogConsentActivation) : System :=
  s.impl.state.elim s fun epoch =>
    { s with consents := Function.update s.consents epoch ((s.consents epoch).map change) }

def goto (pc : OwnerPc) : System := { s with pc := pc }

/-- `ops_log_consent_matches` -/
def consentMatches (spec : OpsObservationAuthoritySpec) : Bool :=
  (s.impl.state.bind s.consents).any (·.isCurrent spec)

def current (request : OpsObservationRequest) : Bool :=
  !s.impl.closed && s.mailbox.any (fun box => !box.failed && !box.closed) &&
    s.impl.authority.any fun authority => (authority.validate request).isOk &&
      (!hasLogCapability authority.specification || s.consentMatches authority.specification)

def validateSelection (next : OpsObservationAuthority) (source : Option OpsObservationSource) :
    Except OpsBrokerFailure Unit := do
  ensure (s.impl.closed = false ∧ s.mailbox.any fun box => !box.closed) (failure .closed)
  ensure (s.mailbox.all fun box => !box.failed) (failure .internalFailure)
  let spec := next.specification
  ensure ((s.mailbox.all fun box => spec.sessionId == box.session) ∧
      source.any fun source => source.guaranteesBoundReadOnlyObservations &&
        source.targetBinding == spec.target) (failure .invalidRequest)
  ensure (hasLogCapability spec → s.consentMatches spec) (failure .staleRequest)
  ensure (∀ authority ∈ s.impl.authority,
    spec.ownerId = authority.specification.ownerId ∧
      authority.specification.selectionGeneration < spec.selectionGeneration)
    (failure .staleRequest)
  ensure (∀ authority ∈ s.impl.authority,
    spec.target.targetId = authority.specification.target.targetId →
      authority.specification.logs.revision ≤ spec.logs.revision ∧
        (spec.logs ≠ authority.specification.logs →
          spec.logs.revision ≠ authority.specification.logs.revision))
    (failure .staleRequest)

def activateSession (session : SessionId) (fault : Bool) :
    Except OpsBrokerFailure ℕ × System :=
  if s.impl.closed then (.error (failure .closed), s)
  else if !identifier session then (.error (failure .invalidRequest), s)
  else if s.impl.epoch = uint64Max then (.error (failure .resourceExhausted), s)
  else
    let s := (s.onConsent OpsLogConsentActivation.revoke).onState (·.discardAll .closed true)
    -- an exception while the work of the discarded entries is cancelled
    if fault then (.error (failure .internalFailure), s)
    else
      let epoch := s.impl.epoch + 1
      (.ok epoch, { s with
        impl := { s.impl with
          epoch := epoch, state := some epoch, authority := none, source := none }
        boxes := Function.update s.boxes epoch
          (some { session := session, capacity := s.impl.limits.maximumPending })
        consents := Function.update s.consents epoch (some { sessionId := session }) })

/-- The section of `select`, after its checks. -/
def select (authority : OpsObservationAuthority) (source : Option OpsObservationSource)
    (fault : Bool) : Except OpsBrokerFailure Unit × System :=
  let s := s.onState (·.discardAll .staleRequest false)
  if fault then (.error (failure .internalFailure), s.goto .failing)
  else
    let s := s.onConsent (·.revokeStale authority.specification)
    (.ok (), { s with
      impl := { s.impl with authority := some authority, source := source }, pc := .idle })

def deactivateSession (fault : Bool) : Except OpsBrokerFailure Unit × System :=
  let s := (s.onConsent OpsLogConsentActivation.revoke).onState (·.discardAll .closed true)
  if fault then (.error (failure .internalFailure), s.goto .failing)
  else (.ok (), { s with impl := { s.impl with authority := none, source := none } })

def close (fault : Bool) : Except OpsBrokerFailure Unit × System :=
  { s with impl := { s.impl with closed := true } }.deactivateSession fault

def cancelInvocation (invocation : InvocationId) : Except OpsBrokerFailure ℕ := do
  ensure (s.impl.closed = false) (failure .closed)
  let box ← Staged.require s.mailbox (failure .staleRequest)
  Staged.require (box.entries.find? fun ticket =>
    (box.objects ticket).any fun entry => entry.invocation == invocation) (failure .staleRequest)

/-- What `take_for_publication` checks before it takes the lock. -/
def takeChecks (receipt : OpsObservationReceipt) : Except OpsBrokerFailure Unit := do
  ensure (s.impl.closed = false) (failure .closed)
  let box ← Staged.require s.mailbox (failure .closed)
  ensure (box.failed = false) (failure .internalFailure)
  ensure (s.impl.state = some receipt.issuer) (failure .staleRequest)

/-- Why an entry is no longer served or published, if it is not. -/
def rejection (entry : Entry) (now : Time) : Option OpsBrokerFailure :=
  if s.stopped entry.stop then some (failure .cancelled)
  else if entry.deadline ≤ now then some (failure .timedOut)
  else if !s.current entry.request then some (failure .staleRequest)
  else entry.error

def removed (ticket : ℕ) : System :=
  s.onState fun box => { box with entries := box.entries.erase ticket }

def takeForPublication (receipt : OpsObservationReceipt) (expectedInvocation : InvocationId)
    (expectedRequest : OpsObservationRequest) (now : Time) :
    Except OpsBrokerFailure OpsObservation × System :=
  let found := do
    let box ← s.mailbox
    let ticket ← box.entries.find? (· == receipt.ticket)
    box.objects ticket
  match found with
  | none => (.error (failure .staleRequest), s)
  | some entry =>
    if entry.invocation ≠ expectedInvocation ∨ entry.request ≠ expectedRequest then
      (.error (failure .invalidRequest), s)
    else
      match s.rejection entry now with
      | some error => (.error error, s.removed receipt.ticket)
      | none =>
        match entry.result with
        | none => (.error (failure .staleRequest), s)
        | some observation => (.ok observation, s.removed receipt.ticket)

/-! ### Service -/

/-- What `service` does before it looks at the entries, with its result if that is all. -/
def service (now : Time) : Option (Except OpsBrokerFailure Unit) × System :=
  if s.impl.closed then (some (.error (failure .closed)), s)
  else
    match s.mailbox with
    | none => (some (.ok ()), s)
    | some box =>
      if box.failed then
        (some (.error (failure .internalFailure)), s.onState (·.discardAll .internalFailure false))
      else (none, s.goto (.starting now))

/-- The section in which `service` copies the entries. -/
def startService (now : Time) : System :=
  s.goto (.servicing { now := now, rest := (s.mailbox.map (·.entries)).getD [] })

/-- The first section of `service_entry`: the entry is refused or claimed. -/
def claim (ticket : ℕ) (loop : ServiceLoop) : System :=
  match s.mailbox.bind (·.objects ticket) with
  | none => s.goto (.servicing loop)
  | some entry =>
    match s.rejection entry loop.now with
    | some error => s.goto (.discarding ticket error none loop)
    | none =>
      if entry.claimed then s.goto (.polling ticket loop)
      else (s.onState (·.modify ticket fun entry => { entry with claimed := true })).goto
        (.submitting ticket loop)

def submitEntry (ticket : ℕ) (loop : ServiceLoop)
    (identity : Except LocalSourceWorkerErrorCode ℕ)
    (submitted : Except LocalSourceWorkerErrorCode Unit) : System :=
  if s.impl.authority.isNone then
    s.goto (.discarding ticket (failure .staleRequest) none loop)
  else
    match identity with
    | .error error => s.goto (.discarding ticket (workerFailure error) none loop)
    | .ok requestId =>
      let s := s.onState (·.modify ticket fun entry => { entry with
        token := some ⟨entry.request.sessionId, s.impl.epoch, requestId, entry.request⟩ })
      match submitted with
      | .error error => s.goto (.discarding ticket (workerFailure error) none loop)
      | .ok () => s.goto (.polling ticket loop)

/-- What follows the poll of the worker, with what it answers. -/
def poll (ticket : ℕ) (loop : ServiceLoop)
    (completed : Except LocalSourceWorkerErrorCode
      (Option (Except OpsObservationSourceError OpsObservation))) : System :=
  if (s.mailbox.bind (·.objects ticket)).all fun entry => entry.token.isNone then
    s.goto (.servicing loop)
  else
    match completed with
    | .error error => s.goto (.discarding ticket (workerFailure error) none loop)
    | .ok none => s.goto (.servicing loop)
    | .ok (some result) =>
      let s := s.onState (·.modify ticket fun entry => { entry with token := none })
      match result with
      | .error error =>
        let sourceFailure : OpsBrokerFailure := ⟨.sourceFailure, some error⟩
        -- a source that is gone is reported to the owner as well
        s.goto (.discarding ticket sourceFailure
          (if error = .disconnected then some sourceFailure else none) loop)
      | .ok observation => s.goto (.checking ticket observation loop)

/-- The check of what was observed against the authority that is selected now. -/
def checkResult (ticket : ℕ) (observation : OpsObservation) (loop : ServiceLoop) : System :=
  let valid := (s.mailbox.bind (·.objects ticket)).any fun entry =>
    s.current entry.request && s.impl.authority.any fun authority =>
      (validateOpsObservation authority entry.request observation).isOk
  if valid then s.goto (.storing ticket observation loop)
  else s.goto (.discarding ticket (failure .staleRequest) none loop)

def storeResult (ticket : ℕ) (observation : OpsObservation) (loop : ServiceLoop) : System :=
  (s.onState (·.store ticket observation)).goto (.servicing loop)

def discardEntry (ticket : ℕ) (error : OpsBrokerFailure) (reported : Option OpsBrokerFailure)
    (loop : ServiceLoop) : System :=
  (s.onState (·.discard ticket error)).goto
    (.servicing { loop with firstDisconnect := loop.firstDisconnect <|> reported })

end System

/-- What happened at a mailbox and what the calls returned. -/
inductive Label where
  | admitted (receipt : OpsObservationReceipt) (invocation : InvocationId)
      (request : OpsObservationRequest)
  | observed (receipt : OpsObservationReceipt) (result : Except OpsBrokerFailure Unit)
  | activated (result : Except OpsBrokerFailure ℕ)
  | selected (result : Except OpsBrokerFailure Unit)
  | deactivated (result : Except OpsBrokerFailure Unit)
  | cancelled (invocation : InvocationId) (result : Except OpsBrokerFailure Unit)
  | taken (receipt : OpsObservationReceipt) (invocation : InvocationId)
      (request : OpsObservationRequest) (result : Except OpsBrokerFailure OpsObservation)
  | serviced (result : Except OpsBrokerFailure Unit)
  deriving DecidableEq

/-- The calls of the owner; `fault` says that one of them throws after its section. -/
inductive OwnerCall where
  | activateSession (session : SessionId) (fault : Bool)
  | select (authority : OpsObservationAuthority) (source : Option OpsObservationSource)
  | deactivateSession (fault : Bool)
  | close (fault : Bool)
  | cancelInvocation (invocation : InvocationId)
  | takeForPublication (receipt : OpsObservationReceipt) (invocation : InvocationId)
      (request : OpsObservationRequest) (now : Time)
  | service (now : Time)

/-- What the owner meets on its way from one section to the next. -/
structure Surroundings where
  fault : Bool := false
  identity : Except LocalSourceWorkerErrorCode ℕ := .error .busy
  submitted : Except LocalSourceWorkerErrorCode Unit := .ok ()
  completed : Except LocalSourceWorkerErrorCode
    (Option (Except OpsObservationSourceError OpsObservation)) := .ok none

namespace System

variable (s : System)

/-- Only endpoints make receipts, so the owner has those that were returned. -/
def Callable : OwnerCall → Prop
  | .takeForPublication receipt _ _ _ => receipt ∈ s.receipts
  | _ => True

def begin : OwnerCall → List Label × System
  | .activateSession session fault =>
    ([.activated (s.activateSession session fault).1], (s.activateSession session fault).2)
  | .select authority source =>
    match s.validateSelection authority source with
    | .error error => ([.selected (.error error)], s)
    | .ok () => ([], s.goto (.selecting authority source))
  | .deactivateSession fault =>
    ([.deactivated (s.deactivateSession fault).1], (s.deactivateSession fault).2)
  | .close fault => ([.deactivated (s.close fault).1], (s.close fault).2)
  | .cancelInvocation invocation =>
    match s.cancelInvocation invocation with
    | .error error => ([.cancelled invocation (.error error)], s)
    | .ok ticket => ([], s.goto (.cancelling ticket invocation))
  | .takeForPublication receipt invocation request now =>
    match s.takeChecks receipt with
    | .error error => ([.taken receipt invocation request (.error error)], s)
    | .ok () => ([], s.goto (.taking receipt invocation request now))
  | .service now =>
    (((s.service now).1.map Label.serviced).toList, (s.service now).2)

/-- Every exception of `service` ends in its handler, which latches the mailbox first. -/
def guarded (around : Surroundings) (next : System) : List Label × System :=
  if around.fault then ([], (s.onState (·.failClosed)).goto .clearing) else ([], next)

/-- The owner goes on with the call that it is in. -/
def advance (around : Surroundings) : List Label × System :=
  match s.pc with
  | .idle => ([], s)
  | .selecting authority source =>
    ([.selected (s.select authority source around.fault).1],
      (s.select authority source around.fault).2)
  | .cancelling ticket invocation =>
    ([.cancelled invocation (.ok ())],
      (s.onState (·.discard ticket (failure .cancelled))).goto .idle)
  | .taking receipt invocation request now =>
    ([.taken receipt invocation request (s.takeForPublication receipt invocation request now).1],
      (s.takeForPublication receipt invocation request now).2.goto .idle)
  | .failing => ([], (s.onState (·.failClosed)).goto .idle)
  | .clearing =>
    ([.serviced (.error (failure .internalFailure))],
      (s.onState (·.discardAll .internalFailure false)).goto .idle)
  | .starting now => s.guarded around (s.startService now)
  | .servicing loop =>
    match loop.rest with
    | [] => ([.serviced (loop.firstDisconnect.elim (.ok ()) .error)], s.goto .idle)
    | ticket :: rest => s.guarded around (s.claim ticket { loop with rest := rest })
  | .submitting ticket loop =>
    s.guarded around (s.submitEntry ticket loop around.identity around.submitted)
  | .polling ticket loop => s.guarded around (s.poll ticket loop around.completed)
  | .checking ticket observation loop =>
    s.guarded around (s.checkResult ticket observation loop)
  | .storing ticket observation loop => s.guarded around (s.storeResult ticket observation loop)
  | .discarding ticket error reported loop =>
    s.guarded around (s.discardEntry ticket error reported loop)

/-- A request was entered into a mailbox, and its call waits there. -/
def admitted (epoch : ℕ) (box : OpsObservationMailbox) : System :=
  { s with
    boxes := Function.update s.boxes epoch (some box)
    waiting := ⟨epoch, box.lastTicket⟩ :: s.waiting }

/-- A call has answered, with its receipt if it has a result. -/
def observed (receipt : OpsObservationReceipt)
    (answer : Except OpsBrokerFailure Unit × OpsObservationMailbox) : System :=
  { s with
    boxes := Function.update s.boxes receipt.issuer (some answer.2)
    waiting := s.waiting.erase receipt
    receipts := if answer.1.isOk then receipt :: s.receipts else s.receipts }

end System

/-- The steps of the executors, of the surroundings and of the owner. A value that `observe`
reads before it takes the lock may be older than the section; it is not tied to the state. -/
inductive Step (s : System) : List Label → System → Prop where
  | enroll {epoch : ℕ} {box next : OpsObservationMailbox} {invocation : InvocationId}
      {request : OpsObservationRequest} {now deadline bounded : Time} {stop : StopToken}
      (hbox : s.boxes epoch = some box)
      (hdeadline : observeDeadline invocation request now deadline false = .ok bounded)
      (hadmission : box.admission invocation request bounded stop = .ok next) :
      Step s [.admitted ⟨epoch, next.lastTicket⟩ invocation request] (s.admitted epoch next)
  | answer {receipt : OpsObservationReceipt} {box : OpsObservationMailbox} (now : Time)
      (hwaiting : receipt ∈ s.waiting) (hbox : s.boxes receipt.issuer = some box) :
      Step s [.observed receipt (box.answer s.stopped receipt.ticket now).1]
        (s.observed receipt (box.answer s.stopped receipt.ticket now))
  | stop (token : StopToken) :
      Step s [] { s with stopped := Function.update s.stopped token true }
  | consent (epoch : ℕ) (activation : OpsLogConsentActivation) (h : (s.consents epoch).isSome) :
      Step s [] { s with consents := Function.update s.consents epoch (some activation) }
  /-- An exception is caught, in an executor or by the owner before its section. -/
  | latch (epoch : ℕ) : Step s [] (s.update epoch (·.failClosed))
  | call (call : OwnerCall) (hpc : s.pc = .idle) (hcall : s.Callable call) :
      Step s (s.begin call).1 (s.begin call).2
  | advance (around : Surroundings) : Step s (s.advance around).1 (s.advance around).2

end OpsBroker
