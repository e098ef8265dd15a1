import AiForge.Events
import AiForge.SortedBy
import AiForge.Staged

/-! # Session store

Sessions and their events as rows of one database. A call first checks and encodes its own
arguments and then runs one transaction, which SQLite serializes and which leaves nothing
behind unless it commits. How payloads are written and read is left to a codec. -/
namespace SessionStore

open Content Events SafeText SortedBy Staged

inductive SessionStoreErrorCode where
  | invalidArgument | notFound | alreadyExists | conflict | contention | corrupt
  | unsupportedVersion | resourceExhausted | permissionDenied | ioFailure | cancelled
  | internalFailure
  deriving DecidableEq

structure SessionStoreError where
  code : SessionStoreErrorCode
  message : String
  retryable : Bool := false
  deriving DecidableEq

structure SessionStoreLimits where
  maximumBatchEvents : ℕ := 4096
  maximumPayloadBytes : ℕ := 8 * 1024 * 1024
  maximumReplayEvents : ℕ := 1000000
  maximumReplayBytes : ℕ := 256 * 1024 * 1024
  busyTimeout : ℤ := 250

def validLimits (limits : SessionStoreLimits) : Bool :=
  limits.maximumBatchEvents != 0 && limits.maximumPayloadBytes != 0 &&
    limits.maximumReplayEvents != 0 && limits.maximumReplayBytes != 0 &&
    0 < limits.busyTimeout && limits.busyTimeout ≤ 2 ^ 31 - 1

def hasControlCharacter (value : Bytes) : Bool := value.any fun c => c < 0x20 || c == 0x7f

/-- `Id::from`. -/
def validId (value : String) : Bool :=
  !(bytesOf value).isEmpty && (bytesOf value).length ≤ 128 && !hasControlCharacter (bytesOf value)

/-- What the types of an envelope guarantee: checked identifiers and a 32-bit version. -/
def envelopeOk (metadata : EventMetadata) : Bool :=
  validId metadata.eventId && validId metadata.runId && metadata.causedByEventId.all validId &&
    metadata.parentRunId.all validId && metadata.invocationId.all validId &&
    metadata.schemaVersion < 2 ^ 32

structure Event (P : Type) where
  metadata : EventMetadata
  payload : P
  envelope_ok : envelopeOk metadata

structure EncodedPayload where
  (type document : Bytes)
  deriving DecidableEq

/-- `write` is the encoder behind the check of the type, `read` the decoding of a stored
document with the comparison of the re-encoded one, and `jsonValid` SQLite's `json_valid`. -/
structure Codec (P : Type) where
  payloadType : P → Bytes
  write : P → ℕ → Except SessionStoreError Bytes
  read : Bytes → ℕ → Bytes → Except SessionStoreError P
  jsonValid : Bytes → Bool

def validType (type : Bytes) : Bool :=
  !type.isEmpty && type.length ≤ 256 && !hasControlCharacter type

variable {P : Type} (codec : Codec P)

def encodePayload (event : Event P) : Except SessionStoreError EncodedPayload := do
  let type := codec.payloadType event.payload
  ensure (validType type) ⟨.invalidArgument, "event payload type is invalid", false⟩
  let document ← codec.write event.payload event.metadata.schemaVersion
  return ⟨type, document⟩

structure SessionRow where
  sessionId : SessionId
  createdAt : EventTimestamp

structure EventRow where
  sessionId : SessionId
  metadata : EventMetadata
  (payloadType payloadJson : Bytes)

structure Database where
  sessions : List SessionRow := []
  events : List EventRow := []

namespace Database

def hasSession (db : Database) (session : SessionId) : Bool :=
  db.sessions.any (·.sessionId == session)

def eventsOf (db : Database) (session : SessionId) : List EventRow :=
  db.events.filter (·.sessionId == session)

/-- `SELECT ... WHERE session_id=?1 ORDER BY sequence ASC`. -/
def rows (db : Database) (session : SessionId) : List EventRow :=
  sortBy (·.metadata.sequence) (db.eventsOf session)

/-- `COALESCE(MAX(sequence),0)`. -/
def lastSequence (db : Database) (session : SessionId) : ℕ :=
  (db.eventsOf session).foldl (fun last row => max last row.metadata.sequence) 0

end Database

def constraintError : SessionStoreError :=
  ⟨.conflict, "session-store constraint rejected the operation", false⟩

def alreadyExists : SessionStoreError := ⟨.alreadyExists, "session already exists", false⟩

def insertSession (db : Database) (row : SessionRow) : Except SessionStoreError Database := do
  ensure (db.hasSession row.sessionId = false) alreadyExists
  return { db with sessions := db.sessions ++ [row] }

def insertEvent (db : Database) (row : EventRow) : Except SessionStoreError Database := do
  ensure (db.hasSession row.sessionId ∧ 0 < row.metadata.sequence ∧
      0 < row.metadata.schemaVersion ∧ codec.jsonValid row.payloadJson ∧
      (∀ other ∈ db.eventsOf row.sessionId, other.metadata.sequence ≠ row.metadata.sequence) ∧
      ∀ other ∈ db.eventsOf row.sessionId, other.metadata.eventId ≠ row.metadata.eventId)
    constraintError
  return { db with events := db.events ++ [row] }

/-- What a call meets while it runs: the answers of its looks at the stop token, and what
SQLite reports for its statements when it fails for a reason of its own. -/
structure Circumstance where
  stopRequested : ℕ → Bool
  fault : ℕ → Option SessionStoreError

def Circumstance.quiet : Circumstance := ⟨fun _ => false, fun _ => none⟩

namespace Circumstance

def cancelledError : SessionStoreError :=
  ⟨.cancelled, "session-store operation cancelled", false⟩

def poll (circumstance : Circumstance) (look : ℕ) : Except SessionStoreError Unit :=
  if circumstance.stopRequested look then .error cancelledError else .ok ()

def statement (circumstance : Circumstance) (number : ℕ) : Except SessionStoreError Unit :=
  match circumstance.fault number with
  | some error => .error error
  | none => .ok ()

end Circumstance

/-- A transaction that does not commit is rolled back. -/
def transaction {α : Type} (db : Database) (body : Except SessionStoreError (Database × α)) :
    Database × Except SessionStoreError α :=
  match body with
  | .ok (db, answer) => (db, .ok answer)
  | .error error => (db, .error error)

/-- The highest sequence and the identities of a batch so far. -/
structure Batch where
  encoded : List EncodedPayload := []
  eventIds : Finset EventId := ∅
  previousSequence : ℕ := 0

def sqliteMaximum : ℕ := 2 ^ 63 - 1

/-- One event of a batch; the two callers differ in their messages. -/
def prepareEvent (limits : SessionStoreLimits) (envelope payload : SessionStoreError)
    (batch : Batch) (event : Event P) : Except SessionStoreError Batch := do
  ensure (event.metadata.sequence ≠ 0 ∧ event.metadata.schemaVersion ≠ 0 ∧
      event.metadata.sequence ≤ sqliteMaximum ∧
      (batch.encoded ≠ [] → batch.previousSequence < event.metadata.sequence) ∧
      event.metadata.eventId ∉ batch.eventIds) envelope
  let encoded ← encodePayload codec event
  ensure (encoded.document.length ≤ limits.maximumPayloadBytes) payload
  return {
    encoded := batch.encoded ++ [encoded]
    eventIds := insert event.metadata.eventId batch.eventIds
    previousSequence := event.metadata.sequence }

def prepareInitialEvents (limits : SessionStoreLimits) (events : List (Event P)) :
    Except SessionStoreError (List EncodedPayload) := do
  ensure (events ≠ [] ∧ events.length ≤ limits.maximumBatchEvents)
    ⟨.invalidArgument,
      "initial event batch must be nonempty and within the configured limit", false⟩
  ensure ((events.head?.map (·.metadata.sequence)) = some 1)
    ⟨.invalidArgument, "initial event batch must begin at session sequence one", false⟩
  let batch ← events.foldlM (prepareEvent codec limits
    ⟨.invalidArgument, "initial event batch envelope is invalid", false⟩
    ⟨.resourceExhausted, "initial event payload exceeds the configured limit", false⟩) {}
  return batch.encoded

def prepareEvents (limits : SessionStoreLimits) (events : List (Event P)) :
    Except SessionStoreError (List EncodedPayload) := do
  let batch ← events.foldlM (prepareEvent codec limits
    ⟨.invalidArgument, "event batch envelope is invalid", false⟩
    ⟨.resourceExhausted, "event payload exceeds the configured limit", false⟩) {}
  return batch.encoded

def eventRow (session : SessionId) (event : Event P) (encoded : EncodedPayload) : EventRow :=
  ⟨session, event.metadata, encoded.type, encoded.document⟩

/-- The stop token is looked at before every row. -/
def insertRows (circumstance : Circumstance) (look number : ℕ) :
    Database → List EventRow → Except SessionStoreError Database
  | db, [] => .ok db
  | db, row :: rows => do
    circumstance.poll look
    circumstance.statement number
    let db ← insertEvent codec db row
    insertRows circumstance (look + 1) (number + 1) db rows

def storeSession (circumstance : Circumstance) (db : Database) (session : SessionRow) :
    Except SessionStoreError (Database × Unit) := do
  circumstance.statement 0
  circumstance.statement 1
  let db ← insertSession db session
  circumstance.poll 1
  circumstance.statement 2
  return (db, ())

def createSession (circumstance : Circumstance) (db : Database) (session : SessionRow) :
    Database × Except SessionStoreError Unit :=
  match circumstance.poll 0 with
  | .error error => (db, .error error)
  | .ok () => transaction db (storeSession circumstance db session)

/-- The last look at the stop token and the commit. -/
def finishRows (circumstance : Circumstance) (db : Database) (rows : List EventRow) :
    Except SessionStoreError (Database × Unit) := do
  let db ← insertRows codec circumstance 1 2 db rows
  circumstance.poll (rows.length + 1)
  circumstance.statement (rows.length + 2)
  return (db, ())

def checkInitial (limits : SessionStoreLimits) (circumstance : Circumstance)
    (events : List (Event P)) : Except SessionStoreError (List EncodedPayload) := do
  circumstance.poll 0
  prepareInitialEvents codec limits events

def storeInitial (circumstance : Circumstance) (db : Database) (session : SessionRow)
    (rows : List EventRow) : Except SessionStoreError (Database × Unit) := do
  circumstance.statement 0
  circumstance.statement 1
  let db ← insertSession db session
  finishRows codec circumstance db rows

def createSessionWithEvents (limits : SessionStoreLimits) (circumstance : Circumstance)
    (db : Database) (session : SessionRow) (initialEvents : List (Event P)) :
    Database × Except SessionStoreError Unit :=
  match checkInitial codec limits circumstance initialEvents with
  | .error error => (db, .error error)
  | .ok prepared =>
    transaction db (storeInitial codec circumstance db session
      (List.zipWith (eventRow session.sessionId) initialEvents prepared))

def checkAppend (limits : SessionStoreLimits) (circumstance : Circumstance)
    (events : List (Event P)) : Except SessionStoreError (List EncodedPayload) := do
  ensure (events ≠ [] ∧ events.length ≤ limits.maximumBatchEvents)
    ⟨.invalidArgument, "event batch must be nonempty and within the configured limit", false⟩
  circumstance.poll 0
  prepareEvents codec limits events

def storeBatch (circumstance : Circumstance) (db : Database) (session : SessionId)
    (events : List (Event P)) (rows : List EventRow) :
    Except SessionStoreError (Database × Unit) := do
  circumstance.statement 0
  circumstance.statement 1
  ensure (db.hasSession session) ⟨.notFound, "session was not found", false⟩
  ensure (∀ event ∈ events.head?, db.lastSequence session < event.metadata.sequence)
    ⟨.conflict, "event sequence does not advance the session", false⟩
  finishRows codec circumstance db rows

def appendEvents (limits : SessionStoreLimits) (circumstance : Circumstance) (db : Database)
    (session : SessionId) (events : List (Event P)) : Database × Except SessionStoreError Unit :=
  match checkAppend codec limits circumstance events with
  | .error error => (db, .error error)
  | .ok encoded =>
    transaction db (storeBatch codec circumstance db session events
      (List.zipWith (eventRow session) events encoded))

def envelopeError : SessionStoreError :=
  ⟨.corrupt, "persisted event envelope is invalid", false⟩

def orderError : SessionStoreError :=
  ⟨.corrupt, "persisted event sequence does not increase", false⟩

def identityError : SessionStoreError :=
  ⟨.corrupt, "persisted event identity is invalid", false⟩

def typeError : SessionStoreError :=
  ⟨.corrupt, "persisted event identity or type is invalid", false⟩

def eventLimitError : SessionStoreError :=
  ⟨.resourceExhausted, "session replay exceeds the event limit", false⟩

def byteLimitError : SessionStoreError :=
  ⟨.resourceExhausted, "session replay exceeds the byte limit", false⟩

structure Replay (P : Type) where
  events : List (EventMetadata × P) := []
  eventIds : Finset EventId := ∅
  (previousSequence replayBytes : ℕ := 0)

def replayRow (limits : SessionStoreLimits) (replay : Replay P) (row : EventRow) :
    Except SessionStoreError (Replay P) := do
  ensure (replay.events.length < limits.maximumReplayEvents) eventLimitError
  ensure (0 < row.metadata.sequence ∧ 0 < row.metadata.schemaVersion ∧
      row.metadata.schemaVersion < 2 ^ 32) envelopeError
  ensure (replay.previousSequence < row.metadata.sequence) orderError
  ensure (validId row.metadata.eventId ∧ validId row.metadata.runId ∧
      row.metadata.causedByEventId.all validId ∧ row.metadata.parentRunId.all validId ∧
      row.metadata.invocationId.all validId) identityError
  ensure (row.metadata.eventId ∉ replay.eventIds ∧ validType row.payloadType) typeError
  ensure (row.payloadJson.length ≤ limits.maximumPayloadBytes ∧
      row.payloadJson.length ≤ limits.maximumReplayBytes - replay.replayBytes) byteLimitError
  let payload ← codec.read row.payloadType row.metadata.schemaVersion row.payloadJson
  return {
    events := replay.events ++ [(row.metadata, payload)]
    eventIds := insert row.metadata.eventId replay.eventIds
    previousSequence := row.metadata.sequence
    replayBytes := replay.replayBytes + row.payloadJson.length }

def replayRows (limits : SessionStoreLimits) (circumstance : Circumstance) (number : ℕ) :
    Replay P → List EventRow → Except SessionStoreError (Replay P)
  | replay, [] => do
    circumstance.poll number
    return replay
  | replay, row :: rows => do
    circumstance.poll number
    circumstance.statement (number + 1)
    let replay ← replayRow codec limits replay row
    replayRows limits circumstance (number + 1) replay rows

/-- A replay reads one snapshot and changes nothing. -/
def replayEvents (limits : SessionStoreLimits) (circumstance : Circumstance) (db : Database)
    (session : SessionId) : Except SessionStoreError (List (EventMetadata × P)) := do
  circumstance.poll 0
  circumstance.statement 0
  circumstance.statement 1
  ensure (db.hasSession session) ⟨.notFound, "session was not found", false⟩
  let replay ← replayRows codec limits circumstance 1 {} (db.rows session)
  circumstance.statement ((db.rows session).length + 2)
  return replay.events

inductive Request (P : Type) where
  | createSession (session : SessionRow)
  | createSessionWithEvents (session : SessionRow) (events : List (Event P))
  | appendEvents (session : SessionId) (events : List (Event P))
  | replayEvents (session : SessionId)

/-- Every client brings its own limits. -/
structure Call (P : Type) where
  request : Request P
  limits : SessionStoreLimits
  circumstance : Circumstance

abbrev Answer (P : Type) := Except SessionStoreError (List (EventMetadata × P))

/-- Calls other than a replay answer without events. -/
def silent (result : Database × Except SessionStoreError Unit) : Database × Answer P :=
  (result.1, result.2.map fun _ => [])

def Call.perform (call : Call P) (db : Database) : Database × Answer P :=
  match call.request with
  | .createSession session => silent (createSession call.circumstance db session)
  | .createSessionWithEvents session events =>
    silent (createSessionWithEvents codec call.limits call.circumstance db session events)
  | .appendEvents session events =>
    silent (appendEvents codec call.limits call.circumstance db session events)
  | .replayEvents session =>
    (db, replayEvents codec call.limits call.circumstance db session)

def Call.batch (call : Call P) (session : SessionId) : List (Event P) :=
  match call.request with
  | .createSessionWithEvents row events => if row.sessionId = session then events else []
  | .appendEvents target events => if target = session then events else []
  | _ => []

/-- Since a call reads nothing before its transaction, any interleaving of the clients is a
sequence of calls in the order of their transactions. -/
def after : Database → List (Call P) → Database
  | db, [] => db
  | db, call :: calls => after (call.perform codec db).1 calls

/-- The events of all batches for a session that were accepted, in the order of the calls. -/
def accepted (session : SessionId) : Database → List (Call P) → List (Event P)
  | _, [] => []
  | db, call :: calls =>
    (if (call.perform codec db).2.isOk then call.batch session else []) ++
      accepted session (call.perform codec db).1 calls

end SessionStore
