import AiForge.EventProjection
import AiForge.Events

/-! # Session event log

The log of one session. Its fields carry what is checked of every event that is appended: positive
sequence numbers that increase, positive schema versions and event identities that occur once. -/
namespace EventLog

open Content Events

/-- What the envelope checks shared by the log and its projections remember. -/
structure Envelope where
  eventIds : Finset EventId := ∅
  lastSequence : ℕ := 0

def Envelope.next (s : Envelope) (event : RunEvent) : Envelope :=
  ⟨insert event.metadata.eventId s.eventIds, event.metadata.sequence⟩

/-- An event whose envelope is fresh after everything recorded so far. -/
def Envelope.Fresh (s : Envelope) (event : RunEvent) : Prop :=
  event.metadata.sequence ≠ 0 ∧ event.metadata.schemaVersion ≠ 0 ∧
    event.metadata.eventId ∉ s.eventIds ∧ s.lastSequence < event.metadata.sequence

instance (s : Envelope) (event : RunEvent) : Decidable (s.Fresh event) :=
  inferInstanceAs (Decidable (_ ∧ _ ∧ _ ∧ _))

/-- A stream whose envelopes are fresh one after the other. -/
def Envelope.FreshStream : Envelope → List RunEvent → Prop
  | _, [] => True
  | s, event :: events => s.Fresh event ∧ FreshStream (s.next event) events

instance Envelope.decidableFreshStream :
    (s : Envelope) → (events : List RunEvent) → Decidable (s.FreshStream events)
  | _, [] => isTrue trivial
  | s, event :: events =>
    have := Envelope.decidableFreshStream (s.next event) events
    inferInstanceAs (Decidable (_ ∧ _))

def Envelope.after (s : Envelope) (events : List RunEvent) : Envelope :=
  events.foldl Envelope.next s

structure SessionEventLog where
  events : List RunEvent
  fresh : Envelope.FreshStream {} events

def SessionEventLog.envelope (log : SessionEventLog) : Envelope := Envelope.after {} log.events

end EventLog
