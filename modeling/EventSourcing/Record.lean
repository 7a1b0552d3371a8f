import EventSourcing.Json.Reader
import EventSourcing.Message
import EventSourcing.Outcome
import EventSourcing.Time.Rfc3339

/-!
Stored events. A record is an event at a place of a stream, with its payload written out. Places
count from zero, versions from one. `Record.write` gives the JSON form and `Record.read` reads it.
-/

namespace EventSourcing

/-- What a store adds to an event of its own accord. -/
structure Stamp where
  eventId : String
  occurredAt : Instant
deriving DecidableEq, Repr

structure Record where
  eventId : String
  eventType : String
  stream : String
  position : Nat
  occurredAt : Instant
  payload : Json
  headers : Headers

namespace Record

variable {π : Type}

def version (r : Record) : Except Overflow Nat := addSize r.position 1

/-- The record of an event. Headers of the event win over the common ones. -/
def ofMessage [EventPayload π] (stamp : Stamp) (stream : String) (position : Nat)
    (e : EventMessage π) (common : Headers) : Except String Record :=
  (EventPayload.encode e.payload).map fun payload =>
    { eventId := stamp.eventId
      eventType := e.eventType
      stream := stream
      position := position
      occurredAt := stamp.occurredAt
      payload := payload
      headers := common.overlay e.headers }

/-- The records of events that follow each other from place `start + offset` on, or what the first
event that cannot be written says. The record with serial number `n` gets the stamp `stamp n`. -/
def ofMessages [EventPayload π] (stamp : Nat → Stamp) (stream : String) (common : Headers)
    (serial start : Nat) : (offset : Nat) → List (EventMessage π) → Outcome String (List Record)
  | _, [] => .ok []
  | offset, e :: rest =>
    match addSize start offset with
    | .error o => .error (.overflow o)
    | .ok position =>
      match ofMessage (stamp (serial + offset)) stream position e common with
      | .error s => .fail s
      | .ok r =>
        match ofMessages stamp stream common serial start (offset + 1) rest with
        | .error fault => .error fault
        | .ok rs => .ok (r :: rs)

def readInstant : Reader Instant
  | .text s =>
    match Rfc3339.read s with
    | .ok t => .ok t
    | .error e => .error e.message
  | j => j.wrongKind "an RFC 3339 formatted date and time string"

def readHeaders : Reader Headers
  | .object members => .ok ⟨members⟩
  | j => j.wrongKind "a map"

def fields : Reader.Fields Record :=
  (Reader.Fields.of mk)
    |>.required "event_id" Reader.text
    |>.required "event_type" Reader.text
    |>.required "stream" Reader.text
    |>.required "position" Reader.size
    |>.required "occurred_at" readInstant
    |>.required "payload" Reader.any
    |>.required "headers" readHeaders

def read : Reader Record := Reader.record "struct SerializedEvent" fields

/-- The members stand in the order of their keys. -/
def write (r : Record) : Json :=
  .object [
    ("event_id", .text r.eventId),
    ("event_type", .text r.eventType),
    ("headers", .object r.headers.members),
    ("occurred_at", .text (Rfc3339.write r.occurredAt)),
    ("payload", r.payload),
    ("position", .int r.position),
    ("stream", .text r.stream)]

end Record

end EventSourcing
