import EventSourcing.Clock
import EventSourcing.Store
import EventSourcing.Transport

/-!
The event store on a remote end. A save is one append, a load drains the feed of a stream; each
single wait is limited and may be cancelled. Failures of the transport become domain errors, and a
conflict becomes a version conflict only where a version was expected.
-/

namespace EventSourcing

structure StreamingConfig where
  limits : WaitLimits
  capacity : Nat

structure Connection (ρ : Type) where
  remote : ρ
  clock : Clock

namespace Streaming

variable {π κ ρ : Type}

/-- The domain error for a failure on a stream of which `expected` was expected. -/
def errorFor (stream : String) (expected : Option Nat) : TransportError → DomainError κ
  | .notFound => .streamNotFound stream
  | .unauthorized => .unauthorized
  | .unavailable reason => .repositoryUnavailable reason
  | .network reason => .repositoryUnavailable reason
  | .conflict reason =>
    match expected with
    | some e => .versionConflict stream e none
    | none => .unexpected (.transport (.conflict reason))
  | .status code message => .unexpected (.transport (.status code message))

/-- What a wait that ended brings, `value` if all is well. -/
def settle {α : Type} (value : DomainOutcome κ α) : WaitEnd → DomainOutcome κ α
  | .ready => value
  | .timedOut limit => .fail (.repositoryUnavailable ("timed out after " ++ limit.text))
  | .cancelled => .fail (.repositoryUnavailable "operation cancelled")
  | .never => .error .unending

/-- Headers of the event win over the common ones. -/
def outgoing [EventPayload π] (common : Headers) (e : EventMessage π) :
    Except String OutgoingEvent :=
  (EventPayload.encode e.payload).map fun payload =>
    ⟨e.eventType, payload, common.overlay e.headers⟩

/-- The events as they are sent, or what the first one that cannot be written says. -/
def outgoingAll [EventPayload π] (common : Headers) :
    List (EventMessage π) → Except String (List OutgoingEvent)
  | [] => .ok []
  | e :: rest =>
    match outgoing common e with
    | .error s => .error s
    | .ok o =>
      match outgoingAll common rest with
      | .error s => .error s
      | .ok os => .ok (o :: os)

def save [EventPayload π] (config : StreamingConfig) (t : Transport ρ) (stream : String)
    (events : List (EventMessage π)) (expected : Option Nat) (common : Headers) :
    Action (Connection ρ) (DomainError κ) Unit :=
  fun c =>
    match events with
    | [] => (.fail .noEventsToAppend, c)
    | _ :: _ =>
      match outgoingAll common events with
      | .error s => (.fail (.serialization s), c)
      | .ok sent =>
        let pending := t.append stream expected sent c.remote
        match c.clock.await config.limits (some pending.delay) with
        | (.ready, clock) =>
          (match pending.answer with
            | .ok () => .ok ()
            | .error e => .fail (errorFor stream expected e), ⟨pending.remote, clock⟩)
        | (ending, clock) => (settle (.ok ()) ending, ⟨c.remote, clock⟩)

/-- Headers of the record win over those of the response. -/
def recordOf (stream : String) (raw : RawRecord) (response : Headers) : Record where
  eventId := raw.eventId
  eventType := raw.eventType
  stream := stream
  position := raw.position
  occurredAt := raw.occurredAt
  payload := raw.payload
  headers := response.overlay raw.headers

/-- Takes item after item until the feed closes or an item is a failure. -/
def drain (limits : WaitLimits) (stream : String) (stalls : Bool) :
    List (Duration × ReadItem) → Action Clock (DomainError κ) (List Record)
  | [], clock =>
    match clock.await limits (if stalls then none else some ⟨0⟩) with
    | (ending, clock) => (settle (.ok []) ending, clock)
  | (delay, item) :: rest, clock =>
    match clock.await limits (some delay) with
    | (.ready, clock) =>
      match item with
      | .error e => (.fail (errorFor stream none e), clock)
      | .ok (raw, response) =>
        match drain limits stream stalls rest clock with
        | (.ok records, clock) => (.ok (recordOf stream raw response :: records), clock)
        | (.error f, clock) => (.error f, clock)
    | (ending, clock) => (settle (.ok []) ending, clock)

def load (config : StreamingConfig) (t : Transport ρ) (stream : String) :
    Action (Connection ρ) (DomainError κ) (List Record) :=
  fun c =>
    let (feed, remote) := t.read stream (max config.capacity 1) c.remote
    let (out, clock) := drain config.limits stream feed.stalls feed.items c.clock
    (out, ⟨remote, clock⟩)

def store [EventPayload π] (config : StreamingConfig) (t : Transport ρ) :
    EventStore π κ (Connection ρ) where
  save := save config t
  load := load config t

end Streaming

end EventSourcing
