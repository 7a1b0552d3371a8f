import EventSourcing.Registries
import EventSourcing.Store

/-!
The repository loads an aggregate by replaying its stream and saves it by appending its pending
changes, provided the stream has the version the aggregate was loaded at. Saved events are then
published, each with its place in the stream; a handler that fails does not undo the save.
The world is the store's state `α` beside whatever the event handlers work on, `β`.
-/

namespace EventSourcing

structure Repository (π κ σ α β : Type) where
  behavior : Behavior π κ σ
  store : EventStore π κ α
  publish : EventMessage π → Action (α × β) (DomainError κ) Unit
  aggregates : Option (AggregateFactory π σ)
  namer : Option StreamNamer
  events : Option (EventFactory π)

namespace Repository

variable {π κ σ α β : Type}

/-- Applies a record's event, which then counts as stored. -/
def replayOne (b : Behavior π κ σ) (f : EventFactory π) (id : String) (a : Aggregate π σ)
    (r : Record) : DomainOutcome κ (Aggregate π σ) :=
  match f.decode? r.eventType r.payload with
  | none => .fail (.unknownEventType r.eventType)
  | some (.error s) => .fail (.serialization s)
  | some (.ok payload) => .ofChecked do
    let version ← r.version
    let applied ← b.apply a ⟨id, payload, r.headers, some version⟩ false
    applied.incrementVersion

/-- Applies the events of the records in order, up to the first record that is no good. -/
def replay (b : Behavior π κ σ) (f : EventFactory π) (id : String) :
    List Record → Aggregate π σ → DomainOutcome κ (Aggregate π σ)
  | [], a => .ok a
  | r :: rest, a =>
    match replayOne b f id a r with
    | .ok a => replay b f id rest a
    | .error fault => .error fault

/-- What loading needs: a new aggregate, the name of its stream and the decoders. The first part
that is missing is reported. -/
def prepare (r : Repository π κ σ α β) (type id : String) :
    Except (DomainError κ) (Aggregate π σ × String × EventFactory π) :=
  match r.aggregates, r.namer, r.events with
  | none, _, _ => .error .missingAggregateFactory
  | some _, none, _ => .error .missingStreamNamer
  | some _, some _, none => .error .missingEventFactory
  | some aggregates, some namer, some events =>
    match aggregates.make? type id with
    | none => .error (.unknownAggregateType type)
    | some a =>
      match namer.streamName type id with
      | .error e => .error e
      | .ok stream => .ok (a, stream, events)

def load (r : Repository π κ σ α β) (type id : String) :
    Action (α × β) (DomainError κ) (Aggregate π σ) :=
  fun (s, w) =>
    match r.prepare type id with
    | .error e => (.fail e, (s, w))
    | .ok (a, stream, events) =>
      match r.store.load stream s with
      | (.ok records, s) => (replay r.behavior events id records a, (s, w))
      | (.error (.error (.noEventsFound _)), s) => (.ok a, (s, w))
      | (.error (.error (.streamNotFound _)), s) => (.fail (.aggregateNotFound type id), (s, w))
      | (.error fault, s) => (.error fault, (s, w))

/-- Loads an aggregate that has to have a state of the kind that `isKind` tells. -/
def loadTyped (r : Repository π κ σ α β) (type : String) (isKind : σ → Bool) (id : String) :
    Action (α × β) (DomainError κ) (Aggregate π σ) :=
  fun w =>
    match r.load type id w with
    | (.ok a, w) =>
      if isKind a.state then (.ok a, w)
      else
        (.fail (.unknownAggregateType
          (type ++ " (constructed as " ++ r.behavior.typeTag a.state ++ ")")), w)
    | (.error fault, w) => (.error fault, w)

/-- The place in the stream of the event that stands `offset` events after the first `start`. -/
def placeOf (start offset : Nat) : Except Overflow Nat := do
  let before ← addSize start offset
  addSize before 1

/-- Publishes events that stand in their stream after the first `start + offset`. Only what aborts
everything stops it. The aggregate is at hand, but not touched. -/
def publishFrom (r : Repository π κ σ α β) (start : Nat) :
    (offset : Nat) → List (EventMessage π) → Action (Aggregate π σ × α × β) (DomainError κ) Unit
  | _, [], (a, w) => (.ok (), (a, w))
  | offset, e :: rest, (a, w) =>
    match placeOf start offset with
    | .error o => (.error (.overflow o), (a, w))
    | .ok place =>
      match r.publish (e.withVersion (some place)) w with
      | (.ok (), w) => r.publishFrom start (offset + 1) rest (a, w)
      | (.error (.error _), w) => r.publishFrom start (offset + 1) rest (a, w)
      | (.error fault, w) => (.error fault, (a, w))

/-- The pending changes as they are stored and published: each names its aggregate. -/
def outgoing (a : Aggregate π σ) : List (EventMessage π) :=
  a.changes.map fun e => e.withHeader Headers.aggregateId (.text a.id)

/-- The headers that all records of an aggregate type get. -/
def commonHeaders (type : String) : Headers :=
  Headers.empty.insert Headers.aggregateType (.text type)

/-- Commits the aggregate, whose changes stand in the stream after the first `start` events, and
then publishes them. -/
def finish (r : Repository π κ σ α β) (start : Nat) :
    Action (Aggregate π σ × α × β) (DomainError κ) Unit :=
  fun (a, w) =>
    match a.commitChangesAt start with
    | .error o => (.error (.overflow o), (a, w))
    | .ok (_, committed) => r.publishFrom start 0 (outgoing a) (committed, w)

/-- Saves the pending changes. Without an expected version, the one the aggregate was loaded at is
expected. -/
def save (r : Repository π κ σ α β) (expected : Option Nat) :
    Action (Aggregate π σ × α × β) (DomainError κ) Unit :=
  fun (a, s, w) =>
    match r.namer with
    | none => (.fail .missingStreamNamer, (a, s, w))
    | some namer =>
      if a.changes.isEmpty then (.ok (), (a, s, w))
      else
        let type := r.behavior.typeTag a.state
        match namer.streamName type a.id with
        | .error e => (.fail e, (a, s, w))
        | .ok stream =>
          let start := expected.getD a.version
          match r.store.save stream (outgoing a) (some start) (commonHeaders type) s with
          | (.ok (), s) => r.finish start (a, s, w)
          | (.error (.error (.versionConflict _ _ _)), s) =>
            (.fail (.concurrency type a.id start stream), (a, s, w))
          | (.error fault, s) => (.error fault, (a, s, w))

end Repository

end EventSourcing
