import EventSourcing.Store

/-!
The event store in memory: one log of records in the order they were appended. A stream is the
records that bear its name. Saving appends all events of a call or changes nothing.
-/

namespace EventSourcing

structure EventLog where
  records : List Record

namespace EventLog

variable {π κ : Type}

def empty : EventLog := ⟨[]⟩

def stream (log : EventLog) (name : String) : List Record :=
  log.records.filter fun r => r.stream == name

/-- The number of records; zero for an unknown stream. -/
def version (log : EventLog) (name : String) : Nat := (log.stream name).length

/-- The names of the streams, each once. -/
def names (log : EventLog) : List String := (log.records.map (·.stream)).eraseDups

def append (log : EventLog) (records : List Record) : EventLog := ⟨log.records ++ records⟩

/-- The version that is expected of a stream with this many records and is not met. -/
def unmet (version : Nat) : Option Nat → Option Nat
  | none => none
  | some e => if e = version then none else some e

def save [EventPayload π] (stamp : Nat → Stamp) (name : String) (events : List (EventMessage π))
    (expected : Option Nat) (common : Headers) : Action EventLog (DomainError κ) Unit :=
  fun log =>
    match events with
    | [] => (.fail .noEventsToAppend, log)
    | _ :: _ =>
      match unmet (log.version name) expected with
      | some e => (.fail (.versionConflict name e (some (log.version name))), log)
      | none =>
        match Record.ofMessages stamp name common log.records.length (log.version name) 0 events with
        | .error fault => (Outcome.mapError .serialization (.error fault), log)
        | .ok records => (.ok (), log.append records)

def load (name : String) : Action EventLog (DomainError κ) (List Record) :=
  fun log =>
    match log.stream name with
    | [] => (.fail (.noEventsFound name), log)
    | records => (.ok records, log)

/-- The store on a log. The n-th record ever appended gets the stamp `stamp n`. -/
def store [EventPayload π] (stamp : Nat → Stamp) : EventStore π κ EventLog where
  save := save stamp
  load := load

end EventLog

end EventSourcing
