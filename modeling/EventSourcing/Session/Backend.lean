import EventSourcing.Store.Memory
import EventSourcing.Store.Recording
import EventSourcing.Store.Streaming
import EventSourcing.Transport.Remote
import EventSourcing.Sample.Aggregate

/-!
The store of a session: a log in memory or a connection to a remote end, inside a recording store
that is off at first.
-/

namespace EventSourcing.Session

open EventSourcing.Sample

inductive Backend where
  | memory (log : EventLog)
  | streaming (c : Connection Remote)

namespace Backend

/-- The number of records in all streams, if they are in memory. -/
def stored : Backend → Option Nat
  | memory log => some log.records.length
  | streaming _ => none

def calls : Backend → List RemoteCall
  | memory _ => []
  | streaming c => c.remote.calls

def forgetCalls : Backend → Backend
  | memory log => memory log
  | streaming c => streaming { c with remote := { c.remote with calls := [] } }

def log : Backend → EventLog
  | memory log => log
  | streaming _ => .empty

def updateRemote (f : Remote → Remote) : Backend → Backend
  | memory log => memory log
  | streaming c => streaming { c with remote := f c.remote }

def updateClock (f : Clock → Clock) : Backend → Backend
  | memory log => memory log
  | streaming c => streaming { c with clock := f c.clock }

/-- Records in memory get blank stamps. -/
def stamp (_serial : Nat) : Stamp := ⟨"", .epoch⟩

def store (config : StreamingConfig) : EventStore Event Command Backend where
  save stream events expected headers b :=
    match b with
    | memory log =>
      let (out, log) := EventLog.save stamp stream events expected headers log
      (out, memory log)
    | streaming c =>
      let (out, c) := Streaming.save config Remote.transport stream events expected headers c
      (out, streaming c)
  load stream b :=
    match b with
    | memory log =>
      let (out, log) := EventLog.load stream log
      (out, memory log)
    | streaming c =>
      let (out, c) := Streaming.load config Remote.transport stream c
      (out, streaming c)

end Backend

abbrev Storage := Recording Event Backend

end EventSourcing.Session
