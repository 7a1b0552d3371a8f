import EventSourcing.Application.Error
import EventSourcing.Bus
import EventSourcing.Session.Backend

/-!
What event and command handlers of a session work on: the bus, how each handler reacts, and notes of
what was published and handled. A handler may register another one while it handles an event.
-/

namespace EventSourcing.Session

open EventSourcing.Sample

/-- A session has one handler of each name. -/
instance : EventHandler String where
  name := id

/-- How an event handler reacts: it may add a handler for some event types and may then fail, on
all events or on those of some types. -/
structure Reaction where
  adds : Option (String × List String)
  fails : Option String
  failsOn : Option (List String)
deriving DecidableEq, Repr

structure Delivery where
  handler : String
  /-- The number of records in memory when the event was delivered. -/
  stored : Option Nat
  /-- What became of the handler that was added. -/
  added : Option (Except (DomainError Command) Unit)

structure Publication where
  event : EventMessage Event
  deliveries : List Delivery
  failed : Option (DomainError Command)

structure Environment where
  bus : Bus String
  reactions : List (String × Reaction)
  /-- Command handlers and why they reject commands, if they do. -/
  rejections : List (String × Option String)
  /-- Deliveries of the event that is being published. -/
  deliveries : List Delivery
  publications : List Publication
  handled : List (String × CommandMessage Command)

namespace Environment

def reactionOf (env : Environment) (handler : String) : Reaction :=
  ((env.reactions.find? fun r => r.1 == handler).map (·.2)).getD ⟨none, none, none⟩

/-- The bus after a handler has added another one, and what became of it. -/
def addition (bus : Bus String) : Option (String × List String) →
    Option (Except (DomainError Command) Unit) × Bus String
  | none => (none, bus)
  | some (handler, eventTypes) =>
    let (out, bus) := Bus.addHandler handler eventTypes bus
    (out.returned?, bus)

def failsAt (r : Reaction) (eventType : String) : Option String :=
  match r.failsOn with
  | some types => if types.contains eventType then r.fails else none
  | none => r.fails

/-- The error of a handler that fails for a reason. -/
def failure (handler reason : String) : DomainError Command :=
  if reason = "unauthorized" then .unauthorized else .eventHandler handler reason

def react (handler : String) (e : EventMessage Event) :
    Action (Storage × Environment) (DomainError Command) Unit :=
  fun (s, env) =>
    let r := env.reactionOf handler
    let (added, bus) := addition env.bus r.adds
    let delivery : Delivery := ⟨handler, s.inner.stored, added⟩
    let env := { env with bus := bus, deliveries := env.deliveries ++ [delivery] }
    match failsAt r e.eventType with
    | some reason => (.fail (failure handler reason), (s, env))
    | none => (.ok (), (s, env))

/-- Notes an event that was published and what came of it. -/
def note (env : Environment) (e : EventMessage Event) (failed : Option (DomainError Command)) :
    Environment :=
  { env with deliveries := [], publications := env.publications ++ [⟨e, env.deliveries, failed⟩] }

def publish (e : EventMessage Event) : Action (Storage × Environment) (DomainError Command) Unit :=
  fun (s, env) =>
    match Bus.publish (fun w => w.2.bus) react e (s, { env with deliveries := [] }) with
    | (.ok (), (s, env)) => (.ok (), (s, env.note e none))
    | (.error (.error err), (s, env)) => (.fail err, (s, env.note e (some err)))
    | (.error fault, w) => (.error fault, w)

/-- A command handler notes a command and accepts or rejects it. -/
def receive (handler : String) (c : CommandMessage Command) :
    Action (Storage × Environment) (AppError Command) Unit :=
  fun (s, env) =>
    let noted := { env with handled := env.handled ++ [(handler, c)] }
    match (env.rejections.find? fun r => r.1 == handler).bind (·.2) with
    | some reason => (.fail (.domain (.commandExecution c reason)), (s, noted))
    | none => (.ok (), (s, noted))

end Environment

end EventSourcing.Session
