import EventSourcing.DomainError
import EventSourcing.Registry

/-!
The event bus. Handlers are told apart as instances; what they are called is for errors only, and
several may be called the same. A handler may be subscribed to event types, and it may be among the
local and the global handlers, which get every event. An event is delivered to the handlers of its
type in the order they subscribed, then to the local and the global ones, each set in the order of
the names. The first failure ends the delivery.
-/

namespace EventSourcing

/-- Instances of event handlers, each with its name. -/
class EventHandler (η : Type) where
  name : η → String

structure Bus (η : Type) where
  /-- Event type and handler, in the order of subscription. -/
  subscriptions : List (String × η)
  locals : List η
  globals : List η

namespace Bus

variable {π κ ω ε η : Type}

def empty : Bus η := ⟨[], [], []⟩

/-- The handlers of an event type, in the order of subscription. -/
def typed (b : Bus η) (eventType : String) : List η :=
  (b.subscriptions.filter fun s => s.1 == eventType).map (·.2)

def subscribe (handler : η) (b : Bus η) (eventType : String) : Bus η :=
  { b with subscriptions := b.subscriptions ++ [(eventType, handler)] }

section Adding

variable [DecidableEq η] [EventHandler η]

/-- Subscribes a handler to all of these types. One type that is repeated, or that the handler is
subscribed to, stands against all of them. -/
def addHandler (handler : η) (eventTypes : List String) : Action (Bus η) (DomainError κ) Unit :=
  fun b =>
    match Registry.firstRefused (fun t => b.subscriptions.contains (t, handler)) [] eventTypes with
    | some t => (.fail (.alreadyRegistered "event bus" t), b)
    | none => (.ok (), eventTypes.foldl (subscribe handler) b)

/-- Puts a handler before the first one with a greater name. -/
def insertByName (handler : η) : List η → List η
  | [] => [handler]
  | h :: rest =>
    if EventHandler.name handler < EventHandler.name h then handler :: h :: rest
    else h :: insertByName handler rest

/-- Adds a handler to a set of those that get every event. -/
def addCatchAll (registry : String) (handler : η) : Action (List η) (DomainError κ) Unit :=
  fun handlers =>
    if handlers.contains handler then
      (.fail (.alreadyRegistered registry (EventHandler.name handler)), handlers)
    else (.ok (), insertByName handler handlers)

def addLocal (handler : η) : Action (Bus η) (DomainError κ) Unit :=
  fun b =>
    let (out, handlers) := addCatchAll "event bus local handlers" handler b.locals
    (out, { b with locals := handlers })

def addGlobal (handler : η) : Action (Bus η) (DomainError κ) Unit :=
  fun b =>
    let (out, handlers) := addCatchAll "event bus global handlers" handler b.globals
    (out, { b with globals := handlers })

end Adding

/-- Who gets an event of this type, in order. -/
def targets (b : Bus η) (eventType : String) : List η :=
  b.typed eventType ++ b.locals ++ b.globals

def handlerCount (b : Bus η) (eventType : String) : Nat :=
  (b.typed eventType).length + b.locals.length + b.globals.length

/-- Hands the event to one handler after another, up to the first that fails. -/
def deliver (react : η → EventMessage π → Action ω ε Unit) (e : EventMessage π) :
    List η → Action ω ε Unit
  | [], w => (.ok (), w)
  | handler :: rest, w =>
    match react handler e w with
    | (.ok (), w) => deliver react e rest w
    | (.error f, w) => (.error f, w)

/-- Publishes an event. Who gets it is settled when publishing starts, whatever handlers register
meanwhile. -/
def publish [EventPayload π] (busOf : ω → Bus η) (react : η → EventMessage π → Action ω ε Unit)
    (e : EventMessage π) : Action ω ε Unit :=
  fun w => deliver react e ((busOf w).targets e.eventType) w

/-- Publishes events in order, up to the first that fails. -/
def publishAll (publish : EventMessage π → Action ω ε Unit) :
    List (EventMessage π) → Action ω ε Unit
  | [], w => (.ok (), w)
  | e :: rest, w =>
    match publish e w with
    | (.ok (), w) => publishAll publish rest w
    | (.error f, w) => (.error f, w)

end Bus

end EventSourcing
