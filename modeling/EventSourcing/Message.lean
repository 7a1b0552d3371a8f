import EventSourcing.Headers

/-!
Envelopes for events and commands. What an event or a command says is a payload of some type `π` or
`κ`; the library needs its tag and, for events, its written form.
-/

namespace EventSourcing

/-- Event payloads carry a stable tag and may fail to be written, with a message. -/
class EventPayload (π : Type) where
  tag : π → String
  encode : π → Except String Json

class CommandPayload (κ : Type) where
  tag : κ → String

/-- The version is the event's place in its stream, counted from one, once it has a place. -/
structure EventMessage (π : Type) where
  aggregateId : String
  payload : π
  headers : Headers
  version : Option Nat

namespace EventMessage

variable {π : Type}

def new (aggregateId : String) (payload : π) : EventMessage π :=
  ⟨aggregateId, payload, .empty, none⟩

def eventType [EventPayload π] (e : EventMessage π) : String := EventPayload.tag e.payload

def withHeader (e : EventMessage π) (key : String) (value : Json) : EventMessage π :=
  { e with headers := e.headers.insert key value }

/-- The given headers win over present ones. -/
def withHeaders (e : EventMessage π) (headers : Headers) : EventMessage π :=
  { e with headers := e.headers.overlay headers }

def withVersion (e : EventMessage π) (version : Option Nat) : EventMessage π :=
  { e with version := version }

def header (e : EventMessage π) (key : String) : Option Json := e.headers.get? key

end EventMessage

structure CommandMessage (κ : Type) where
  aggregateId : String
  payload : κ
  headers : Headers

namespace CommandMessage

variable {κ : Type}

def new (aggregateId : String) (payload : κ) : CommandMessage κ := ⟨aggregateId, payload, .empty⟩

def commandType [CommandPayload κ] (c : CommandMessage κ) : String := CommandPayload.tag c.payload

def withHeader (c : CommandMessage κ) (key : String) (value : Json) : CommandMessage κ :=
  { c with headers := c.headers.insert key value }

def withHeaders (c : CommandMessage κ) (headers : Headers) : CommandMessage κ :=
  { c with headers := c.headers.overlay headers }

def header (c : CommandMessage κ) (key : String) : Option Json := c.headers.get? key

end CommandMessage

end EventSourcing
