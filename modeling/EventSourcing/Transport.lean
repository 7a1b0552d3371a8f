import EventSourcing.Record
import EventSourcing.Time.Duration
import EventSourcing.Transport.Error

/-!
What a streaming store needs of a remote end whose state is of type `ρ`. Reading a stream opens a
feed of items, each some time after the one before; it is closed after the last item unless it
stalls. An append takes some time and then happens at once, or not at all if given up before.
-/

namespace EventSourcing

structure RawRecord where
  eventId : String
  eventType : String
  payload : Json
  position : Nat
  occurredAt : Instant
  headers : Headers

/-- A record with the headers of the response that brought it, or a failure. -/
abbrev ReadItem := Except TransportError (RawRecord × Headers)

structure Feed where
  items : List (Duration × ReadItem)
  stalls : Bool

structure OutgoingEvent where
  eventType : String
  payload : Json
  headers : Headers

/-- An append under way: how long it takes, what it answers and the state it leaves. -/
structure PendingAppend (ρ : Type) where
  delay : Duration
  answer : Except TransportError Unit
  remote : ρ

structure Transport (ρ : Type) where
  /-- Stream and how many items may be under way at a time. -/
  read : String → Nat → ρ → Feed × ρ
  append : String → Option Nat → List OutgoingEvent → ρ → PendingAppend ρ

/-- A remote end that fails in one way at every call. -/
def Transport.failing (e : TransportError) : Transport Unit where
  read _ _ _ := (⟨[(⟨0⟩, .error e)], false⟩, ())
  append _ _ _ _ := ⟨⟨0⟩, .error e, ()⟩

end EventSourcing
