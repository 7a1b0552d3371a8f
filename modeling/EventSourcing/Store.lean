import EventSourcing.DomainError
import EventSourcing.Record

/-!
What a repository needs of an event store whose state is of type `α`: to append events to a stream,
if the stream has the expected version, and to load a stream.
-/

namespace EventSourcing

structure EventStore (π κ α : Type) where
  /-- Stream, events, expected version if any, and headers that all records get. -/
  save : String → List (EventMessage π) → Option Nat → Headers → Action α (DomainError κ) Unit
  load : String → Action α (DomainError κ) (List Record)

end EventSourcing
