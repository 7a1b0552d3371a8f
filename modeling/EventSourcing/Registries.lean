import EventSourcing.Aggregate
import EventSourcing.Registry

/-!
The registries a repository works with: constructors of aggregates by type, decoders of events by
tag, and stream names by aggregate type. A stream name is made from type and id alone.
-/

namespace EventSourcing

variable {π κ σ δ : Type}

/-- Registration that fails with an error naming the registry. -/
def Registry.claim (registry : String) (tags : List String) (delegate : δ) :
    Action (Registry δ) (DomainError κ) Unit :=
  fun r =>
    let (out, r) := register tags delegate r
    (out.mapError (.alreadyRegistered registry), r)

/-- Makes a new aggregate from an id. -/
abbrev AggregateFactory (π σ : Type) := Registry (String → Aggregate π σ)

namespace AggregateFactory

def register (tag : String) (make : String → Aggregate π σ) :
    Action (AggregateFactory π σ) (DomainError κ) Unit :=
  Registry.claim "aggregate factory" [tag] make

def make? (f : AggregateFactory π σ) (tag id : String) : Option (Aggregate π σ) :=
  (f.find? tag).map fun make => make id

end AggregateFactory

/-- Reads a payload from its written form. -/
abbrev EventFactory (π : Type) := Registry (Json → Except String π)

namespace EventFactory

def register (tag : String) (decode : Json → Except String π) :
    Action (EventFactory π) (DomainError κ) Unit :=
  Registry.claim "event factory" [tag] decode

def decode? (f : EventFactory π) (tag : String) (payload : Json) : Option (Except String π) :=
  (f.find? tag).map fun decode => decode payload

end EventFactory

/-- Makes a stream name from aggregate type and id. -/
abbrev StreamNamer := Registry (String → String → String)

namespace StreamNamer

def defaultName (tag id : String) : String := tag ++ "-" ++ id

def register (tags : List String) (name : String → String → String) :
    Action StreamNamer (DomainError κ) Unit :=
  Registry.claim "stream namer" tags name

def streamName (n : StreamNamer) (tag id : String) : Except (DomainError κ) String :=
  match n.find? tag with
  | some name => .ok (name tag id)
  | none => .error (.missingStreamNameDelegate tag)

end StreamNamer

end EventSourcing
