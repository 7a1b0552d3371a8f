import EventSourcing.Message
import EventSourcing.Outcome
import EventSourcing.Transport.Error

/-!
The errors of the domain layer. `versionConflict`, `noEventsToAppend`, `noEventsFound` and
`streamNotFound` are answers of a store; the repository turns the ones its callers should not see
into `concurrency` and `aggregateNotFound`.
-/

namespace EventSourcing

/-- What lies behind an unexpected error. -/
inductive Cause where
  | text (s : String)
  | transport (e : TransportError)
deriving DecidableEq, Repr

def Cause.message : Cause → String
  | .text s => s
  | .transport e => e.message

inductive DomainError (κ : Type) where
  | concurrency (aggregateType aggregateId : String) (expected : Nat) (stream : String)
  | versionConflict (stream : String) (expected : Nat) (actual : Option Nat)
  | noEventsToAppend
  | noEventsFound (stream : String)
  | streamNotFound (stream : String)
  | aggregateNotFound (aggregateType aggregateId : String)
  | unauthorized
  | repositoryUnavailable (reason : String)
  | unexpected (source : Cause)
  | commandExecution (command : CommandMessage κ) (reason : String)
  | unsupportedCommand (aggregateType commandType : String)
  | eventHandler (handler reason : String)
  | missingAggregateFactory
  | missingStreamNamer
  | missingEventFactory
  | unknownAggregateType (aggregateType : String)
  | unknownEventType (eventType : String)
  | missingStreamNameDelegate (aggregateType : String)
  | alreadyRegistered (registry tag : String)
  | serialization (source : String)

namespace DomainError

variable {κ : Type}

def versionText : Option Nat → String
  | none => "None"
  | some v => "Some(" ++ toString v ++ ")"

def message [CommandPayload κ] : DomainError κ → String
  | .concurrency type id expected stream =>
    "concurrency error: aggregate_type=" ++ type ++ ", aggregate_id=" ++ id
      ++ ", expected_version=" ++ toString expected ++ ", stream=" ++ stream
  | .versionConflict stream expected actual =>
    "version conflict: stream=" ++ stream ++ ", expected=" ++ toString expected
      ++ ", actual=" ++ versionText actual
  | .noEventsToAppend => "no events to append"
  | .noEventsFound stream => "could not find events: stream=" ++ stream
  | .streamNotFound stream => "stream not found: " ++ stream
  | .aggregateNotFound type id =>
    "aggregate not found: aggregate_type=" ++ type ++ ", aggregate_id=" ++ id
  | .unauthorized => "not authorized"
  | .repositoryUnavailable reason => "repository unavailable: " ++ reason
  | .unexpected source => "an unexpected error occurred: " ++ source.message
  | .commandExecution command reason =>
    "invalid operation: command=" ++ command.commandType ++ ", reason=" ++ reason
  | .unsupportedCommand aggregateType commandType =>
    "aggregate " ++ aggregateType ++ " does not handle command " ++ commandType
  | .eventHandler handler reason =>
    "event handler error: handler=" ++ handler ++ ", reason=" ++ reason
  | .missingAggregateFactory => "the common domain repository has no aggregate factory"
  | .missingStreamNamer => "the common domain repository has no stream namer"
  | .missingEventFactory => "the common domain repository has no event factory"
  | .unknownAggregateType type =>
    "no aggregate factory registered for aggregate type: " ++ type
  | .unknownEventType type => "no event factory registered for event type: " ++ type
  | .missingStreamNameDelegate type =>
    "there is no stream name delegate for aggregate of type \"" ++ type ++ "\""
  | .alreadyRegistered registry tag =>
    registry ++ ": already registered for type \"" ++ tag ++ "\""
  | .serialization source => "serialization error: " ++ source

/-- The message of the error behind this one. -/
def source : DomainError κ → Option String
  | .unexpected source => some source.message
  | .serialization source => some source
  | _ => none

/-- Whether the parts were put together wrongly, so that trying again cannot help. -/
def isConfiguration : DomainError κ → Bool
  | .missingAggregateFactory | .missingStreamNamer | .missingEventFactory
  | .unknownAggregateType _ | .unknownEventType _ | .missingStreamNameDelegate _
  | .alreadyRegistered _ _ => true
  | _ => false

end DomainError

/-- How a computation of the domain layer ends. -/
abbrev DomainOutcome (κ α : Type) := Outcome (DomainError κ) α

end EventSourcing
