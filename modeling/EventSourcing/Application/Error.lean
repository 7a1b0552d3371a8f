import EventSourcing.DomainError
import EventSourcing.Registry

/-!
The errors of the application layer: those of the domain, and commands that nobody handles or that
are already taken.
-/

namespace EventSourcing

inductive AppError (κ : Type) where
  | domain (e : DomainError κ)
  | handlerNotFound (commandType : String)
  | alreadyRegisteredCommand (commandType : String)
  | noAggregateMapping (commandType : String)

namespace AppError

variable {κ : Type}

def message [CommandPayload κ] : AppError κ → String
  | .domain e => "domain: " ++ e.message
  | .handlerNotFound t => "the dispatcher does not have a handler for commands of type: " ++ t
  | .alreadyRegisteredCommand t => "dispatcher: already registered for type \"" ++ t ++ "\""
  | .noAggregateMapping t => "no aggregate type mapped for command type: " ++ t

/-- Whether loading again and retrying may help. -/
def isConcurrency : AppError κ → Bool
  | .domain (.concurrency ..) => true
  | _ => false

def source [CommandPayload κ] : AppError κ → Option String
  | .domain e => some e.message
  | _ => none

end AppError

/-- A registry of command types refuses a tag. -/
def Registry.claimCommands {κ δ : Type} (tags : List String) (delegate : δ) :
    Action (Registry δ) (AppError κ) Unit :=
  fun r =>
    let (out, r) := register tags delegate r
    (out.mapError .alreadyRegisteredCommand, r)

end EventSourcing
