import EventSourcing.Application.Error

/-!
The dispatcher hands a command to the one handler of its type.
-/

namespace EventSourcing

/-- Command types and their handlers. -/
abbrev Dispatcher (δ : Type) := Registry δ

namespace Dispatcher

variable {κ δ ω : Type}

def register (handler : δ) (commandTypes : List String) :
    Action (Dispatcher δ) (AppError κ) Unit :=
  Registry.claimCommands commandTypes handler

def dispatch [CommandPayload κ] (d : Dispatcher δ)
    (run : δ → CommandMessage κ → Action ω (AppError κ) Unit) (c : CommandMessage κ) :
    Action ω (AppError κ) Unit :=
  fun w =>
    match d.find? c.commandType with
    | none => (.fail (.handlerNotFound c.commandType), w)
    | some handler => run handler c w

end Dispatcher

end EventSourcing
