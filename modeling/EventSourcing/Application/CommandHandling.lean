import EventSourcing.Application.Error
import EventSourcing.Repository

/-!
Handling a command by an aggregate: the aggregate type its command type is mapped to says what to
load, the loaded aggregate handles the command, and what it raised is saved. Between loading and
the rest other commands may be handled; the save then finds out.
-/

namespace EventSourcing

/-- Command types and the aggregate type that handles them. -/
abbrev CommandMapping := Registry String

namespace CommandMapping

variable {π κ σ α β : Type}

def register (aggregateType : String) (commandTypes : List String) :
    Action CommandMapping (AppError κ) Unit :=
  Registry.claimCommands commandTypes aggregateType

/-- Loads the aggregate that a command is for. -/
def loadFor [CommandPayload κ] (m : CommandMapping) (r : Repository π κ σ α β)
    (c : CommandMessage κ) : Action (α × β) (AppError κ) (Aggregate π σ) :=
  fun w =>
    match m.find? c.commandType with
    | none => (.fail (.noAggregateMapping c.commandType), w)
    | some type =>
      let (out, w) := r.load type c.aggregateId w
      (out.mapError .domain, w)

/-- Lets a loaded aggregate handle a command and saves what it raised. -/
def handleAndSave (r : Repository π κ σ α β) (c : CommandMessage κ) (a : Aggregate π σ) :
    Action (α × β) (AppError κ) Unit :=
  fun w =>
    match r.behavior.handle c a with
    | (.error fault, _) => (Outcome.mapError .domain (.error fault), w)
    | (.ok (), a) =>
      let (out, (_, w)) := r.save none (a, w)
      (out.mapError .domain, w)

def handle [CommandPayload κ] (m : CommandMapping) (r : Repository π κ σ α β)
    (c : CommandMessage κ) : Action (α × β) (AppError κ) Unit :=
  fun w =>
    match m.loadFor r c w with
    | (.ok a, w) => handleAndSave r c a w
    | (.error fault, w) => (.error fault, w)

end CommandMapping

end EventSourcing
