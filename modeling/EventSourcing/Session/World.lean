import EventSourcing.Application.CommandHandling
import EventSourcing.Application.Dispatcher
import EventSourcing.Session.Environment

/-!
The world of a session: storage, environment, the registries, which of them the repository was
given, and aggregates under names. `World.start` is the world that a configuration asks for.
-/

namespace EventSourcing.Session

open EventSourcing.Sample

/-- Whom the dispatcher may send a command to. -/
inductive Receiver where
  | aggregates
  | named (handler : String)
deriving DecidableEq, Repr

structure World where
  config : StreamingConfig
  storage : Storage
  environment : Environment
  aggregates : AggregateFactory Event State
  namer : StreamNamer
  events : EventFactory Event
  mapping : CommandMapping
  dispatcher : Dispatcher Receiver
  /-- Whether the repository has the aggregate factory, the stream namer and the event factory. -/
  hasAggregates : Bool
  hasNamer : Bool
  hasEvents : Bool
  handles : List (String × Aggregate Event State)

/-- The parts of a repository that may be left out. -/
inductive Part where
  | aggregateFactory
  | streamNamer
  | eventFactory
deriving DecidableEq, Repr

structure Configuration where
  streaming : Bool
  timeout : Option Duration
  capacity : Nat
  cancellable : Bool
  parts : List Part
  /-- Whether the registries are filled at the start. -/
  filled : Bool
  reactions : List (String × Reaction)
  rejections : List (String × Option String)

namespace World

def itemCommands : List String :=
  ["CreateItem", "RenameItem", "item.checkIn", "item.deactivate", "Annotate", "Poison"]

def accountCommands : List String := ["Deposit", "Withdraw"]

def allAggregates : AggregateFactory Event State :=
  ⟨AggregateKind.all.map fun k => (k.tag, k.new)⟩

def allNames : StreamNamer := ⟨AggregateKind.all.map fun k => (k.tag, StreamNamer.defaultName)⟩

/-- Decoders of all events, but only the first of two with one tag. -/
def allEvents : EventFactory Event :=
  ⟨(EventKind.all.filter fun k => k ≠ .legacyRenamed).map fun k => (k.tag, k.read)⟩

def allMappings : CommandMapping :=
  ⟨(itemCommands.map fun t => (t, AggregateKind.item.tag))
    ++ accountCommands.map fun t => (t, AggregateKind.account.tag)⟩

def allReceivers : Dispatcher Receiver :=
  ⟨(itemCommands ++ accountCommands).map fun t => (t, .aggregates)⟩

def start (c : Configuration) : World where
  config := ⟨⟨c.timeout, c.cancellable⟩, c.capacity⟩
  storage := .new (if c.streaming then .streaming ⟨.empty, .start⟩ else .memory .empty)
  environment := ⟨.empty, c.reactions, c.rejections, [], [], []⟩
  aggregates := if c.filled then allAggregates else .empty
  namer := if c.filled then allNames else .empty
  events := if c.filled then allEvents else .empty
  mapping := if c.filled then allMappings else .empty
  dispatcher := if c.filled then allReceivers else .empty
  hasAggregates := c.parts.contains .aggregateFactory
  hasNamer := c.parts.contains .streamNamer
  hasEvents := c.parts.contains .eventFactory
  handles := []

def store (w : World) : EventStore Event Command Storage :=
  Recording.store (Backend.store w.config)

def repository (w : World) : Repository Event Command State Storage Environment where
  behavior := behavior
  store := w.store
  publish := Environment.publish
  aggregates := if w.hasAggregates then some w.aggregates else none
  namer := if w.hasNamer then some w.namer else none
  events := if w.hasEvents then some w.events else none

/-- What commands are handled in: storage and environment. -/
def run (w : World) {ε α : Type} (action : Action (Storage × Environment) ε α) :
    Outcome ε α × World :=
  let (out, (s, env)) := action (w.storage, w.environment)
  (out, { w with storage := s, environment := env })

def handleByAggregate (w : World) (c : CommandMessage Command) :
    Action (Storage × Environment) (AppError Command) Unit :=
  w.mapping.handle w.repository c

def dispatch (w : World) (c : CommandMessage Command) :
    Action (Storage × Environment) (AppError Command) Unit :=
  w.dispatcher.dispatch (fun r c =>
    match r with
    | .aggregates => w.handleByAggregate c
    | .named handler => Environment.receive handler c) c

def handle? (w : World) (name : String) : Option (Aggregate Event State) :=
  (w.handles.find? fun h => h.1 == name).map (·.2)

def setHandle (w : World) (name : String) (a : Aggregate Event State) : World :=
  { w with handles := (name, a) :: w.handles.filter fun h => h.1 != name }

def updateBackend (w : World) (f : Backend → Backend) : World :=
  { w with storage := { w.storage with inner := f w.storage.inner } }

/-- Forgets what was noted about earlier steps. -/
def forget (w : World) : World :=
  { w with
    environment := { w.environment with deliveries := [], publications := [], handled := [] } }
    |>.updateBackend Backend.forgetCalls

end World

end EventSourcing.Session
