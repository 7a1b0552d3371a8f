import EventSourcing.Session.World

/-!
The steps of a session and what each of them answers. A session runs step by step; an overflow or a
wait without end stops it. `run` gives the reports of the steps up to there, and what stopped it.
-/

namespace EventSourcing.Session

open EventSourcing.Sample

/-- Ways to name streams. -/
inductive Naming where
  | default
  | lower
  | idOnly
  | constant
  | swapped
deriving DecidableEq, Repr

def Naming.name : Naming → String → String → String
  | .default, tag, id => StreamNamer.defaultName tag id
  | .lower, tag, id => tag.map Char.toLower ++ "_" ++ id
  | .idOnly, _, id => id
  | .constant, _, _ => "all"
  | .swapped, tag, id => id ++ "@" ++ tag

inductive Step where
  | registerAggregate (kind : AggregateKind)
  | registerAggregateDelegate (tag : String) (kind : AggregateKind) (lead : String)
  | registerEvent (kind : EventKind)
  | registerEventDelegate (tag : String) (kind : EventKind)
  | registerNamer (kind : AggregateKind)
  | registerNamerDelegate (naming : Naming) (tags : List String)
  | getAggregate (tag id : String)
  | getEvent (tag : String) (payload : Json)
  | streamName (tag id : String)
  | addHandler (handler : String) (eventTypes : List String)
  | addLocal (handler : String)
  | addGlobal (handler : String)
  | handlerCount (tag : String)
  | publish (event : EventMessage Event)
  | publishAll (events : List (EventMessage Event))
  | storeSave (stream : String) (events : List (EventMessage Event)) (expected : Option Nat)
      (headers : Headers)
  | storeLoad (stream : String)
  | streamVersion (stream : String)
  | streamNames
  | startRecording
  | stopRecording
  | resetRecording
  | recorded
  | remoteSeed (stream : String) (feed : Feed)
  | remoteScript (results : List ScriptedAppend)
  | remoteDelay (delay : Duration)
  | cancel (after : Duration)
  | new (name : String) (kind : AggregateKind) (id : String)
  | state (name : String)
  | raise (name : String) (event : Event)
  | apply (name : String) (isNew : Bool) (event : EventMessage Event)
  | track (name : String) (event : EventMessage Event)
  | increment (name : String)
  | clear (name : String)
  | commit (name : String) (start : Option Nat)
  | handleCommand (name : String) (command : CommandMessage Command)
  | load (name tag id : String)
  | loadTyped (name : String) (kind : AggregateKind) (id : String)
  | save (name : String) (expected : Option Nat)
  | mapCommands (aggregateType : String) (commandTypes : List String)
  | registerCommandHandler (receiver : Receiver) (commandTypes : List String)
  | hasHandler (commandType : String)
  | dispatch (command : CommandMessage Command)
  | handleByAggregate (command : CommandMessage Command)

/-- What can be seen of an aggregate. -/
structure AggregateView where
  type : String
  id : String
  storedVersion : Nat
  currentVersion : Nat
  changes : List (EventMessage Event)
  state : State

/-- A record with its version. -/
structure RecordView where
  record : Record
  version : Nat

inductive Answer where
  | nothing
  | flag (b : Bool)
  | number (n : Nat)
  | text (s : String)
  | texts (ss : List String)
  | aggregate (v : AggregateView)
  | message (e : EventMessage Event)
  | messages (es : List (EventMessage Event))
  | records (rs : List RecordView)
  | committed (es : List (EventMessage Event)) (v : AggregateView)

inductive StepError where
  | domain (e : DomainError Command)
  | app (e : AppError Command)
  | unreadable (message : String)

structure Report where
  result : Except StepError Answer
  /-- The aggregate a step worked on, where that is reported beside the result. -/
  aggregate : Option AggregateView
  publications : List Publication
  handled : List (String × CommandMessage Command)
  calls : List RemoteCall

/-- Why a session cannot go on. -/
inductive Stop where
  | overflow (o : Overflow)
  | unending
  | unknownName (name : String)
deriving DecidableEq, Repr

abbrev Ran := Except Stop (Report × World)

def checked {α : Type} : Except Overflow α → Except Stop α
  | .ok a => .ok a
  | .error o => .error (.overflow o)

def viewOf (a : Aggregate Event State) : Except Stop AggregateView := do
  let current ← checked a.currentVersion
  return ⟨a.state.kind.tag, a.id, a.version, current, a.changes, a.state⟩

def viewOfRecord (r : Record) : Except Stop RecordView := do
  let version ← checked r.version
  return ⟨r, version⟩

/-- Result and notes of a step that leaves the world `w`. -/
def report (w : World) (result : Except StepError Answer) (aggregate : Option AggregateView) :
    Ran :=
  .ok (⟨result, aggregate, w.environment.publications, w.environment.handled,
    w.storage.inner.calls⟩, w)

def answer (w : World) (a : Answer) : Ran := report w (.ok a) none

def done (w : World) : Ran := answer w .nothing

def refuse (w : World) (e : StepError) : Ran := report w (.error e) none

def showAggregate (w : World) (a : Aggregate Event State) : Ran := do
  answer w (.aggregate (← viewOf a))

/-- Goes on with the value of an outcome; an error is the step's result. -/
def settle {ε α : Type} (wrap : ε → StepError) (w : World) (out : Outcome ε α)
    (next : α → Ran) : Ran :=
  match out with
  | .ok a => next a
  | .error (.error e) => refuse w (wrap e)
  | .error (.overflow o) => .error (.overflow o)
  | .error .unending => .error .unending

/-- What an outcome answers, without its value. -/
def resultOf {ε α : Type} (wrap : ε → StepError) : Outcome ε α → Except Stop (Except StepError Answer)
  | .ok _ => .ok (.ok .nothing)
  | .error (.error e) => .ok (.error (wrap e))
  | .error (.overflow o) => .error (.overflow o)
  | .error .unending => .error .unending

/-- A registration, in a part of the world. -/
def register {ε ρ : Type} (wrap : ε → StepError) (action : Action ρ ε Unit) (part : ρ)
    (set : ρ → World) : Ran :=
  let (out, part) := action part
  settle wrap (set part) out fun _ => done (set part)

def setBus (w : World) (b : Bus String) : World :=
  { w with environment := { w.environment with bus := b } }

/-- Works on the aggregate of a name. -/
def withHandle (w : World) (name : String) (next : Aggregate Event State → Ran) : Ran :=
  match w.handle? name with
  | some a => next a
  | none => .error (.unknownName name)

/-- Changes the aggregate of a name and shows it. -/
def changeHandle (w : World) (name : String)
    (change : Aggregate Event State → Except Overflow (Aggregate Event State)) : Ran :=
  withHandle w name fun a => do
    let a ← checked (change a)
    showAggregate (w.setHandle name a) a

/-- Runs in storage and environment and answers nothing. -/
def runAction {ε α : Type} (wrap : ε → StepError) (w : World)
    (action : Action (Storage × Environment) ε α) (next : α → World → Ran) : Ran :=
  let (out, w) := w.run action
  settle wrap w out fun a => next a w

def runStore {α : Type} (w : World) (action : Action Storage (DomainError Command) α)
    (next : α → World → Ran) : Ran :=
  let (out, s) := action w.storage
  let w := { w with storage := s }
  settle .domain w out fun a => next a w

/-- Names in ascending order, each once. -/
def sortNames (names : List String) : List String := names.foldr Bus.insertByName []

def saveHandle (w : World) (name : String) (expected : Option Nat) : Ran :=
  withHandle w name fun a => do
    let (out, (a, (s, env))) := w.repository.save expected (a, (w.storage, w.environment))
    let result ← resultOf .domain out
    let view ← viewOf a
    report ({ w with storage := s, environment := env }.setHandle name a) result (some view)

def handleCommand (w : World) (name : String) (c : CommandMessage Command) : Ran :=
  withHandle w name fun a => do
    let (out, a) := behavior.handle c a
    let result ← resultOf .domain out
    let view ← viewOf a
    report (w.setHandle name a) result (some view)

def loadInto (w : World) (name : String)
    (action : Action (Storage × Environment) (DomainError Command) (Aggregate Event State)) : Ran :=
  runAction .domain w action fun a w => showAggregate (w.setHandle name a) a

def perform (w : World) : Step → Ran
  | .registerAggregate kind =>
    register .domain (AggregateFactory.register kind.tag kind.new) w.aggregates
      fun r => { w with aggregates := r }
  | .registerAggregateDelegate tag kind lead =>
    register .domain (AggregateFactory.register tag fun id => kind.new (lead ++ id)) w.aggregates
      fun r => { w with aggregates := r }
  | .registerEvent kind =>
    register .domain (EventFactory.register kind.tag kind.read) w.events
      fun r => { w with events := r }
  | .registerEventDelegate tag kind =>
    register .domain (EventFactory.register tag kind.read) w.events
      fun r => { w with events := r }
  | .registerNamer kind =>
    register .domain (StreamNamer.register [kind.tag] StreamNamer.defaultName) w.namer
      fun r => { w with namer := r }
  | .registerNamerDelegate naming tags =>
    register .domain (StreamNamer.register tags naming.name) w.namer
      fun r => { w with namer := r }
  | .getAggregate tag id =>
    match w.aggregates.make? tag id with
    | some a => showAggregate w a
    | none => done w
  | .getEvent tag payload =>
    match w.events.decode? tag payload with
    | some (.ok e) => answer w (.message (.new "" e))
    | some (.error s) => refuse w (.unreadable s)
    | none => done w
  | .streamName tag id =>
    match w.namer.streamName tag id with
    | .ok s => answer w (.text s)
    | .error e => refuse w (.domain e)
  | .addHandler handler eventTypes =>
    register .domain (Bus.addHandler handler eventTypes) w.environment.bus (setBus w)
  | .addLocal handler => register .domain (Bus.addLocal handler) w.environment.bus (setBus w)
  | .addGlobal handler => register .domain (Bus.addGlobal handler) w.environment.bus (setBus w)
  | .handlerCount tag => answer w (.number (w.environment.bus.handlerCount tag))
  | .publish event => runAction .domain w (Environment.publish event) fun _ w => done w
  | .publishAll events =>
    runAction .domain w (Bus.publishAll Environment.publish events) fun _ w => done w
  | .storeSave stream events expected headers =>
    runStore w (w.store.save stream events expected headers) fun _ w => done w
  | .storeLoad stream =>
    runStore w (w.store.load stream) fun rs w => do answer w (.records (← rs.mapM viewOfRecord))
  | .streamVersion stream => answer w (.number (w.storage.inner.log.version stream))
  | .streamNames => answer w (.texts (sortNames w.storage.inner.log.names))
  | .startRecording => flagged { w with storage := w.storage.start }
  | .stopRecording => flagged { w with storage := w.storage.stop }
  | .resetRecording => flagged { w with storage := w.storage.reset }
  | .recorded => answer w (.messages w.storage.events)
  | .remoteSeed stream feed =>
    done (w.updateBackend (·.updateRemote fun r => r.seed stream feed))
  | .remoteScript results =>
    done (w.updateBackend (·.updateRemote fun r => { r with script := r.script ++ results }))
  | .remoteDelay delay =>
    done (w.updateBackend (·.updateRemote fun r => { r with delay := delay }))
  | .cancel after => done (w.updateBackend (·.updateClock fun c => c.cancelAfter after))
  | .new name kind id => showAggregate (w.setHandle name (kind.new id)) (kind.new id)
  | .state name => withHandle w name (showAggregate w)
  | .raise name event => changeHandle w name fun a => behavior.raise a event
  | .apply name isNew event => changeHandle w name fun a => behavior.apply a event isNew
  | .track name event => changeHandle w name fun a => .ok (a.trackChange event)
  | .increment name => changeHandle w name fun a => a.incrementVersion
  | .clear name => changeHandle w name fun a => .ok a.clearChanges
  | .commit name start =>
    withHandle w name fun a => do
      let (events, a) ← checked (a.commitChangesAt (start.getD a.version))
      answer (w.setHandle name a) (.committed events (← viewOf a))
  | .handleCommand name command => handleCommand w name command
  | .load name tag id => loadInto w name (w.repository.load tag id)
  | .loadTyped name kind id =>
    loadInto w name (w.repository.loadTyped kind.tag (fun s => s.kind == kind) id)
  | .save name expected => saveHandle w name expected
  | .mapCommands aggregateType commandTypes =>
    register .app (CommandMapping.register aggregateType commandTypes) w.mapping
      fun m => { w with mapping := m }
  | .registerCommandHandler receiver commandTypes =>
    register .app (Dispatcher.register receiver commandTypes) w.dispatcher
      fun d => { w with dispatcher := d }
  | .hasHandler commandType => answer w (.flag (w.dispatcher.has commandType))
  | .dispatch command => runAction .app w (w.dispatch command) fun _ w => done w
  | .handleByAggregate command => runAction .app w (w.handleByAggregate command) fun _ w => done w
where
  /-- Whether the storage is recording now. -/
  flagged (w : World) : Ran := answer w (.flag w.storage.active)

/-- Runs steps in order, up to one that stops the session. -/
def run : List Step → World → List Report × Option Stop
  | [], _ => ([], none)
  | s :: rest, w =>
    match perform w.forget s with
    | .error stop => ([], some stop)
    | .ok (r, w) =>
      let (rs, stop) := run rest w
      (r :: rs, stop)

end EventSourcing.Session
