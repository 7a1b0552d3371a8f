import EventSourcing.Transport

/-!
A remote end that holds streams in memory and notes the calls it gets. What the next appends answer
can be scripted; otherwise an append fails unless the stream has as many items as expected.
-/

namespace EventSourcing

inductive ScriptedAppend where
  | normal
  /-- Takes the events whatever version is expected. -/
  | accept
  | refuse (e : TransportError)

inductive RemoteCall where
  | read (stream : String) (capacity : Nat)
  | append (stream : String) (expected : Option Nat) (events : List OutgoingEvent)

structure Remote where
  streams : List (String × Feed)
  script : List ScriptedAppend
  delay : Duration
  calls : List RemoteCall

namespace Remote

def empty : Remote := ⟨[], [], ⟨0⟩, []⟩

def feed? (r : Remote) (stream : String) : Option Feed :=
  (r.streams.find? fun s => s.1 == stream).map (·.2)

def putFeed (stream : String) (feed : Feed) : List (String × Feed) → List (String × Feed)
  | [] => [(stream, feed)]
  | s :: rest => if s.1 == stream then (stream, feed) :: rest else s :: putFeed stream feed rest

def seed (r : Remote) (stream : String) (feed : Feed) : Remote :=
  { r with streams := putFeed stream feed r.streams }

/-- The item at a place of a stream for an event that was sent. -/
def itemOf (position : Nat) (e : OutgoingEvent) : Duration × ReadItem :=
  (⟨0⟩, .ok (⟨"r-" ++ toString position, e.eventType, e.payload, position, .epoch, e.headers⟩,
    .empty))

/-- Adds the events after the items of the stream. -/
def add (r : Remote) (stream : String) (feed : Feed) (events : List OutgoingEvent) : Remote :=
  let items := events.mapIdx fun i e => itemOf (feed.items.length + i) e
  r.seed stream { feed with items := feed.items ++ items }

def read (stream : String) (capacity : Nat) (r : Remote) : Feed × Remote :=
  ((r.feed? stream).getD ⟨[(⟨0⟩, .error .notFound)], false⟩,
    { r with calls := r.calls ++ [.read stream capacity] })

def append (stream : String) (expected : Option Nat) (events : List OutgoingEvent) (r : Remote) :
    PendingAppend Remote :=
  let noted := { r with calls := r.calls ++ [.append stream expected events], script := r.script.tail }
  let feed := (r.feed? stream).getD ⟨[], false⟩
  let actual := feed.items.length
  match r.script.headD .normal, expected with
  | .refuse e, _ => ⟨r.delay, .error e, noted⟩
  | .accept, _ => ⟨r.delay, .ok (), noted.add stream feed events⟩
  | .normal, some v =>
    if v = actual then ⟨r.delay, .ok (), noted.add stream feed events⟩
    else
      ⟨r.delay,
        .error (.ofStatus 409 ("expected " ++ toString v ++ ", actual " ++ toString actual)),
        noted.seed stream feed⟩
  | .normal, none => ⟨r.delay, .ok (), noted.add stream feed events⟩

def transport : Transport Remote where
  read := read
  append := append

end Remote

end EventSourcing
