import EventSourcing.Aggregate
import EventSourcing.Sample.Command
import EventSourcing.Sample.Event

/-!
Sample aggregates: items, accounts, and silent ones, which note what is applied to them but track
nothing and handle no command. Sums wrap around, so applying an event never overflows.
-/

namespace EventSourcing.Sample

structure Item where
  name : String
  renames : Nat
  count : UInt32
  active : Bool
  /-- The versions of all events that were applied. -/
  seen : List (Option Nat)
deriving DecidableEq, Repr

structure Account where
  balance : UInt64
  closed : Bool
deriving DecidableEq, Repr

structure Silent where
  applied : List String
deriving DecidableEq, Repr

inductive State where
  | item (s : Item)
  | account (s : Account)
  | silent (s : Silent)
deriving DecidableEq, Repr

inductive AggregateKind where
  | item
  | account
  | silent
deriving DecidableEq, Repr

namespace AggregateKind

def all : List AggregateKind := [item, account, silent]

def name : AggregateKind → String
  | item => "Item"
  | account => "Account"
  | silent => "Silent"

def named (s : String) : Option AggregateKind := all.find? fun k => k.name == s

def tag : AggregateKind → String
  | item => "Item"
  | account => "bank.account"
  | silent => "Silent"

def initial : AggregateKind → State
  | item => .item ⟨"", 0, 0, false, []⟩
  | account => .account ⟨0, false⟩
  | silent => .silent ⟨[]⟩

def new (k : AggregateKind) (id : String) : Aggregate Event State := .new k.initial id

end AggregateKind

def State.kind : State → AggregateKind
  | .item _ => .item
  | .account _ => .account
  | .silent _ => .silent

namespace Item

def change (s : Item) (e : EventMessage Event) : Item :=
  let changed := match e.payload with
    | .itemCreated name => { s with name := name, active := true }
    | .itemRenamed name => { s with name := name, renames := s.renames + 1 }
    | .itemsCheckedIn count _ => { s with count := s.count + count }
    | .itemDeactivated => { s with active := false }
    | _ => s
  { changed with seen := changed.seen ++ [e.version] }

end Item

def Account.change (s : Account) (e : EventMessage Event) : Account :=
  match e.payload with
  | .accountChanged (.deposited amount) => { s with balance := s.balance + amount }
  | .accountChanged (.withdrawn amount) => { s with balance := s.balance - amount }
  | .accountChanged (.transferred _ amount) => { s with balance := s.balance - amount }
  | .accountChanged .closed => { s with closed := true }
  | _ => s

def Silent.change (s : Silent) (e : EventMessage Event) (isNew : Bool) : Silent :=
  ⟨s.applied ++ [e.eventType ++ if isNew then ":true" else ":false"]⟩

/-- Applies an event; a new one becomes a pending change, except of a silent aggregate. -/
def apply (a : Aggregate Event State) (e : EventMessage Event) (isNew : Bool) :
    Aggregate Event State :=
  let tracked := if isNew then a.base.trackChange e else a.base
  match a.state with
  | .item s => ⟨tracked, .item (s.change e)⟩
  | .account s => ⟨tracked, .account (s.change e)⟩
  | .silent s => ⟨a.base, .silent (s.change e isNew)⟩

def raise (a : Aggregate Event State) (payload : Event) : Aggregate Event State :=
  apply a (.new a.id payload) true

abbrev Handled := DomainOutcome Command Unit × Aggregate Event State

/-- Refuses a command. What was raised before stays pending. -/
def reject (c : CommandMessage Command) (a : Aggregate Event State) (reason : String) : Handled :=
  (.fail (.commandExecution c reason), a)

def unsupported (c : CommandMessage Command) (a : Aggregate Event State) : Handled :=
  (.fail (.unsupportedCommand a.state.kind.tag c.commandType), a)

/-- Checks in one count after another, up to the first zero. -/
def checkInAll (c : CommandMessage Command) : List UInt32 → Aggregate Event State → Handled
  | [], a => (.ok (), a)
  | count :: rest, a =>
    if count = 0 then reject c a "must have a count greater than 0"
    else checkInAll c rest (raise a (.itemsCheckedIn count none))

def handleItem (c : CommandMessage Command) (s : Item) (a : Aggregate Event State) : Handled :=
  match c.payload with
  | .createItem name =>
    if name = "" then reject c a "name must not be empty"
    else if s.active then reject c a "item already exists"
    else (.ok (), raise a (.itemCreated name))
  | .renameItem name => (.ok (), raise a (.itemRenamed name))
  | .checkIn counts => checkInAll c counts a
  | .deactivate =>
    if s.active then (.ok (), raise a .itemDeactivated) else reject c a "already deactivated"
  | .annotate =>
    match c.header "user" with
    | some (.text user) =>
      (.ok (), apply a ((EventMessage.new a.id (.tagged [user])).withHeader "user" (.text user)) true)
    | _ => reject c a "missing user"
  | .poison reason => (.ok (), raise a (.unserializable reason))
  | _ => unsupported c a

def handleAccount (c : CommandMessage Command) (s : Account) (a : Aggregate Event State) :
    Handled :=
  match c.payload with
  | .deposit amount => (.ok (), raise a (.accountChanged (.deposited amount)))
  | .withdraw amount =>
    if s.balance < amount then reject c a "insufficient funds"
    else
      let withdrawn := raise a (.accountChanged (.withdrawn amount))
      (.ok (), if s.balance = amount then raise withdrawn (.accountChanged .closed) else withdrawn)
  | _ => unsupported c a

def handle (c : CommandMessage Command) (a : Aggregate Event State) : Handled :=
  match a.state with
  | .item s => handleItem c s a
  | .account s => handleAccount c s a
  | .silent _ => unsupported c a

def behavior : Behavior Event Command State where
  typeTag s := s.kind.tag
  apply a e isNew := .ok (apply a e isNew)
  handle := handle

end EventSourcing.Sample
