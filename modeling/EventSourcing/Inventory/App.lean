import EventSourcing.Application.CommandHandling
import EventSourcing.Application.Dispatcher
import EventSourcing.Bus
import EventSourcing.Inventory.View
import EventSourcing.Store.Memory

/-!
The inventory application: commands go through the dispatcher to the item they are for, events into
a log in memory and from there to the view. Its state is the log and the view.
-/

namespace EventSourcing.Inventory

abbrev State := EventLog × View

namespace App

def initial : State := (.empty, .empty)

/-- The view is the only event handler. -/
inductive Handler where
  | view
deriving DecidableEq, Repr

instance : EventHandler Handler where
  name _ := View.handlerName

def bus : Bus Handler where
  subscriptions := [
    ("InventoryItemCreated", .view),
    ("InventoryItemRenamed", .view),
    ("ItemsCheckedIntoInventory", .view),
    ("ItemsRemovedFromInventory", .view),
    ("InventoryItemDeactivated", .view)]
  locals := []
  globals := []

def react (_handler : Handler) (e : EventMessage Event) : Action State (DomainError Command) Unit :=
  fun (log, view) =>
    let (out, view) := view.handle e
    (out, (log, view))

/-- Puts an event on the bus. -/
def publish (e : EventMessage Event) : Action State (DomainError Command) Unit :=
  Bus.publish (fun _ => bus) react e

def aggregates : AggregateFactory Event Item := ⟨[(Item.typeTag, Item.new)]⟩

def namer : StreamNamer := ⟨[(Item.typeTag, StreamNamer.defaultName)]⟩

def events : EventFactory Event := ⟨[
  ("InventoryItemCreated", Event.readCreated),
  ("InventoryItemRenamed", Event.readRenamed),
  ("ItemsCheckedIntoInventory", Event.readCheckedIn),
  ("ItemsRemovedFromInventory", Event.readRemoved),
  ("InventoryItemDeactivated", Event.readDeactivated)]⟩

/-- The n-th event ever stored gets the stamp `stamp n`. -/
def repository (stamp : Nat → Stamp) : Repository Event Command Item EventLog View where
  behavior := Item.behavior
  store := EventLog.store stamp
  publish := publish
  aggregates := some aggregates
  namer := some namer
  events := some events

def commandTypes : List String :=
  ["CreateInventoryItem", "RenameInventoryItem", "CheckInItemsToInventory",
   "RemoveItemsFromInventory", "DeactivateInventoryItem"]

def mapping : CommandMapping := ⟨commandTypes.map fun t => (t, Item.typeTag)⟩

/-- All commands go to the items, by way of `mapping`. -/
def dispatcher : Dispatcher CommandMapping := ⟨commandTypes.map fun t => (t, mapping)⟩

def dispatch (stamp : Nat → Stamp) (c : CommandMessage Command) :
    Action State (AppError Command) Unit :=
  dispatcher.dispatch (fun m => m.handle (repository stamp)) c

def load (stamp : Nat → Stamp) (id : String) :
    Action State (DomainError Command) (Aggregate Event Item) :=
  (repository stamp).loadTyped Item.typeTag (fun _ => true) id

/-- The records of an item. -/
def recordsOf (id : String) : Action State (DomainError Command) (List Record) :=
  fun (log, view) =>
    let (out, log) := EventLog.load (StreamNamer.defaultName Item.typeTag id) log
    (out, (log, view))

end App

end EventSourcing.Inventory
