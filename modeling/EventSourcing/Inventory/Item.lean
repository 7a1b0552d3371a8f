import EventSourcing.Aggregate
import EventSourcing.Json.Reader

/-!
An inventory item: it is created, renamed, stocked and emptied, and at last deactivated. The count
on stock is a 32 bit number; applying an event that takes it out of its range overflows. Removing
more than there is on stock is refused, checking in too many is not.
-/

namespace EventSourcing.Inventory

inductive Event where
  | created (name : String)
  | renamed (newName : String)
  | checkedIn (count : UInt32)
  | removed (count : UInt32)
  | deactivated
deriving DecidableEq, Repr

namespace Event

def tag : Event → String
  | created _ => "InventoryItemCreated"
  | renamed _ => "InventoryItemRenamed"
  | checkedIn _ => "ItemsCheckedIntoInventory"
  | removed _ => "ItemsRemovedFromInventory"
  | deactivated => "InventoryItemDeactivated"

def write : Event → Json
  | created name => .object [("name", .text name)]
  | renamed newName => .object [("new_name", .text newName)]
  | checkedIn count => .object [("count", .int count.toNat)]
  | removed count => .object [("count", .int count.toNat)]
  | deactivated => .null

instance : EventPayload Event where
  tag := tag
  encode e := .ok e.write

open Reader in
def readCreated : Reader Event :=
  record "struct InventoryItemCreated" ((Fields.of created).required "name" text)

open Reader in
def readRenamed : Reader Event :=
  record "struct InventoryItemRenamed" ((Fields.of renamed).required "new_name" text)

open Reader in
def readCheckedIn : Reader Event :=
  record "struct ItemsCheckedIntoInventory" ((Fields.of checkedIn).required "count" count)

open Reader in
def readRemoved : Reader Event :=
  record "struct ItemsRemovedFromInventory" ((Fields.of removed).required "count" count)

def readDeactivated : Reader Event := fun j =>
  (Reader.unit "unit struct InventoryItemDeactivated" j).map fun _ => deactivated

end Event

inductive Command where
  | create (name : String)
  | rename (newName : String)
  | checkIn (count : UInt32)
  | remove (count : UInt32)
  | deactivate
deriving DecidableEq, Repr

def Command.tag : Command → String
  | .create _ => "CreateInventoryItem"
  | .rename _ => "RenameInventoryItem"
  | .checkIn _ => "CheckInItemsToInventory"
  | .remove _ => "RemoveItemsFromInventory"
  | .deactivate => "DeactivateInventoryItem"

instance : CommandPayload Command := ⟨Command.tag⟩

structure Item where
  activated : Bool
  count : UInt32
deriving DecidableEq, Repr

namespace Item

/-- The type tag of inventory items. -/
def typeTag : String := "InventoryItem"

def initial : Item := ⟨false, 0⟩

def new (id : String) : Aggregate Event Item := .new initial id

/-- What an event does to an item. -/
def change (item : Item) : Event → Except Overflow Item
  | .created _ => .ok { item with activated := true }
  | .renamed _ => .ok item
  | .checkedIn count => (addCount item.count count).map fun n => { item with count := n }
  | .removed count => (subCount item.count count).map fun n => { item with count := n }
  | .deactivated => .ok { item with activated := false }

def apply (a : Aggregate Event Item) (e : EventMessage Event) (isNew : Bool) :
    Except Overflow (Aggregate Event Item) :=
  (a.state.change e.payload).map fun item =>
    let changed := { a with state := item }
    if isNew then changed.trackChange e else changed

/-- The event that a command raises, or why it is refused. -/
def decide (item : Item) : Command → Except String Event
  | .create name => if name = "" then .error "the name must not be empty" else .ok (.created name)
  | .rename newName =>
    if newName = "" then .error "the name must not be empty" else .ok (.renamed newName)
  | .checkIn count =>
    if count = 0 then .error "must have a count greater than 0" else .ok (.checkedIn count)
  | .remove count =>
    if item.count < count then .error "not enough items in stock" else .ok (.removed count)
  | .deactivate => if item.activated then .ok .deactivated else .error "already deactivated"

def handle (c : CommandMessage Command) :
    Action (Aggregate Event Item) (DomainError Command) Unit :=
  fun a =>
    match a.state.decide c.payload with
    | .error reason => (.fail (.commandExecution c reason), a)
    | .ok event =>
      match apply a (.new a.id event) true with
      | .error o => (.error (.overflow o), a)
      | .ok a => (.ok (), a)

def behavior : Behavior Event Command Item where
  typeTag _ := typeTag
  apply := apply
  handle := handle

end Item

end EventSourcing.Inventory
