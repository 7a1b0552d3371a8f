import EventSourcing.Json.Failure
import EventSourcing.Json.Reader
import EventSourcing.Message

/-!
Sample events of items and accounts. They cover the forms a payload can take in JSON (object, list,
text, null, one of several), two payloads with the same tag and one that cannot be written.
-/

namespace EventSourcing.Sample

inductive AccountChange where
  | deposited (amount : UInt64)
  | withdrawn (amount : UInt64)
  | transferred (receiver : String) (amount : UInt64)
  | renamed (name : String)
  | closed
deriving DecidableEq, Repr

namespace AccountChange

def write : AccountChange → Json
  | deposited amount => .object [("Deposited", .object [("amount", .int amount.toNat)])]
  | withdrawn amount => .object [("Withdrawn", .object [("amount", .int amount.toNat)])]
  | transferred receiver amount =>
    .object [("Transferred", .list [.text receiver, .int amount.toNat])]
  | renamed name => .object [("Renamed", .text name)]
  | closed => .text "Closed"

def unknownName {α : Type} (name : String) : Except String α :=
  .error ("unknown variant `" ++ name ++ "`, expected one of `Deposited`, `Withdrawn`, "
    ++ "`Transferred`, `Renamed`, `Closed`")

def readAmount (make : UInt64 → AccountChange) : Reader AccountChange
  | .object members =>
    Reader.fromMembers ((Reader.Fields.of make).required "amount" Reader.amount) members
  | j => j.wrongKind "struct variant"

def readTransferred : Reader AccountChange
  | .list [] => Json.null.wrongKind "tuple variant AccountChanged::Transferred"
  | .list items =>
    Reader.fromItems "tuple variant AccountChanged::Transferred"
      (((Reader.Fields.of transferred).required "0" Reader.text).required "1" Reader.amount) items
  | j => j.wrongKind "tuple variant"

/-- A change that stands under its name. -/
def readContent (name : String) (content : Json) : Except String AccountChange :=
  if name = "Deposited" then readAmount deposited content
  else if name = "Withdrawn" then readAmount withdrawn content
  else if name = "Transferred" then readTransferred content
  else if name = "Renamed" then (Reader.text content).map renamed
  else if name = "Closed" then (Reader.unit "unit" content).map fun _ => closed
  else unknownName name

/-- A change that is a bare name. -/
def readName (name : String) : Except String AccountChange :=
  let lacks (kind : String) : Except String AccountChange :=
    .error ("invalid type: unit variant, expected " ++ kind)
  if name = "Deposited" ∨ name = "Withdrawn" then lacks "struct variant"
  else if name = "Transferred" then lacks "tuple variant"
  else if name = "Renamed" then lacks "newtype variant"
  else if name = "Closed" then .ok closed
  else unknownName name

def read : Reader AccountChange
  | .text name => readName name
  | .object [(name, content)] => readContent name content
  | .object _ => .error "invalid value: map, expected map with a single key"
  | j => j.wrongKind "string or map"

end AccountChange

inductive Event where
  | itemCreated (name : String)
  | itemRenamed (name : String)
  | legacyRenamed (title : String)
  | itemsCheckedIn (count : UInt32) (note : Option String)
  | itemDeactivated
  | tagged (tags : List String)
  | moved (x y : Int64)
  | accountChanged (change : AccountChange)
  | unserializable (reason : String)
deriving DecidableEq, Repr

inductive EventKind where
  | itemCreated
  | itemRenamed
  | legacyRenamed
  | itemsCheckedIn
  | itemDeactivated
  | tagged
  | moved
  | accountChanged
  | unserializable
deriving DecidableEq, Repr

namespace EventKind

def all : List EventKind :=
  [itemCreated, itemRenamed, legacyRenamed, itemsCheckedIn, itemDeactivated, tagged, moved,
   accountChanged, unserializable]

def name : EventKind → String
  | itemCreated => "ItemCreated"
  | itemRenamed => "ItemRenamed"
  | legacyRenamed => "LegacyRenamed"
  | itemsCheckedIn => "ItemsCheckedIn"
  | itemDeactivated => "ItemDeactivated"
  | tagged => "Tagged"
  | moved => "Moved"
  | accountChanged => "AccountChanged"
  | unserializable => "Unserializable"

def named (s : String) : Option EventKind := all.find? fun k => k.name == s

def tag : EventKind → String
  | legacyRenamed => "ItemRenamed"
  | itemsCheckedIn => "items.checkedIn"
  | accountChanged => "account.changed"
  | k => k.name

/-- How messages name what is to be read. -/
def expected (k : EventKind) : String := "struct " ++ k.name

open Reader in
def read (k : EventKind) : Reader Event :=
  match k with
  | itemCreated => record k.expected ((Fields.of Event.itemCreated).required "name" text)
  | itemRenamed => record k.expected ((Fields.of Event.itemRenamed).required "name" text)
  | legacyRenamed => record k.expected ((Fields.of Event.legacyRenamed).required "title" text)
  | itemsCheckedIn =>
    record k.expected
      (((Fields.of Event.itemsCheckedIn).required "itemCount" count).optional "note" text)
  | itemDeactivated => fun j =>
    (Reader.unit "unit struct ItemDeactivated" j).map fun _ => Event.itemDeactivated
  | tagged => fun j => (listOf text j).map Event.tagged
  | moved =>
    tuple "tuple struct Moved" (((Fields.of Event.moved).required "0" offset).required "1" offset)
  | accountChanged => fun j => (AccountChange.read j).map Event.accountChanged
  | unserializable =>
    record k.expected ((Fields.of Event.unserializable).required "reason" text)

end EventKind

namespace Event

def kind : Event → EventKind
  | itemCreated _ => .itemCreated
  | itemRenamed _ => .itemRenamed
  | legacyRenamed _ => .legacyRenamed
  | itemsCheckedIn _ _ => .itemsCheckedIn
  | itemDeactivated => .itemDeactivated
  | tagged _ => .tagged
  | moved _ _ => .moved
  | accountChanged _ => .accountChanged
  | unserializable _ => .unserializable

def write : Event → Except String Json
  | itemCreated name => .ok (.object [("name", .text name)])
  | itemRenamed name => .ok (.object [("name", .text name)])
  | legacyRenamed title => .ok (.object [("title", .text title)])
  | itemsCheckedIn count note =>
    .ok (.object [("itemCount", .int count.toNat), ("note", (note.map Json.text).getD .null)])
  | itemDeactivated => .ok .null
  | tagged tags => .ok (.list (tags.map Json.text))
  | moved x y => .ok (.list [.int x.toInt, .int y.toInt])
  | accountChanged change => .ok change.write
  | unserializable reason => .error (Json.failureText reason)

instance : EventPayload Event where
  tag e := e.kind.tag
  encode := write

end Event

end EventSourcing.Sample
