import EventSourcing.Message

/-!
Sample commands for items and accounts, and one that no aggregate knows.
-/

namespace EventSourcing.Sample

inductive Command where
  | createItem (name : String)
  | renameItem (name : String)
  | checkIn (counts : List UInt32)
  | deactivate
  | annotate
  | poison (reason : String)
  | deposit (amount : UInt64)
  | withdraw (amount : UInt64)
  | ping
deriving DecidableEq, Repr

namespace Command

def name : Command → String
  | createItem _ => "CreateItem"
  | renameItem _ => "RenameItem"
  | checkIn _ => "CheckIn"
  | deactivate => "Deactivate"
  | annotate => "Annotate"
  | poison _ => "Poison"
  | deposit _ => "Deposit"
  | withdraw _ => "Withdraw"
  | ping => "Ping"

def tag : Command → String
  | checkIn _ => "item.checkIn"
  | deactivate => "item.deactivate"
  | c => c.name

instance : CommandPayload Command := ⟨tag⟩

end Command

end EventSourcing.Sample
