import EventSourcing.Json
import EventSourcing.Text.Quoted

/-!
Reading typed values from JSON. A reader gives the value or the message that says what was found
and what was expected. A record reads from an object, where the members are read in the order of
their keys and unknown ones are skipped, or from a list of its fields in declaration order.
-/

namespace EventSourcing

namespace Json

/-- How a message names a value that was found. -/
def found : Json → String
  | .null => "null"
  | .bool b => if b then "boolean `true`" else "boolean `false`"
  | .int n => "integer `" ++ toString n ++ "`"
  | .decimal d => "floating point `" ++ d.text ++ "`"
  | .text s => "string " ++ Text.quoted s
  | .list _ => "sequence"
  | .object _ => "map"

def wrongKind {α : Type} (expected : String) (j : Json) : Except String α :=
  .error ("invalid type: " ++ j.found ++ ", expected " ++ expected)

end Json

/-- Reads a value of type `α`, or says why not. -/
abbrev Reader (α : Type) := Json → Except String α

namespace Reader

variable {α β : Type}

def text : Reader String
  | .text s => .ok s
  | j => j.wrongKind "a string"

/-- Integers from `low` up to but not including `high`, named `kind` in messages. -/
def integer (kind : String) (low high : Int) : Reader Int
  | .int n =>
    if low ≤ n ∧ n < high then .ok n
    else .error ("invalid value: integer `" ++ toString n ++ "`, expected " ++ kind)
  | j => j.wrongKind kind

def count : Reader UInt32 := fun j =>
  (integer "u32" 0 UInt32.size j).map fun n => UInt32.ofNat n.toNat

def amount : Reader UInt64 := fun j =>
  (integer "u64" 0 UInt64.size j).map fun n => UInt64.ofNat n.toNat

def offset : Reader Int64 := fun j =>
  (integer "i64" Int64.minValue.toInt (Int64.maxValue.toInt + 1) j).map Int64.ofInt

def size : Reader Nat := fun j => (integer "usize" 0 UInt64.size j).map Int.toNat

def unit (expected : String) : Reader Unit
  | .null => .ok ()
  | j => j.wrongKind expected

def any : Reader Json := .ok

/-- `null` or a value. -/
def nullable (r : Reader α) : Reader (Option α)
  | .null => .ok none
  | j => (r j).map some

def listOf (r : Reader α) : Reader (List α)
  | .list items => items.mapM r
  | j => j.wrongKind "a sequence"

/-- The value read from a record's fields: `checks` reads each present field in any order, `build`
takes the fields in declaration order once all present ones are known to read. -/
structure Fields (α : Type) where
  checks : List (String × (Json → Except String Unit))
  build : (String → Option Json) → Except String α

namespace Fields

/-- A record without fields. -/
def of (a : α) : Fields α := ⟨[], fun _ => .ok a⟩

/-- One more field, which has to be there. -/
def required (fs : Fields (α → β)) (name : String) (r : Reader α) : Fields β where
  checks := fs.checks ++ [(name, fun j => (r j).map fun _ => ())]
  build get := do
    let f ← fs.build get
    match get name with
    | some j => return f (← r j)
    | none => .error ("missing field `" ++ name ++ "`")

/-- One more field, which may be missing. -/
def optional (fs : Fields (Option α → β)) (name : String) (r : Reader α) : Fields β where
  checks := fs.checks ++ [(name, fun j => (nullable r j).map fun _ => ())]
  build get := do
    let f ← fs.build get
    match get name with
    | some j => return f (← nullable r j)
    | none => return f none

end Fields

def checkOf (name : String) :
    List (String × (Json → Except String Unit)) → Option (Json → Except String Unit)
  | [] => none
  | (n, check) :: rest => if n = name then some check else checkOf name rest

/-- Reads the known members in the order of their keys. -/
def checkMembers (checks : List (String × (Json → Except String Unit))) :
    List (String × Json) → Except String Unit
  | [] => .ok ()
  | (key, value) :: rest => do
    match checkOf key checks with
    | some check => check value
    | none => .ok ()
    checkMembers checks rest

def elements (n : Nat) : String := if n = 1 then "1 element" else toString n ++ " elements"

/-- Reads as many items as there are checks; `done` items were read before these. -/
def checkItems (expected : String) (total done : Nat) :
    List (String × (Json → Except String Unit)) → List Json → Except String Unit
  | [], [] => .ok ()
  | [], rest@(_ :: _) =>
    .error ("invalid length " ++ toString (done + rest.length) ++ ", expected fewer elements in array")
  | _ :: _, [] =>
    .error ("invalid length " ++ toString done ++ ", expected " ++ expected ++ " with "
      ++ elements total)
  | (_, check) :: checks, item :: items => do
    check item
    checkItems expected total (done + 1) checks items

/-- The item that stands at the place of a field's name. -/
def itemOf (name : String) :
    List (String × (Json → Except String Unit)) → List Json → Option Json
  | (n, _) :: checks, item :: items => if n = name then some item else itemOf name checks items
  | _, _ => none

def fromItems (expected : String) (fs : Fields α) (items : List Json) : Except String α := do
  checkItems expected fs.checks.length 0 fs.checks items
  fs.build fun name => itemOf name fs.checks items

def fromMembers (fs : Fields α) (members : List (String × Json)) : Except String α := do
  checkMembers fs.checks members
  fs.build fun name => memberOf name members

/-- A record, from an object or from a list of its fields. -/
def record (expected : String) (fs : Fields α) : Reader α
  | .object members => fromMembers fs members
  | .list items => fromItems expected fs items
  | j => j.wrongKind expected

/-- Fields without names, from a list only. -/
def tuple (expected : String) (fs : Fields α) : Reader α
  | .list items => fromItems expected fs items
  | j => j.wrongKind expected

end Reader

end EventSourcing
