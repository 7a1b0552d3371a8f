import EventSourcing.Inventory.Item

/-!
The read model of the inventory: name, count and version of every item that has not been
deactivated. It is an event handler, and keeps its own count.
-/

namespace EventSourcing.Inventory

structure Detail where
  name : String
  count : UInt32
  version : Option Nat
deriving DecidableEq, Repr

/-- Items by id, each id once. -/
structure View where
  items : List (String × Detail)
deriving DecidableEq, Repr

namespace View

def empty : View := ⟨[]⟩

def get? (v : View) (id : String) : Option Detail :=
  (v.items.find? fun i => i.1 == id).map (·.2)

def erase (v : View) (id : String) : View := ⟨v.items.filter fun i => i.1 != id⟩

def put (v : View) (id : String) (d : Detail) : View := ⟨(id, d) :: (v.erase id).items⟩

@[simp] theorem get?_erase_self (v : View) (id : String) : (v.erase id).get? id = none := by
  simp [get?, erase]

theorem get?_erase_ne (v : View) {id other : String} (h : other ≠ id) :
    (v.erase id).get? other = v.get? other := by
  unfold get? erase
  rw [List.find?_filter]
  congr 2
  funext i
  by_cases hi : i.1 = other
  · simp [hi, h]
  · simp [hi]

@[simp] theorem get?_put_self (v : View) (id : String) (d : Detail) :
    (v.put id d).get? id = some d := by
  simp [get?, put]

theorem get?_put_ne (v : View) {id other : String} (d : Detail) (h : other ≠ id) :
    (v.put id d).get? other = v.get? other := by
  rw [← get?_erase_ne v h]
  simp [get?, put, h.symm]

/-- The name under which the view handles events. -/
def handlerName : String := "item_detail_view"

/-- Name and count after an event. -/
def change (d : Detail) : Event → Except Overflow Detail
  | .created name => .ok { d with name := name }
  | .renamed newName => .ok { d with name := newName }
  | .checkedIn count => (addCount d.count count).map fun n => { d with count := n }
  | .removed count => (subCount d.count count).map fun n => { d with count := n }
  | .deactivated => .ok d

/-- An item seen for the first time starts empty, and has its entry even if the event overflows. -/
def handle (e : EventMessage Event) : Action View (DomainError Command) Unit :=
  fun v =>
    if e.payload = .deactivated then (.ok (), v.erase e.aggregateId)
    else
      let d := (v.get? e.aggregateId).getD ⟨"", 0, none⟩
      match change d e.payload with
      | .ok d => (.ok (), v.put e.aggregateId { d with version := e.version })
      | .error o => (.error (.overflow o), v.put e.aggregateId d)

end View

end EventSourcing.Inventory
