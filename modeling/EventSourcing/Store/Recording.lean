import EventSourcing.Store

/-!
A store around another store that, while switched on, notes the events it is asked to save, whether
the inner store then takes them or not. In all else it is the inner store.
-/

namespace EventSourcing

structure Recording (π α : Type) where
  inner : α
  active : Bool
  events : List (EventMessage π)

namespace Recording

variable {π κ α : Type}

def new (inner : α) : Recording π α := ⟨inner, false, []⟩

def start (r : Recording π α) : Recording π α := { r with active := true }

def stop (r : Recording π α) : Recording π α := { r with active := false }

def reset (r : Recording π α) : Recording π α := { r with events := [] }

def note (r : Recording π α) (events : List (EventMessage π)) : Recording π α :=
  if r.active then { r with events := r.events ++ events } else r

def store (inner : EventStore π κ α) : EventStore π κ (Recording π α) where
  save stream events expected headers r :=
    let noted := r.note events
    let (out, state) := inner.save stream events expected headers noted.inner
    (out, { noted with inner := state })
  load stream r :=
    let (out, state) := inner.load stream r.inner
    (out, { r with inner := state })

end Recording

end EventSourcing
