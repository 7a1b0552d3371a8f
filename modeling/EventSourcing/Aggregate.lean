import EventSourcing.DomainError

/-!
Aggregates: a base that every aggregate has (id, version, pending changes) and a state of its own.
The version counts the events that are stored; pending changes are events that are applied but not
yet stored. `Behavior` says what applying an event and handling a command do to an aggregate.
-/

namespace EventSourcing

structure AggregateBase (π : Type) where
  id : String
  version : Nat
  changes : List (EventMessage π)

namespace AggregateBase

variable {π : Type}

def new (id : String) : AggregateBase π := ⟨id, 0, []⟩

def incrementVersion (b : AggregateBase π) : Except Overflow (AggregateBase π) :=
  (addSize b.version 1).map fun v => { b with version := v }

def trackChange (b : AggregateBase π) (e : EventMessage π) : AggregateBase π :=
  { b with changes := b.changes ++ [e] }

def clearChanges (b : AggregateBase π) : AggregateBase π := { b with changes := [] }

/-- Hands over the pending changes, which stand in the stream after the first `start` events. -/
def commitChangesAt (b : AggregateBase π) (start : Nat) :
    Except Overflow (List (EventMessage π) × AggregateBase π) :=
  (addSize start b.changes.length).map fun v => (b.changes, { b with version := v, changes := [] })

def commitChanges (b : AggregateBase π) :
    Except Overflow (List (EventMessage π) × AggregateBase π) :=
  b.commitChangesAt b.version

/-- The version with the pending changes counted in. -/
def currentVersion (b : AggregateBase π) : Except Overflow Nat :=
  addSize b.version b.changes.length

end AggregateBase

structure Aggregate (π σ : Type) where
  base : AggregateBase π
  state : σ

namespace Aggregate

variable {π σ : Type}

def new (state : σ) (id : String) : Aggregate π σ := ⟨.new id, state⟩

def id (a : Aggregate π σ) : String := a.base.id

def version (a : Aggregate π σ) : Nat := a.base.version

def changes (a : Aggregate π σ) : List (EventMessage π) := a.base.changes

def incrementVersion (a : Aggregate π σ) : Except Overflow (Aggregate π σ) :=
  a.base.incrementVersion.map fun b => { a with base := b }

def trackChange (a : Aggregate π σ) (e : EventMessage π) : Aggregate π σ :=
  { a with base := a.base.trackChange e }

def clearChanges (a : Aggregate π σ) : Aggregate π σ := { a with base := a.base.clearChanges }

def commitChangesAt (a : Aggregate π σ) (start : Nat) :
    Except Overflow (List (EventMessage π) × Aggregate π σ) :=
  (a.base.commitChangesAt start).map fun r => (r.1, { a with base := r.2 })

def commitChanges (a : Aggregate π σ) :
    Except Overflow (List (EventMessage π) × Aggregate π σ) :=
  a.commitChangesAt a.version

def currentVersion (a : Aggregate π σ) : Except Overflow Nat := a.base.currentVersion

end Aggregate

/-- The rules of the aggregates whose states are of type `σ`. `apply` takes an event and whether it
is new; `handle` may leave events pending even if it refuses the command. -/
structure Behavior (π κ σ : Type) where
  typeTag : σ → String
  apply : Aggregate π σ → EventMessage π → Bool → Except Overflow (Aggregate π σ)
  handle : CommandMessage κ → Action (Aggregate π σ) (DomainError κ) Unit

namespace Behavior

variable {π κ σ : Type}

/-- Applies a payload as a new event of the aggregate. -/
def raise (b : Behavior π κ σ) (a : Aggregate π σ) (payload : π) :
    Except Overflow (Aggregate π σ) :=
  b.apply a (.new a.id payload) true

/-- What an aggregate answers to a command it does not know. -/
def unsupported [CommandPayload κ] (b : Behavior π κ σ) (state : σ) (c : CommandMessage κ) :
    DomainError κ :=
  .unsupportedCommand (b.typeTag state) c.commandType

end Behavior

end EventSourcing
