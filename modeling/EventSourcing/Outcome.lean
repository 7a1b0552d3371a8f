import EventSourcing.Checked

/-!
How a computation ends. Besides its value there are three ends that no caller may confuse: an error
that is returned, an overflow that aborts everything under way, and a wait that never ends.
A computation on a world `ω` returns its outcome beside the world it leaves, whatever the outcome.
-/

namespace EventSourcing

inductive Fault (ε : Type) where
  | error (e : ε)
  | overflow (o : Overflow)
  | unending
deriving DecidableEq, Repr

abbrev Outcome (ε α : Type) := Except (Fault ε) α

/-- A computation that leaves a world behind. -/
abbrev Action (ω ε α : Type) := ω → Outcome ε α × ω

namespace Outcome

variable {ε ε' α : Type}

def fail (e : ε) : Outcome ε α := .error (.error e)

/-- An overflow inside a computation aborts it. -/
def ofChecked : Except Overflow α → Outcome ε α
  | .ok a => .ok a
  | .error o => .error (.overflow o)

/-- Errors change their kind; aborts and endless waits stay what they are. -/
def mapError (f : ε → ε') : Outcome ε α → Outcome ε' α
  | .ok a => .ok a
  | .error (.error e) => fail (f e)
  | .error (.overflow o) => .error (.overflow o)
  | .error .unending => .error .unending

/-- What a computation returns, if it comes back. -/
def returned? : Outcome ε α → Option (Except ε α)
  | .ok a => some (.ok a)
  | .error (.error e) => some (.error e)
  | .error _ => none

@[simp] theorem ofChecked_ok (a : α) : (ofChecked (.ok a) : Outcome ε α) = .ok a := rfl

@[simp] theorem mapError_ok (f : ε → ε') (a : α) : mapError f (.ok a) = .ok a := rfl

end Outcome

end EventSourcing
