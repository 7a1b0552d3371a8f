import EventSourcing.Time.Duration

/-!
Waiting on a virtual clock. Time passes only while something is waited for, and a wait ends with
the earliest of three: what is waited for, the time limit of this wait, the cancellation. Of two at
the same time the cancellation comes first and the limit last.
-/

namespace EventSourcing

structure Clock where
  now : Duration
  /-- When the work in hand is, or will be, cancelled. -/
  cancelAt : Option Duration
deriving DecidableEq, Repr

structure WaitLimits where
  timeout : Option Duration
  cancellable : Bool
deriving DecidableEq, Repr

namespace WaitLimits

def none : WaitLimits := ⟨.none, false⟩

end WaitLimits

inductive WaitEnd where
  | ready
  | timedOut (limit : Duration)
  | cancelled
  | never
deriving DecidableEq, Repr

namespace Clock

def start : Clock := ⟨⟨0⟩, none⟩

def after (c : Clock) (d : Duration) : Duration := ⟨c.now.nanos + d.nanos⟩

/-- A cancellation stays; of two the earlier counts. -/
def cancelAfter (c : Clock) (d : Duration) : Clock :=
  match c.cancelAt with
  | some t => if t.nanos ≤ (c.after d).nanos then c else { c with cancelAt := some (c.after d) }
  | none => { c with cancelAt := some (c.after d) }

/-- The first of the earliest. -/
def earliest : List (Duration × WaitEnd) → Option (Duration × WaitEnd)
  | [] => none
  | x :: rest =>
    match earliest rest with
    | some y => if x.1.nanos ≤ y.1.nanos then some x else some y
    | none => some x

/-- What may end a wait for something that takes `delay`, or never comes. -/
def endings (c : Clock) (limits : WaitLimits) (delay : Option Duration) :
    List (Duration × WaitEnd) :=
  (if limits.cancellable then
    (c.cancelAt.map fun t => (⟨max c.now.nanos t.nanos⟩, WaitEnd.cancelled)).toList
  else [])
    ++ (delay.map fun d => (c.after d, WaitEnd.ready)).toList
    ++ (limits.timeout.map fun d => (c.after d, WaitEnd.timedOut d)).toList

def await (c : Clock) (limits : WaitLimits) (delay : Option Duration) : WaitEnd × Clock :=
  match earliest (c.endings limits delay) with
  | some (t, e) => (e, { c with now := t })
  | none => (.never, c)

end Clock

end EventSourcing
