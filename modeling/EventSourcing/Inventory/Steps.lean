import EventSourcing.Inventory.App

/-!
The inventory application step by step: commands, looking at an item or its records, and events put
on the bus that are in no stream. `run` gives what each step answers and the view after it, up to a
step that is aborted.
-/

namespace EventSourcing.Inventory

inductive Step where
  | dispatch (c : CommandMessage Command)
  | load (id : String)
  | records (id : String)
  | publish (e : EventMessage Event)

inductive Answer where
  | accepted
  | item (a : Aggregate Event Item)
  /-- Records with their versions. -/
  | records (rs : List (Record × Nat))
  | published (e : EventMessage Event)

inductive Failure where
  | domain (e : DomainError Command)
  | app (e : AppError Command)

namespace Step

def withVersions (rs : List Record) : Except Overflow (List (Record × Nat)) :=
  rs.mapM fun r => r.version.map fun v => (r, v)

/-- Goes on with the value of an outcome. -/
def settle {ε α : Type} (wrap : ε → Failure) (answer : α → Except Overflow Answer) :
    Outcome ε α → Outcome Failure Answer
  | .ok a => .ofChecked (answer a)
  | .error (.error e) => .fail (wrap e)
  | .error (.overflow o) => .error (.overflow o)
  | .error .unending => .error .unending

def perform (stamp : Nat → Stamp) (step : Step) : Action State Failure Answer :=
  fun s =>
    match step with
    | dispatch c =>
      let (out, s) := App.dispatch stamp c s
      (settle .app (fun _ => .ok .accepted) out, s)
    | load id =>
      let (out, s) := App.load stamp id s
      (settle .domain (fun a => .ok (.item a)) out, s)
    | records id =>
      let (out, s) := App.recordsOf id s
      (settle .domain (fun rs => (withVersions rs).map .records) out, s)
    | publish e =>
      let (out, s) := App.publish e s
      (settle .domain (fun _ => .ok (.published e)) out, s)

/-- Whether a step came to an end of its own. -/
def isSettled : Outcome Failure Answer → Bool
  | .ok _ => true
  | .error (.error _) => true
  | .error _ => false

def run (stamp : Nat → Stamp) : List Step → State → List (Outcome Failure Answer × View)
  | [], _ => []
  | step :: rest, s =>
    let (out, s) := perform stamp step s
    (out, s.2) :: if isSettled out then run stamp rest s else []

end Step

end EventSourcing.Inventory
