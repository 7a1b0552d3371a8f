import EventSourcing.Proofs.Delivery
import EventSourcing.Proofs.Registration

/-!
Handlers that fail after a batch is stored. Which handlers fail on which events may be settled in
any way: the save succeeds and the handle is committed; every event of the batch is published, in
order and with its number; and the calls are those that each event makes when it is published alone.
A failure keeps an event from the handlers behind the one that failed, and does nothing else.
-/

namespace EventSourcing

variable {π κ σ α β ω ε η : Type}

namespace Bus

section Calls

variable (react : η → EventMessage π → Action ω ε Unit) (e : EventMessage π)

def worldAfter (calls : List (η × EventMessage π)) (w : ω) : ω :=
  calls.foldl (fun w call => (react call.1 call.2 w).2) w

theorem deliver_noting (order : List η) (w : ω) (seen : List (η × EventMessage π)) :
    deliver (noting react) e order (w, seen) =
      ((deliver react e order w).1, (deliver react e order w).2,
        seen ++ callsOf react e order w) := by
  induction order generalizing w seen with
  | nil => simp [deliver, callsOf]
  | cons handler rest ih =>
    rcases h : react handler e w with ⟨_ | _, w'⟩ <;> simp only [deliver, noting, callsOf, h]
    · rfl
    · rw [ih, ih, List.append_assoc]
      rfl

theorem callsOf_cons_ok {handler : η} {rest : List η} {w w' : ω}
    (h : react handler e w = (.ok (), w')) :
    callsOf react e (handler :: rest) w = (handler, e) :: callsOf react e rest w' := by
  simp only [callsOf, deliver, noting, h]
  rw [deliver_noting]
  rfl

theorem callsOf_cons_error {handler : η} {rest : List η} {w w' : ω} {fault : Fault ε}
    (h : react handler e w = (.error fault, w')) :
    callsOf react e (handler :: rest) w = [(handler, e)] := by
  simp only [callsOf, deliver, noting, h]
  rfl

theorem deliver_world (order : List η) (w : ω) :
    (deliver react e order w).2 = worldAfter react (callsOf react e order w) w := by
  induction order generalizing w with
  | nil => rfl
  | cons handler rest ih =>
    rcases h : react handler e w with ⟨_ | _, w'⟩
    · rw [callsOf_cons_error react e h]
      simp only [deliver, worldAfter, List.foldl_cons, List.foldl_nil, h]
    · rw [callsOf_cons_ok react e h]
      simp only [deliver, worldAfter, List.foldl_cons, h]
      exact ih w'

end Calls

section Settled

/-- Whether a handler fails on an event, and with which error, is settled. What else it does may
depend on the world. -/
def Settled (verdict : η → EventMessage π → Option ε)
    (react : η → EventMessage π → Action ω ε Unit) : Prop :=
  ∀ handler e w, (react handler e w).1 = (verdict handler e).elim (.ok ()) .fail

def reached (verdict : η → EventMessage π → Option ε) (e : EventMessage π) :
    List η → List η
  | [] => []
  | handler :: rest =>
    match verdict handler e with
    | none => handler :: reached verdict e rest
    | some _ => [handler]

/-- All get the event, or all up to the first that fails on it. -/
inductive Reaches (verdict : η → EventMessage π → Option ε) (e : EventMessage π)
    (order : List η) : List η → Prop
  | all : (∀ handler ∈ order, verdict handler e = none) → Reaches verdict e order order
  | failed {before after : List η} {handler : η} {err : ε} :
    order = before ++ handler :: after → (∀ h ∈ before, verdict h e = none) →
    verdict handler e = some err → Reaches verdict e order (before ++ [handler])

variable {verdict : η → EventMessage π → Option ε}
  {react : η → EventMessage π → Action ω ε Unit}

theorem reaches_reached (verdict : η → EventMessage π → Option ε) (e : EventMessage π)
    (order : List η) : Reaches verdict e order (reached verdict e order) := by
  induction order with
  | nil => exact .all fun handler h => nomatch h
  | cons handler rest ih =>
    cases hv : verdict handler e with
    | some err =>
      have hsplit : handler :: rest = [] ++ handler :: rest := rfl
      simp only [reached, hv]
      exact .failed hsplit (fun h hh => nomatch hh) hv
    | none =>
      simp only [reached, hv]
      generalize reached verdict e rest = got at ih
      cases ih with
      | all hall => exact .all (List.forall_mem_cons.2 ⟨hv, hall⟩)
      | @failed before after h err hrest hbefore hfail =>
        have hsplit : handler :: rest = (handler :: before) ++ h :: after :=
          congrArg (handler :: ·) hrest
        exact .failed hsplit (List.forall_mem_cons.2 ⟨hv, hbefore⟩) hfail

theorem reached_of_forall {e : EventMessage π} {order : List η}
    (h : ∀ handler ∈ order, verdict handler e = none) : reached verdict e order = order := by
  induction order with
  | nil => rfl
  | cons handler rest ih =>
    obtain ⟨hv, hrest⟩ := List.forall_mem_cons.1 h
    simp only [reached, hv, ih hrest]

theorem Settled.eq_ok (hv : Settled verdict react) {handler : η} {e : EventMessage π}
    (h : verdict handler e = none) (w : ω) : ∃ w', react handler e w = (.ok (), w') := by
  have hout := hv handler e w
  rw [h] at hout
  exact ⟨_, Prod.ext hout rfl⟩

theorem Settled.eq_fail (hv : Settled verdict react) {handler : η} {e : EventMessage π}
    {err : ε} (h : verdict handler e = some err) (w : ω) :
    ∃ w', react handler e w = (.fail err, w') := by
  have hout := hv handler e w
  rw [h] at hout
  exact ⟨_, Prod.ext hout rfl⟩

/-- The world has no say in who is called. -/
theorem Settled.callsOf_eq (hv : Settled verdict react) (e : EventMessage π) (order : List η)
    (w : ω) : callsOf react e order w = (reached verdict e order).map (·, e) := by
  induction order generalizing w with
  | nil => rfl
  | cons handler rest ih =>
    cases h : verdict handler e with
    | none =>
      obtain ⟨w', hw⟩ := hv.eq_ok h w
      simp only [callsOf_cons_ok react e hw, reached, h, ih, List.map_cons]
    | some err =>
      obtain ⟨w', hw⟩ := hv.eq_fail h w
      simp only [callsOf_cons_error react e hw, reached, h, List.map_cons, List.map_nil]

/-- A delivery ends as its last call does, so it comes back. -/
theorem Settled.returned (hv : Settled verdict react) (e : EventMessage π) (order : List η)
    (w : ω) : (deliver react e order w).1.Returned := by
  rcases hout : (deliver react e order w).1 with fault | _
  · obtain ⟨-, handler, -, w', -, -, -, hfail⟩ := (delivers react e order w).failed fault hout
    rw [hv] at hfail
    cases hverdict : verdict handler e with
    | none =>
      rw [hverdict] at hfail
      nomatch hfail
    | some err =>
      rw [hverdict] at hfail
      obtain rfl : Fault.error err = fault := Except.error.inj hfail
      trivial
  · trivial

end Settled

end Bus

namespace Repository

section OnBus

variable (r : Repository π κ σ α β) (order : EventMessage π → List η)
  (react : η → EventMessage π → Action (α × β) (DomainError κ) Unit)

def onBus : Repository π κ σ α β := { r with publish := fun e => Bus.deliver react e (order e) }

/-- The repository on that bus, with a list of the calls that are made beside its world. -/
def watched : Repository π κ σ α (β × List (η × EventMessage π)) where
  behavior := r.behavior
  store := r.store
  publish e := fun (s, w, calls) =>
    let (out, (s, w), calls) := Bus.deliver (Bus.noting react) e (order e) ((s, w), calls)
    (out, s, w, calls)
  aggregates := r.aggregates
  namer := r.namer
  events := r.events

/-- On a bus that nobody registers with meanwhile, an event goes to its targets. -/
theorem onBus_targets [EventPayload π] (b : Bus η) :
    r.onBus (fun e => b.targets e.eventType) react =
      { r with publish := Bus.publish (fun _ => b) react } := rfl

theorem watched_publish (e : EventMessage π) (w : α × β) (seen : List (η × EventMessage π)) :
    (r.watched order react).publish e (w.1, w.2, seen) =
      (((r.onBus order react).publish e w).1, ((r.onBus order react).publish e w).2.1,
        ((r.onBus order react).publish e w).2.2,
        seen ++ Bus.callsOf react e (order e) w) := by
  simp only [watched, onBus]
  rw [Bus.deliver_noting]

variable {verdict : η → EventMessage π → Option (DomainError κ)} {order react}

theorem onBus_returned (hv : Bus.Settled verdict react) : (r.onBus order react).HandlersReturn :=
  fun e w => hv.returned e (order e) w

theorem watched_returned (hv : Bus.Settled verdict react) :
    (r.watched order react).HandlersReturn := by
  intro e w
  rw [r.watched_publish order react e (w.1, w.2.1) w.2.2]
  exact hv.returned e (order e) (w.1, w.2.1)

theorem onBus_world (hv : Bus.Settled verdict react) (es : List (EventMessage π)) (w : α × β) :
    es.foldl (fun w e => ((r.onBus order react).publish e w).2) w =
      Bus.worldAfter react
        (es.flatMap fun e => (Bus.reached verdict e (order e)).map (·, e)) w := by
  induction es generalizing w with
  | nil => rfl
  | cons e es ih =>
    rw [List.foldl_cons, ih, List.flatMap_cons, ← hv.callsOf_eq e (order e) w]
    simp only [onBus, Bus.deliver_world, Bus.worldAfter, List.foldl_append]

theorem watched_world (hv : Bus.Settled verdict react) (es : List (EventMessage π)) (w : α × β)
    (seen : List (η × EventMessage π)) :
    es.foldl (fun w e => ((r.watched order react).publish e w).2) (w.1, w.2, seen) =
      ((es.foldl (fun w e => ((r.onBus order react).publish e w).2) w).1,
        (es.foldl (fun w e => ((r.onBus order react).publish e w).2) w).2,
        seen ++ es.flatMap fun e => (Bus.reached verdict e (order e)).map (·, e)) := by
  induction es generalizing w seen with
  | nil => simp
  | cons e es ih =>
    rw [List.foldl_cons, List.foldl_cons, watched_publish, hv.callsOf_eq e (order e) w, ih,
      List.append_assoc, List.flatMap_cons]

/-- Whichever handlers fail on which events once the batch is stored, and as long as the version is a
machine word: the save succeeds, the handle is committed, nothing is done but what the handlers do,
and the calls are those of each event when it is published alone. -/
theorem failures_contained [EventPayload π] (r : Repository π κ σ α β) (b : Bus η)
    (order : EventMessage π → List η)
    (react : η → EventMessage π → Action (α × β) (DomainError κ) Unit)
    (verdict : η → EventMessage π → Option (DomainError κ)) (expected : Option Nat)
    (a : Aggregate π σ) (n : String) (s s' : α) (w : β)
    (hb : ∀ e, b.Order e.eventType (order e)) (hv : Bus.Settled verdict react)
    (hn : r.streamOf a = some n) (hp : a.changes ≠ [])
    (hstored : r.store.save n (outgoing a) (some (expected.getD a.version))
      (commonHeaders (r.behavior.typeTag a.state)) s = (.ok (), s'))
    (hfit : expected.getD a.version + a.changes.length < sizeLimit) :
    let start := expected.getD a.version
    let saved := (r.onBus order react).save expected (a, s, w)
    let events := numbered start (outgoing a)
    let calls := events.flatMap fun e => Bus.callsOf react e (order e) (s', w)
    saved = (.ok (), a.committedAt start, Bus.worldAfter react calls (s', w)) ∧
    (r.watched order react).save expected (a, s, w, []) =
      (saved.1, saved.2.1, saved.2.2.1, saved.2.2.2, calls) ∧
    ((r.onBus order react).KeepsStore → saved.2.2.1 = s') ∧
    (∀ e, ∃ called, Bus.Reaches verdict e (order e) called ∧
      ∀ alone, Bus.callsOf react e (order e) alone = called.map (·, e)) ∧
    ∀ e, (∀ handler ∈ order e, verdict handler e = none) →
      ∀ alone, (Bus.callsOf react e (order e) alone).length = b.handlerCount e.eventType := by
  intro start saved events calls
  have hcalls : calls = events.flatMap fun e => (Bus.reached verdict e (order e)).map (·, e) :=
    congrArg (events.flatMap ·) (funext fun e => hv.callsOf_eq e (order e) (s', w))
  have hfinish : saved = (r.onBus order react).finish start (a, s', w) :=
    (r.onBus order react).save_stored hn hp hstored w
  have hwatched : (r.watched order react).save expected (a, s, w, []) =
      (r.watched order react).finish start (a, s', w, []) :=
    (r.watched order react).save_stored hn hp hstored (w, [])
  have hsaved : saved = (.ok (), a.committedAt start, Bus.worldAfter react calls (s', w)) := by
    rw [hfinish, finish_eq (r.onBus_returned hv) hfit, r.onBus_world hv, ← hcalls]
  refine ⟨hsaved, ?_, ?_, ?_, ?_⟩
  · rw [hwatched, finish_eq (r.watched_returned hv) hfit,
      r.watched_world hv events (s', w) [], r.onBus_world hv, ← hcalls, hsaved, List.nil_append]
  · intro hk
    rw [hfinish]
    exact hk.finish start a s' w
  · intro e
    exact ⟨Bus.reached verdict e (order e), Bus.reaches_reached verdict e (order e),
      hv.callsOf_eq e (order e)⟩
  · intro e hall alone
    rw [hv.callsOf_eq, Bus.reached_of_forall hall, List.length_map]
    exact (hb e).length_eq

/-- The first event stops at the handler that fails on it. The second one goes out all the same. -/
theorem failures_contained_audit :
    let b : Bus String := ⟨[("InventoryItemCreated", "audit"), ("InventoryItemCreated", "stock"),
      ("ItemsCheckedIntoInventory", "stock")], [], []⟩
    let verdict : String → EventMessage Inventory.Event → Option (DomainError Inventory.Command) :=
      fun handler _ => if handler = "audit" then some (.eventHandler handler "offline") else none
    let react : String → EventMessage Inventory.Event →
        Action Inventory.State (DomainError Inventory.Command) Unit :=
      fun handler e w => ((verdict handler e).elim (.ok ()) .fail, w)
    let r := Inventory.App.repository fun _ => ⟨"", .epoch⟩
    let order := fun e : EventMessage Inventory.Event => b.targets e.eventType
    let a : Aggregate Inventory.Event Inventory.Item :=
      ⟨⟨"bolts", 0, [.new "bolts" (.created "bolt"), .new "bolts" (.checkedIn 3)]⟩, ⟨true, 3⟩⟩
    let onBus := { r with publish := Bus.publish (fun _ => b) react }
    let saved := onBus.save none (a, .empty, .empty)
    let noted := ((r.watched order react).save none (a, .empty, .empty, [])).2.2.2.2
    r.streamOf a = some "InventoryItem-bolts" ∧ a.changes ≠ [] ∧ a.version + 2 < sizeLimit ∧
      saved.1 = .ok () ∧ saved.2.1.version = 2 ∧ saved.2.1.changes = [] ∧
      noted.map (fun call => (call.1, call.2.version)) =
        [("audit", some 1), ("stock", some 2)] := by
  intro b verdict react r order a onBus saved noted
  have hb : ∀ e, b.Order e.eventType (order e) := fun e => b.order_targets e.eventType
  have hv : Bus.Settled verdict react := fun _ _ _ => rfl
  have hn : r.streamOf a = some "InventoryItem-bolts" := rfl
  have hp : a.changes ≠ [] := List.cons_ne_nil _ _
  have hfit : a.version + 2 < sizeLimit := by decide
  obtain ⟨hsaved, hnoted, -, -, -⟩ :=
    r.failures_contained b order react verdict none a _ .empty _ .empty hb hv hn hp rfl hfit
  rw [r.onBus_targets react b] at hsaved
  have hcalls := congrArg (fun out => out.2.2.2.2) hnoted
  refine ⟨hn, hp, hfit, congrArg Prod.fst hsaved, ?_, ?_, ?_⟩
  · exact congrArg (fun out => out.2.1.version) hsaved
  · exact congrArg (fun out => out.2.1.changes) hsaved
  · exact (congrArg (List.map _) hcalls).trans rfl

end OnBus

end Repository

end EventSourcing
