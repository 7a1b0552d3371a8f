import EventSourcing.Inventory.App
import EventSourcing.Proofs.Saving

/-!
What may be asked of the parts that are registered with a repository: that aggregates leave their
base alone but for tracking new events, that constructors make new aggregates of the type asked
for, that decoders read back what was written. The inventory application does all of this.
-/

namespace EventSourcing

variable {π κ σ α β : Type}

/-- Aggregates keep their type; applying and handling leave the base alone but for tracking new
events. -/
structure Behavior.TracksOnly (b : Behavior π κ σ) : Prop where
  apply : ∀ {a e applied}, b.apply a e false = .ok applied →
    applied.base = a.base ∧ b.typeTag applied.state = b.typeTag a.state
  handle : ∀ {c a handled}, b.handle c a = (.ok (), handled) →
    b.typeTag handled.state = b.typeTag a.state ∧
      ∃ es, handled.base = { a.base with changes := a.changes ++ es }

namespace Repository

/-- Constructors make aggregates of the type and id that was asked for, with nothing stored. -/
def BuildsFresh (r : Repository π κ σ α β) : Prop :=
  ∀ aggregates type id a, r.aggregates = some aggregates → aggregates.make? type id = some a →
    r.behavior.typeTag a.state = type ∧ a.id = id ∧ a.version = 0

def BuildsNamed (r : Repository π κ σ α β) : Prop :=
  ∀ aggregates type id a, r.aggregates = some aggregates → aggregates.make? type id = some a →
    r.behavior.typeTag a.state = type ∧ a.id = id

def BuildsNew (r : Repository π κ σ α β) : Prop :=
  ∀ aggregates type id a, r.aggregates = some aggregates → aggregates.make? type id = some a →
    r.behavior.typeTag a.state = type ∧ a.base = .new id

theorem BuildsFresh.buildsNamed {r : Repository π κ σ α β} (hf : r.BuildsFresh) : r.BuildsNamed := by
  intro aggregates type id a hr ha
  obtain ⟨htype, hid, -⟩ := hf aggregates type id a hr ha
  exact ⟨htype, hid⟩

theorem BuildsNew.buildsFresh {r : Repository π κ σ α β} (hn : r.BuildsNew) : r.BuildsFresh := by
  intro aggregates type id a hr ha
  obtain ⟨htype, hbase⟩ := hn aggregates type id a hr ha
  exact ⟨htype, congrArg AggregateBase.id hbase, congrArg AggregateBase.version hbase⟩

theorem streamOf_of_handle {r : Repository π κ σ α β} (hb : r.behavior.TracksOnly)
    {c : CommandMessage κ} {a handled : Aggregate π σ}
    (h : r.behavior.handle c a = (.ok (), handled)) : r.streamOf handled = r.streamOf a := by
  obtain ⟨htag, es, hbase⟩ := hb.handle h
  unfold streamOf
  rw [htag, Aggregate.id, hbase]
  rfl

/-- What the payload is written as, the decoder of its tag reads back. -/
def Restores [EventPayload π] (f : EventFactory π) (p : π) : Prop :=
  ∀ j, EventPayload.encode p = .ok j → f.decode? (EventPayload.tag p) j = some (.ok p)

theorem Restores.decode [EventPayload π] {f : EventFactory π} {e : EventMessage π}
    (h : Restores f e.payload) {n : String} {common : Headers} {p : Nat} {r : Record}
    (hr : Record.Holds n common p e r) :
    f.decode? r.eventType r.payload = some (.ok e.payload) := by
  rw [hr.eventType]
  exact h r.payload hr.payload

structure Bears (f : EventFactory π) (place : Nat) (p : π) (r : Record) : Prop where
  payload : f.decode? r.eventType r.payload = some (.ok p)
  position : r.position = place

/-- Records that events were written out to hold the payloads of the events. -/
theorem bears_of_batch [EventPayload π] {f : EventFactory π} {n : String} {common : Headers}
    {place : Nat} {es : List (EventMessage π)} {rs : List Record}
    (hb : Record.Batch n common place es rs) (hres : ∀ e ∈ es, Restores f e.payload) :
    Along (Bears f) place (es.map (·.payload)) rs := by
  induction hb with
  | nil => exact Along.nil
  | cons hr _ ih =>
    obtain ⟨he, hrest⟩ := List.forall_mem_cons.1 hres
    exact Along.cons ⟨he.decode hr, hr.position⟩ (ih hrest)

/-- The type is registered with constructor, stream name and decoders, and its aggregates change
their state by the payloads of events alone and track new events only. -/
structure Registered (r : Repository π κ σ α β) (type : String) (initial : String → σ)
    (change : σ → π → Except Overflow σ) (f : EventFactory π) : Prop where
  make : ∃ aggregates, r.aggregates = some aggregates ∧
    ∀ id, aggregates.make? type id = some (Aggregate.new (initial id) id)
  name : ∃ namer name, r.namer = some namer ∧ namer.find? type = some name
  events : r.events = some f
  initial_type : ∀ id, r.behavior.typeTag (initial id) = type
  apply : ∀ {a : Aggregate π σ} (e : EventMessage π) (isNew : Bool),
    r.behavior.typeTag a.state = type → r.behavior.apply a e isNew =
      (change a.state e.payload).map fun s => ⟨if isNew then a.base.trackChange e else a.base, s⟩
  change_type : ∀ {s p s'}, r.behavior.typeTag s = type → change s p = .ok s' →
    r.behavior.typeTag s' = type

end Repository

namespace Reader

theorem count_toNat (n : UInt32) : count (.int n.toNat) = .ok n := by
  have hlt : (n.toNat : Int) < UInt32.size := Int.ofNat_lt.2 n.toNat_lt
  simp only [count, integer, Int.natCast_nonneg, hlt, and_self, if_true]
  exact congrArg Except.ok UInt32.ofNat_toNat

theorem record_required (expected name : String) (make : α → β) {r : Reader α} {j : Json} {a : α}
    (h : r j = .ok a) :
    record expected ((Fields.of make).required name r) (.object [(name, j)]) = .ok (make a) := by
  simp only [record, fromMembers, Fields.of, Fields.required, List.nil_append, checkMembers,
    checkOf, memberOf, if_true, h]
  rfl

end Reader

namespace Inventory

theorem Item.apply_eq (a : Aggregate Event Item) (e : EventMessage Event) (isNew : Bool) :
    Item.apply a e isNew = (a.state.change e.payload).map fun item =>
      ⟨if isNew then a.base.trackChange e else a.base, item⟩ := by
  unfold Item.apply
  cases isNew <;> rfl

/-- A command that is accepted has raised one event, which was applied. -/
theorem Item.handle_eq_ok {c : CommandMessage Command} {a handled : Aggregate Event Item}
    (h : Item.handle c a = (.ok (), handled)) :
    ∃ e item, a.state.decide c.payload = .ok e ∧ a.state.change e = .ok item ∧
      handled = ⟨a.base.trackChange (.new a.id e), item⟩ := by
  unfold Item.handle at h
  rcases hd : a.state.decide c.payload with reason | e
  · rw [hd] at h; nomatch h
  · simp only [hd, Item.apply_eq] at h
    rcases hc : a.state.change e with o | item
    · rw [show a.state.change (EventMessage.new a.id e).payload = .error o from hc] at h
      nomatch h
    · rw [show a.state.change (EventMessage.new a.id e).payload = .ok item from hc] at h
      exact ⟨e, item, rfl, hc, (Prod.mk.inj h).2.symm⟩

theorem Item.tracksOnly : Item.behavior.TracksOnly where
  apply := by
    intro a e applied h
    rw [show Item.behavior.apply a e false = Item.apply a e false from rfl, Item.apply_eq] at h
    rcases hc : a.state.change e.payload with o | item
    · rw [hc] at h; nomatch h
    · rw [hc] at h
      obtain rfl := Except.ok.inj h
      exact ⟨rfl, rfl⟩
  handle := by
    intro c a handled h
    obtain ⟨e, item, -, -, rfl⟩ := Item.handle_eq_ok h
    exact ⟨rfl, [.new a.id e], rfl⟩

namespace App

/-- Putting an event on the bus is a matter of the view alone. -/
theorem publish_eq (e : EventMessage Event) (log : EventLog) (view : View) :
    publish e (log, view) = ((Bus.publish (fun _ => bus) (fun _ => View.handle) e view).1,
      (log, (Bus.publish (fun _ => bus) (fun _ => View.handle) e view).2)) := by
  unfold publish Bus.publish
  generalize bus.targets e.eventType = targets
  induction targets generalizing view with
  | nil => rfl
  | cons handler rest ih =>
    simp only [Bus.deliver, react]
    rcases view.handle e with ⟨_ | _, view'⟩
    · rfl
    · exact ih view'

theorem keepsStore (stamp : Nat → Stamp) : (repository stamp).KeepsStore := by
  intro e log view
  exact congrArg (·.2.1) (publish_eq e log view)

theorem make?_eq_some {type id : String} {a : Aggregate Event Item}
    (h : aggregates.make? type id = some a) : Item.typeTag = type ∧ a = .new Item.initial id := by
  unfold AggregateFactory.make? Registry.find? aggregates at h
  by_cases ht : Item.typeTag = type
  · simp only [List.find?_cons, ht, beq_self_eq_true] at h
    exact ⟨ht, (Option.some.inj h).symm⟩
  · simp [ht] at h

theorem buildsNew (stamp : Nat → Stamp) : (repository stamp).BuildsNew := by
  intro registered type id a hr h
  obtain rfl := Option.some.inj hr
  obtain ⟨rfl, rfl⟩ := make?_eq_some h
  exact ⟨rfl, rfl⟩

theorem buildsFresh (stamp : Nat → Stamp) : (repository stamp).BuildsFresh :=
  (buildsNew stamp).buildsFresh

theorem registered (stamp : Nat → Stamp) :
    (repository stamp).Registered Item.typeTag (fun _ => Item.initial) Item.change events where
  make := ⟨aggregates, rfl, fun _ => rfl⟩
  name := ⟨namer, StreamNamer.defaultName, rfl, rfl⟩
  events := rfl
  initial_type := fun _ => rfl
  apply := fun {a} e isNew _ => Item.apply_eq a e isNew
  change_type := fun _ _ => rfl

theorem restores (e : Event) : Repository.Restores events e := by
  rintro j h
  obtain rfl := Except.ok.inj h
  cases e with
  | created name =>
    exact congrArg some
      (Reader.record_required "struct InventoryItemCreated" "name" Event.created rfl)
  | renamed newName =>
    exact congrArg some
      (Reader.record_required "struct InventoryItemRenamed" "new_name" Event.renamed rfl)
  | checkedIn count =>
    exact congrArg some (Reader.record_required "struct ItemsCheckedIntoInventory" "count"
      Event.checkedIn (Reader.count_toNat count))
  | removed count =>
    exact congrArg some (Reader.record_required "struct ItemsRemovedFromInventory" "count"
      Event.removed (Reader.count_toNat count))
  | deactivated => rfl

end App

end Inventory

end EventSourcing
