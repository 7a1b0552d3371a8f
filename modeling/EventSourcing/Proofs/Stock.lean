import EventSourcing.Proofs.FreshLoad
import EventSourcing.Proofs.Serializability
import Mathlib.Data.List.Induction

/-!
The stock of an item is what was checked in less what was removed. At every point of every stream it
is a number that the count of the item can hold, however the handling of commands was interleaved:
what is appended was raised by an item that had replayed the whole stream, and is not raised if the
count cannot take it. So loading an item does not take its count out of range, and gives the stock.
-/

namespace EventSourcing.Inventory

def Event.movement : Event → Int
  | .created _ => 0
  | .renamed _ => 0
  | .checkedIn count => count.toNat
  | .removed count => -count.toNat
  | .deactivated => 0

/-- What these events leave in stock, as an exact number. -/
def stock : List Event → Int
  | [] => 0
  | e :: es => e.movement + stock es

@[simp] theorem stock_nil : stock [] = 0 := rfl

@[simp] theorem stock_cons (e : Event) (es : List Event) :
    stock (e :: es) = e.movement + stock es := rfl

@[simp] theorem stock_append (es es' : List Event) : stock (es ++ es') = stock es + stock es' := by
  induction es with
  | nil => simp
  | cons e es ih =>
    rw [List.cons_append, stock_cons, stock_cons, ih]
    omega

def Event.recount (n : UInt32) : Event → Except Overflow UInt32
  | .created _ => .ok n
  | .renamed _ => .ok n
  | .checkedIn count => addCount n count
  | .removed count => subCount n count
  | .deactivated => .ok n

theorem Event.recount_eq_ok {e : Event} {n n' : UInt32} (h : e.recount n = .ok n') :
    (n'.toNat : Int) = n.toNat + e.movement := by
  cases e with
  | created name =>
    obtain rfl := Except.ok.inj h
    simp [movement]
  | renamed newName =>
    obtain rfl := Except.ok.inj h
    simp [movement]
  | checkedIn count =>
    have hsum := toNat_of_addCount h
    simp only [movement]
    omega
  | removed count =>
    have hdifference := toNat_of_subCount h
    simp only [movement]
    omega
  | deactivated =>
    obtain rfl := Except.ok.inj h
    simp [movement]

theorem Event.recount_overflow {e : Event} {n : UInt32} {o : Overflow} (h : e.recount n = .error o) :
    (o = .addition ∧ ∃ count, e = .checkedIn count ∧ UInt32.size ≤ n.toNat + count.toNat) ∨
    (o = .subtraction ∧ ∃ count, e = .removed count ∧ n.toNat < count.toNat) := by
  cases e with
  | created name => nomatch h
  | renamed newName => nomatch h
  | checkedIn count =>
    obtain ⟨ho, hlarge⟩ := addCount_eq_error.1 h
    exact Or.inl ⟨ho, count, rfl, hlarge⟩
  | removed count =>
    obtain ⟨ho, hsmall⟩ := subCount_eq_error.1 h
    exact Or.inr ⟨ho, count, rfl, hsmall⟩
  | deactivated => nomatch h

/-- Only a count that would leave its range overflows. -/
theorem Event.recount_eq_error {e : Event} {n : UInt32} {o : Overflow} (h : e.recount n = .error o) :
    (n.toNat : Int) + e.movement < 0 ∨ UInt32.size ≤ (n.toNat : Int) + e.movement := by
  rcases recount_overflow h with ⟨-, count, rfl, hlarge⟩ | ⟨-, count, rfl, hsmall⟩
  · right
    simp only [movement]
    omega
  · left
    simp only [movement]
    omega

namespace Item

theorem change_eq (item : Item) (e : Event) :
    ∃ activated, item.change e = (e.recount item.count).map fun n => ⟨activated, n⟩ := by
  cases e with
  | created name => exact ⟨true, rfl⟩
  | renamed newName => exact ⟨item.activated, rfl⟩
  | checkedIn count => exact ⟨item.activated, rfl⟩
  | removed count => exact ⟨item.activated, rfl⟩
  | deactivated => exact ⟨false, rfl⟩

theorem count_change {item item' : Item} {e : Event} (h : item.change e = .ok item') :
    (item'.count.toNat : Int) = item.count.toNat + e.movement := by
  obtain ⟨activated, hchange⟩ := item.change_eq e
  rw [hchange] at h
  rcases hn : e.recount item.count with o | n <;> rw [hn] at h
  · nomatch h
  · obtain rfl := Except.ok.inj h
    exact Event.recount_eq_ok hn

theorem recount_of_overflow {item : Item} {e : Event} {o : Overflow} (h : item.change e = .error o) :
    e.recount item.count = .error o := by
  obtain ⟨activated, hchange⟩ := item.change_eq e
  rw [hchange] at h
  rcases hn : e.recount item.count with o' | n <;> rw [hn] at h
  · rw [Except.error.inj h]
  · nomatch h

/-- The count is the stock as long as it can be counted. -/
theorem count_fold {es : List Event} {item item' : Item} (h : es.foldlM change item = .ok item') :
    (item'.count.toNat : Int) = item.count.toNat + stock es := by
  induction es generalizing item with
  | nil =>
    obtain rfl := Except.ok.inj h
    simp
  | cons e es ih =>
    rw [List.foldlM_cons] at h
    rcases hc : item.change e with o | mid <;> rw [hc] at h
    · nomatch h
    · have hfirst := count_change hc
      have hrest := ih h
      rw [stock_cons]
      omega

theorem fold_take {es : List Event} {item item' : Item} (h : es.foldlM change item = .ok item')
    (k : Nat) : ∃ mid, (es.take k).foldlM change item = .ok mid := by
  rw [← List.take_append_drop k es, List.foldlM_append] at h
  rcases hk : (es.take k).foldlM change item with o | mid <;> rw [hk] at h
  · nomatch h
  · exact ⟨mid, rfl⟩

end Item

/-- The records hold these events, which were applied to a new item one after another and have made
it this one. -/
structure History (rs : List Record) (es : List Event) (item : Item) : Prop where
  recorded : Along (Repository.Bears App.events) 0 es rs
  applied : es.foldlM Item.change Item.initial = .ok item

def eventsOf (rs : List Record) : List Event :=
  rs.filterMap fun r => (App.events.decode? r.eventType r.payload).bind Except.toOption

namespace History

variable {rs : List Record} {es : List Event} {item : Item}

theorem new : History [] [] Item.initial := ⟨Along.nil, rfl⟩

theorem eventsOf_eq (h : History rs es item) : eventsOf rs = es := by
  have hread : ∀ {p es rs}, Along (Repository.Bears App.events) p es rs → eventsOf rs = es := by
    intro p es rs hbears
    induction hbears with
    | nil => rfl
    | cons hr _ ih =>
      unfold eventsOf at ih ⊢
      rw [List.filterMap_cons, hr.payload, ih]
      rfl
  exact hread h.recorded

theorem count_eq_stock (h : History rs es item) : (item.count.toNat : Int) = stock es := by
  have hcount := Item.count_fold h.applied
  rw [hcount]
  simp [Item.initial]

theorem stock_bounds (h : History rs es item) (k : Nat) :
    0 ≤ stock (es.take k) ∧ stock (es.take k) < UInt32.size := by
  obtain ⟨mid, hmid⟩ := Item.fold_take h.applied k
  have hcount : (mid.count.toNat : Int) = Item.initial.count.toNat + stock (es.take k) :=
    Item.count_fold hmid
  have hzero : Item.initial.count.toNat = 0 := rfl
  have hlt : mid.count.toNat < UInt32.size := mid.count.toNat_lt
  omega

end History

namespace App

open CommandMapping

variable {stamp : Nat → Stamp} {c : CommandMessage Command} {a handled : Aggregate Event Item}
  {n : String} {log : EventLog} {es : List Event} {item : Item}

/-- What commands are loaded for are items, each with the stream of its id. -/
theorem replay_of_loadsFrom {rs : List Record}
    (h : LoadsFrom mapping (repository stamp) c n rs a) :
    n = StreamNamer.defaultName Item.typeTag c.aggregateId ∧
      Repository.replay Item.behavior events c.aggregateId rs (Item.new c.aggregateId) = .ok a := by
  obtain ⟨type, made, f, -, hp, hr⟩ := h
  obtain ⟨registered, namer, name, hag, hmake, hna, hfind, rfl, hev⟩ := Repository.prepare_eq_ok hp
  obtain rfl := Option.some.inj hag
  obtain rfl := Option.some.inj hna
  obtain rfl := Option.some.inj hev
  obtain ⟨rfl, rfl⟩ := make?_eq_some hmake
  obtain rfl := Option.some.inj hfind
  exact ⟨rfl, hr⟩

/-- An item that has replayed the whole stream goes on with its history. -/
theorem history_raised (h : History (log.stream n) es item)
    (hl : LoadsFrom mapping (repository stamp) c n (log.stream n) a)
    (ha : Acceptable (repository stamp) c a handled n log) {common : Headers} {rs : List Record}
    (hb : Record.Batch n common (log.version n) (Repository.outgoing handled) rs) :
    ∃ e, item.change e = .ok handled.state ∧
      Repository.outgoing handled = [(EventMessage.new c.aggregateId e).withHeader
        Headers.aggregateId (.text c.aggregateId)] ∧
      History (log.stream n ++ rs) (es ++ [e]) handled.state := by
  obtain ⟨-, hreplay⟩ := replay_of_loadsFrom hl
  have hstate : es.foldlM Item.change Item.initial = .ok a.state :=
    (registered stamp).fold_of_replay h.recorded rfl hreplay
  obtain rfl : item = a.state := Except.ok.inj (h.applied.symm.trans hstate)
  have hbase := hl.base_new Item.tracksOnly (buildsNew stamp)
  obtain ⟨e, item, -, hchange, rfl⟩ := Item.handle_eq_ok ha.handles
  have hout : Repository.outgoing (⟨a.base.trackChange (.new a.id e), item⟩ : Aggregate Event Item) =
      [(EventMessage.new c.aggregateId e).withHeader Headers.aggregateId (.text c.aggregateId)] := by
    simp only [Repository.outgoing, Aggregate.changes, Aggregate.id, hbase]
    rfl
  have hbears := Repository.bears_of_batch hb fun _ _ => restores _
  rw [hout] at hbears
  refine ⟨e, hchange, hout, ?_, ?_⟩
  · have hplace : log.version n = 0 + es.length := by
      rw [Nat.zero_add]
      exact h.recorded.length_eq
    rw [hplace] at hbears
    exact h.recorded.append hbears
  · rw [List.foldlM_append, h.applied]
    simp only [List.foldlM_cons, List.foldlM_nil, bind, Except.bind, hchange]
    rfl

def Recorded (log : EventLog) : Prop := ∀ n, ∃ es item, History (log.stream n) es item

theorem recorded_empty : Recorded .empty := fun _ => ⟨[], Item.initial, History.new⟩

theorem Recorded.append (h : Recorded log)
    (hl : LoadsFrom mapping (repository stamp) c n (log.stream n) a)
    (ha : Acceptable (repository stamp) c a handled n log) {common : Headers} {rs : List Record}
    (hb : Record.Batch n common (log.version n) (Repository.outgoing handled) rs) :
    Recorded (log.append rs) := by
  intro m
  by_cases hm : m = n
  · subst hm
    obtain ⟨es, item, hist⟩ := h m
    obtain ⟨e, -, -, hist'⟩ := history_raised hist hl ha hb
    rw [EventLog.stream_append_self log hb.stream_eq]
    exact ⟨_, _, hist'⟩
  · rw [EventLog.stream_append_ne log hb.stream_eq hm]
    exact h m

theorem Recorded.move {p : Progress Event Command Item EventLog View} (h : Recorded p.world.1)
    (hfl : ∀ x ∈ p.inFlight, InFlight mapping (repository stamp) p.world.1 x)
    (mv : Move Command) : Recorded (mapping.move (repository stamp) p mv).world.1 := by
  rcases move_cases (m := mapping) (r := repository stamp) (keepsStore stamp) stamp p mv with
    ⟨hw, -, -⟩ | ⟨c, a, handled, n, rs, e, hmem, ha, happ, hlog, -, -, -, -⟩
  · rw [show (mapping.move (repository stamp) p mv).world = p.world from hw]
    exact h
  · rw [show (mapping.move (repository stamp) p mv).world.1 = p.world.1.append rs from hlog]
    rcases happ with ⟨-, hb⟩ | ⟨-, rfl⟩
    · -- the version check sees to it that the aggregate in flight has replayed all of the stream
      have hl := (hfl _ hmem).current Item.tracksOnly (buildsFresh stamp) ha
      exact h.append hl ha hb
    · rw [EventLog.append_nil]
      exact h

theorem recorded_interleave (stamp : Nat → Stamp) (moves : List (Move Command)) :
    Recorded (mapping.interleave (repository stamp) moves (.empty, .empty)).world.1 := by
  induction moves using List.reverseRecOn with
  | nil => exact recorded_empty
  | append_singleton moves mv ih =>
    rw [interleave_concat]
    have hserial : Serial mapping (repository stamp) .empty
        (mapping.interleave (repository stamp) moves (.empty, .empty)) :=
      Serial.interleave (r := repository stamp) Item.tracksOnly
        (buildsFresh stamp) (keepsStore stamp) moves .empty
    exact ih.move hserial.inFlight mv

theorem load_eq (stamp : Nat → Stamp) (id : String) (s : State) :
    load stamp id s = (repository stamp).load Item.typeTag id s := by
  unfold load Repository.loadTyped
  rcases (repository stamp).load Item.typeTag id s with ⟨fault | a, s'⟩ <;> rfl

/-- Loading makes the item of the history, if the records can be counted. -/
theorem load_of_history (stamp : Nat → Stamp) {id : String}
    (h : History (log.stream (StreamNamer.defaultName Item.typeTag id)) es item)
    (hfit : log.version (StreamNamer.defaultName Item.typeTag id) < sizeLimit) (view : View) :
    load stamp id (log, view) = (.ok ⟨⟨id, es.length, []⟩, item⟩, (log, view)) := by
  have hprepare : (repository stamp).prepare Item.typeTag id =
    .ok (Item.new id, StreamNamer.defaultName Item.typeTag id, events) := rfl
  have hlength : es.length < sizeLimit := by
    rw [← h.recorded.length_eq]
    exact hfit
  have hreplay := (registered stamp).replay_records h.recorded id rfl h.applied
    (by rw [Nat.zero_add]; exact hlength)
  rw [Nat.zero_add] at hreplay
  rw [load_eq]
  have hload := Repository.load_of_prepare hprepare stamp log view
  rw [show (repository stamp).load Item.typeTag id (log, view) = _ from hload]
  exact congrArg (·, (log, view)) hreplay

end App

/-- Whatever commands were handled, and however loading and saving were interleaved: each stream
holds events whose stock is at no point less than nothing or more than the count can hold, so that
they can all be applied, and an item that is loaded has them all counted. Beside that, records can
only be counted up to the size of a machine word. -/
theorem stock_in_range (stamp : Nat → Stamp) (moves : List (CommandMapping.Move Command)) :
    let log := (App.mapping.interleave (App.repository stamp) moves (.empty, .empty)).world.1
    ∀ n, ∃ es item, History (log.stream n) es item ∧
      (∀ k, 0 ≤ stock (es.take k) ∧ stock (es.take k) < UInt32.size) ∧
      (item.count.toNat : Int) = stock es ∧
      ∀ id view, n = StreamNamer.defaultName Item.typeTag id → log.version n < sizeLimit →
        ∃ a, App.load stamp id (log, view) = (.ok a, (log, view)) ∧ a.state = item := by
  intro log n
  obtain ⟨es, item, h⟩ := App.recorded_interleave stamp moves n
  refine ⟨es, item, h, h.stock_bounds, h.count_eq_stock, ?_⟩
  rintro id view rfl hfit
  exact ⟨_, App.load_of_history stamp h hfit view, rfl⟩

/-- Two removals are loaded for the same item, which has enough for one of them. -/
def removalRace : CommandMapping.Progress Event Command Item EventLog View :=
  App.mapping.interleave (App.repository fun _ => ⟨"", .epoch⟩)
    [.start (.new "bolts" (.checkIn 3)), .complete 0, .start (.new "bolts" (.remove 2)),
      .start (.new "bolts" (.remove 2)), .complete 0, .complete 0] (.empty, .empty)

theorem stock_in_range_race :
    removalRace.ended.length = 3 ∧ removalRace.stored.length = 2 ∧
      ∃ item, History (removalRace.world.1.stream "InventoryItem-bolts")
          [.checkedIn 3, .removed 2] item ∧ item.count.toNat = 1 ∧
        ∃ a, App.load (fun _ => ⟨"", .epoch⟩) "bolts" removalRace.world =
          (.ok a, removalRace.world) ∧ a.state = item := by
  have hfit : removalRace.world.1.version "InventoryItem-bolts" < sizeLimit := by decide
  have hevents : eventsOf (removalRace.world.1.stream "InventoryItem-bolts") =
    [.checkedIn 3, .removed 2] := by rfl
  obtain ⟨es, item, h, -, hcount, hload⟩ :=
    stock_in_range (fun _ => ⟨"", .epoch⟩) _ "InventoryItem-bolts"
  obtain rfl : [.checkedIn 3, .removed 2] = es := hevents.symm.trans h.eventsOf_eq
  have hstock : stock [.checkedIn 3, .removed 2] = 1 := by decide
  exact ⟨rfl, rfl, item, h, by omega, hload "bolts" removalRace.world.2 rfl hfit⟩

end EventSourcing.Inventory
