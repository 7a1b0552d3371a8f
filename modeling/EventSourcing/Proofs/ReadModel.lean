import EventSourcing.Proofs.Dispatch
import EventSourcing.Proofs.Stock
import Mathlib.Data.List.DropRight

/-!
The view beside the items. Deactivating an item removes its entry from the view, but the item keeps
its count and goes on handling commands. So an entry shows what happened since the item was last
deactivated: the name it was given since, and the stock without what was left behind then. If
nothing was left behind, the count is that of the item.
-/

namespace EventSourcing

theorem StreamNamer.defaultName_inj {tag id id' : String} :
    defaultName tag id = defaultName tag id' ↔ id = id' :=
  String.append_right_inj _

namespace Inventory

open StreamNamer (defaultName)

def Event.name? : Event → Option String
  | .created name => some name
  | .renamed newName => some newName
  | .checkedIn _ => none
  | .removed _ => none
  | .deactivated => none

def lastName (es : List Event) : String := (es.filterMap Event.name?).getLastD ""

def sinceDeactivated (es : List Event) : List Event := es.rtakeWhile fun e => e ≠ .deactivated

/-- The stock that was there when the item was last deactivated. -/
def leftBehind (es : List Event) : Int := stock (es.rdropWhile fun e => e ≠ .deactivated)

/-- At no point was more removed since the item was last deactivated than was checked in since. -/
def Covered (es : List Event) : Prop := ∀ k, 0 ≤ stock ((sinceDeactivated es).take k)

theorem lastName_concat (es : List Event) (e : Event) :
    lastName (es ++ [e]) = e.name?.getD (lastName es) := by
  unfold lastName
  rw [List.filterMap_append]
  cases h : e.name? with
  | none => simp [h]
  | some name => simp [h]

theorem sinceDeactivated_deactivated (es : List Event) :
    sinceDeactivated (es ++ [.deactivated]) = [] :=
  List.rtakeWhile_concat_neg _ es .deactivated (by simp)

theorem sinceDeactivated_concat (es : List Event) {e : Event} (h : e ≠ .deactivated) :
    sinceDeactivated (es ++ [e]) = sinceDeactivated es ++ [e] :=
  List.rtakeWhile_concat_pos _ es e (by simpa using h)

theorem stock_take (es : List Event) (k : Nat) :
    ∃ j, stock (es.take j) = leftBehind es + stock ((sinceDeactivated es).take k) := by
  refine ⟨(es.rdropWhile fun e => e ≠ .deactivated).length + k, ?_⟩
  have hsplit : (es.rdropWhile fun e => e ≠ .deactivated) ++ sinceDeactivated es = es :=
    List.rdropWhile_append_rtakeWhile
  nth_rewrite 2 [← hsplit]
  rw [List.take_length_add_append, stock_append]
  rfl

theorem stock_eq (es : List Event) : stock es = leftBehind es + stock (sinceDeactivated es) := by
  unfold leftBehind sinceDeactivated
  rw [← stock_append, List.rdropWhile_append_rtakeWhile]

section Events

variable {es : List Event} {e : Event}

theorem stock_sinceDeactivated_concat (hne : e ≠ .deactivated) :
    stock (sinceDeactivated (es ++ [e])) = stock (sinceDeactivated es) + e.movement := by
  rw [sinceDeactivated_concat es hne, stock_append, stock_cons, stock_nil, Int.add_zero]

theorem covered_of_concat (hne : e ≠ .deactivated) (h : Covered (es ++ [e])) : Covered es := by
  intro k
  have hk := h (min k (sinceDeactivated es).length)
  rw [sinceDeactivated_concat es hne, List.take_append_of_le_length (Nat.min_le_right _ _)] at hk
  rwa [← List.take_eq_take_min] at hk

/-- What was checked in since the last deactivation and covers what was removed since is a count: it
is no more than the whole stock. -/
theorem range_of_covered (h : Covered es)
    (hrange : ∀ k, 0 ≤ stock (es.take k) ∧ stock (es.take k) < UInt32.size) :
    0 ≤ stock (sinceDeactivated es) ∧ stock (sinceDeactivated es) < UInt32.size := by
  have hlow := h (sinceDeactivated es).length
  rw [List.take_length] at hlow
  obtain ⟨j, hj⟩ := stock_take es 0
  have hleft := (hrange j).1
  rw [hj, List.take_zero, stock_nil, Int.add_zero] at hleft
  have hall := (hrange es.length).2
  rw [List.take_length, stock_eq] at hall
  omega

end Events

namespace View

variable {d d' : Detail} {e : Event} {v : View} {msg : EventMessage Event}

theorem change_eq (d : Detail) (e : Event) :
    change d e = (e.recount d.count).map fun n =>
      { d with name := e.name?.getD d.name, count := n } := by
  cases e <;> rfl

theorem change_eq_ok (h : change d e = .ok d') :
    (d'.count.toNat : Int) = d.count.toNat + e.movement ∧ d'.name = e.name?.getD d.name := by
  rw [change_eq] at h
  rcases hn : e.recount d.count with o | n <;> rw [hn] at h
  · nomatch h
  · obtain rfl := Except.ok.inj h
    exact ⟨Event.recount_eq_ok hn, rfl⟩

theorem recount_of_overflow {o : Overflow} (h : change d e = .error o) :
    e.recount d.count = .error o := by
  rw [change_eq] at h
  rcases hn : e.recount d.count with o' | n <;> rw [hn] at h
  · rw [Except.error.inj h]
  · nomatch h

theorem change_eq_error {o : Overflow} (h : change d e = .error o) :
    (d.count.toNat : Int) + e.movement < 0 ∨ UInt32.size ≤ (d.count.toNat : Int) + e.movement :=
  Event.recount_eq_error (recount_of_overflow h)

theorem name?_of_overflow {o : Overflow} (h : change d e = .error o) : e.name? = none := by
  cases e with
  | created name => nomatch h
  | renamed newName => nomatch h
  | checkedIn count => rfl
  | removed count => rfl
  | deactivated => nomatch h

theorem handle_of_deactivated (h : msg.payload = .deactivated) :
    v.handle msg = (.ok (), v.erase msg.aggregateId) := by
  unfold handle
  rw [if_pos h]

def entry (v : View) (id : String) : Detail := (v.get? id).getD ⟨"", 0, none⟩

theorem handle_of_ok (hne : msg.payload ≠ .deactivated)
    (h : change (v.entry msg.aggregateId) msg.payload = .ok d) :
    v.handle msg = (.ok (), v.put msg.aggregateId { d with version := msg.version }) := by
  unfold handle
  rw [if_neg hne]
  simp only [show change ((v.get? msg.aggregateId).getD ⟨"", 0, none⟩) msg.payload = .ok d from h]

theorem handle_of_overflow {o : Overflow} (hne : msg.payload ≠ .deactivated)
    (h : change (v.entry msg.aggregateId) msg.payload = .error o) :
    v.handle msg = (.error (.overflow o), v.put msg.aggregateId (v.entry msg.aggregateId)) := by
  unfold handle
  rw [if_neg hne]
  simp only [show change ((v.get? msg.aggregateId).getD ⟨"", 0, none⟩) msg.payload = .error o from h]
  rfl

theorem handle_cases (v : View) (msg : EventMessage Event) :
    (v.handle msg).1 = .ok () ∨ ∃ o, (v.handle msg).1 = .error (.overflow o) := by
  by_cases hd : msg.payload = .deactivated
  · rw [handle_of_deactivated hd]
    exact Or.inl rfl
  · rcases hc : change (v.entry msg.aggregateId) msg.payload with o | d
    · rw [handle_of_overflow hd hc]
      exact Or.inr ⟨o, rfl⟩
    · rw [handle_of_ok hd hc]
      exact Or.inl rfl

theorem get?_handle_ne {other : String} (h : other ≠ msg.aggregateId) :
    (v.handle msg).2.get? other = v.get? other := by
  by_cases hd : msg.payload = .deactivated
  · rw [handle_of_deactivated hd]
    exact get?_erase_ne v h
  · rcases hc : change (v.entry msg.aggregateId) msg.payload with o | d
    · rw [handle_of_overflow hd hc]
      exact get?_put_ne v _ h
    · rw [handle_of_ok hd hc]
      exact get?_put_ne v _ h

end View

/-- What the view has of an item with these events. Its count is that of the stock checked in since
the item was last deactivated; only if that could not cover all that was removed since, the count
went astray. -/
structure Shows (es : List Event) (shown : Option Detail) : Prop where
  gone : sinceDeactivated es = [] → shown = none
  present : sinceDeactivated es ≠ [] → ∃ d, shown = some d ∧ d.name = lastName (sinceDeactivated es) ∧
    (Covered es → (d.count.toNat : Int) = stock (sinceDeactivated es) ∧
      d.version = some es.length)

namespace Shows

variable {es : List Event} {e : Event} {v : View} {id : String} {msg : EventMessage Event}

theorem new : Shows [] none := ⟨fun _ => rfl, fun h => absurd rfl h⟩

theorem entry (h : Shows es (v.get? id)) : (v.entry id).name = lastName (sinceDeactivated es) ∧
    (Covered es → ((v.entry id).count.toNat : Int) = stock (sinceDeactivated es)) := by
  unfold View.entry
  by_cases hs : sinceDeactivated es = []
  · rw [h.gone hs, hs]
    exact ⟨rfl, fun _ => rfl⟩
  · obtain ⟨d, hd, hname, hcount⟩ := h.present hs
    rw [hd]
    exact ⟨hname, fun hcovered => (hcount hcovered).1⟩

/-- The view takes an event of an item whose stock stays in the range of the count. -/
theorem handled (h : Shows es (v.get? msg.aggregateId)) (hpayload : msg.payload = e)
    (hversion : msg.version = some (es.length + 1))
    (hrange : ∀ k, 0 ≤ stock ((es ++ [e]).take k) ∧ stock ((es ++ [e]).take k) < UInt32.size) :
    Shows (es ++ [e]) ((v.handle msg).2.get? msg.aggregateId) := by
  subst hpayload
  by_cases hd : msg.payload = .deactivated
  · rw [View.handle_of_deactivated hd, hd]
    have hnone := sinceDeactivated_deactivated es
    exact ⟨fun _ => View.get?_erase_self v _, fun hs => absurd hnone hs⟩
  · obtain ⟨hname, hcount⟩ := h.entry
    have hsince := sinceDeactivated_concat es hd
    have hsome : sinceDeactivated (es ++ [msg.payload]) ≠ [] := by
      rw [hsince]
      simp
    rcases hc : View.change (v.entry msg.aggregateId) msg.payload with o | d
    · rw [View.handle_of_overflow hd hc]
      refine ⟨fun hs => absurd hs hsome, fun _ => ⟨_, View.get?_put_self v _ _, ?_, fun hcov => ?_⟩⟩
      · rw [hsince, lastName_concat, View.name?_of_overflow hc]
        exact hname
      · -- the count of the entry is that of the covered stock, which does not overflow
        have hbefore := hcount (covered_of_concat hd hcov)
        have hout := View.change_eq_error hc
        have hfits := range_of_covered hcov hrange
        rw [stock_sinceDeactivated_concat hd, ← hbefore] at hfits
        omega
    · rw [View.handle_of_ok hd hc]
      obtain ⟨hchange, hrename⟩ := View.change_eq_ok hc
      refine ⟨fun hs => absurd hs hsome, fun _ => ⟨_, View.get?_put_self v _ _, ?_, fun hcov => ?_⟩⟩
      · rw [hsince, lastName_concat, ← hname]
        exact hrename
      · have hbefore := hcount (covered_of_concat hd hcov)
        refine ⟨?_, ?_⟩
        · rw [stock_sinceDeactivated_concat hd, ← hbefore]
          exact hchange
        · rw [List.length_append]
          exact hversion

end Shows

namespace App

open CommandMapping

variable {log : EventLog} {view : View}

theorem mapping_of_find? {t : String} {m : CommandMapping} (h : dispatcher.find? t = some m) :
    m = mapping := by
  obtain ⟨entry, hfind, rfl⟩ := Option.map_eq_some_iff.1 h
  obtain ⟨t', -, rfl⟩ := List.mem_map.1 (List.mem_of_find?_eq_some hfind)
  rfl

/-- Every event goes to the view, and to nobody else. -/
theorem publish_view (e : EventMessage Event) (log : EventLog) (view : View) :
    publish e (log, view) = ((view.handle e).1, (log, (view.handle e).2)) := by
  have htargets : bus.targets e.eventType = [.view] := by
    unfold EventMessage.eventType
    cases e.payload <;> rfl
  rw [publish_eq]
  unfold Bus.publish
  rw [htargets]
  simp only [Bus.deliver]
  rcases view.handle e with ⟨_ | _, view'⟩ <;> rfl

/-- One event that is stored is handled by the view with its number. The view returns no errors: what
it does not take ends the save. -/
theorem finish_eq (stamp : Nat → Stamp) {a : Aggregate Event Item} {e : EventMessage Event}
    (h : Repository.outgoing a = [e]) {start : Nat} (hlt : start + 1 < sizeLimit) (log : EventLog)
    (view : View) :
    (repository stamp).finish start (a, log, view) =
      ((view.handle (e.withVersion (some (start + 1)))).1, a.committedAt start, log,
        (view.handle (e.withVersion (some (start + 1)))).2) := by
  have hone : a.changes.length = 1 := by
    rw [← Repository.length_outgoing, h]
    rfl
  rcases (repository stamp).finish_cases start a (log, view) with ⟨hle, -⟩ | ⟨-, hf⟩
  · rw [hone] at hle
    omega
  · have hplace : Repository.placeOf start 0 = .ok (start + 1) :=
      Repository.placeOf_eq_ok.2 ⟨hlt, rfl⟩
    have hpublish := publish_view (e.withVersion (some (start + 1))) log view
    rw [hf, h]
    simp only [Repository.publishFrom, hplace]
    rw [show (repository stamp).publish (e.withVersion (some (start + 1))) (log, view) = _ from
      hpublish]
    rcases view.handle_cases (e.withVersion (some (start + 1))) with hview | ⟨o, hview⟩ <;>
      rw [hview]

theorem view_finish (stamp : Nat → Stamp) {a : Aggregate Event Item} {e : EventMessage Event}
    (h : Repository.outgoing a = [e]) (start : Nat) (log : EventLog) (view : View) :
    ((repository stamp).finish start (a, log, view)).2.2.2 =
      if start + 1 < sizeLimit then (view.handle (e.withVersion (some (start + 1)))).2 else view := by
  by_cases hlt : start + 1 < sizeLimit
  · rw [finish_eq stamp h hlt, if_pos hlt]
  · rcases (repository stamp).finish_cases start a (log, view) with ⟨-, hf⟩ | ⟨hfit, -⟩
    · rw [hf, if_neg hlt]
    · have hone : a.changes.length = 1 := by
        rw [← Repository.length_outgoing, h]
        rfl
      omega

theorem get?_finish_ne (stamp : Nat → Stamp) {a : Aggregate Event Item} {e : EventMessage Event}
    (h : Repository.outgoing a = [e]) {other : String} (hne : other ≠ e.aggregateId) (start : Nat)
    (log : EventLog) (view : View) :
    ((repository stamp).finish start (a, log, view)).2.2.2.get? other = view.get? other := by
  rw [view_finish stamp h]
  split
  · exact View.get?_handle_ne hne
  · rfl

/-- A dispatch leaves all as it is, or it stores and publishes what an item raised that had replayed
the whole stream of its id. -/
theorem run_cases (stamp : Nat → Stamp) (c : CommandMessage Command) (log : EventLog) (view : View) :
    let done := dispatcher.run (repository stamp) c (log, view)
    let n := defaultName Item.typeTag c.aggregateId
    done.2 = (log, view) ∨
    ∃ a handled rs, LoadsFrom mapping (repository stamp) c n (log.stream n) a ∧
      Acceptable (repository stamp) c a handled n log ∧
      Record.Batch n (Repository.commonHeaders Item.typeTag) (log.version n)
        (Repository.outgoing handled) rs ∧
      done.2 = ((repository stamp).finish (log.version n) (handled, log.append rs, view)).2.2 := by
  intro done n
  rcases dispatcher.run_cases (repository stamp) stamp c log view with
    ⟨fault, hrun, -⟩ | ⟨m, a, k, hd, hl, hrun⟩
  · exact Or.inl (congrArg Prod.snd hrun)
  · obtain rfl := mapping_of_find? hd
    obtain ⟨rfl, -⟩ := replay_of_loadsFrom hl
    rcases handleAndSave_cases (repository stamp) stamp c a log view with
      ⟨hsame, -⟩ | ⟨handled, k, ha⟩
    · exact Or.inl ((congrArg Prod.snd hrun).trans hsame)
    · have hstream : (repository stamp).streamOf handled = some n :=
        (Repository.streamOf_of_handle Item.tracksOnly ha.handles).trans
          (LoadsFrom.streamOf Item.tracksOnly (buildsFresh stamp).buildsNamed hl)
      obtain rfl : n = k := Option.some.inj (hstream.symm.trans ha.stream)
      have hdone := hrun.trans (handleAndSave_of_ok (repository stamp) stamp ha.handles log view)
      rcases (repository stamp).save_cases stamp none (a := handled) log view with
        ⟨hsame, -⟩ | ⟨k, rs, hk, -, -, hb, hsave⟩
      · exact Or.inl ((congrArg Prod.snd hdone).trans (congrArg Prod.snd hsame))
      · obtain rfl : n = k := Option.some.inj (ha.stream.symm.trans hk)
        rw [hsave] at hdone
        exact Or.inr ⟨a, handled, rs, hl, ha, hb, congrArg Prod.snd hdone⟩

/-- Every item has a history, and is shown as its history says as long as its records can be
counted. -/
def Mirrors (log : EventLog) (view : View) : Prop :=
  ∀ id, ∃ es item, History (log.stream (defaultName Item.typeTag id)) es item ∧
    (log.version (defaultName Item.typeTag id) < sizeLimit → Shows es (view.get? id))

theorem mirrors_empty : Mirrors .empty .empty :=
  fun _ => ⟨[], Item.initial, History.new, fun _ => Shows.new⟩

theorem Mirrors.run (h : Mirrors log view) (stamp : Nat → Stamp) (c : CommandMessage Command) :
    Mirrors (dispatcher.run (repository stamp) c (log, view)).2.1
      (dispatcher.run (repository stamp) c (log, view)).2.2 := by
  rcases run_cases stamp c log view with hsame | ⟨a, handled, rs, hl, ha, hb, hdone⟩
  · rw [hsame]
    exact h
  · obtain ⟨es, item, hist, hshows⟩ := h c.aggregateId
    obtain ⟨e, -, hout, hist'⟩ := history_raised hist hl ha hb
    rw [hdone, Repository.KeepsStore.finish (keepsStore stamp)]
    intro id
    by_cases hid : id = c.aggregateId
    · subst hid
      have hone : rs.length = 1 := by
        rw [hb.length_eq, hout]
        rfl
      have hcount : es.length = log.version (defaultName Item.typeTag c.aggregateId) :=
        hist.recorded.length_eq.symm
      rw [EventLog.stream_append_self log hb.stream_eq, EventLog.version_append_self log hb.stream_eq,
        hone]
      refine ⟨es ++ [e], handled.state, hist', fun hfit => ?_⟩
      rw [view_finish stamp hout, if_pos hfit]
      refine (hshows (Nat.lt_of_succ_lt hfit)).handled rfl ?_ hist'.stock_bounds
      rw [hcount]
      rfl
    · have hne : defaultName Item.typeTag id ≠ defaultName Item.typeTag c.aggregateId :=
        fun heq => hid (StreamNamer.defaultName_inj.1 heq)
      rw [EventLog.version, EventLog.stream_append_ne log hb.stream_eq hne,
        get?_finish_ne stamp hout hid]
      exact h id

theorem Mirrors.runAll (h : Mirrors log view) (stamp : Nat → Stamp)
    (cs : List (CommandMessage Command)) :
    Mirrors (dispatcher.runAll (repository stamp) cs (log, view)).1
      (dispatcher.runAll (repository stamp) cs (log, view)).2 := by
  induction cs generalizing log view with
  | nil => exact h
  | cons c cs ih => exact ih (h.run stamp c)

end App

theorem covered_of_none_left {rs : List Record} {es : List Event} {item : Item}
    (h : History rs es item) (hleft : leftBehind es = 0) : Covered es := by
  intro k
  obtain ⟨j, hj⟩ := stock_take es k
  have hlow := (h.stock_bounds j).1
  omega

/-- After any commands, dispatched one after another: an item that is deactivated, or that never was
there, has no entry in the view. Any other has one, with the last name it was given since it was last
deactivated; with the length of its stream for a version; and with the count of the item as it is
loaded, less the stock that was left behind when it was last deactivated. Version and count are as
they should be unless more was removed since then than was checked in, which cannot be if nothing
was left behind. -/
theorem view_since_deactivation (stamp : Nat → Stamp) (cs : List (CommandMessage Command)) :
    let world := App.dispatcher.runAll (App.repository stamp) cs (.empty, .empty)
    ∀ id, world.1.version (defaultName Item.typeTag id) < sizeLimit →
      ∃ es a, History (world.1.stream (defaultName Item.typeTag id)) es a.state ∧
        App.load stamp id world = (.ok a, world) ∧
        (sinceDeactivated es = [] → world.2.get? id = none) ∧
        (sinceDeactivated es ≠ [] → ∃ d, world.2.get? id = some d ∧
          d.name = lastName (sinceDeactivated es) ∧
          (Covered es → (d.count.toNat : Int) + leftBehind es = a.state.count.toNat ∧
            d.version = some (world.1.version (defaultName Item.typeTag id)))) ∧
        (leftBehind es = 0 → Covered es) := by
  intro world id hfit
  have hmirrors : App.Mirrors world.1 world.2 := App.mirrors_empty.runAll stamp cs
  obtain ⟨es, item, hist, hshows⟩ := hmirrors id
  obtain ⟨hgone, hpresent⟩ := hshows hfit
  refine ⟨es, ⟨⟨id, es.length, []⟩, item⟩, hist, App.load_of_history stamp hist hfit world.2, hgone,
    fun hsince => ?_, covered_of_none_left hist⟩
  obtain ⟨d, hd, hname, hcount⟩ := hpresent hsince
  refine ⟨d, hd, hname, fun hcovered => ?_⟩
  obtain ⟨hstock, hversion⟩ := hcount hcovered
  refine ⟨?_, ?_⟩
  · have hall : (item.count.toNat : Int) = stock es := hist.count_eq_stock
    rw [stock_eq] at hall
    show (d.count.toNat : Int) + leftBehind es = item.count.toNat
    omega
  · rw [hversion, EventLog.version, hist.recorded.length_eq]

def soldOut : State :=
  App.dispatcher.runAll (App.repository fun _ => ⟨"", .epoch⟩) [.new "bolts" (.create "bolt"),
    .new "bolts" (.checkIn 5), .new "bolts" (.remove 5), .new "bolts" .deactivate,
    .new "bolts" (.checkIn 2)] (.empty, .empty)

theorem view_since_deactivation_sold_out :
    soldOut.1.version "InventoryItem-bolts" < sizeLimit ∧
      ∃ a d, App.load (fun _ => ⟨"", .epoch⟩) "bolts" soldOut = (.ok a, soldOut) ∧
        soldOut.2.get? "bolts" = some d ∧ d.count.toNat = a.state.count.toNat ∧
        d.version = some 5 := by
  have hfit : soldOut.1.version "InventoryItem-bolts" < sizeLimit := by decide
  have hevents : eventsOf (soldOut.1.stream "InventoryItem-bolts") =
    [.created "bolt", .checkedIn 5, .removed 5, .deactivated, .checkedIn 2] := by rfl
  obtain ⟨es, a, h, hload, -, hpresent, hcovered⟩ :=
    view_since_deactivation (fun _ => ⟨"", .epoch⟩) _ "bolts" hfit
  obtain rfl := hevents.symm.trans h.eventsOf_eq
  have hleft : leftBehind [.created "bolt", .checkedIn 5, .removed 5, .deactivated, .checkedIn 2] = 0 := by
    decide
  obtain ⟨d, hd, -, hcount⟩ := hpresent (by decide)
  obtain ⟨hsame, hversion⟩ := hcount (hcovered hleft)
  exact ⟨hfit, a, d, hload, hd, by omega, hversion⟩

/-- Five are left behind when the item is deactivated. The item goes on with them, the view does
not, nor does it have the name of the item. -/
theorem view_forgets_stock :
    let world := App.dispatcher.runAll (App.repository fun _ => ⟨"", .epoch⟩)
      [.new "bolts" (.create "bolt"), .new "bolts" (.checkIn 5), .new "bolts" .deactivate,
        .new "bolts" (.checkIn 2)] (.empty, .empty)
    (world.1.stream "InventoryItem-bolts").map (·.eventType) =
        ["InventoryItemCreated", "ItemsCheckedIntoInventory", "InventoryItemDeactivated",
          "ItemsCheckedIntoInventory"] ∧
      (App.load (fun _ => ⟨"", .epoch⟩) "bolts" world).1.toOption.map (·.state.count) = some 7 ∧
      world.2.get? "bolts" = some ⟨"", 2, some 4⟩ :=
  ⟨rfl, rfl, rfl⟩

end Inventory

end EventSourcing
