import EventSourcing.Proofs.ReadModel

/-!
When a command aborts. Checking in is not refused when the count of the item cannot take it, so then
the item overflows and nothing is stored. Removing is refused when the item has not enough, but the
view has no more than was checked in since the item was last deactivated: a removal that takes of
what was left behind then is stored, and the view overflows. Every other command comes to an end,
accepted or refused.
-/

namespace EventSourcing.Inventory

open StreamNamer (defaultName)

/-- How a command aborts for an item with these events, if it does. -/
def abortOf (es : List Event) : Command → Option Overflow
  | .create _ => none
  | .rename _ => none
  | .checkIn count => if UInt32.size ≤ stock es + count.toNat then some .addition else none
  | .remove count =>
    if count.toNat ≤ stock es ∧ stock (sinceDeactivated es) < count.toNat then some .subtraction
    else none
  | .deactivate => none

theorem abortOf_eq_some {es : List Event} {c : Command} {o : Overflow} :
    abortOf es c = some o ↔
      (o = .addition ∧ ∃ count, c = .checkIn count ∧ UInt32.size ≤ stock es + count.toNat) ∨
      (o = .subtraction ∧ ∃ count, c = .remove count ∧ count.toNat ≤ stock es ∧
        stock (sinceDeactivated es) < count.toNat) := by
  cases c with
  | checkIn count => simp [abortOf, eq_comm, and_comm]
  | remove count => simp [abortOf, eq_comm, and_comm]
  | create name => simp [abortOf]
  | rename newName => simp [abortOf]
  | deactivate => simp [abortOf]

/-- Only what was left behind when the item was deactivated can be removed without the view having
it. -/
theorem leftBehind_of_abortOf {es : List Event} {c : Command} (h : abortOf es c = some .subtraction) :
    0 < leftBehind es := by
  rcases abortOf_eq_some.1 h with ⟨ho, -⟩ | ⟨-, count, -, hall, hsince⟩
  · nomatch ho
  · have hsplit := stock_eq es
    omega

theorem History.leftBehind_nonneg {rs : List Record} {es : List Event} {item : Item}
    (h : History rs es item) : 0 ≤ leftBehind es := by
  obtain ⟨j, hj⟩ := stock_take es 0
  have hlow := (h.stock_bounds j).1
  rwa [hj, List.take_zero, stock_nil, Int.add_zero] at hlow

theorem covered_concat {es : List Event} {e : Event} (h : Covered es)
    (he : e ≠ .deactivated → 0 ≤ stock (sinceDeactivated es) + e.movement) : Covered (es ++ [e]) := by
  intro k
  by_cases hd : e = .deactivated
  · rw [hd, sinceDeactivated_deactivated]
    simp
  · rw [sinceDeactivated_concat es hd]
    by_cases hk : k ≤ (sinceDeactivated es).length
    · rw [List.take_append_of_le_length hk]
      exact h k
    · rw [List.take_of_length_le (by rw [List.length_append, List.length_singleton]; omega),
        stock_append, stock_cons, stock_nil, Int.add_zero]
      exact he hd

def Command.event : Command → Event
  | .create name => .created name
  | .rename newName => .renamed newName
  | .checkIn count => .checkedIn count
  | .remove count => .removed count
  | .deactivate => .deactivated

theorem Command.event_injective : Function.Injective event := by
  intro c c' h
  cases c <;> cases c' <;> simp_all [event]

theorem Item.decide_eq_ok {item : Item} {c : Command} {e : Event} (h : item.decide c = .ok e) :
    e = c.event ∧ ∀ count, c = .remove count → count.toNat ≤ item.count.toNat := by
  cases c with
  | deactivate =>
    simp only [decide] at h
    split at h
    · exact ⟨(Except.ok.inj h).symm, nofun⟩
    · nomatch h
  | remove count =>
    simp only [decide] at h
    split at h
    · nomatch h
    · rename_i hle
      refine ⟨(Except.ok.inj h).symm, fun count' hc => ?_⟩
      obtain rfl := Command.remove.inj hc
      exact UInt32.le_iff_toNat_le.1 (UInt32.not_lt.1 hle)
  | _ =>
    simp only [decide] at h
    split at h
    · nomatch h
    · exact ⟨(Except.ok.inj h).symm, nofun⟩

section Accounts

variable {es : List Event} {item item' : Item} {c : Command} {e : Event} {o : Overflow}

theorem abortOf_of_refused (hcount : (item.count.toNat : Int) = stock es) {reason : String}
    (h : item.decide c = .error reason) : abortOf es c = none := by
  have hlt : item.count.toNat < UInt32.size := item.count.toNat_lt
  by_contra hsome
  obtain ⟨o, ho⟩ := Option.ne_none_iff_exists'.1 hsome
  rcases abortOf_eq_some.1 ho with ⟨-, count, rfl, hout⟩ | ⟨-, count, rfl, hall, -⟩
  · simp only [Item.decide] at h
    split at h
    · rename_i hzero
      rw [hzero, UInt32.toNat_zero] at hout
      omega
    · nomatch h
  · simp only [Item.decide] at h
    split at h
    · rename_i hlow
      have := UInt32.lt_iff_toNat_lt.1 hlow
      omega
    · nomatch h

theorem abortOf_of_overflow (hcount : (item.count.toNat : Int) = stock es)
    (h : item.decide c = .ok e) (hc : item.change e = .error o) :
    o = .addition ∧ abortOf es c = some .addition := by
  obtain ⟨rfl, hhas⟩ := Item.decide_eq_ok h
  rcases Event.recount_overflow (Item.recount_of_overflow hc) with
    ⟨rfl, count, he, hsize⟩ | ⟨rfl, count, he, hlow⟩
  · obtain rfl : c = .checkIn count := Command.event_injective he
    exact ⟨rfl, abortOf_eq_some.2 (Or.inl ⟨rfl, count, rfl, by omega⟩)⟩
  · have hle := hhas count (Command.event_injective he)
    omega

/-- What an item takes, the view takes too, if it does not remove more than the view has. -/
theorem abortOf_of_shown (hcount : (item.count.toNat : Int) = stock es)
    (h : item.decide c = .ok e) (hc : item.change e = .ok item') {d : Detail}
    (hd : (d.count.toNat : Int) = stock (sinceDeactivated es))
    (hle : stock (sinceDeactivated es) ≤ stock es) :
    (∀ o, View.change d e = .error o → o = .subtraction ∧ abortOf es c = some .subtraction) ∧
    (∀ d', View.change d e = .ok d' → abortOf es c = none) := by
  obtain ⟨rfl, hhas⟩ := Item.decide_eq_ok h
  have hitem := Item.count_change hc
  have hlt : item'.count.toNat < UInt32.size := item'.count.toNat_lt
  constructor
  · intro o hview
    rcases Event.recount_overflow (View.recount_of_overflow hview) with
      ⟨rfl, count, he, hsize⟩ | ⟨rfl, count, he, hlow⟩
    · -- the item has at least as much, and took it
      rw [he, Event.movement] at hitem
      omega
    · obtain rfl : c = .remove count := Command.event_injective he
      have hall := hhas count rfl
      exact ⟨rfl, abortOf_eq_some.2 (Or.inr ⟨rfl, count, rfl, by omega, by omega⟩)⟩
  · intro d' hview
    have hshown := (View.change_eq_ok hview).1
    by_contra hsome
    obtain ⟨o, ho⟩ := Option.ne_none_iff_exists'.1 hsome
    rcases abortOf_eq_some.1 ho with ⟨-, count, rfl, hsize⟩ | ⟨-, count, rfl, -, hsince⟩
    · rw [Command.event, Event.movement] at hitem
      omega
    · rw [Command.event, Event.movement] at hshown
      omega

end Accounts

namespace Item

variable {c : CommandMessage Command} {a : Aggregate Event Item} {e : Event}

theorem handle_of_refused {reason : String} (h : a.state.decide c.payload = .error reason) :
    handle c a = (.fail (.commandExecution c reason), a) := by
  unfold handle
  rw [h]

theorem handle_of_overflow {o : Overflow} (h : a.state.decide c.payload = .ok e)
    (hc : a.state.change e = .error o) : handle c a = (.error (.overflow o), a) := by
  unfold handle
  rw [h]
  simp only [apply_eq, show a.state.change (EventMessage.new a.id e).payload = .error o from hc,
    Except.map]

theorem handle_of_ok {item : Item} (h : a.state.decide c.payload = .ok e)
    (hc : a.state.change e = .ok item) :
    handle c a = (.ok (), ⟨a.base.trackChange (.new a.id e), item⟩) := by
  unfold handle
  rw [h]
  simp only [apply_eq, show a.state.change (EventMessage.new a.id e).payload = .ok item from hc,
    Except.map]
  rfl

end Item

namespace App

open CommandMapping

variable {stamp : Nat → Stamp} {c : CommandMessage Command} {log : EventLog} {view : View}
  {es : List Event} {item : Item}

theorem dispatcher_find? (c : CommandMessage Command) :
    dispatcher.find? c.commandType = some mapping := by
  unfold CommandMessage.commandType
  cases c.payload <;> rfl

theorem mapping_find? (c : CommandMessage Command) :
    mapping.find? c.commandType = some Item.typeTag := by
  unfold CommandMessage.commandType
  cases c.payload <;> rfl

theorem loadsFrom_of_history (stamp : Nat → Stamp)
    (h : History (log.stream (defaultName Item.typeTag c.aggregateId)) es item)
    (hfit : log.version (defaultName Item.typeTag c.aggregateId) < sizeLimit) :
    LoadsFrom mapping (repository stamp) c (defaultName Item.typeTag c.aggregateId)
      (log.stream (defaultName Item.typeTag c.aggregateId))
      ⟨⟨c.aggregateId, es.length, []⟩, item⟩ := by
  have hlength : 0 + es.length < sizeLimit := by
    rw [Nat.zero_add, ← h.recorded.length_eq]
    exact hfit
  have hreplay := (registered stamp).replay_records h.recorded c.aggregateId rfl h.applied hlength
  rw [Nat.zero_add] at hreplay
  exact ⟨Item.typeTag, Item.new c.aggregateId, events, mapping_find? c, rfl, hreplay⟩

theorem run_of_history (stamp : Nat → Stamp)
    (h : History (log.stream (defaultName Item.typeTag c.aggregateId)) es item)
    (hfit : log.version (defaultName Item.typeTag c.aggregateId) < sizeLimit) (view : View) :
    dispatcher.run (repository stamp) c (log, view) =
      handleAndSave (repository stamp) c ⟨⟨c.aggregateId, es.length, []⟩, item⟩ (log, view) := by
  have hload := loadFor_of_loadsFrom (loadsFrom_of_history stamp h hfit) stamp view
  unfold Dispatcher.run Dispatcher.dispatch
  rw [dispatcher_find?]
  simp only [CommandMapping.handle]
  rw [show mapping.loadFor (repository stamp) c (log, view) = _ from hload]

/-- The event of a command is stored behind these, and the view handles it with its number. -/
structure Shown (stamp : Nat → Stamp) (c : CommandMessage Command) (log : EventLog) (view : View)
    (es : List Event) (e : Event) (item : Item) (rs : List Record) (msg : EventMessage Event) :
    Prop where
  stream : ∀ r ∈ rs, r.stream = defaultName Item.typeTag c.aggregateId
  one : rs.length = 1
  history : History (log.stream (defaultName Item.typeTag c.aggregateId) ++ rs) (es ++ [e]) item
  payload : msg.payload = e
  aggregateId : msg.aggregateId = c.aggregateId
  version : msg.version = some (es.length + 1)
  done : dispatcher.run (repository stamp) c (log, view) =
    ((view.handle msg).1.mapError .domain, (log.append rs, (view.handle msg).2))

theorem shown_of_handle (stamp : Nat → Stamp)
    (h : History (log.stream (defaultName Item.typeTag c.aggregateId)) es item)
    (hfit : log.version (defaultName Item.typeTag c.aggregateId) + 1 < sizeLimit) (view : View)
    {e : Event} {item' : Item} (hd : item.decide c.payload = .ok e)
    (hc : item.change e = .ok item') : ∃ rs msg, Shown stamp c log view es e item' rs msg := by
  have hhandle : Item.handle c ⟨⟨c.aggregateId, es.length, []⟩, item⟩ =
      (.ok (), ⟨⟨c.aggregateId, es.length, [.new c.aggregateId e]⟩, item'⟩) :=
    Item.handle_of_ok hd hc
  have hcount : es.length = log.version (defaultName Item.typeTag c.aggregateId) :=
    h.recorded.length_eq.symm
  have hacc : Acceptable (repository stamp) c ⟨⟨c.aggregateId, es.length, []⟩, item⟩
      ⟨⟨c.aggregateId, es.length, [.new c.aggregateId e]⟩, item'⟩
      (defaultName Item.typeTag c.aggregateId) log := {
    handles := hhandle
    stream := rfl
    changes := List.cons_ne_nil _ _
    accepts := ⟨hcount, fun _ _ => ⟨_, rfl⟩⟩ }
  obtain ⟨rs, hb, hsave⟩ :=
    (repository stamp).save_accepted stamp none log view hacc.stream hacc.changes hacc.accepts
      (Nat.le_of_lt hfit)
  obtain ⟨e', -, hout, hist⟩ :=
    history_raised h (loadsFrom_of_history stamp h (Nat.lt_of_succ_lt hfit)) hacc hb
  obtain rfl : e = e' := congrArg EventMessage.payload (List.cons.inj hout).1
  refine ⟨rs, ((EventMessage.new c.aggregateId e).withHeader Headers.aggregateId
    (.text c.aggregateId)).withVersion (some (es.length + 1)), {
      stream := hb.stream_eq
      one := by
        rw [hb.length_eq, hout]
        rfl
      history := hist
      payload := rfl
      aggregateId := rfl
      version := rfl
      done := ?_ }⟩
  have hdone := handleAndSave_of_ok (repository stamp) stamp hhandle log view
  have hfinish := finish_eq stamp hout hfit (log.append rs) view
  rw [hsave, show ((repository stamp).onLog stamp).finish _ _ = _ from hfinish, ← hcount] at hdone
  exact (run_of_history stamp h (Nat.lt_of_succ_lt hfit) view).trans hdone

/-- A command for an item whose records can be counted is refused, or overflows the item, or its event
is stored and shown. -/
theorem run_cases_of_history (stamp : Nat → Stamp)
    (h : History (log.stream (defaultName Item.typeTag c.aggregateId)) es item)
    (hfit : log.version (defaultName Item.typeTag c.aggregateId) + 1 < sizeLimit) (view : View) :
    (∃ reason, item.decide c.payload = .error reason ∧
      dispatcher.run (repository stamp) c (log, view) =
        (.fail (.domain (.commandExecution c reason)), (log, view))) ∨
    (∃ e o, item.decide c.payload = .ok e ∧ item.change e = .error o ∧
      dispatcher.run (repository stamp) c (log, view) = (.error (.overflow o), (log, view))) ∨
    ∃ e item' rs msg, item.decide c.payload = .ok e ∧ item.change e = .ok item' ∧
      Shown stamp c log view es e item' rs msg := by
  have hrun := run_of_history (c := c) stamp h (Nat.lt_of_succ_lt hfit) view
  rcases hd : item.decide c.payload with reason | e
  · exact Or.inl ⟨reason, rfl, hrun.trans
      (handleAndSave_of_error (repository stamp) stamp (Item.handle_of_refused hd) log view)⟩
  · rcases hc : item.change e with o | item'
    · exact Or.inr (Or.inl ⟨e, o, rfl, hc, hrun.trans
        (handleAndSave_of_error (repository stamp) stamp (Item.handle_of_overflow hd hc) log view)⟩)
    · obtain ⟨rs, msg, hshown⟩ := shown_of_handle stamp h hfit view hd hc
      exact Or.inr (Or.inr ⟨e, item', rs, msg, rfl, hc, hshown⟩)

/-- How a dispatch ends for an item with these events. What overflows the item leaves everything as it
was. What overflows the view was left behind when the item was deactivated, and its removal is
stored. -/
structure Ends (es : List Event) (c : CommandMessage Command) (before after : State)
    (out : Outcome (AppError Command) Unit) : Prop where
  aborted : ∀ o, out = .error (.overflow o) ↔ abortOf es c.payload = some o
  returned : out.Returned ↔ abortOf es c.payload = none
  kept : abortOf es c.payload = some .addition → after = before
  stored : abortOf es c.payload = some .subtraction → 0 < leftBehind es ∧
    ∃ count item, c.payload = .remove count ∧
      History (after.1.stream (defaultName Item.typeTag c.aggregateId)) (es ++ [.removed count]) item ∧
      after.2.entry c.aggregateId = before.2.entry c.aggregateId

theorem ends_of_returned {before after : State} {out : Outcome (AppError Command) Unit}
    (hout : out.Returned) (hnone : abortOf es c.payload = none) : Ends es c before after out where
  aborted := fun o => by
    rw [hnone]
    refine ⟨fun h => ?_, fun h => nomatch h⟩
    rw [h] at hout
    exact hout.elim
  returned := ⟨fun _ => hnone, fun _ => hout⟩
  kept := fun h => nomatch hnone.symm.trans h
  stored := fun h => nomatch hnone.symm.trans h

theorem ends_of_abort {before after : State} {o : Overflow} (habort : abortOf es c.payload = some o)
    (hkept : o = .addition → after = before)
    (hstored : o = .subtraction → 0 < leftBehind es ∧ ∃ count item, c.payload = .remove count ∧
      History (after.1.stream (defaultName Item.typeTag c.aggregateId)) (es ++ [.removed count]) item ∧
      after.2.entry c.aggregateId = before.2.entry c.aggregateId) :
    Ends es c before after (.error (.overflow o)) where
  aborted := fun o' => by
    rw [habort]
    simp
  returned := by
    rw [habort]
    exact ⟨fun h => h.elim, fun h => nomatch h⟩
  kept := fun h => hkept (Option.some.inj (habort.symm.trans h))
  stored := fun h => hstored (Option.some.inj (habort.symm.trans h))

theorem ends_of_shown (h : History (log.stream (defaultName Item.typeTag c.aggregateId)) es item)
    {e : Event} {item' : Item} {rs : List Record} {msg : EventMessage Event}
    (hd : item.decide c.payload = .ok e) (hc : item.change e = .ok item')
    (hshown : Shown stamp c log view es e item' rs msg)
    (hentry : ((view.entry c.aggregateId).count.toNat : Int) = stock (sinceDeactivated es)) :
    Ends es c (log, view) (dispatcher.run (repository stamp) c (log, view)).2
      (dispatcher.run (repository stamp) c (log, view)).1 := by
  have hsplit := stock_eq es
  have hleft := h.leftBehind_nonneg
  obtain ⟨hover, hfits⟩ := abortOf_of_shown h.count_eq_stock hd hc hentry (by omega)
  have hview : View.change (view.entry msg.aggregateId) msg.payload =
      View.change (view.entry c.aggregateId) e := by
    rw [hshown.payload, hshown.aggregateId]
  rw [hshown.done]
  by_cases hdeactivated : msg.payload = .deactivated
  · have hchange : View.change (view.entry c.aggregateId) e = .ok (view.entry c.aggregateId) := by
      rw [← hshown.payload, hdeactivated]
      rfl
    rw [View.handle_of_deactivated hdeactivated]
    exact ends_of_returned trivial (hfits _ hchange)
  · rcases hv : View.change (view.entry c.aggregateId) e with o | d
    · obtain ⟨rfl, habort⟩ := hover o hv
      obtain ⟨-, count, hremove, hall, -⟩ := (abortOf_eq_some.1 habort).resolve_left (by simp)
      obtain rfl : e = .removed count := by rw [(Item.decide_eq_ok hd).1, hremove, Command.event]
      rw [View.handle_of_overflow hdeactivated (hview.trans hv), hshown.aggregateId]
      refine ends_of_abort habort nofun fun _ => ⟨leftBehind_of_abortOf habort, count, item', hremove,
        ?_, ?_⟩
      · rw [EventLog.stream_append_self log hshown.stream]
        exact hshown.history
      · unfold View.entry
        rw [View.get?_put_self]
        rfl
    · rw [View.handle_of_ok hdeactivated (hview.trans hv)]
      exact ends_of_returned trivial (hfits d hv)

theorem ends_of_history (stamp : Nat → Stamp)
    (h : History (log.stream (defaultName Item.typeTag c.aggregateId)) es item)
    (hfit : log.version (defaultName Item.typeTag c.aggregateId) + 1 < sizeLimit)
    (hcovered : Covered es) (hshows : Shows es (view.get? c.aggregateId)) :
    Ends es c (log, view) (dispatcher.run (repository stamp) c (log, view)).2
      (dispatcher.run (repository stamp) c (log, view)).1 := by
  rcases run_cases_of_history (c := c) stamp h hfit view with
    ⟨reason, hd, hrun⟩ | ⟨e, o, hd, hc, hrun⟩ | ⟨e, item', rs, msg, hd, hc, hshown⟩
  · rw [hrun]
    exact ends_of_returned trivial (abortOf_of_refused h.count_eq_stock hd)
  · obtain ⟨rfl, habort⟩ := abortOf_of_overflow h.count_eq_stock hd hc
    rw [hrun]
    exact ends_of_abort habort (fun _ => rfl) nofun
  · exact ends_of_shown h hd hc hshown (hshows.entry.2 hcovered)

def AllCovered (log : EventLog) : Prop :=
  ∀ id es item, History (log.stream (defaultName Item.typeTag id)) es item → Covered es

theorem allCovered_empty : AllCovered .empty := by
  intro id es item h
  obtain rfl : [] = es := h.eventsOf_eq
  intro k
  simp [sinceDeactivated, List.rtakeWhile_nil]

/-- An event that the view has handled does not take the stock since the last deactivation below
nothing. -/
theorem covered_of_shown {e : Event} {item' : Item} {rs : List Record} {msg : EventMessage Event}
    (hshown : Shown stamp c log view es e item' rs msg) (hcovered : Covered es)
    (hshows : Shows es (view.get? c.aggregateId))
    (hret : (dispatcher.run (repository stamp) c (log, view)).1.Returned) :
    Covered (es ++ [e]) := by
  refine covered_concat hcovered fun hne => ?_
  have hentry := hshows.entry.2 hcovered
  have hne' : msg.payload ≠ .deactivated := by rwa [hshown.payload]
  rcases hv : View.change (view.entry msg.aggregateId) msg.payload with o | d
  · rw [hshown.done, View.handle_of_overflow hne' hv] at hret
    exact hret.elim
  · have hcount := (View.change_eq_ok hv).1
    rw [hshown.payload, hshown.aggregateId] at hcount
    omega

theorem AllCovered.run (h : AllCovered log) (hmirrors : Mirrors log view)
    (hfit : log.version (defaultName Item.typeTag c.aggregateId) + 1 < sizeLimit)
    (hret : (dispatcher.run (repository stamp) c (log, view)).1.Returned) :
    AllCovered (dispatcher.run (repository stamp) c (log, view)).2.1 := by
  obtain ⟨es, item, hist, hshows⟩ := hmirrors c.aggregateId
  rcases run_cases_of_history (c := c) stamp hist hfit view with
    ⟨_, -, hrun⟩ | ⟨_, _, -, -, hrun⟩ | ⟨e, item', rs, msg, -, -, hshown⟩
  · rw [hrun]
    exact h
  · rw [hrun]
    exact h
  · have hall := covered_of_shown hshown (h _ _ _ hist) (hshows (Nat.lt_of_succ_lt hfit)) hret
    rw [hshown.done]
    intro id es' item'' hist'
    by_cases hid : id = c.aggregateId
    · rw [hid, EventLog.stream_append_self log hshown.stream] at hist'
      rwa [← hist'.eventsOf_eq, hshown.history.eventsOf_eq]
    · have hne : defaultName Item.typeTag id ≠ defaultName Item.typeTag c.aggregateId :=
        fun heq => hid (StreamNamer.defaultName_inj.1 heq)
      rw [EventLog.stream_append_ne log hshown.stream hne] at hist'
      exact h id es' item'' hist'

theorem version_run_le (hmirrors : Mirrors log view)
    (hfit : log.version (defaultName Item.typeTag c.aggregateId) + 1 < sizeLimit) (n : String) :
    (dispatcher.run (repository stamp) c (log, view)).2.1.version n ≤ log.version n + 1 := by
  obtain ⟨es, item, hist, -⟩ := hmirrors c.aggregateId
  rcases run_cases_of_history (c := c) stamp hist hfit view with
    ⟨_, -, hrun⟩ | ⟨_, _, -, -, hrun⟩ | ⟨e, item', rs, msg, -, -, hshown⟩
  · rw [hrun]
    exact Nat.le_succ _
  · rw [hrun]
    exact Nat.le_succ _
  · rw [hshown.done]
    by_cases hn : n = defaultName Item.typeTag c.aggregateId
    · rw [hn, EventLog.version_append_self log hshown.stream, hshown.one]
    · rw [EventLog.version, EventLog.stream_append_ne log hshown.stream hn]
      exact Nat.le_succ _

/-- What holds as long as no dispatch has aborted, after this number of dispatches. -/
structure Accounted (k : Nat) (world : State) : Prop where
  mirrors : Mirrors world.1 world.2
  covered : AllCovered world.1
  few : ∀ n, world.1.version n ≤ k

namespace Accounted

variable {k : Nat} {world : State}

theorem empty : Accounted 0 (.empty, .empty) := ⟨mirrors_empty, allCovered_empty, fun _ => Nat.le_refl 0⟩

theorem fits (h : Accounted k world) (hk : k + 1 < sizeLimit) (n : String) :
    world.1.version n + 1 < sizeLimit :=
  Nat.lt_of_le_of_lt (Nat.succ_le_succ (h.few n)) hk

theorem run (h : Accounted k world) (hk : k + 1 < sizeLimit)
    (hret : (dispatcher.run (repository stamp) c world).1.Returned) :
    Accounted (k + 1) (dispatcher.run (repository stamp) c world).2 where
  mirrors := h.mirrors.run stamp c
  covered := h.covered.run h.mirrors (h.fits hk _) hret
  few := fun n => Nat.le_trans (version_run_le h.mirrors (h.fits hk _) n) (Nat.succ_le_succ (h.few n))

theorem runAll (h : Accounted k world) {cs : List (CommandMessage Command)}
    (hk : k + cs.length < sizeLimit)
    (hret : ∀ p ∈ dispatcher.reports (repository stamp) cs world, p.outcome.Returned) :
    Accounted (k + cs.length) (dispatcher.runAll (repository stamp) cs world) := by
  induction cs generalizing k world with
  | nil => exact h
  | cons c cs ih =>
    rw [List.length_cons] at hk ⊢
    have hnext := h.run (by omega) (hret _ (List.mem_cons_self ..))
    have hrest := ih hnext (by omega) fun p hp => hret p (List.mem_cons_of_mem _ hp)
    rwa [Nat.add_right_comm, Nat.add_assoc] at hrest

theorem ends (h : Accounted k world) (hk : k + 1 < sizeLimit) (stamp : Nat → Stamp)
    (c : CommandMessage Command) :
    Ends (eventsOf (world.1.stream (defaultName Item.typeTag c.aggregateId))) c world
      (dispatcher.run (repository stamp) c world).2 (dispatcher.run (repository stamp) c world).1 := by
  obtain ⟨es, item, hist, hshows⟩ := h.mirrors c.aggregateId
  have hfit := h.fits hk (defaultName Item.typeTag c.aggregateId)
  rw [hist.eventsOf_eq]
  exact ends_of_history stamp hist hfit (h.covered _ _ _ hist) (hshows (Nat.lt_of_succ_lt hfit))

theorem returned_iff (h : Accounted k world) {cs : List (CommandMessage Command)}
    (hk : k + cs.length < sizeLimit) :
    (∀ p ∈ dispatcher.reports (repository stamp) cs world, p.outcome.Returned) ↔
      ∀ before c after, cs = before ++ c :: after →
        abortOf (eventsOf ((dispatcher.runAll (repository stamp) before world).1.stream
          (defaultName Item.typeTag c.aggregateId))) c.payload = none := by
  induction cs generalizing k world with
  | nil => simp [Dispatcher.reports]
  | cons c cs ih =>
    rw [List.length_cons] at hk
    have hends := h.ends (by omega) stamp c
    have hnext : (dispatcher.run (repository stamp) c world).1.Returned →
        Accounted (k + 1) (dispatcher.run (repository stamp) c world).2 := h.run (by omega)
    constructor
    · intro hret
      have hfirst := hret _ (List.mem_cons_self ..)
      have hrest := (ih (hnext hfirst) (by omega)).1 fun p hp => hret p (List.mem_cons_of_mem _ hp)
      intro before c' after hsplit
      cases before with
      | nil =>
        obtain ⟨rfl, -⟩ := List.cons.inj hsplit
        exact hends.returned.1 hfirst
      | cons c₀ before =>
        obtain ⟨rfl, hcs⟩ := List.cons.inj hsplit
        exact hrest before c' after hcs
    · intro hnone p hp
      have hfirst := hends.returned.2 (hnone [] c cs rfl)
      rcases List.mem_cons.1 hp with rfl | hp
      · exact hfirst
      · refine (ih (hnext hfirst) (by omega)).2 (fun before c' after hsplit => ?_) p hp
        exact hnone (c :: before) c' after (congrArg (c :: ·) hsplit)

end Accounted

end App

/-- Commands are dispatched one after another. As long as none has aborted, a command for an item
comes to an end, with or without an error, or it aborts as the events of the item say it does: a
check-in with nothing stored and nothing changed, a removal of what was left behind with its event
stored and the view as it was. So none aborts if that is said of none. -/
theorem dispatch_aborts_iff (stamp : Nat → Stamp) (cs : List (CommandMessage Command))
    (hlength : cs.length < sizeLimit) :
    let r := App.repository stamp
    let eventsFor := fun (c : CommandMessage Command) (world : State) =>
      eventsOf (world.1.stream (defaultName Item.typeTag c.aggregateId))
    (∀ before c after, cs = before ++ c :: after →
      (∀ p ∈ App.dispatcher.reports r before (.empty, .empty), p.outcome.Returned) →
      let world := App.dispatcher.runAll r before (.empty, .empty)
      let done := App.dispatcher.run r c world
      App.Ends (eventsFor c world) c world done.2 done.1) ∧
    ((∀ p ∈ App.dispatcher.reports r cs (.empty, .empty), p.outcome.Returned) ↔
      ∀ before c after, cs = before ++ c :: after →
        abortOf (eventsFor c (App.dispatcher.runAll r before (.empty, .empty))) c.payload = none) := by
  intro r eventsFor
  have hfit : 0 + cs.length < sizeLimit := by rwa [Nat.zero_add]
  refine ⟨?_, App.Accounted.empty.returned_iff hfit⟩
  rintro before c after rfl hret
  rw [List.length_append, List.length_cons] at hlength
  have haccounted := App.Accounted.empty.runAll (by omega) hret
  exact haccounted.ends (by omega) stamp c

def leftFive : List (CommandMessage Command) :=
  [.new "bolts" (.create "bolt"), .new "bolts" (.checkIn 5), .new "bolts" .deactivate]

theorem dispatch_aborts_iff_left_behind :
    let r := App.repository fun _ => ⟨"", .epoch⟩
    let takeFive : CommandMessage Command := .new "bolts" (.remove 5)
    let done := App.dispatcher.run r takeFive (App.dispatcher.runAll r leftFive (.empty, .empty))
    (leftFive ++ [takeFive]).length < sizeLimit ∧
      (∀ p ∈ App.dispatcher.reports r leftFive (.empty, .empty), p.outcome.Returned) ∧
      done.1 = .error (.overflow .subtraction) ∧
      ∃ item, History (done.2.1.stream "InventoryItem-bolts")
        [.created "bolt", .checkedIn 5, .deactivated, .removed 5] item := by
  intro r takeFive done
  have hlength : (leftFive ++ [takeFive]).length < sizeLimit := by decide
  have hret : ∀ p ∈ App.dispatcher.reports r leftFive (.empty, .empty), p.outcome.Returned := by
    simp only [leftFive, Dispatcher.reports, List.mem_cons, List.not_mem_nil, or_false]
    rintro p (rfl | rfl | rfl) <;> exact trivial
  have hevents : eventsOf ((App.dispatcher.runAll r leftFive (.empty, .empty)).1.stream
      "InventoryItem-bolts") = [.created "bolt", .checkedIn 5, .deactivated] := by rfl
  have hends := (dispatch_aborts_iff (fun _ => ⟨"", .epoch⟩) _ hlength).1 leftFive takeFive [] rfl hret
  have habort : abortOf [.created "bolt", .checkedIn 5, .deactivated] takeFive.payload =
    some .subtraction := by decide
  rw [← hevents] at habort
  obtain ⟨-, count, item, hremove, hist, -⟩ := hends.stored habort
  obtain rfl := Command.remove.inj hremove
  have hall := congrArg (· ++ [Event.removed 5]) hevents
  exact ⟨hlength, hret, (hends.aborted .subtraction).2 habort, item,
    (congrArg (History _ · item) hall).mp hist⟩

/-- A check-in that the count cannot take aborts, and so does a removal of what was left behind. -/
theorem commands_overflow :
    let outcomes := fun (cs : List (CommandMessage Command)) =>
      (App.dispatcher.reports (App.repository fun _ => ⟨"", .epoch⟩) cs (.empty, .empty)).map
        (·.outcome)
    outcomes [.new "bolts" (.checkIn 4294967295), .new "bolts" (.checkIn 1)] =
        [.ok (), .error (.overflow .addition)] ∧
      outcomes [.new "bolts" (.create "bolt"), .new "bolts" (.checkIn 5), .new "bolts" .deactivate,
          .new "bolts" (.remove 5)] =
        [.ok (), .ok (), .ok (), .error (.overflow .subtraction)] :=
  ⟨rfl, rfl⟩

end EventSourcing.Inventory
