import EventSourcing.Application.Dispatcher
import EventSourcing.Proofs.Interleaving
import EventSourcing.Proofs.Publication

/-!
Commands dispatched one after another. A dispatch that returns an error has done nothing. One that
succeeds has appended to the stream of its aggregate what the aggregate raised, and has handed over
just that. Nobody comes between its load and its save, so that the save finds the version it expects.
-/

namespace EventSourcing

variable {π κ σ α β : Type}

namespace Repository

theorem observed_load (r : Repository π κ σ α β) (type id : String) (s : α) (w : β)
    (seen : List (EventMessage π × α)) :
    r.observed.load type id (s, w, seen) =
      ((r.load type id (s, w)).1, (r.load type id (s, w)).2.1, (r.load type id (s, w)).2.2, seen) := by
  unfold load
  rw [show r.observed.prepare type id = r.prepare type id from rfl]
  rcases r.prepare type id with e | ⟨a, n, f⟩
  · rfl
  · simp only [show r.observed.store = r.store from rfl]
    rcases r.store.load n s with ⟨(e | _ | _) | records, s'⟩
    · cases e <;> rfl
    · rfl
    · rfl
    · rfl

variable [EventPayload π] {r : Repository π κ σ EventLog β} {stamp : Nat → Stamp} {log : EventLog}
  {w : β}

theorem load_onLog_fail {type id : String} {e : DomainError κ}
    (h : ((r.onLog stamp).load type id (log, w)).1 = .fail e) :
    e.isConfiguration = true ∨ ∃ s, e = .serialization s := by
  rw [load_onLog] at h
  rcases hp : r.prepare type id with err | ⟨a, n, f⟩ <;> rw [hp] at h
  · obtain rfl := Fault.error.inj (Except.error.inj h)
    exact Or.inl (prepare_error_isConfiguration hp)
  · rcases replay_fail r.behavior f id h with ⟨t, rfl⟩ | hs
    · exact Or.inl rfl
    · exact Or.inr hs

/-- An aggregate that counts all records of its stream is saved without a conflict. -/
theorem save_fail_of_current {a : Aggregate π σ} {n : String} (hn : r.streamOf a = some n)
    (hv : a.version = log.version n) {e : DomainError κ}
    (h : ((r.onLog stamp).save none (a, log, w)).1 = .fail e) :
    (AppError.domain e).isConcurrency = false := by
  by_cases hp : a.changes = []
  · rw [save_of_no_changes _ none hp] at h
    split at h <;> cases h
    rfl
  · rcases r.save_ends stamp none log w hn hp with
      ⟨hne, -⟩ | ⟨-, -, s, hsave⟩ | ⟨-, -, hsave⟩ | ⟨-, -, rs, -, hsave⟩
    · exact absurd hv hne
    · rw [hsave] at h
      cases h
      rfl
    · rw [hsave] at h
      nomatch h
    · rw [hsave] at h
      exact absurd ⟨e, h⟩ ((r.onLog stamp).finish_not_refused _ _ _)

end Repository

def Notes {ε : Type} (plain : Outcome ε Unit × α × β) (seen : List (EventMessage π × α))
    (watched : Outcome ε Unit × α × β × List (EventMessage π × α)) : Prop :=
  ∃ more, watched = (plain.1, plain.2.1, plain.2.2, seen ++ more)

theorem Notes.nothing {ε : Type} (plain : Outcome ε Unit × α × β)
    (seen : List (EventMessage π × α)) : Notes plain seen (plain.1, plain.2.1, plain.2.2, seen) :=
  ⟨[], by rw [List.append_nil]⟩

namespace CommandMapping

variable (r : Repository π κ σ α β) (c : CommandMessage κ) (s : α) (w : β)
  (seen : List (EventMessage π × α))

theorem observed_loadFor [CommandPayload κ] (m : CommandMapping) :
    m.loadFor r.observed c (s, w, seen) =
      ((m.loadFor r c (s, w)).1, (m.loadFor r c (s, w)).2.1, (m.loadFor r c (s, w)).2.2, seen) := by
  unfold loadFor
  cases m.find? c.commandType with
  | none => rfl
  | some type => simp only [r.observed_load]

theorem observed_handleAndSave (a : Aggregate π σ) :
    Notes (handleAndSave r c a (s, w)) seen (handleAndSave r.observed c a (s, w, seen)) := by
  unfold handleAndSave
  rw [show r.observed.behavior = r.behavior from rfl]
  rcases r.behavior.handle c a with ⟨fault | _, handled⟩
  · exact Notes.nothing _ seen
  · obtain ⟨more, hsave⟩ := r.observed_save none handled s w seen
    exact ⟨more, congrArg (fun saved => (saved.1.mapError AppError.domain, saved.2.2)) hsave⟩

end CommandMapping

namespace CommandMapping

section OnLog

variable [EventPayload π] {r : Repository π κ σ EventLog β} {stamp : Nat → Stamp}
  {c : CommandMessage κ} {a : Aggregate π σ} {n : String} {log : EventLog} {w : β}

theorem loadFor_fail [CommandPayload κ] {m : CommandMapping} {e : AppError κ}
    (h : (m.loadFor (r.onLog stamp) c (log, w)).1 = .fail e) : e.isConcurrency = false := by
  unfold loadFor at h
  rcases hm : m.find? c.commandType with _ | type <;> simp only [hm] at h
  · cases h
    rfl
  · rcases hload : ((r.onLog stamp).load type c.aggregateId (log, w)).1 with (e' | _ | _) | a <;>
      rw [hload] at h
    · cases h
      rcases Repository.load_onLog_fail hload with hconf | ⟨s, rfl⟩
      · cases e' <;> simp_all [DomainError.isConfiguration, AppError.isConcurrency]
      · rfl
    · nomatch h
    · nomatch h
    · nomatch h

theorem handleAndSave_of_refused
    (h : (handleAndSave (r.onLog stamp) c a (log, w)).1.Refused) :
    (handleAndSave (r.onLog stamp) c a (log, w)).2 = (log, w) := by
  rcases hh : r.behavior.handle c a with ⟨fault | _, handled⟩
  · rw [handleAndSave_of_error r stamp hh]
  · rw [handleAndSave_of_ok r stamp hh] at h ⊢
    rw [Outcome.refused_mapError] at h
    exact congrArg Prod.snd (r.save_of_refused stamp none log w h)

/-- Handling and saving what was loaded from the whole stream reports a conflict only if the aggregate
itself answers with one. -/
theorem handleAndSave_conflict (hb : r.behavior.TracksOnly) (hn : r.streamOf a = some n)
    (hv : a.version = log.version n) {e : AppError κ}
    (h : (handleAndSave (r.onLog stamp) c a (log, w)).1 = .fail e) (he : e.isConcurrency = true) :
    ∃ e', (r.behavior.handle c a).1 = .fail e' ∧ e = .domain e' := by
  rcases hh : r.behavior.handle c a with ⟨fault | _, handled⟩
  · rw [handleAndSave_of_error r stamp hh] at h
    rcases fault with e' | _ | _
    · cases h
      exact ⟨e', rfl, rfl⟩
    · cases h
    · cases h
  · rw [handleAndSave_of_ok r stamp hh] at h
    obtain ⟨-, es, hbase⟩ := hb.handle hh
    have hversion : handled.version = log.version n := by
      rw [Aggregate.version, hbase]
      exact hv
    have hstream : r.streamOf handled = some n := (Repository.streamOf_of_handle hb hh).trans hn
    rcases hsave : ((r.onLog stamp).save none (handled, log, w)).1 with (e' | _ | _) | _ <;>
      rw [hsave] at h
    · cases h
      rw [Repository.save_fail_of_current hstream hversion hsave] at he
      cases he
    · cases h
    · cases h
    · cases h

/-- What the aggregate of a command raised and a dispatch stored and handed over. Handlers may write
to other streams meanwhile. -/
structure Performed (r : Repository π κ σ EventLog β) (c : CommandMessage κ) (n : String)
    (a handled : Aggregate π σ) (log log' : EventLog) (handed : List (EventMessage π × EventLog)) :
    Prop where
  loaded : a.changes = []
  handles : r.behavior.handle c a = (.ok (), handled)
  appended : ∃ rs, Record.Batch n
      (Repository.commonHeaders (r.behavior.typeTag handled.state)) (log.version n)
      (Repository.outgoing handled) rs ∧ (r.KeepsStream n → log'.stream n = log.stream n ++ rs)
  others : ∀ k, k ≠ n → r.KeepsStream k → log'.stream k = log.stream k
  published : Along (fun k e h => h.1 = e.withVersion (some (k + 1))) (log.version n)
    (Repository.outgoing handled) handed

theorem performed_of_ok (hb : r.behavior.TracksOnly) (hn : r.streamOf a = some n)
    (hc : a.changes = [])
    (hok : (handleAndSave (r.onLog stamp).observed c a (log, w, [])).1 = .ok ()) :
    ∃ handled, Performed r c n a handled log
      (handleAndSave (r.onLog stamp).observed c a (log, w, [])).2.1
      (handleAndSave (r.onLog stamp).observed c a (log, w, [])).2.2.2 := by
  rcases hh : r.behavior.handle c a with ⟨fault | _, handled⟩
  · unfold handleAndSave at hok
    rw [show (r.onLog stamp).observed.behavior.handle c a = (.error fault, handled) from hh] at hok
    rcases fault with _ | _ | _ <;> nomatch hok
  · have hsaved := handleAndSave_of_ok r.observed stamp hh log (w, [])
    rw [show handleAndSave (r.onLog stamp).observed c a (log, w, []) = _ from hsaved] at hok ⊢
    have hstream : r.streamOf handled = some n := (Repository.streamOf_of_handle hb hh).trans hn
    rcases r.observed.save_cases stamp none (a := handled) log (w, []) with
      ⟨hsame, hnone⟩ | ⟨k, rs, hk, -, -, hbatch, hf⟩
    · have hraised : handled.changes = [] := hnone (Outcome.ok_of_mapError hok)
      have hout : Repository.outgoing handled = [] := List.map_eq_nil_iff.2 hraised
      have hbatch : Record.Batch n
          (Repository.commonHeaders (r.behavior.typeTag handled.state)) (log.version n)
          (Repository.outgoing handled) [] := by rw [hout]; exact Along.nil
      rw [hsame]
      exact ⟨handled, {
        loaded := hc
        handles := hh
        appended := ⟨[], hbatch, fun _ => (List.append_nil _).symm⟩
        others := fun _ _ _ => rfl
        published := by rw [hout]; exact Along.nil }⟩
    · obtain rfl : k = n := Option.some.inj (hk.symm.trans hstream)
      rw [hf] at hok ⊢
      have hfin : ((r.onLog stamp).observed.finish (log.version k)
          (handled, log.append rs, w, [])).1 = .ok () := Outcome.ok_of_mapError hok
      have hret : ((r.onLog stamp).observed.finish (log.version k)
          (handled, log.append rs, w, [])).1.Returned := by rw [hfin]; trivial
      have hkept : ∀ m, r.KeepsStream m → ((r.onLog stamp).observed.finish (log.version k)
          (handled, log.append rs, w, [])).2.2.1.stream m = (log.append rs).stream m :=
        fun m hm => Repository.KeepsStream.finish (r := (r.onLog stamp).observed) hm.observed _ _ _ _
      exact ⟨handled, {
        loaded := hc
        handles := hh
        appended := ⟨rs, hbatch,
          fun hkeep => (hkept k hkeep).trans (EventLog.stream_append_self log hbatch.stream_eq)⟩
        others := fun m hm hkeep =>
          (hkept m hkeep).trans (EventLog.stream_append_ne log hbatch.stream_eq hm)
        published := (r.onLog stamp).finish_numbered handled (log.append rs) w hret }⟩

end OnLog

end CommandMapping

namespace Dispatcher

section Running

variable [CommandPayload κ] (d : Dispatcher CommandMapping) (r : Repository π κ σ α β)

/-- Every handler maps commands to aggregates of the one repository. -/
def run (c : CommandMessage κ) : Action (α × β) (AppError κ) Unit :=
  d.dispatch (fun m => m.handle r) c

def handed (c : CommandMessage κ) (w : α × β) : List (EventMessage π × α) :=
  (d.run r.observed c (w.1, w.2, [])).2.2.2

structure Report (π κ α : Type) where
  command : CommandMessage κ
  outcome : Outcome (AppError κ) Unit
  handed : List (EventMessage π × α)

def runAll (cs : List (CommandMessage κ)) (w : α × β) : α × β :=
  cs.foldl (fun w c => (d.run r c w).2) w

def reports : List (CommandMessage κ) → α × β → List (Report π κ α)
  | [], _ => []
  | c :: cs, w => ⟨c, (d.run r c w).1, d.handed r c w⟩ :: reports cs (d.run r c w).2

theorem mem_reports {cs : List (CommandMessage κ)} {w : α × β} {p : Report π κ α}
    (h : p ∈ d.reports r cs w) :
    ∃ before after, cs = before ++ p.command :: after ∧
      p.outcome = (d.run r p.command (d.runAll r before w)).1 := by
  induction cs generalizing w with
  | nil => nomatch h
  | cons c cs ih =>
    rcases List.mem_cons.1 h with rfl | h
    · exact ⟨[], cs, rfl, rfl⟩
    · obtain ⟨before, after, rfl, hout⟩ := ih h
      exact ⟨c :: before, after, rfl, hout⟩

theorem observed_run (c : CommandMessage κ) (s : α) (w : β) (seen : List (EventMessage π × α)) :
    Notes (d.run r c (s, w)) seen (d.run r.observed c (s, w, seen)) := by
  unfold run dispatch
  cases d.find? c.commandType with
  | none => exact Notes.nothing _ seen
  | some m =>
    simp only [CommandMapping.handle, m.observed_loadFor r]
    rcases m.loadFor r c (s, w) with ⟨fault | a, s', w'⟩
    · exact Notes.nothing _ seen
    · exact CommandMapping.observed_handleAndSave r c s' w' seen a

end Running

section OnLog

variable [EventPayload π] [CommandPayload κ] (d : Dispatcher CommandMapping)
  {r : Repository π κ σ EventLog β} {stamp : Nat → Stamp} {c : CommandMessage κ}
  {a handled : Aggregate π σ} {n : String} {log : EventLog} {w : β}

/-- A dispatch fails before it has an aggregate, or its aggregate is loaded from the whole of its
stream and goes on from there. -/
theorem run_cases (r : Repository π κ σ EventLog β) (stamp : Nat → Stamp) (c : CommandMessage κ)
    (log : EventLog) (w : β) :
    (∃ fault, d.run (r.onLog stamp) c (log, w) = (.error fault, (log, w)) ∧
      ∀ e, fault = .error e → e.isConcurrency = false) ∨
    ∃ m a n, d.find? c.commandType = some m ∧
      CommandMapping.LoadsFrom m r c n (log.stream n) a ∧
      d.run (r.onLog stamp) c (log, w) =
        CommandMapping.handleAndSave (r.onLog stamp) c a (log, w) := by
  unfold run dispatch
  cases hd : d.find? c.commandType with
  | none =>
    refine Or.inl ⟨_, rfl, fun e he => ?_⟩
    cases he
    rfl
  | some m =>
    simp only [CommandMapping.handle]
    rcases m.loadFor_cases (r := r) stamp c log w with ⟨fault, h⟩ | ⟨a, n, hl, h⟩ <;> rw [h]
    · refine Or.inl ⟨fault, rfl, fun e he => ?_⟩
      exact CommandMapping.loadFor_fail ((congrArg Prod.fst h).trans (congrArg Except.error he))
    · exact Or.inr ⟨m, a, n, rfl, hl, rfl⟩

theorem run_of_refused (h : (d.run (r.onLog stamp) c (log, w)).1.Refused) :
    (d.run (r.onLog stamp) c (log, w)).2 = (log, w) := by
  rcases d.run_cases r stamp c log w with ⟨fault, hrun, -⟩ | ⟨m, a, n, -, -, hrun⟩
  · rw [hrun]
  · rw [hrun] at h ⊢
    exact CommandMapping.handleAndSave_of_refused h

theorem handed_of_refused (h : (d.run (r.onLog stamp) c (log, w)).1.Refused) :
    d.handed (r.onLog stamp) c (log, w) = [] := by
  obtain ⟨more, hrun⟩ := d.observed_run (r.onLog stamp) c log w []
  have hobserved : (d.run (r.onLog stamp).observed c (log, w, [])).1.Refused := by
    rw [hrun]
    exact h
  exact congrArg (·.2.2) (d.run_of_refused (r := r.observed) hobserved)

theorem performed_of_run (hb : r.behavior.TracksOnly) (hn : r.BuildsNew)
    (hok : (d.run (r.onLog stamp) c (log, w)).1 = .ok ()) :
    ∃ m n a handled, d.find? c.commandType = some m ∧
      CommandMapping.LoadsFrom m r c n (log.stream n) a ∧
      CommandMapping.Performed r c n a handled log (d.run (r.onLog stamp) c (log, w)).2.1
        (d.handed (r.onLog stamp) c (log, w)) := by
  obtain ⟨more, hnotes⟩ := d.observed_run (r.onLog stamp) c log w []
  have hlog : (d.run (r.onLog stamp) c (log, w)).2.1 =
      (d.run (r.onLog stamp).observed c (log, w, [])).2.1 := by rw [hnotes]
  have hok' : (d.run (r.onLog stamp).observed c (log, w, [])).1 = .ok () := by
    rw [hnotes]
    exact hok
  unfold handed
  rw [hlog]
  rcases d.run_cases r.observed stamp c log (w, []) with ⟨fault, hrun, -⟩ | ⟨m, a, n, hd, hl, hrun⟩
  · rw [show (d.run (r.onLog stamp).observed c (log, w, [])) = _ from hrun] at hok'
    nomatch hok'
  · have hload : CommandMapping.LoadsFrom m r c n (log.stream n) a := hl
    rw [show (d.run (r.onLog stamp).observed c (log, w, [])) = _ from hrun] at hok' ⊢
    obtain ⟨handled, hdone⟩ := CommandMapping.performed_of_ok (r := r) hb
      (hload.streamOf hb hn.buildsFresh.buildsNamed)
      (congrArg AggregateBase.changes (hload.base_new hb hn)) hok'
    exact ⟨m, n, a, handled, hd, hload, hdone⟩

theorem run_conflict (hb : r.behavior.TracksOnly) (hf : r.BuildsFresh) {e : AppError κ}
    (h : (d.run (r.onLog stamp) c (log, w)).1 = .fail e) (he : e.isConcurrency = true) :
    ∃ a e', (r.behavior.handle c a).1 = .fail e' ∧ e = .domain e' := by
  rcases d.run_cases r stamp c log w with ⟨fault, hrun, hno⟩ | ⟨m, a, n, -, hl, hrun⟩
  · rw [hrun] at h
    rw [hno e (Except.error.inj h)] at he
    nomatch he
  · obtain ⟨hv, hs⟩ := hl.version_streamOf hb hf
    rw [hrun] at h
    exact ⟨a, CommandMapping.handleAndSave_conflict hb hs hv h he⟩

/-- Dispatching is all or nothing: an error leaves the log and the handlers as they were and nothing
is handed over; without one, the stream of the aggregate that was replayed for the command grows by
what this aggregate raised, and that is handed over, each event once and in order. However many
commands are dispatched one after another, none reports a conflict, unless an aggregate answers with
one of its own. -/
theorem dispatch_all_or_nothing (d : Dispatcher CommandMapping) (r : Repository π κ σ EventLog β)
    (stamp : Nat → Stamp) (hb : r.behavior.TracksOnly) (hn : r.BuildsNew) :
    (∀ c log w, let done := d.run (r.onLog stamp) c (log, w)
      let handed := d.handed (r.onLog stamp) c (log, w)
      Notes done [] (d.run (r.onLog stamp).observed c (log, w, [])) ∧
      (done.1.Refused → done.2 = (log, w) ∧ handed = []) ∧
      (done.1 = .ok () → ∃ m n a handled, d.find? c.commandType = some m ∧
        CommandMapping.LoadsFrom m r c n (log.stream n) a ∧
        CommandMapping.FoldedFrom m r c n (log.stream n) a ∧
        CommandMapping.Performed r c n a handled log done.2.1 handed)) ∧
    (∀ cs log w, ∀ p ∈ d.reports (r.onLog stamp) cs (log, w), ∀ e, p.outcome = .fail e →
      e.isConcurrency = true →
      ∃ a e', (r.behavior.handle p.command a).1 = .fail e' ∧ e = .domain e') := by
  refine ⟨fun c log w => ⟨d.observed_run _ c log w [], ?_, ?_⟩, ?_⟩
  · exact fun hrefused => ⟨d.run_of_refused hrefused, d.handed_of_refused hrefused⟩
  · intro hok
    obtain ⟨m, n, a, handled, hd, hload, hdone⟩ := d.performed_of_run hb hn hok
    exact ⟨m, n, a, handled, hd, hload, (CommandMapping.loadsFrom_iff.1 hload).1, hdone⟩
  · intro cs log w p hp e hfail he
    obtain ⟨before, -, -, hout⟩ := d.mem_reports (r.onLog stamp) hp
    rw [hout] at hfail
    exact d.run_conflict hb hn.buildsFresh hfail he

end OnLog

/-- Bolts are created; then more are asked for than are there, and nothing comes of it. -/
theorem dispatch_all_or_nothing_bolts :
    let r := Inventory.App.repository fun _ => ⟨"", .epoch⟩
    let create : CommandMessage Inventory.Command := .new "bolts" (.create "bolt")
    let remove : CommandMessage Inventory.Command := .new "bolts" (.remove 5)
    let created := Inventory.App.dispatcher.run r create (.empty, .empty)
    let removed := Inventory.App.dispatcher.run r remove created.2
    r.behavior.TracksOnly ∧ r.BuildsNew ∧ created.1 = .ok () ∧ removed.1.Refused ∧
      (∃ m n a handled, Inventory.App.dispatcher.find? "CreateInventoryItem" = some m ∧
        CommandMapping.LoadsFrom m r create n [] a ∧ CommandMapping.FoldedFrom m r create n [] a ∧
        CommandMapping.Performed r create n a handled .empty created.2.1
          (Inventory.App.dispatcher.handed r create (.empty, .empty))) ∧
      removed.2 = created.2 ∧ Inventory.App.dispatcher.handed r remove created.2 = [] := by
  intro r create remove created removed
  have hb : r.behavior.TracksOnly := Inventory.Item.tracksOnly
  have hn : r.BuildsNew := Inventory.App.buildsNew _
  have hok : created.1 = .ok () := rfl
  have hrefused : removed.1.Refused := ⟨_, rfl⟩
  obtain ⟨hdone, -⟩ :=
    dispatch_all_or_nothing Inventory.App.dispatcher r (fun _ => ⟨"", .epoch⟩) hb hn
  obtain ⟨-, -, hperformed⟩ := hdone create .empty .empty
  obtain ⟨-, hnothing, -⟩ := hdone remove created.2.1 created.2.2
  exact ⟨hb, hn, hok, hrefused, hperformed hok, (hnothing hrefused).1, (hnothing hrefused).2⟩

end Dispatcher

end EventSourcing
