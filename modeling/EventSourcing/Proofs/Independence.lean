import EventSourcing.Proofs.AppendOnly
import EventSourcing.Proofs.Dispatch
import Mathlib.Data.List.FinRange
import Mathlib.Data.List.Sort

/-!
Commands for different streams are independent. A dispatch reads one stream, and of that nothing the
store added of its own accord; it leaves the other streams alone. So what becomes of a stream hangs
on the commands for that stream and on their order, and commands for different streams may change
places: each is answered as before, and each stream gets the same records and hands over the same.
-/

namespace EventSourcing

variable {π κ σ β : Type}

section Places

variable {ι : Type}

/-- A rearrangement of places that keeps the order of those of one kind takes them, in order, to
those of the other kind. -/
theorem map_places {m n : Nat} {A : Fin m → Prop} {B : Fin n → Prop} [DecidablePred A]
    [DecidablePred B] (p : Fin m ≃ Fin n) (hB : ∀ i, B (p i) ↔ A i)
    (hlt : ∀ i j, i < j → A i → A j → p i < p j) :
    ((List.finRange m).filter A).map p = (List.finRange n).filter B := by
  have hperm : List.Perm (((List.finRange m).filter A).map p) ((List.finRange n).filter B) := by
    refine (List.perm_ext_iff_of_nodup ?_ ?_).2 fun j => ?_
    · exact ((List.nodup_finRange m).filter _).map p.injective
    · exact (List.nodup_finRange n).filter _
    · simp only [List.mem_map, List.mem_filter, List.mem_finRange, true_and, decide_eq_true_eq]
      constructor
      · rintro ⟨i, hi, rfl⟩
        exact (hB i).2 hi
      · intro hj
        refine ⟨p.symm j, ?_, p.apply_symm_apply j⟩
        rwa [← hB, p.apply_symm_apply]
  -- both lists are in ascending order, so that having the same members is enough
  refine List.Perm.eq_of_pairwise
    (fun (i j : Fin n) _ _ (h : i < j) (h' : j < i) => absurd h (lt_asymm h')) ?_ ?_ hperm
  · rw [List.pairwise_map]
    refine ((List.pairwise_lt_finRange m).filter fun i => A i).imp_of_mem fun {i j} hi hj hij => ?_
    exact hlt i j hij (of_decide_eq_true (List.mem_filter.1 hi).2)
      (of_decide_eq_true (List.mem_filter.1 hj).2)
  · exact (List.pairwise_lt_finRange n).filter _

theorem filter_take (P : ι → Prop) [DecidablePred P] (l : List ι) (k : Nat) :
    (l.take k).filter P =
      ((List.finRange l.length).filter fun i => i.1 < k ∧ P l[i]).map l.get := by
  induction l generalizing k with
  | nil => simp
  | cons x l ih =>
    cases k with
    | zero => simp
    | succ k =>
      rw [List.take_succ_cons]
      by_cases hx : P x
      · simp [hx, ih, List.finRange_succ, List.filter_map, Function.comp_def]
      · simp [hx, ih, List.finRange_succ, List.filter_map, Function.comp_def]

end Places

/-- Events are written out alike, whatever their stamps, or the same thing stands in the way. -/
theorem Record.ofMessages_alike [EventPayload π] (stamp stamp' : Nat → Stamp) (stream : String)
    (common : Headers) (serial serial' start offset : Nat) (es : List (EventMessage π)) :
    (∃ fault, ofMessages stamp stream common serial start offset es = .error fault ∧
      ofMessages stamp' stream common serial' start offset es = .error fault) ∨
    ∃ rs rs', ofMessages stamp stream common serial start offset es = .ok rs ∧
      ofMessages stamp' stream common serial' start offset es = .ok rs' ∧
      rs.map unstamped = rs'.map unstamped := by
  induction es generalizing offset with
  | nil => exact Or.inr ⟨[], [], rfl, rfl, rfl⟩
  | cons e es ih =>
    simp only [ofMessages]
    rcases addSize start offset with o | p
    · exact Or.inl ⟨_, rfl, rfl⟩
    · rcases ofMessage_cases (stamp (serial + offset)) stream p e common with
        ⟨s, hs, he⟩ | ⟨r, hr, he⟩
      · rcases ofMessage_cases (stamp' (serial' + offset)) stream p e common with
          ⟨s', hs', he'⟩ | ⟨r', hr', -⟩
        · obtain rfl : s = s' := Except.error.inj (hs.symm.trans hs')
          exact Or.inl ⟨.error s, by simp only [he]; rfl, by simp only [he']; rfl⟩
        · exact absurd hr'.writable (not_writable hs)
      · rcases ofMessage_cases (stamp' (serial' + offset)) stream p e common with
          ⟨s', hs', -⟩ | ⟨r', hr', he'⟩
        · exact absurd hr.writable (not_writable hs')
        · rcases ih (offset + 1) with ⟨fault, h, h'⟩ | ⟨rs, rs', h, h', hsame⟩ <;>
            simp only [he, he', h, h']
          · exact Or.inl ⟨fault, rfl, rfl⟩
          · refine Or.inr ⟨_, _, rfl, rfl, ?_⟩
            rw [List.map_cons, List.map_cons, hr.unstamped_eq hr', hsame]

def EventLog.StayAlike (log log' now now' : EventLog) : Prop :=
  ∀ m, AlikeOn m log log' → AlikeOn m now now'

/-- A save answers alike on logs in which its stream is alike. -/
theorem EventLog.save_alike [EventPayload π] (stamp stamp' : Nat → Stamp) {n : String}
    {log log' : EventLog} (h : AlikeOn n log log') (es : List (EventMessage π))
    (expected : Option Nat) (common : Headers) :
    let saved := save (κ := κ) stamp n es expected common log
    let saved' := save (κ := κ) stamp' n es expected common log'
    saved.1 = saved'.1 ∧ StayAlike log log' saved.2 saved'.2 := by
  intro saved saved'
  by_cases hes : es = []
  · subst hes
    exact ⟨rfl, fun _ hm => hm⟩
  · simp only [saved, saved', save_of_ne_nil _ _ _ _ _ _ hes, ← h.version]
    cases unmet (log.version n) expected with
    | some v => exact ⟨rfl, fun _ hm => hm⟩
    | none =>
      rcases Record.ofMessages_alike stamp stamp' n common log.records.length log'.records.length
        (log.version n) 0 es with ⟨fault, hrs, hrs'⟩ | ⟨rs, rs', hrs, hrs', hsame⟩ <;>
        simp only [hrs, hrs']
      · exact ⟨trivial, fun _ hm => hm⟩
      · exact ⟨trivial, fun _ hm => hm.append hsame⟩

/-- What two observed actions have in common that began with the logs `log` and `log'`: they are
refused alike, and streams that were alike still are. If both come back, or if it is sure that no
handler keeps them from it, they answer alike and have handed over the same events. -/
structure Agree {ε : Type} (sure : Prop) (log log' : EventLog)
    (x y : Outcome ε Unit × EventLog × β × List (EventMessage π × EventLog)) : Prop where
  refused : ∀ e, x.1 = .fail e ↔ y.1 = .fail e
  answered : sure ∨ (x.1.Returned ∧ y.1.Returned) →
    x.1 = y.1 ∧ x.2.2.2.map (·.1) = y.2.2.2.map (·.1)
  streams : EventLog.StayAlike log log' x.2.1 y.2.1

namespace Agree

variable {ε ε' : Type} {sure : Prop} {log log' : EventLog}
  {x y : Outcome ε Unit × EventLog × β × List (EventMessage π × EventLog)}

/-- Actions that hand over nothing agree if their answers do. -/
theorem quiet {now now' : EventLog} (h : EventLog.StayAlike log log' now now')
    (out : Outcome ε Unit) (w w' : β) :
    Agree (π := π) sure log log' (out, now, w, []) (out, now', w', []) where
  refused := fun _ => Iff.rfl
  answered := fun _ => ⟨rfl, rfl⟩
  streams := h

theorem mapError (f : ε → ε') (h : Agree sure log log' x y) :
    Agree sure log log' (x.1.mapError f, x.2) (y.1.mapError f, y.2) where
  refused := by
    intro e
    have back : ∀ {out out' : Outcome ε Unit}, (∀ e, out = .fail e → out' = .fail e) →
        out.mapError f = .fail e → out'.mapError f = .fail e := by
      intro out out' himp he
      obtain ⟨e₀, rfl⟩ := (Outcome.refused_mapError f out).1 ⟨e, he⟩
      rw [himp e₀ rfl]
      exact he
    exact ⟨back fun e => (h.refused e).1, back fun e => (h.refused e).2⟩
  answered := by
    intro hback
    obtain ⟨hout, hseen⟩ := h.answered (hback.imp_right fun hret =>
      ⟨Outcome.returned_mapError.1 hret.1, Outcome.returned_mapError.1 hret.2⟩)
    exact ⟨congrArg (Outcome.mapError f) hout, hseen⟩
  streams := h.streams

end Agree

namespace Repository

section OnLogs

variable [EventPayload π] {r : Repository π κ σ EventLog β} (stamp stamp' : Nat → Stamp)
  {a : Aggregate π σ} {log log' now now' : EventLog}

/-- Batches that are stored are announced alike, whatever the logs and the handlers, if the handlers
let them. -/
theorem finish_returned (start : Nat) (a : Aggregate π σ) (now now' : EventLog) (w w' : β) :
    let x := (r.onLog stamp).observed.finish start (a, now, w, [])
    let y := (r.onLog stamp').observed.finish start (a, now', w', [])
    x.1.Returned → y.1.Returned → x.1 = y.1 ∧ x.2.2.2.2.map (·.1) = y.2.2.2.2.map (·.1) := by
  intro x y hretx hrety
  have hx : x.1 = .ok () := Outcome.ok_of_returned hretx
    ((r.onLog stamp).observed.finish_not_refused start a (now, w, []))
  have hy : y.1 = .ok () := Outcome.ok_of_returned hrety
    ((r.onLog stamp').observed.finish_not_refused start a (now', w', []))
  have hnumx := (r.onLog stamp).finish_numbered a now w hretx
  have hnumy := (r.onLog stamp').finish_numbered a now' w' hrety
  exact ⟨hx.trans hy.symm, Along.map_eq (hnumx.of_both hnumy fun hx hy => hx.trans hy.symm)⟩

theorem finish_agree (hk : r.KeepsStore) (start : Nat) (a : Aggregate π σ)
    (hnow : EventLog.StayAlike log log' now now') (w w' : β) :
    let x := (r.onLog stamp).observed.finish start (a, now, w, [])
    let y := (r.onLog stamp').observed.finish start (a, now', w', [])
    Agree r.HandlersReturn log log' (x.1, x.2.2) (y.1, y.2.2) := by
  intro x y
  have hx : ¬ x.1.Refused := (r.onLog stamp).observed.finish_not_refused start a (now, w, [])
  have hy : ¬ y.1.Refused := (r.onLog stamp').observed.finish_not_refused start a (now', w', [])
  have hback := finish_returned (r := r) stamp stamp' start a now now' w w'
  refine ⟨fun e => ⟨fun he => absurd ⟨e, he⟩ hx, fun he => absurd ⟨e, he⟩ hy⟩, ?_, fun m hm => ?_⟩
  · rintro (hr | ⟨hretx, hrety⟩)
    · rcases (r.onLog stamp).observed.finish_cases start a (now, w, []) with
        ⟨hle, hfx⟩ | ⟨hlt, -⟩
      · -- the count does not fit in either run
        rcases (r.onLog stamp').observed.finish_cases start a (now', w', []) with
          ⟨-, hfy⟩ | ⟨hlt, -⟩
        · simp only [x, y, hfx, hfy]
          exact ⟨trivial, trivial⟩
        · exact absurd hlt (Nat.not_lt.2 hle)
      · have hokx : x.1 = .ok () := finish_ok (r := (r.onLog stamp).observed) hr.observed hlt _
        have hoky : y.1 = .ok () := finish_ok (r := (r.onLog stamp').observed) hr.observed hlt _
        exact hback (by rw [hokx]; trivial) (by rw [hoky]; trivial)
    · exact hback hretx hrety
  · have hlog : x.2.2.1 = now := KeepsStore.finish (r := (r.onLog stamp).observed) hk.observed ..
    have hlog' : y.2.2.1 = now' :=
      KeepsStore.finish (r := (r.onLog stamp').observed) hk.observed ..
    simp only [hlog, hlog']
    exact hnow m hm

theorem answered_agree (hk : r.KeepsStore) (start : Nat) (n : String) (a : Aggregate π σ)
    (out : DomainOutcome κ Unit)
    (hnow : EventLog.StayAlike log log' now now') (w w' : β) :
    let x := (r.onLog stamp).observed.answered start n a (w, []) (out, now)
    let y := (r.onLog stamp').observed.answered start n a (w', []) (out, now')
    Agree r.HandlersReturn log log' (x.1, x.2.2) (y.1, y.2.2) := by
  rcases out with (e | o | _) | _
  · cases e <;> exact Agree.quiet hnow _ w w'
  · exact Agree.quiet hnow _ w w'
  · exact Agree.quiet hnow _ w w'
  · exact finish_agree stamp stamp' hk start a hnow w w'

/-- A save looks at no stream but that of the aggregate. -/
theorem save_agree (hk : r.KeepsStore) {n : String} (hn : r.streamOf a = some n)
    (h : EventLog.AlikeOn n log log') (expected : Option Nat) (w w' : β) :
    let x := (r.onLog stamp).observed.save expected (a, log, w, [])
    let y := (r.onLog stamp').observed.save expected (a, log', w', [])
    Agree r.HandlersReturn log log' (x.1, x.2.2) (y.1, y.2.2) := by
  intro x y
  by_cases hp : a.changes = []
  · simp only [x, y, save_of_no_changes _ expected hp]
    exact Agree.quiet (fun _ hm => hm) _ w w'
  · have hx : x = _ := save_of_streamOf (r.onLog stamp).observed expected hn hp log (w, [])
    have hy : y = _ := save_of_streamOf (r.onLog stamp').observed expected hn hp log' (w', [])
    obtain ⟨hout, hlogs⟩ := EventLog.save_alike (κ := κ) stamp stamp' h (outgoing a)
      (some (expected.getD a.version)) (commonHeaders (r.behavior.typeTag a.state))
    have hagree := answered_agree (r := r) stamp stamp' hk (expected.getD a.version) n a
      (EventLog.save stamp' n (outgoing a) (some (expected.getD a.version))
        (commonHeaders (r.behavior.typeTag a.state)) log').1 hlogs w w'
    rw [hx, hy]
    nth_rewrite 1 [← hout] at hagree
    exact hagree

end OnLogs

end Repository

namespace CommandMapping

section OnLogs

variable [EventPayload π] {r : Repository π κ σ EventLog β} (stamp stamp' : Nat → Stamp)
  (c : CommandMessage κ) {log log' : EventLog}

theorem handleAndSave_agree (hb : r.behavior.TracksOnly) (hk : r.KeepsStore) {a : Aggregate π σ}
    {n : String} (hn : r.streamOf a = some n) (h : EventLog.AlikeOn n log log') (w w' : β) :
    Agree r.HandlersReturn log log' (handleAndSave (r.onLog stamp).observed c a (log, w, []))
      (handleAndSave (r.onLog stamp').observed c a (log', w', [])) := by
  rcases hh : r.behavior.handle c a with ⟨fault | _, handled⟩
  · unfold handleAndSave
    rw [show (r.onLog stamp).observed.behavior.handle c a = (.error fault, handled) from hh,
      show (r.onLog stamp').observed.behavior.handle c a = (.error fault, handled) from hh]
    exact Agree.quiet (fun _ hm => hm) _ w w'
  · have hstream : r.streamOf handled = some n := (Repository.streamOf_of_handle hb hh).trans hn
    have hx := handleAndSave_of_ok r.observed stamp hh log (w, [])
    have hy := handleAndSave_of_ok r.observed stamp' hh log' (w', [])
    have hsave := Repository.save_agree (r := r) stamp stamp' hk hstream h none w w'
    rw [show handleAndSave (r.onLog stamp).observed c a (log, w, []) = _ from hx,
      show handleAndSave (r.onLog stamp').observed c a (log', w', []) = _ from hy]
    exact hsave.mapError AppError.domain

end OnLogs

section Loading

variable [CommandPayload κ]

def streamFor {α : Type} (m : CommandMapping) (r : Repository π κ σ α β) (c : CommandMessage κ) :
    Option String := do
  let type ← m.find? c.commandType
  let namer ← r.namer
  let name ← namer.find? type
  return name type c.aggregateId

variable {m : CommandMapping} {r : Repository π κ σ EventLog β} {c : CommandMessage κ}
  {log log' : EventLog}

theorem streamFor_of_prepare {type n : String} {made : Aggregate π σ} {f : EventFactory π}
    (hm : m.find? c.commandType = some type)
    (hp : r.prepare type c.aggregateId = .ok (made, n, f)) : m.streamFor r c = some n := by
  obtain ⟨-, namer, name, -, -, hna, hfind, rfl, -⟩ := Repository.prepare_eq_ok hp
  simp only [streamFor, hm, hna, hfind, Option.bind_eq_bind, Option.bind_some, Option.pure_def]

theorem LoadsFrom.streamFor {n : String} {rs : List Record} {a : Aggregate π σ}
    (h : LoadsFrom m r c n rs a) : m.streamFor r c = some n := by
  obtain ⟨type, made, f, hm, hp, -⟩ := h
  exact streamFor_of_prepare hm hp

theorem loadFor_alike [EventPayload π] (stamp stamp' : Nat → Stamp)
    (h : ∀ n, m.streamFor r c = some n → EventLog.AlikeOn n log log') (w w' : β) :
    m.loadFor (r.onLog stamp') c (log', w') =
      ((m.loadFor (r.onLog stamp) c (log, w)).1, (log', w')) := by
  unfold loadFor
  rcases hm : m.find? c.commandType with _ | type
  · rfl
  · simp only [Repository.load_onLog]
    rcases hp : r.prepare type c.aggregateId with e | ⟨made, n, f⟩
    · rfl
    · have hn : m.streamFor r c = some n := streamFor_of_prepare hm hp
      simp only [Repository.replay_alike r.behavior f c.aggregateId (h n hn) made]

end Loading

end CommandMapping

namespace Dispatcher

section Running

variable [CommandPayload κ] (d : Dispatcher CommandMapping)

def streamFor {α : Type} (r : Repository π κ σ α β) (c : CommandMessage κ) : Option String := do
  let m ← d.find? c.commandType
  m.streamFor r c

variable {α : Type} (r : Repository π κ σ α β)

def report (c : CommandMessage κ) (w : α × β) : Report π κ α :=
  ⟨c, (d.run r c w).1, d.handed r c w⟩

def reportAt (cs : List (CommandMessage κ)) (w : α × β) (i : Fin cs.length) : Report π κ α :=
  d.report r cs[i] (d.runAll r (cs.take i) w)

theorem reports_eq (cs : List (CommandMessage κ)) (w : α × β) :
    d.reports r cs w = (List.finRange cs.length).map (d.reportAt r cs w) := by
  induction cs generalizing w with
  | nil => rfl
  | cons c cs ih =>
    show _ = (List.finRange (cs.length + 1)).map (d.reportAt r (c :: cs) w)
    rw [List.finRange_succ, List.map_cons, List.map_map, reports, ih]
    rfl

theorem getElem?_reports (cs : List (CommandMessage κ)) (w : α × β) (i : Fin cs.length) :
    (d.reports r cs w)[i.1]? = some (d.reportAt r cs w i) := by
  rw [reports_eq, List.getElem?_map, List.getElem?_eq_getElem (by simp), List.getElem_finRange]
  rfl

theorem reportAt_mem (cs : List (CommandMessage κ)) (w : α × β) (i : Fin cs.length) :
    d.reportAt r cs w i ∈ d.reports r cs w := by
  rw [reports_eq]
  exact List.mem_map_of_mem (List.mem_finRange i)

def handedOn (n : String) (done : List (Report π κ α)) : List (EventMessage π × α) :=
  (done.filter fun q => d.streamFor r q.command = some n).flatMap (·.handed)

theorem handedOn_reports (r' : Repository π κ σ α β) (n : String) (cs : List (CommandMessage κ))
    (w : α × β) :
    d.handedOn r n (d.reports r' cs w) =
      ((List.finRange cs.length).filter fun i => d.streamFor r cs[i] = some n).flatMap fun i =>
        (d.reportAt r' cs w i).handed := by
  unfold handedOn
  rw [reports_eq, List.filter_map, List.flatMap_map]
  rfl

/-- Two reports of a command have in common that it is refused alike. If both times it came back, or
if it was sure to, it is answered alike and has handed over the same events. -/
structure Report.Agrees (sure : Prop) (q q' : Report π κ α) : Prop where
  command : q.command = q'.command
  refused : ∀ e, q.outcome = .fail e ↔ q'.outcome = .fail e
  answered : sure ∨ (q.outcome.Returned ∧ q'.outcome.Returned) →
    q.outcome = q'.outcome ∧ q.handed.map (·.1) = q'.handed.map (·.1)

end Running

section OnLogs

variable [EventPayload π] [CommandPayload κ] (d : Dispatcher CommandMapping)
  {r : Repository π κ σ EventLog β} (stamp stamp' : Nat → Stamp) {log log' : EventLog}

/-- A dispatch looks at no stream but that of its command. -/
theorem run_agree (hb : r.behavior.TracksOnly) (hn : r.BuildsNamed) (hk : r.KeepsStore)
    {c : CommandMessage κ} (h : ∀ n, d.streamFor r c = some n → EventLog.AlikeOn n log log')
    (w w' : β) :
    Agree r.HandlersReturn log log' (d.run (r.onLog stamp).observed c (log, w, []))
      (d.run (r.onLog stamp').observed c (log', w', [])) := by
  unfold run dispatch
  rcases hd : d.find? c.commandType with _ | m
  · exact Agree.quiet (fun _ hm => hm) _ w w'
  · have hstream : ∀ n, m.streamFor r c = some n → EventLog.AlikeOn n log log' := by
      intro n hn
      refine h n ?_
      rw [streamFor, hd]
      exact hn
    have hy := CommandMapping.loadFor_alike (r := r.observed) stamp stamp' hstream (w, []) (w', [])
    simp only [CommandMapping.handle]
    rw [show m.loadFor (r.onLog stamp').observed c (log', w', []) = _ from hy]
    rcases m.loadFor_cases (r := r.observed) stamp c log (w, []) with
      ⟨fault, hx⟩ | ⟨a, n, hl, hx⟩
    · rw [hx, show m.loadFor (r.onLog stamp).observed c (log, w, []) = _ from hx]
      exact Agree.quiet (fun _ hm => hm) _ w w'
    · have hload : CommandMapping.LoadsFrom m r c n (log.stream n) a := hl
      rw [hx, show m.loadFor (r.onLog stamp).observed c (log, w, []) = _ from hx]
      exact CommandMapping.handleAndSave_agree stamp stamp' c hb hk (hload.streamOf hb hn)
        (hstream n hload.streamFor) w w'

theorem report_agrees (hb : r.behavior.TracksOnly) (hn : r.BuildsNamed) (hk : r.KeepsStore)
    {c : CommandMessage κ} (h : ∀ n, d.streamFor r c = some n → EventLog.AlikeOn n log log')
    (w w' : β) :
    (d.report (r.onLog stamp) c (log, w)).Agrees r.HandlersReturn
      (d.report (r.onLog stamp') c (log', w')) := by
  have hagree := d.run_agree stamp stamp' hb hn hk h w w'
  obtain ⟨more, hx⟩ := d.observed_run (r.onLog stamp) c log w []
  obtain ⟨more', hy⟩ := d.observed_run (r.onLog stamp') c log' w' []
  unfold report handed
  rw [hx, hy] at hagree ⊢
  exact ⟨rfl, hagree.refused, hagree.answered⟩

theorem run_alike (hb : r.behavior.TracksOnly) (hn : r.BuildsNamed) (hk : r.KeepsStore)
    {c : CommandMessage κ} (h : ∀ n, d.streamFor r c = some n → EventLog.AlikeOn n log log')
    (w w' : β) {m : String} (hm : EventLog.AlikeOn m log log') :
    EventLog.AlikeOn m (d.run (r.onLog stamp) c (log, w)).2.1
      (d.run (r.onLog stamp') c (log', w')).2.1 := by
  have hagree := d.run_agree stamp stamp' hb hn hk h w w'
  obtain ⟨more, hx⟩ := d.observed_run (r.onLog stamp) c log w []
  obtain ⟨more', hy⟩ := d.observed_run (r.onLog stamp') c log' w' []
  rw [hx, hy] at hagree
  exact hagree.streams m hm

/-- A dispatch leaves the streams alone that its command is not for. -/
theorem stream_run (hb : r.behavior.TracksOnly) (hn : r.BuildsNamed) (hk : r.KeepsStore)
    {c : CommandMessage κ} {n : String} (hne : d.streamFor r c ≠ some n) (log : EventLog) (w : β) :
    (d.run (r.onLog stamp) c (log, w)).2.1.stream n = log.stream n := by
  rcases d.run_cases r stamp c log w with ⟨fault, hrun, -⟩ | ⟨m, a, k, hd, hl, hrun⟩ <;> rw [hrun]
  rcases CommandMapping.handleAndSave_cases r stamp c a log w with ⟨hsame, -⟩ | ⟨handled, k', ha⟩
  · rw [hsame]
  · obtain ⟨rs, happ, hlog, -⟩ := ha.appended hk stamp w
    have hstream : r.streamOf handled = some k :=
      (Repository.streamOf_of_handle hb ha.handles).trans (hl.streamOf hb hn)
    obtain rfl : k = k' := Option.some.inj (hstream.symm.trans ha.stream)
    rw [hlog]
    refine EventLog.stream_append_ne log happ.stream_eq fun hnk => hne ?_
    rw [streamFor, hd, hnk]
    exact hl.streamFor

/-- What becomes of a stream hangs on the commands for it. -/
theorem runAll_for (hb : r.behavior.TracksOnly) (hn : r.BuildsNamed) (hk : r.KeepsStore)
    (n : String) (cs : List (CommandMessage κ)) (h : EventLog.AlikeOn n log log') (w w' : β) :
    EventLog.AlikeOn n (d.runAll (r.onLog stamp) cs (log, w)).1
      (d.runAll (r.onLog stamp') (cs.filter fun c => d.streamFor r c = some n) (log', w')).1 := by
  induction cs generalizing log log' w w' with
  | nil => exact h
  | cons c cs ih =>
    by_cases hc : d.streamFor r c = some n
    · rw [List.filter_cons_of_pos (by simpa using hc)]
      refine ih (d.run_alike stamp stamp' hb hn hk (fun k hk => ?_) w w' h) _ _
      obtain rfl : n = k := Option.some.inj (hc.symm.trans hk)
      exact h
    · rw [List.filter_cons_of_neg (by simpa using hc)]
      refine ih (.trans (.of_stream_eq ?_) h) _ _
      exact d.stream_run stamp hb hn hk hc log w

theorem runAll_alike (hb : r.behavior.TracksOnly) (hn : r.BuildsNamed) (hk : r.KeepsStore)
    {n : String} {cs cs' : List (CommandMessage κ)}
    (h : cs.filter (fun c => d.streamFor r c = some n) =
      cs'.filter fun c => d.streamFor r c = some n) (log : EventLog) (w : β) :
    EventLog.AlikeOn n (d.runAll (r.onLog stamp) cs (log, w)).1
      (d.runAll (r.onLog stamp') cs' (log, w)).1 := by
  have hx := d.runAll_for stamp stamp hb hn hk n cs (.refl n log) w w
  have hy := d.runAll_for stamp' stamp hb hn hk n cs' (.refl n log) w w
  rw [h] at hx
  exact hx.trans hy.symm

end OnLogs

/-- The commands `cs'` are the commands `cs` in another order, in which those for one stream still
follow each other as before. -/
structure Reordering [CommandPayload κ] (d : Dispatcher CommandMapping)
    (r : Repository π κ σ EventLog β) (cs cs' : List (CommandMessage κ)) where
  /-- Where a command was. -/
  place : Fin cs'.length ≃ Fin cs.length
  same : ∀ i, cs'[i] = cs[place i]
  inOrder : ∀ i j n, i < j → d.streamFor r cs'[i] = some n → d.streamFor r cs'[j] = some n →
    place i < place j

namespace Reordering

variable [CommandPayload κ] {d : Dispatcher CommandMapping} {r : Repository π κ σ EventLog β}
  {cs cs' : List (CommandMessage κ)} {n : String}

theorem places (p : d.Reordering r cs cs') (n : String) :
    ((List.finRange cs'.length).filter fun i => d.streamFor r cs'[i] = some n).map p.place =
      (List.finRange cs.length).filter fun i => d.streamFor r cs[i] = some n :=
  map_places p.place (fun i => by rw [p.same]) fun i j hij hi hj => p.inOrder i j n hij hi hj

theorem place_lt_iff (p : d.Reordering r cs cs') {i j : Fin cs'.length}
    (hi : d.streamFor r cs'[i] = some n) (hj : d.streamFor r cs'[j] = some n) :
    p.place j < p.place i ↔ j < i := by
  constructor
  · intro hlt
    rcases lt_trichotomy j i with h | rfl | h
    · exact h
    · exact absurd hlt (lt_irrefl _)
    · exact absurd hlt (lt_asymm (p.inOrder i j n h hi hj))
  · exact fun h => p.inOrder j i n h hj hi

theorem filter_take_eq (p : d.Reordering r cs cs') (k k' : Nat)
    (h : ∀ i : Fin cs'.length, d.streamFor r cs'[i] = some n → ((p.place i).1 < k ↔ i.1 < k')) :
    (cs.take k).filter (fun c => d.streamFor r c = some n) =
      (cs'.take k').filter fun c => d.streamFor r c = some n := by
  have hplaces := map_places p.place
    (A := fun i => i.1 < k' ∧ d.streamFor r cs'[i] = some n)
    (B := fun j => j.1 < k ∧ d.streamFor r cs[j] = some n)
    (fun i => by rw [← p.same]; exact and_congr_left (h i))
    (fun i j hij hi hj => p.inOrder i j n hij hi.2 hj.2)
  rw [filter_take, filter_take, ← hplaces, List.map_map]
  exact List.map_congr_left fun i _ => (p.same i).symm

theorem filter_eq (p : d.Reordering r cs cs') (n : String) :
    cs.filter (fun c => d.streamFor r c = some n) =
      cs'.filter fun c => d.streamFor r c = some n := by
  have h := p.filter_take_eq (n := n) cs.length cs'.length fun i _ =>
    iff_of_true (p.place i).2 i.2
  rwa [List.take_length, List.take_length] at h

variable [EventPayload π]

/-- A command finds its stream as it found it in its former place. -/
theorem reportAt_agrees (p : d.Reordering r cs cs') (hb : r.behavior.TracksOnly)
    (hn : r.BuildsNamed) (hk : r.KeepsStore) (stamp stamp' : Nat → Stamp) (log : EventLog) (w : β)
    (i : Fin cs'.length) :
    (d.reportAt (r.onLog stamp) cs (log, w) (p.place i)).Agrees r.HandlersReturn
      (d.reportAt (r.onLog stamp') cs' (log, w) i) := by
  unfold reportAt
  rw [← p.same]
  refine d.report_agrees stamp stamp' hb hn hk (fun n hi => ?_) _ _
  exact d.runAll_alike stamp stamp' hb hn hk
    (p.filter_take_eq _ _ fun j hj => p.place_lt_iff hi hj) log w

end Reordering

/-- Independent commands commute. If commands are dispatched in another order, in which those for
one stream still follow each other as before, each of them is answered as before, each stream gets
the same records but for stamps, and for each stream the same events are handed over, with the same
numbers and in the same order. A handler that aborts a dispatch may do so in one order only; what is
said of answers and of events handed over is said of dispatches that come back. -/
theorem independent_commute [EventPayload π] [CommandPayload κ] (d : Dispatcher CommandMapping)
    (r : Repository π κ σ EventLog β) (stamp stamp' : Nat → Stamp)
    {cs cs' : List (CommandMessage κ)} (log : EventLog) (w : β) (hb : r.behavior.TracksOnly)
    (hn : r.BuildsNamed) (hk : r.KeepsStore) (p : d.Reordering r cs cs') :
    let done := d.reports (r.onLog stamp) cs (log, w)
    let done' := d.reports (r.onLog stamp') cs' (log, w)
    (∀ i : Fin cs'.length, ∃ q q', done[(p.place i).1]? = some q ∧ done'[i.1]? = some q' ∧
      q.Agrees r.HandlersReturn q') ∧
    (∀ n, EventLog.AlikeOn n (d.runAll (r.onLog stamp) cs (log, w)).1
      (d.runAll (r.onLog stamp') cs' (log, w)).1) ∧
    (∀ n, r.HandlersReturn ∨
        (∀ q ∈ done ++ done', d.streamFor r q.command = some n → q.outcome.Returned) →
      (d.handedOn r n done').map (·.1) = (d.handedOn r n done).map (·.1)) := by
  intro done done'
  refine ⟨fun i => ⟨_, _, d.getElem?_reports _ cs (log, w) (p.place i),
    d.getElem?_reports _ cs' (log, w) i, p.reportAt_agrees hb hn hk stamp stamp' log w i⟩,
    fun n => d.runAll_alike stamp stamp' hb hn hk (p.filter_eq n) log w, fun n hback => ?_⟩
  rw [d.handedOn_reports r _ n cs, d.handedOn_reports r _ n cs', ← p.places n, List.flatMap_map,
    List.map_flatMap, List.map_flatMap]
  refine List.flatMap_congr fun i hi => ?_
  have hstream : d.streamFor r cs'[i] = some n := of_decide_eq_true (List.mem_filter.1 hi).2
  have hagree := p.reportAt_agrees hb hn hk stamp stamp' log w i
  refine (hagree.answered (hback.imp_right fun hret => ⟨?_, ?_⟩)).2.symm
  · refine hret _ (List.mem_append_left _ (d.reportAt_mem _ cs (log, w) (p.place i))) ?_
    rw [hagree.command]
    exact hstream
  · exact hret _ (List.mem_append_right _ (d.reportAt_mem _ cs' (log, w) i)) hstream

/-- Two items are created in either order; then more is asked for than is there. -/
theorem independent_commute_items :
    let r := Inventory.App.repository fun _ => ⟨"", .epoch⟩
    let d := Inventory.App.dispatcher
    let bolts : CommandMessage Inventory.Command := .new "bolts" (.create "bolt")
    let nuts : CommandMessage Inventory.Command := .new "nuts" (.create "nut")
    let remove : CommandMessage Inventory.Command := .new "bolts" (.remove 5)
    let done := d.reports r [bolts, nuts, remove] (.empty, .empty)
    let done' := d.reports r [nuts, bolts, remove] (.empty, .empty)
    r.behavior.TracksOnly ∧ r.BuildsNamed ∧ r.KeepsStore ∧
      (∀ q ∈ done ++ done', q.outcome.Returned) ∧
      ∃ p : d.Reordering r [bolts, nuts, remove] [nuts, bolts, remove], p.place ⟨0, by decide⟩ = 1 ∧
        (∀ i : Fin 3, ∃ q q', done[(p.place i).1]? = some q ∧ done'[i.1]? = some q' ∧
          q.Agrees r.HandlersReturn q') ∧
        (∀ n, EventLog.AlikeOn n (d.runAll r [bolts, nuts, remove] (.empty, .empty)).1
          (d.runAll r [nuts, bolts, remove] (.empty, .empty)).1) ∧
        ∀ n, (d.handedOn r n done').map (·.1) = (d.handedOn r n done).map (·.1) := by
  intro r d bolts nuts remove done done'
  have hb : r.behavior.TracksOnly := Inventory.Item.tracksOnly
  have hn : r.BuildsNamed := (Inventory.App.buildsFresh _).buildsNamed
  have hk : r.KeepsStore := Inventory.App.keepsStore _
  have hret : ∀ q ∈ done ++ done', q.outcome.Returned := by
    intro q hq
    simp only [done, done', Dispatcher.reports, List.cons_append, List.nil_append, List.mem_cons,
      List.not_mem_nil, or_false] at hq
    rcases hq with rfl | rfl | rfl | rfl | rfl | rfl <;> trivial
  let p : d.Reordering r [bolts, nuts, remove] [nuts, bolts, remove] := {
    place := Equiv.swap (0 : Fin 3) 1
    same := by
      intro i
      match i with
      | 0 => rfl
      | 1 => rfl
      | 2 => rfl
    inOrder := by
      intro i j n hij hi hj
      have hpairs : ∀ i j : Fin 3, i < j →
          Equiv.swap 0 1 i < Equiv.swap 0 1 j ∨ i = 0 ∧ j = 1 := by decide
      rcases hpairs i j hij with h | ⟨rfl, rfl⟩
      · exact h
      · have hsame : some "InventoryItem-nuts" = some "InventoryItem-bolts" :=
          hi.trans hj.symm
        exact absurd (Option.some.inj hsame) (by decide) }
  obtain ⟨hagree, halike, hhanded⟩ :=
    independent_commute d r (fun _ => ⟨"", .epoch⟩) (fun _ => ⟨"", .epoch⟩) .empty .empty hb hn hk p
  exact ⟨hb, hn, hk, hret, p, rfl, hagree, halike,
    fun n => hhanded n (Or.inr fun q hq _ => hret q hq)⟩

end Dispatcher

end EventSourcing
