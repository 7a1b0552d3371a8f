import EventSourcing.Proofs.OptimisticConcurrency
import EventSourcing.Proofs.Replay

/-!
A handle that is saved again and again, without being loaded anew, is what a new load gives. The
invariant: leaving its changes aside, a handle is what the first records of its stream replay to, as
many as its version says. Others may append what they like; a save that succeeds found nothing of
theirs behind those first records.
-/

namespace EventSourcing.Repository

variable {π κ σ β : Type}

/-- A handle beside the log: it was built or loaded, and since then it was changed by raising and by
its own saves without an expected version that succeeded. In between anyone saved anything. -/
inductive Held [EventPayload π] (r : Repository π κ σ EventLog β) (stamp : Nat → Stamp)
    (type : String) (initial : String → σ) (f : EventFactory π) : Aggregate π σ → EventLog → Prop
  | built (id : String) (log : EventLog) : Held r stamp type initial f (.new (initial id) id) log
  | loaded {id : String} {a : Aggregate π σ} {log : EventLog} {w : β} :
      (r.onLog stamp).load type id (log, w) = (.ok a, (log, w)) → Held r stamp type initial f a log
  | raised {a a' : Aggregate π σ} {log : EventLog} {p : π} : Held r stamp type initial f a log →
      Restores f p → r.behavior.raise a p = .ok a' → Held r stamp type initial f a' log
  | saved {a a' : Aggregate π σ} {log log' : EventLog} {w w' : β} :
      Held r stamp type initial f a log →
      (r.onLog stamp).save none (a, log, w) = (.ok (), (a', log', w')) →
      Held r stamp type initial f a' log'
  | others {a b b' : Aggregate π σ} {log log' : EventLog} {w w' : β} {expected : Option Nat}
      {out : DomainOutcome κ Unit} : Held r stamp type initial f a log →
      (r.onLog stamp).save expected (b, log, w) = (out, (b', log', w')) →
      Held r stamp type initial f a log'

/-- Without its changes the handle is what the first records of its stream replay to. -/
structure InStep [EventPayload π] (r : Repository π κ σ EventLog β) (type : String)
    (initial : String → σ) (change : σ → π → Except Overflow σ) (f : EventFactory π)
    (a : Aggregate π σ) (log : EventLog) : Prop where
  tag : r.behavior.typeTag a.state = type
  stored : ∃ n stored, r.prepare type a.id = .ok (.new (initial a.id) a.id, n, f) ∧
    a.version ≤ log.version n ∧
    replay r.behavior f a.id ((log.stream n).take a.version) (.new (initial a.id) a.id) =
      .ok ⟨⟨a.id, a.version, []⟩, stored⟩ ∧
    (a.changes.map (·.payload)).foldlM change stored = .ok a.state
  restores : ∀ e ∈ a.changes, Restores f e.payload

section

variable {r : Repository π κ σ EventLog β} {stamp : Nat → Stamp} {type : String}
  {initial : String → σ} {change : σ → π → Except Overflow σ} {f : EventFactory π}

theorem Registered.prepare (h : Registered r type initial change f) (id : String) :
    ∃ n, r.prepare type id = .ok (.new (initial id) id, n, f) := by
  obtain ⟨aggregates, hag, hmake⟩ := h.make
  obtain ⟨namer, name, hna, hfind⟩ := h.name
  refine ⟨name type id, ?_⟩
  unfold Repository.prepare
  simp only [hag, hna, h.events, hmake id, StreamNamer.streamName, hfind]

theorem Registered.replay_base (h : Registered r type initial change f) {id : String}
    {rs : List Record} {a a' : Aggregate π σ} (hr : replay r.behavior f id rs a = .ok a')
    (ha : r.behavior.typeTag a.state = type) :
    a'.base = { a.base with version := a.version + rs.length } ∧
      r.behavior.typeTag a'.state = type := by
  refine Repository.replay_base r.behavior f id (P := fun s => r.behavior.typeTag s = type) ?_ hr ha
  intro a e applied ha happ
  rw [h.apply e false ha] at happ
  rcases hc : change a.state e.payload with o | s
  · rw [hc] at happ; nomatch happ
  · rw [hc] at happ
    obtain rfl := Except.ok.inj happ
    exact ⟨rfl, h.change_type ha hc⟩

/-- Replaying records does to the state what applying their payloads does. -/
theorem Registered.replay_records (h : Registered r type initial change f) {p : Nat} {ps : List π}
    {rs : List Record} (hb : Along (Bears f) p ps rs) (id : String) {s s' : σ}
    (hs : r.behavior.typeTag s = type) (hfold : ps.foldlM change s = .ok s')
    (hfit : p + ps.length < sizeLimit) :
    replay r.behavior f id rs ⟨⟨id, p, []⟩, s⟩ = .ok ⟨⟨id, p + ps.length, []⟩, s'⟩ := by
  induction hb generalizing s with
  | nil => exact congrArg _ (congrArg _ (Except.ok.inj hfold))
  | @cons p payload rec ps rs hrec _ ih =>
    rw [List.length_cons] at hfit
    rw [List.foldlM_cons] at hfold
    rcases hc : change s payload with o | s₁
    · rw [hc] at hfold; nomatch hfold
    rw [hc] at hfold
    have hone : replayOne r.behavior f id ⟨⟨id, p, []⟩, s⟩ rec = .ok ⟨⟨id, p + 1, []⟩, s₁⟩ := by
      have happ := h.apply (a := ⟨⟨id, p, []⟩, s⟩) ⟨id, payload, rec.headers, some (p + 1)⟩
        false hs
      rw [hc] at happ
      rw [replayOne_of_decoded r.behavior f id hrec.payload
        (Record.version_of_position hrec.position (by omega)), happ]
      exact congrArg Outcome.ofChecked (Aggregate.incrementVersion_eq_ok
        (a := ⟨⟨id, p, []⟩, s₁⟩) (show p + 1 < sizeLimit by omega))
    simp only [replay, hone]
    rw [ih (h.change_type hs hc) hfold (by omega)]
    rw [List.length_cons, show p + 1 + ps.length = p + (ps.length + 1) by omega]

theorem Registered.fold_of_replay (h : Registered r type initial change f) {p : Nat} {ps : List π}
    {rs : List Record} (hb : Along (Bears f) p ps rs) {id : String} {a a' : Aggregate π σ}
    (ha : r.behavior.typeTag a.state = type) (hr : replay r.behavior f id rs a = .ok a') :
    ps.foldlM change a.state = .ok a'.state := by
  induction hb generalizing a with
  | nil => exact congrArg _ (congrArg _ (Except.ok.inj hr))
  | @cons p payload rec ps rs hrec _ ih =>
    simp only [replay] at hr
    rcases hone : replayOne r.behavior f id a rec with fault | a₁ <;> rw [hone] at hr
    · cases hr
    · obtain ⟨payload', version, applied, hdec, -, happ, -, rfl⟩ := replayOne_eq_ok _ f id hone
      obtain rfl : payload = payload' :=
        Except.ok.inj (Option.some.inj (hrec.payload.symm.trans hdec))
      rw [h.apply _ false ha] at happ
      rcases hc : change a.state payload with o | s
      · rw [show change a.state (EventMessage.payload _) = .error o from hc] at happ
        cases happ
      · rw [show change a.state (EventMessage.payload _) = .ok s from hc] at happ
        obtain rfl := Except.ok.inj happ
        rw [List.foldlM_cons, hc]
        exact ih (h.change_type ha hc) hr

variable [EventPayload π] {a a' : Aggregate π σ} {log log' : EventLog} {w w' : β}

theorem InStep.built (h : Registered r type initial change f) (id : String) (log : EventLog) :
    InStep r type initial change f (.new (initial id) id) log where
  tag := h.initial_type id
  stored := by
    obtain ⟨n, hn⟩ := h.prepare id
    exact ⟨n, initial id, hn, Nat.zero_le _, rfl, rfl⟩
  restores := fun e he => nomatch he

theorem InStep.loaded (h : Registered r type initial change f) {id : String}
    (hl : (r.onLog stamp).load type id (log, w) = (.ok a, (log, w))) :
    InStep r type initial change f a log := by
  obtain ⟨n, hn⟩ := h.prepare id
  rw [load_of_prepare hn] at hl
  have hr : replay r.behavior f id (log.stream n) (.new (initial id) id) = .ok a :=
    congrArg Prod.fst hl
  obtain ⟨hbase, htag⟩ := h.replay_base hr (h.initial_type id)
  obtain ⟨base, s⟩ := a
  obtain rfl : base = ⟨id, log.version n, []⟩ := by
    rw [show base = ⟨id, 0 + (log.stream n).length, []⟩ from hbase, Nat.zero_add]
    rfl
  refine ⟨htag, ⟨n, s, hn, Nat.le_refl _, ?_, rfl⟩, fun e he => nomatch he⟩
  show replay r.behavior f id ((log.stream n).take (log.version n)) (.new (initial id) id) = _
  rw [EventLog.take_version]
  exact hr

theorem InStep.raised (h : Registered r type initial change f) {p : π}
    (hi : InStep r type initial change f a log) (hp : Restores f p)
    (hr : r.behavior.raise a p = .ok a') : InStep r type initial change f a' log := by
  unfold Behavior.raise at hr
  rw [h.apply _ _ hi.tag] at hr
  rcases hc : change a.state p with o | s
  · rw [show change a.state (EventMessage.new a.id p).payload = .error o from hc] at hr
    nomatch hr
  · rw [show change a.state (EventMessage.new a.id p).payload = .ok s from hc] at hr
    obtain rfl := Except.ok.inj hr
    obtain ⟨n, stored, hn, hle, hrep, hfold⟩ := hi.stored
    refine ⟨h.change_type hi.tag hc, ⟨n, stored, hn, hle, hrep, ?_⟩, ?_⟩
    · show ((a.changes ++ [EventMessage.new a.id p]).map (·.payload)).foldlM change stored = .ok s
      rw [List.map_append, List.foldlM_append, hfold]
      simp only [List.map_cons, List.map_nil, List.foldlM_cons, List.foldlM_nil, EventMessage.new,
        bind, Except.bind, hc, pure, Except.pure]
    · intro e he
      rcases List.mem_append.1 he with he | he
      · exact hi.restores e he
      · rw [List.mem_singleton.1 he]; exact hp

/-- What others append does not reach back to the handle's records. -/
theorem InStep.grows (hi : InStep r type initial change f a log) (hg : EventLog.Grows log log') :
    InStep r type initial change f a log' := by
  obtain ⟨n, stored, hn, hle, hrep, hfold⟩ := hi.stored
  exact ⟨hi.tag, ⟨n, stored, hn, Nat.le_trans hle (hg.version_le n), by rwa [hg.take hle], hfold⟩,
    hi.restores⟩

/-- A save that appended leaves the handle level with its whole stream. -/
theorem InStep.appended (h : Registered r type initial change f) {n : String} {rs : List Record}
    (hi : InStep r type initial change f a log) (hn : r.streamOf a = some n)
    (hv : a.version = log.version n) (hfit : log.version n + a.changes.length < sizeLimit)
    (hb : Record.Batch n (commonHeaders (r.behavior.typeTag a.state)) (log.version n)
      (outgoing a) rs) :
    InStep r type initial change f (a.committedAt (log.version n)) (log.append rs) := by
  obtain ⟨m, stored, hm, hle, hrep, hfold⟩ := hi.stored
  obtain rfl : m = n := Option.some.inj ((streamOf_of_prepare hm hi.tag rfl).symm.trans hn)
  have hversion : (log.append rs).version m = log.version m + a.changes.length := by
    rw [EventLog.version_append_self log hb.stream_eq, hb.length_eq, length_outgoing]
  have hpay : (outgoing a).map (·.payload) = a.changes.map (·.payload) := by
    simp only [outgoing, List.map_map]; rfl
  -- the save found the stream at the handle's version: nobody has written behind its records
  rw [hv, EventLog.take_version] at hrep
  refine ⟨hi.tag, ⟨m, a.state, hm, ?_, ?_, rfl⟩, fun e he => nomatch he⟩
  · exact Nat.le_of_eq hversion.symm
  · show replay r.behavior f a.id (((log.append rs).stream m).take
      (log.version m + a.changes.length)) (.new (initial a.id) a.id) =
        .ok ⟨⟨a.id, log.version m + a.changes.length, []⟩, a.state⟩
    rw [← hversion, EventLog.take_version, EventLog.stream_append_self log hb.stream_eq,
      replay_append, hrep, hversion]
    have hstored : r.behavior.typeTag stored = type := (h.replay_base hrep (h.initial_type a.id)).2
    have hbears := bears_of_batch hb (List.forall_mem_map.2 fun e he => hi.restores e he)
    rw [hpay] at hbears
    have hall := h.replay_records hbears a.id hstored hfold (by rw [List.length_map]; exact hfit)
    rw [List.length_map] at hall
    exact hall

theorem InStep.saved (h : Registered r type initial change f) (ha : r.AppendsOnly)
    (hi : InStep r type initial change f a log)
    (hs : (r.onLog stamp).save none (a, log, w) = (.ok (), (a', log', w'))) :
    InStep r type initial change f a' log' := by
  rcases r.save_cases stamp none (a := a) log w with
    ⟨hsame, -⟩ | ⟨n, rs, hn, -, hacc, hb, hf⟩
  · rw [hs] at hsame
    obtain ⟨rfl, rfl, -⟩ : a' = a ∧ log' = log ∧ w' = w := by simpa using hsame
    exact hi
  · rw [hs] at hf
    obtain ⟨hfit, hagg⟩ := finish_aggregate (congrArg Prod.fst hf).symm
    have hgrow := AppendsOnly.finish (r := r.onLog stamp) ha (log.version n) a (log.append rs) w
    rw [← hf] at hagg hgrow
    obtain rfl : a' = a.committedAt (log.version n) := hagg
    exact (hi.appended h hn hacc.version hfit hb).grows hgrow

theorem Held.inStep (h : Registered r type initial change f) (ha : r.AppendsOnly)
    (hh : Held r stamp type initial f a log) : InStep r type initial change f a log := by
  induction hh with
  | built id log => exact InStep.built h id log
  | loaded hl => exact InStep.loaded h hl
  | raised _ hp hr ih => exact ih.raised h hp hr
  | saved _ hs ih => exact ih.saved h ha hs
  | @others a b b' log log' w w' expected out _ hs ih =>
    have hg := r.save_grows stamp expected log w ha b
    rw [hs] at hg
    exact ih.grows hg

/-- A handle without changes that is level with its stream is what loading gives. -/
theorem InStep.load_eq (hi : InStep r type initial change f a log) {n : String}
    (hn : r.streamOf a = some n) (hc : a.changes = []) (hv : a.version = log.version n) (w : β) :
    (r.onLog stamp).load type a.id (log, w) = (.ok a, (log, w)) := by
  obtain ⟨m, stored, hm, -, hrep, hfold⟩ := hi.stored
  obtain rfl : m = n := Option.some.inj ((streamOf_of_prepare hm hi.tag rfl).symm.trans hn)
  rw [hv, EventLog.take_version] at hrep
  rw [load_of_prepare hm, hrep]
  obtain ⟨⟨id, v, changes⟩, s⟩ := a
  obtain rfl : changes = [] := hc
  obtain rfl : stored = s := Except.ok.inj hfold
  obtain rfl : v = log.version m := hv
  rfl

/-- Right after a save that succeeded the handle is, in state, versions and (no) changes, what a new
load of its type and id gives. Handlers may append to other streams meanwhile. -/
theorem load_eq_saved (h : Registered r type initial change f) (ha : r.AppendsOnly)
    (hh : Held r stamp type initial f a log) (hk : ∀ n, r.streamOf a = some n → r.KeepsStream n)
    (hp : a.changes ≠ []) (hs : (r.onLog stamp).save none (a, log, w) = (.ok (), (a', log', w'))) :
    a'.changes = [] ∧ a'.id = a.id ∧
      ∀ w, (r.onLog stamp).load type a.id (log', w) = (.ok a', (log', w)) := by
  have hi : InStep r type initial change f a log := hh.inStep h ha
  have hi' : InStep r type initial change f a' log' := (hh.saved hs).inStep h ha
  obtain ⟨n, -, hm, -, -, -⟩ := hi.stored
  have hn : r.streamOf a = some n := streamOf_of_prepare hm hi.tag rfl
  have hok : ((r.onLog stamp).save none (a, log, w)).1 = .ok () := congrArg Prod.fst hs
  have hst := stored_of_ok (hk n hn) hn hp hok
  rw [hs] at hst
  refine ⟨hst.changes, hst.id, fun w => ?_⟩
  rw [← hst.id]
  exact hi'.load_eq (streamOf_of_prepare hm hi'.tag hst.id) hst.changes hst.version w

end

theorem load_eq_saved_created :
    let r := Inventory.App.repository fun _ => ⟨"", .epoch⟩
    let a : Aggregate Inventory.Event Inventory.Item :=
      ⟨⟨"bolts", 0, [.new "bolts" (.created "bolt")]⟩, ⟨true, 0⟩⟩
    let saved := r.save none (a, .empty, .empty)
    Registered r Inventory.Item.typeTag (fun _ => Inventory.Item.initial) Inventory.Item.change
        Inventory.App.events ∧ r.AppendsOnly ∧
      Held r (fun _ => ⟨"", .epoch⟩) Inventory.Item.typeTag (fun _ => Inventory.Item.initial)
        Inventory.App.events a .empty ∧
      (∀ n, r.streamOf a = some n → r.KeepsStream n) ∧ a.changes ≠ [] ∧ saved.1 = .ok () ∧
      ∀ w, r.load Inventory.Item.typeTag "bolts" (saved.2.2.1, w) =
        (.ok saved.2.1, (saved.2.2.1, w)) := by
  intro r a saved
  have hr := Inventory.App.registered fun _ => ⟨"", .epoch⟩
  have hk : r.KeepsStore := Inventory.App.keepsStore _
  have hheld : Held r (fun _ => ⟨"", .epoch⟩) Inventory.Item.typeTag
      (fun _ => Inventory.Item.initial) Inventory.App.events a .empty :=
    .raised (.built "bolts" .empty) (Inventory.App.restores (.created "bolt")) rfl
  have hp : a.changes ≠ [] := List.cons_ne_nil _ _
  have hs : r.save none (a, .empty, .empty) =
    (.ok (), (saved.2.1, saved.2.2.1, saved.2.2.2)) := rfl
  exact ⟨hr, hk.appendsOnly, hheld, fun n _ => hk.keepsStream n, hp, rfl,
    (load_eq_saved hr hk.appendsOnly hheld (fun n _ => hk.keepsStream n) hp hs).2.2⟩

end EventSourcing.Repository
