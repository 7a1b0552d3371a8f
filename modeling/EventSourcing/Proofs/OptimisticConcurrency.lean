import EventSourcing.Proofs.Registration

/-!
A save with pending changes is all or nothing. It succeeds exactly when the stream has the expected
version and every change can be written; then the stream has grown by the changes and the aggregate
is level with it. Otherwise store, handlers and aggregate are as they were, and a version that was
not met is reported as such. So of two saves that expect one version of a stream, the later one
fails, whatever was saved in between.
-/

namespace EventSourcing.Repository

variable {π κ σ β : Type} [EventPayload π]

/-- What a save leaves behind that found the stream at the expected version. -/
structure Stored (r : Repository π κ σ EventLog β) (n : String) (a a' : Aggregate π σ)
    (log log' : EventLog) : Prop where
  batch : ∃ rs, Record.Batch n (commonHeaders (r.behavior.typeTag a.state)) (log.version n)
    (outgoing a) rs ∧ log'.stream n = log.stream n ++ rs
  changes : a'.changes = []
  version : a'.version = log'.version n
  id : a'.id = a.id
  state : a'.state = a.state

section

variable {r : Repository π κ σ EventLog β} {stamp : Nat → Stamp} {expected : Option Nat}
  {a : Aggregate π σ} {n : String} {log : EventLog} {w : β}

theorem saved_of_accepts (hn : r.streamOf a = some n) (hp : a.changes ≠ [])
    (hacc : Accepts n expected a log) (hret : r.HandlersReturn)
    (hfit : log.version n + a.changes.length < sizeLimit) :
    ((r.onLog stamp).save expected (a, log, w)).1 = .ok () := by
  obtain ⟨rs, -, h⟩ := r.save_accepted stamp expected log w hn hp hacc (Nat.le_of_lt hfit)
  rw [h]
  exact finish_ok (r := r.onLog stamp) hret hfit (log.append rs, w)

theorem stored_of_ok (hk : r.KeepsStream n) (hn : r.streamOf a = some n) (hp : a.changes ≠ [])
    (hok : ((r.onLog stamp).save expected (a, log, w)).1 = .ok ()) :
    Stored r n a ((r.onLog stamp).save expected (a, log, w)).2.1 log
      ((r.onLog stamp).save expected (a, log, w)).2.2.1 := by
  obtain ⟨-, -, rs, hb, h⟩ := r.save_of_ok stamp expected log w hn hp hok
  rw [h] at hok ⊢
  have hstream : ((r.onLog stamp).finish (log.version n) (a, log.append rs, w)).2.2.1.stream n =
      log.stream n ++ rs :=
    (KeepsStream.finish (r := r.onLog stamp) hk _ _ _ _).trans
      (EventLog.stream_append_self log hb.stream_eq)
  rw [(finish_aggregate hok).2]
  exact {
    batch := ⟨rs, hb, hstream⟩
    changes := rfl
    version := by
      have hlength := congrArg List.length hstream
      rw [List.length_append, hb.length_eq, length_outgoing] at hlength
      exact hlength.symm
    id := rfl
    state := rfl }

theorem stream_of_ok (hk : r.KeepsStore) (hn : r.streamOf a = some n) (hp : a.changes ≠ [])
    (hok : ((r.onLog stamp).save expected (a, log, w)).1 = .ok ()) {m : String} (hm : m ≠ n) :
    ((r.onLog stamp).save expected (a, log, w)).2.2.1.stream m = log.stream m := by
  obtain ⟨-, -, rs, hb, h⟩ := r.save_of_ok stamp expected log w hn hp hok
  rw [h, KeepsStore.finish (r := r.onLog stamp) hk]
  exact EventLog.stream_append_ne log hb.stream_eq hm

/-- Once a version of a stream has been built on, it is never met again. -/
theorem conflict_after_ok (ha : r.AppendsOnly) (hn : r.streamOf a = some n) (hp : a.changes ≠ [])
    (hok : ((r.onLog stamp).save expected (a, log, w)).1 = .ok ())
    (calls : List (Aggregate π σ × Option Nat)) {b : Aggregate π σ} {expected' : Option Nat}
    (hb : r.streamOf b = some n) (hbp : b.changes ≠ [])
    (hv : expected'.getD b.version = expected.getD a.version) :
    let later := (r.onLog stamp).saveAll calls ((r.onLog stamp).save expected (a, log, w)).2.2
    (r.onLog stamp).save expected' (b, later) = (.fail (.concurrency
      (r.behavior.typeTag b.state) b.id (expected'.getD b.version) n), (b, later)) := by
  intro later
  obtain ⟨hacc, -, rs, hbatch, hsave⟩ := r.save_of_ok stamp expected log w hn hp hok
  have hfinish : EventLog.Grows (log.append rs)
      ((r.onLog stamp).save expected (a, log, w)).2.2.1 := by
    rw [hsave]
    exact AppendsOnly.finish (r := r.onLog stamp) ha _ _ _ _
  have hgrow : EventLog.Grows (log.append rs) later.1 :=
    hfinish.trans (saveAll_grows ha stamp calls _ _)
  have hpos : 0 < a.changes.length := List.length_pos_iff.2 hp
  have hlt : log.version n < later.1.version n := by
    refine Nat.lt_of_lt_of_le ?_ (hgrow.version_le n)
    rw [EventLog.version_append_self log hbatch.stream_eq, hbatch.length_eq, length_outgoing]
    omega
  have hne : expected'.getD b.version ≠ later.1.version n := by
    rw [hv, hacc.version]; omega
  exact r.save_conflict stamp expected' later.1 later.2 hb hbp hne

end

/-- Optimistic concurrency with atomic failure. An abort of a handler, or of a stream longer than a
machine word can count, is neither success nor failure. Handlers may write to other streams. -/
theorem save_all_or_nothing (r : Repository π κ σ EventLog β) (stamp : Nat → Stamp)
    (expected : Option Nat) (a : Aggregate π σ) (n : String) (log : EventLog) (w : β)
    (hn : r.streamOf a = some n) (hp : a.changes ≠ []) :
    let start := expected.getD a.version
    let saved := (r.onLog stamp).save expected (a, log, w)
    (saved.1 = .ok () → Accepts n expected a log ∧ (∀ e ∈ a.changes, Record.Writable e) ∧
      log.version n + a.changes.length < sizeLimit) ∧
    (Accepts n expected a log → r.HandlersReturn → log.version n + a.changes.length < sizeLimit →
      saved.1 = .ok ()) ∧
    (saved.1.Refused ↔ ¬ Accepts n expected a log) ∧
    (saved.1 = .ok () → r.KeepsStream n → Stored r n a saved.2.1 log saved.2.2.1) ∧
    (saved.1 = .ok () → r.KeepsStore → ∀ m, m ≠ n → saved.2.2.1.stream m = log.stream m) ∧
    (saved.1.Refused → saved.2 = (a, log, w) ∧ (start ≠ log.version n →
      saved.1 = .fail (.concurrency (r.behavior.typeTag a.state) a.id start n))) ∧
    (saved.1 = .ok () → r.AppendsOnly → ∀ calls b expected', r.streamOf b = some n →
      b.changes ≠ [] → expected'.getD b.version = start →
      (r.onLog stamp).save expected' (b, (r.onLog stamp).saveAll calls saved.2.2) =
        (.fail (.concurrency (r.behavior.typeTag b.state) b.id start n),
          (b, (r.onLog stamp).saveAll calls saved.2.2))) := by
  intro start saved
  refine ⟨?_, saved_of_accepts hn hp, r.save_refused_iff stamp expected log w hn hp,
    fun hok hk => stored_of_ok hk hn hp hok,
    fun hok hk m hm => stream_of_ok hk hn hp hok hm, fun hf => ⟨?_, fun hne => ?_⟩, ?_⟩
  · intro hok
    obtain ⟨hacc, hlt, rs, hb, -⟩ := r.save_of_ok stamp expected log w hn hp hok
    exact ⟨hacc, (writable_outgoing a).1 hb.writable, hlt⟩
  · exact r.save_of_refused stamp expected log w hf
  · exact congrArg Prod.fst (r.save_conflict stamp expected log w hn hp hne)
  · intro hok ha calls b expected' hb hbp hv
    have h := conflict_after_ok ha hn hp hok calls hb hbp hv
    rwa [hv] at h

theorem save_all_or_nothing_created :
    let r := Inventory.App.repository fun _ => ⟨"", .epoch⟩
    let a : Aggregate Inventory.Event Inventory.Item :=
      ⟨⟨"bolts", 0, [.new "bolts" (.created "bolt")]⟩, ⟨true, 0⟩⟩
    let saved := r.save none (a, .empty, .empty)
    r.streamOf a = some "InventoryItem-bolts" ∧ a.changes ≠ [] ∧
      Accepts "InventoryItem-bolts" none a .empty ∧
      Stored r "InventoryItem-bolts" a saved.2.1 .empty saved.2.2.1 := by
  intro r a saved
  have hn : r.streamOf a = some "InventoryItem-bolts" := rfl
  have hp : a.changes ≠ [] := List.cons_ne_nil _ _
  have hok : saved.1 = .ok () := rfl
  have hk : r.KeepsStore := Inventory.App.keepsStore _
  obtain ⟨haccepts, -, -, hstored, -⟩ :=
    save_all_or_nothing r (fun _ => ⟨"", .epoch⟩) none a _ .empty .empty hn hp
  exact ⟨hn, hp, (haccepts hok).1, hstored hok (hk.keepsStream _)⟩

end EventSourcing.Repository
