import EventSourcing.Repository
import EventSourcing.Proofs.Streams

/-!
Saving an aggregate to a log. A save that has something to do is refused and changes nothing, or is
accepted: then, if its stream has the places, the batch is in the log and the aggregate is committed
before the first event is published, and no handler's error is returned.
-/

namespace EventSourcing

namespace Outcome

variable {ε ε' α : Type}

def Returned : Outcome ε α → Prop
  | .ok _ => True
  | .error (.error _) => True
  | .error (.overflow _) => False
  | .error .unending => False

def Refused (out : Outcome ε α) : Prop := ∃ e, out = fail e

instance (out : Outcome ε α) : Decidable out.Refused :=
  match out with
  | .ok _ => isFalse fun ⟨_, h⟩ => nomatch h
  | .error (.error e) => isTrue ⟨e, rfl⟩
  | .error (.overflow _) => isFalse fun ⟨_, h⟩ => nomatch h
  | .error .unending => isFalse fun ⟨_, h⟩ => nomatch h

theorem refused_mapError (f : ε → ε') (out : Outcome ε α) :
    (out.mapError f).Refused ↔ out.Refused := by
  rcases out with (e | _ | _) | _
  · exact ⟨fun _ => ⟨e, rfl⟩, fun _ => ⟨f e, rfl⟩⟩
  · exact ⟨(fun ⟨_, h⟩ => nomatch h), (fun ⟨_, h⟩ => nomatch h)⟩
  · exact ⟨(fun ⟨_, h⟩ => nomatch h), (fun ⟨_, h⟩ => nomatch h)⟩
  · exact ⟨(fun ⟨_, h⟩ => nomatch h), (fun ⟨_, h⟩ => nomatch h)⟩

theorem returned_mapError {f : ε → ε'} {out : Outcome ε α} :
    (out.mapError f).Returned ↔ out.Returned := by
  rcases out with (_ | _ | _) | _ <;> exact Iff.rfl

theorem ok_of_mapError {f : ε → ε'} {out : Outcome ε α} {a : α} (h : out.mapError f = .ok a) :
    out = .ok a := by
  rcases out with (e | _ | _) | a'
  · nomatch h
  · nomatch h
  · nomatch h
  · exact congrArg Except.ok (Except.ok.inj h)

theorem ok_of_returned {out : Outcome ε Unit} (h : out.Returned) (hr : ¬ out.Refused) :
    out = .ok () := by
  rcases out with (e | o | _) | _
  · exact absurd ⟨e, rfl⟩ hr
  · exact h.elim
  · exact h.elim
  · rfl

end Outcome

namespace Aggregate

variable {π σ : Type}

def committedAt (a : Aggregate π σ) (start : Nat) : Aggregate π σ :=
  { a with base := { a.base with version := start + a.changes.length, changes := [] } }

theorem commitChangesAt_cases (a : Aggregate π σ) (start : Nat) :
    (sizeLimit ≤ start + a.changes.length ∧ a.commitChangesAt start = .error .addition) ∨
    (start + a.changes.length < sizeLimit ∧
      a.commitChangesAt start = .ok (a.changes, a.committedAt start)) := by
  unfold commitChangesAt AggregateBase.commitChangesAt addSize
  by_cases h : start + a.changes.length < sizeLimit
  · exact Or.inr ⟨h, by rw [if_pos (show start + a.base.changes.length < sizeLimit from h)]; rfl⟩
  · exact Or.inl ⟨Nat.not_lt.1 h,
      by rw [if_neg (show ¬ start + a.base.changes.length < sizeLimit from h)]; rfl⟩

end Aggregate

namespace Repository

variable {π κ σ α β : Type}

def streamOf (r : Repository π κ σ α β) (a : Aggregate π σ) : Option String :=
  r.namer.bind fun namer => (namer.find? (r.behavior.typeTag a.state)).map fun name =>
    name (r.behavior.typeTag a.state) a.id

/-- Event handlers do not write to the store. -/
def KeepsStore (r : Repository π κ σ α β) : Prop := ∀ e s w, (r.publish e (s, w)).2.1 = s

/-- Event handlers only append to the log, if they write to it. -/
def AppendsOnly (r : Repository π κ σ EventLog β) : Prop :=
  ∀ e log w, EventLog.Grows log (r.publish e (log, w)).2.1

def KeepsStream (r : Repository π κ σ EventLog β) (n : String) : Prop :=
  ∀ e log w, (r.publish e (log, w)).2.1.stream n = log.stream n

def HandlersReturn (r : Repository π κ σ α β) : Prop := ∀ e w, (r.publish e w).1.Returned

def onLog [EventPayload π] (r : Repository π κ σ EventLog β) (stamp : Nat → Stamp) :
    Repository π κ σ EventLog β :=
  { r with store := EventLog.store stamp }

theorem KeepsStore.appendsOnly {r : Repository π κ σ EventLog β} (hk : r.KeepsStore) :
    r.AppendsOnly := by
  intro e log w
  rw [hk e log w]
  exact EventLog.Grows.refl log

theorem KeepsStore.keepsStream {r : Repository π κ σ EventLog β} (hk : r.KeepsStore) (n : String) :
    r.KeepsStream n := by
  intro e log w
  rw [hk e log w]

def numbered (start : Nat) (es : List (EventMessage π)) : List (EventMessage π) :=
  es.mapIdx fun i e => e.withVersion (some (start + i + 1))

theorem numbered_cons (start : Nat) (e : EventMessage π) (es : List (EventMessage π)) :
    numbered start (e :: es) = e.withVersion (some (start + 1)) :: numbered (start + 1) es := by
  unfold numbered
  rw [List.mapIdx_cons]
  refine congrArg (_ :: ·) (congrArg (List.mapIdx · es) (funext fun i => funext fun e' => ?_))
  rw [show start + (i + 1) + 1 = start + 1 + i + 1 by omega]

theorem length_outgoing (a : Aggregate π σ) : (outgoing a).length = a.changes.length :=
  List.length_map _

theorem outgoing_ne_nil {a : Aggregate π σ} (h : a.changes ≠ []) : outgoing a ≠ [] := by
  intro h'
  exact h (List.map_eq_nil_iff.1 h')

theorem writable_outgoing [EventPayload π] (a : Aggregate π σ) :
    (∀ e ∈ outgoing a, Record.Writable e) ↔ ∀ e ∈ a.changes, Record.Writable e :=
  List.forall_mem_map

theorem writableFrom_outgoing [EventPayload π] (start : Nat) (a : Aggregate π σ) :
    Record.WritableFrom start (outgoing a) ↔ Record.WritableFrom start a.changes := by
  unfold Record.WritableFrom outgoing
  rw [← List.map_take]
  exact List.forall_mem_map

section Publishing

variable (r : Repository π κ σ α β)

theorem placeOf_eq_ok {start offset place : Nat} :
    placeOf start offset = .ok place ↔
      start + offset + 1 < sizeLimit ∧ place = start + offset + 1 := by
  unfold placeOf
  cases h : addSize start offset with
  | error o =>
    constructor
    · exact fun hp => nomatch hp
    · rintro ⟨hlt, -⟩
      rw [addSize_eq_ok.2 ⟨by omega, rfl⟩] at h
      nomatch h
  | ok before =>
    obtain ⟨-, rfl⟩ := addSize_eq_ok.1 h
    exact addSize_eq_ok

/-- Publishing leaves the aggregate alone and returns no error. -/
theorem publishFrom_spec (start offset : Nat) (es : List (EventMessage π)) (a : Aggregate π σ)
    (w : α × β) :
    (r.publishFrom start offset es (a, w)).2.1 = a ∧
      ¬ (r.publishFrom start offset es (a, w)).1.Refused := by
  induction es generalizing offset w with
  | nil => exact ⟨rfl, fun ⟨e, he⟩ => nomatch he⟩
  | cons e es ih =>
    simp only [publishFrom]
    split
    · exact ⟨rfl, fun ⟨e, he⟩ => nomatch he⟩
    · split
      · exact ih _ _
      · exact ih _ _
      · rename_i hf _
        exact ⟨rfl, fun ⟨e, he⟩ => hf e (Except.error.inj he)⟩

theorem publishFrom_store {R : α → α → Prop} (hrefl : ∀ s, R s s)
    (htrans : ∀ {s s' s''}, R s s' → R s' s'' → R s s'')
    (hR : ∀ e s w, R s (r.publish e (s, w)).2.1) (start offset : Nat) (es : List (EventMessage π))
    (a : Aggregate π σ) (s : α) (w : β) :
    R s (r.publishFrom start offset es (a, s, w)).2.2.1 := by
  induction es generalizing offset s w with
  | nil => exact hrefl s
  | cons e es ih =>
    simp only [publishFrom]
    split
    · exact hrefl s
    · rename_i place _
      have hs := hR (e.withVersion (some place)) s w
      split <;> rename_i hp <;> rw [hp] at hs
      · exact htrans hs (ih _ _ _)
      · exact htrans hs (ih _ _ _)
      · exact hs

/-- Every event is published, whatever came of the ones before. -/
theorem publishFrom_eq {r : Repository π κ σ α β} (hr : r.HandlersReturn) {start offset : Nat}
    {es : List (EventMessage π)} (a : Aggregate π σ) (w : α × β)
    (hfit : start + offset + es.length < sizeLimit) :
    r.publishFrom start offset es (a, w) =
      (.ok (), a, (numbered (start + offset) es).foldl (fun w e => (r.publish e w).2) w) := by
  induction es generalizing offset w with
  | nil => rfl
  | cons e es ih =>
    rw [List.length_cons] at hfit
    rw [numbered_cons, List.foldl_cons]
    simp only [publishFrom, placeOf_eq_ok.2 ⟨show start + offset + 1 < sizeLimit by omega, rfl⟩]
    have hret := hr (e.withVersion (some (start + offset + 1))) w
    rcases hp : r.publish (e.withVersion (some (start + offset + 1))) w with ⟨out, w'⟩
    rw [hp] at hret
    have hrest := ih w' (show start + (offset + 1) + es.length < sizeLimit by omega)
    rcases out with (_ | _ | _) | _
    · exact hrest
    · exact hret.elim
    · exact hret.elim
    · exact hrest

end Publishing

section Save

theorem finish_cases (r : Repository π κ σ α β) (start : Nat) (a : Aggregate π σ) (w : α × β) :
    (sizeLimit ≤ start + a.changes.length ∧
      r.finish start (a, w) = (.error (.overflow .addition), (a, w))) ∨
    (start + a.changes.length < sizeLimit ∧
      r.finish start (a, w) = r.publishFrom start 0 (outgoing a) (a.committedAt start, w)) := by
  rcases a.commitChangesAt_cases start with ⟨hle, h⟩ | ⟨hlt, h⟩
  · exact Or.inl ⟨hle, by simp only [finish, h]⟩
  · exact Or.inr ⟨hlt, by simp only [finish, h]⟩

theorem finish_not_refused (r : Repository π κ σ α β) (start : Nat) (a : Aggregate π σ)
    (w : α × β) : ¬ (r.finish start (a, w)).1.Refused := by
  rcases r.finish_cases start a w with ⟨-, h⟩ | ⟨-, h⟩ <;> rw [h]
  · exact fun ⟨e, he⟩ => nomatch he
  · exact (r.publishFrom_spec start 0 (outgoing a) (a.committedAt start) w).2

/-- If handlers come back, all that can go wrong once the batch is stored is the count: the events
are published one after the other, whatever comes of each. -/
theorem finish_eq {r : Repository π κ σ α β} (hr : r.HandlersReturn) {start : Nat}
    {a : Aggregate π σ} (hlt : start + a.changes.length < sizeLimit) (w : α × β) :
    r.finish start (a, w) = (.ok (), a.committedAt start,
      (numbered start (outgoing a)).foldl (fun w e => (r.publish e w).2) w) := by
  rcases r.finish_cases start a w with ⟨hle, -⟩ | ⟨-, h⟩
  · exact absurd hlt (Nat.not_lt.2 hle)
  · rw [h]
    exact publishFrom_eq hr _ w (by rwa [length_outgoing])

theorem finish_ok {r : Repository π κ σ α β} (hr : r.HandlersReturn) {start : Nat}
    {a : Aggregate π σ} (hlt : start + a.changes.length < sizeLimit) (w : α × β) :
    (r.finish start (a, w)).1 = .ok () :=
  congrArg Prod.fst (finish_eq hr hlt w)

theorem finish_store {r : Repository π κ σ α β} {R : α → α → Prop} (hrefl : ∀ s, R s s)
    (htrans : ∀ {s s' s''}, R s s' → R s' s'' → R s s'')
    (hR : ∀ e s w, R s (r.publish e (s, w)).2.1) (start : Nat) (a : Aggregate π σ) (s : α) (w : β) :
    R s (r.finish start (a, s, w)).2.2.1 := by
  rcases r.finish_cases start a (s, w) with ⟨-, h⟩ | ⟨-, h⟩ <;> rw [h]
  · exact hrefl s
  · exact r.publishFrom_store hrefl htrans hR start 0 (outgoing a) (a.committedAt start) s w

theorem KeepsStore.finish {r : Repository π κ σ α β} (hk : r.KeepsStore) (start : Nat)
    (a : Aggregate π σ) (s : α) (w : β) : (r.finish start (a, s, w)).2.2.1 = s := by
  refine finish_store (R := fun s s' => s' = s) (fun _ => rfl) ?_ hk start a s w
  intro s s' s'' h h'
  exact h'.trans h

theorem AppendsOnly.finish {r : Repository π κ σ EventLog β} (ha : r.AppendsOnly) (start : Nat)
    (a : Aggregate π σ) (log : EventLog) (w : β) :
    EventLog.Grows log (r.finish start (a, log, w)).2.2.1 :=
  finish_store EventLog.Grows.refl (fun h h' => h.trans h') ha start a log w

theorem KeepsStream.finish {r : Repository π κ σ EventLog β} {n : String} (hk : r.KeepsStream n)
    (start : Nat) (a : Aggregate π σ) (log : EventLog) (w : β) :
    (r.finish start (a, log, w)).2.2.1.stream n = log.stream n := by
  refine finish_store (R := fun s s' : EventLog => s'.stream n = s.stream n) (fun _ => rfl) ?_ hk
    start a log w
  intro s s' s'' h h'
  exact h'.trans h

theorem finish_aggregate {r : Repository π κ σ α β} {start : Nat} {a : Aggregate π σ} {w : α × β}
    (h : (r.finish start (a, w)).1 = .ok ()) :
    start + a.changes.length < sizeLimit ∧ (r.finish start (a, w)).2.1 = a.committedAt start := by
  rcases r.finish_cases start a w with ⟨-, hf⟩ | ⟨hlt, hf⟩ <;> rw [hf] at h ⊢
  · nomatch h
  · exact ⟨hlt, (r.publishFrom_spec start 0 (outgoing a) (a.committedAt start) w).1⟩

/-- Without changes the store is not asked, whatever it would answer. -/
theorem save_of_no_changes (r : Repository π κ σ α β) (expected : Option Nat) {a : Aggregate π σ}
    (h : a.changes = []) (w : α × β) :
    r.save expected (a, w) =
      (if r.namer.isSome then .ok () else .fail .missingStreamNamer, (a, w)) := by
  obtain ⟨s, w⟩ := w
  unfold save
  cases r.namer with
  | none => rfl
  | some namer => simp only [h, List.isEmpty_nil, if_true, Option.isSome_some]

theorem save_of_no_stream (r : Repository π κ σ α β) (expected : Option Nat) {a : Aggregate π σ}
    (hn : r.streamOf a = none) (hp : a.changes ≠ []) (w : α × β) :
    r.save expected (a, w) =
      (.fail (if r.namer.isSome then .missingStreamNameDelegate (r.behavior.typeTag a.state)
        else .missingStreamNamer), (a, w)) := by
  obtain ⟨s, w⟩ := w
  unfold streamOf at hn
  simp only [save]
  rcases hr : r.namer with _ | namer <;> rw [hr] at hn
  · rfl
  · have hfind : namer.find? (r.behavior.typeTag a.state) = none := by simpa using hn
    have hc : a.changes.isEmpty = false := by simpa using hp
    simp only [StreamNamer.streamName, hfind, hc]
    rfl

def answered (r : Repository π κ σ α β) (start : Nat) (n : String) (a : Aggregate π σ) (w : β) :
    DomainOutcome κ Unit × α → DomainOutcome κ Unit × Aggregate π σ × α × β
  | (.ok (), s) => r.finish start (a, s, w)
  | (.error (.error (.versionConflict _ _ _)), s) =>
    (.fail (.concurrency (r.behavior.typeTag a.state) a.id start n), (a, s, w))
  | (.error fault, s) => (.error fault, (a, s, w))

/-- With changes and a stream, all hangs on what the store answers. -/
theorem save_of_streamOf (r : Repository π κ σ α β) (expected : Option Nat) {a : Aggregate π σ}
    {n : String} (hn : r.streamOf a = some n) (hp : a.changes ≠ []) (s : α) (w : β) :
    r.save expected (a, s, w) = r.answered (expected.getD a.version) n a w
      (r.store.save n (outgoing a) (some (expected.getD a.version))
        (commonHeaders (r.behavior.typeTag a.state)) s) := by
  unfold streamOf at hn
  simp only [save]
  rcases hr : r.namer with _ | namer <;> rw [hr] at hn
  · nomatch hn
  · obtain ⟨name, hfind, rfl⟩ : ∃ name, namer.find? (r.behavior.typeTag a.state) = some name ∧
        name (r.behavior.typeTag a.state) a.id = n := by simpa using hn
    have hc : a.changes.isEmpty = false := by simpa using hp
    simp only [StreamNamer.streamName, hfind, hc]
    rfl

/-- Once the store has taken the batch, what is left is to finish. -/
theorem save_stored (r : Repository π κ σ α β) {expected : Option Nat} {a : Aggregate π σ}
    {n : String} {s s' : α} (hn : r.streamOf a = some n) (hp : a.changes ≠ [])
    (h : r.store.save n (outgoing a) (some (expected.getD a.version))
      (commonHeaders (r.behavior.typeTag a.state)) s = (.ok (), s')) (w : β) :
    r.save expected (a, s, w) = r.finish (expected.getD a.version) (a, s', w) := by
  rw [r.save_of_streamOf expected hn hp, h]
  rfl

theorem answered_of_refused (r : Repository π κ σ α β) {a : Aggregate π σ} {w : β} {start : Nat}
    {n : String} {answer : DomainOutcome κ Unit × α}
    (h : (r.answered start n a w answer).1.Refused) :
    (r.answered start n a w answer).2.1 = a ∧ (r.answered start n a w answer).2.2.2 = w := by
  obtain ⟨(e | _ | _) | _, s⟩ := answer
  · cases e <;> exact ⟨rfl, rfl⟩
  · exact ⟨rfl, rfl⟩
  · exact ⟨rfl, rfl⟩
  · exact absurd h (r.finish_not_refused start a (s, w))

/-- A save that is refused leaves the aggregate and what the handlers work on, whatever the
store. -/
theorem unchanged_of_refused (r : Repository π κ σ α β) {expected : Option Nat} {a : Aggregate π σ}
    {s : α} {w : β} (h : (r.save expected (a, s, w)).1.Refused) :
    (r.save expected (a, s, w)).2.1 = a ∧ (r.save expected (a, s, w)).2.2.2 = w := by
  by_cases hp : a.changes = []
  · rw [r.save_of_no_changes expected hp]
    exact ⟨rfl, rfl⟩
  · rcases hn : r.streamOf a with _ | n
    · rw [r.save_of_no_stream expected hn hp]
      exact ⟨rfl, rfl⟩
    · rw [r.save_of_streamOf expected hn hp] at h ⊢
      exact r.answered_of_refused h

end Save

section OnLog

variable [EventPayload π] (r : Repository π κ σ EventLog β) (stamp : Nat → Stamp)
  (expected : Option Nat) {a : Aggregate π σ} {n : String} (log : EventLog) (w : β)

/-- The stream has the expected version, and the pending events that have a place in it can all be
written. -/
structure Accepts (n : String) (expected : Option Nat) (a : Aggregate π σ) (log : EventLog) :
    Prop where
  version : expected.getD a.version = log.version n
  writable : Record.WritableFrom (log.version n) a.changes

/-- With changes and a stream, a save reports a version that is not met before an event that cannot
be written. What is accepted is appended, or the stream runs out of places first. -/
theorem save_ends (hn : r.streamOf a = some n) (hp : a.changes ≠ []) :
    (expected.getD a.version ≠ log.version n ∧ (r.onLog stamp).save expected (a, log, w) =
      (.fail (.concurrency (r.behavior.typeTag a.state) a.id (expected.getD a.version) n),
        (a, log, w))) ∨
    (expected.getD a.version = log.version n ∧ ¬ Accepts n expected a log ∧
      ∃ s, (r.onLog stamp).save expected (a, log, w) = (.fail (.serialization s), (a, log, w))) ∨
    (Accepts n expected a log ∧ sizeLimit < log.version n + a.changes.length ∧
      (r.onLog stamp).save expected (a, log, w) = (.error (.overflow .addition), (a, log, w))) ∨
    (Accepts n expected a log ∧ log.version n + a.changes.length ≤ sizeLimit ∧
      ∃ rs, Record.Batch n (commonHeaders (r.behavior.typeTag a.state)) (log.version n)
        (outgoing a) rs ∧
      (r.onLog stamp).save expected (a, log, w) =
        (r.onLog stamp).finish (log.version n) (a, log.append rs, w)) := by
  have hsave := save_of_streamOf (r.onLog stamp) expected hn hp log w
  rcases EventLog.save_cases (κ := κ) stamp n (outgoing a) (some (expected.getD a.version))
    (commonHeaders (r.behavior.typeTag a.state)) log with
    ⟨hes, -⟩ | ⟨-, v, hv, hne, hst⟩ | ⟨-, hm, before, bad, after, hes, hw, hend⟩ |
    ⟨-, hm, hw, hfit, rs, hb, hst⟩
  · exact absurd hes (outgoing_ne_nil hp)
  · refine Or.inl ⟨by rwa [Option.some.inj hv], hsave.trans ?_⟩
    simp only [onLog, EventLog.store, hst]
    rfl
  · rcases hend with ⟨hlt, s, hs, hst⟩ | ⟨hle, hst⟩
    · have hnot := Record.not_writableFrom hlt (Record.not_writable hs) after
      rw [← hes, writableFrom_outgoing] at hnot
      refine Or.inr (Or.inl ⟨hm _ rfl, fun hacc => hnot hacc.writable, s, hsave.trans ?_⟩)
      simp only [onLog, EventLog.store, hst]
      rfl
    · have hwritable := Record.writableFrom_of_full hw hle (bad :: after)
      rw [← hes, writableFrom_outgoing] at hwritable
      refine Or.inr (Or.inr (Or.inl ⟨⟨hm _ rfl, hwritable⟩, ?_, hsave.trans ?_⟩))
      · rw [← length_outgoing, hes, List.length_append, List.length_cons]
        omega
      · simp only [onLog, EventLog.store, hst]
        rfl
  · rw [length_outgoing] at hfit
    have hwritable := Record.writableFrom_of_forall (log.version n) hw
    rw [writableFrom_outgoing] at hwritable
    refine Or.inr (Or.inr (Or.inr ⟨⟨hm _ rfl, hwritable⟩, hfit, rs, hb, hsave.trans ?_⟩))
    rw [← hm _ rfl]
    simp only [onLog, EventLog.store, hst]
    rfl

theorem save_refused_iff (hn : r.streamOf a = some n) (hp : a.changes ≠ []) :
    ((r.onLog stamp).save expected (a, log, w)).1.Refused ↔ ¬ Accepts n expected a log := by
  rcases r.save_ends stamp expected log w hn hp with
    ⟨hne, h⟩ | ⟨-, hnot, s, h⟩ | ⟨hacc, -, h⟩ | ⟨hacc, -, rs, -, h⟩ <;> rw [h]
  · exact iff_of_true ⟨_, rfl⟩ fun hacc => hne hacc.version
  · exact iff_of_true ⟨_, rfl⟩ hnot
  · exact iff_of_false (fun ⟨_, he⟩ => nomatch he) (not_not_intro hacc)
  · exact iff_of_false ((r.onLog stamp).finish_not_refused _ _ _) (not_not_intro hacc)

theorem save_conflict (hn : r.streamOf a = some n) (hp : a.changes ≠ [])
    (hne : expected.getD a.version ≠ log.version n) :
    (r.onLog stamp).save expected (a, log, w) =
      (.fail (.concurrency (r.behavior.typeTag a.state) a.id (expected.getD a.version) n),
        (a, log, w)) := by
  rcases r.save_ends stamp expected log w hn hp with
    ⟨-, h⟩ | ⟨hv, -⟩ | ⟨hacc, -⟩ | ⟨hacc, -⟩
  · exact h
  · exact absurd hv hne
  · exact absurd hacc.version hne
  · exact absurd hacc.version hne

theorem save_accepted (hn : r.streamOf a = some n) (hp : a.changes ≠ [])
    (h : Accepts n expected a log) (hfit : log.version n + a.changes.length ≤ sizeLimit) :
    ∃ rs, Record.Batch n (commonHeaders (r.behavior.typeTag a.state)) (log.version n)
        (outgoing a) rs ∧
      (r.onLog stamp).save expected (a, log, w) =
        (r.onLog stamp).finish (log.version n) (a, log.append rs, w) := by
  rcases r.save_ends stamp expected log w hn hp with
    ⟨hne, -⟩ | ⟨-, hnot, -⟩ | ⟨-, hlt, -⟩ | ⟨-, -, hstored⟩
  · exact absurd h.version hne
  · exact absurd h hnot
  · exact absurd hfit (Nat.not_le.2 hlt)
  · exact hstored

theorem save_of_ok (hn : r.streamOf a = some n) (hp : a.changes ≠ [])
    (hok : ((r.onLog stamp).save expected (a, log, w)).1 = .ok ()) :
    Accepts n expected a log ∧ log.version n + a.changes.length < sizeLimit ∧
      ∃ rs, Record.Batch n (commonHeaders (r.behavior.typeTag a.state)) (log.version n)
        (outgoing a) rs ∧
      (r.onLog stamp).save expected (a, log, w) =
        (r.onLog stamp).finish (log.version n) (a, log.append rs, w) := by
  rcases r.save_ends stamp expected log w hn hp with
    ⟨-, h⟩ | ⟨-, -, s, h⟩ | ⟨-, -, h⟩ | ⟨hacc, -, rs, hb, h⟩
  · nomatch h ▸ hok
  · nomatch h ▸ hok
  · nomatch h ▸ hok
  · exact ⟨hacc, (finish_aggregate (h ▸ hok)).1, rs, hb, h⟩

/-- A save that appends nothing changes nothing, and it is well only if there are no changes. -/
theorem save_cases :
    ((r.onLog stamp).save expected (a, log, w)).2 = (a, log, w) ∧
      (((r.onLog stamp).save expected (a, log, w)).1 = .ok () → a.changes = []) ∨
    ∃ n rs, r.streamOf a = some n ∧ a.changes ≠ [] ∧ Accepts n expected a log ∧
      Record.Batch n (commonHeaders (r.behavior.typeTag a.state)) (log.version n) (outgoing a) rs ∧
      (r.onLog stamp).save expected (a, log, w) =
        (r.onLog stamp).finish (log.version n) (a, log.append rs, w) := by
  by_cases hp : a.changes = []
  · rw [(r.onLog stamp).save_of_no_changes expected hp (log, w)]
    exact Or.inl ⟨rfl, fun _ => hp⟩
  · rcases hn : r.streamOf a with _ | n
    · rw [(r.onLog stamp).save_of_no_stream expected hn hp (log, w)]
      exact Or.inl ⟨rfl, fun h => nomatch h⟩
    · rcases r.save_ends stamp expected log w hn hp with
        ⟨-, h⟩ | ⟨-, -, s, h⟩ | ⟨-, -, h⟩ | ⟨hacc, -, rs, hb, h⟩
      · exact Or.inl ⟨congrArg Prod.snd h, by rw [h]; exact fun hok => nomatch hok⟩
      · exact Or.inl ⟨congrArg Prod.snd h, by rw [h]; exact fun hok => nomatch hok⟩
      · exact Or.inl ⟨congrArg Prod.snd h, by rw [h]; exact fun hok => nomatch hok⟩
      · exact Or.inr ⟨n, rs, rfl, hp, hacc, hb, h⟩

/-- A save that is refused changes nothing at all. -/
theorem save_of_refused (h : ((r.onLog stamp).save expected (a, log, w)).1.Refused) :
    ((r.onLog stamp).save expected (a, log, w)).2 = (a, log, w) := by
  rcases r.save_cases stamp expected (a := a) log w with ⟨hsame, -⟩ | ⟨n, rs, -, -, -, -, hf⟩
  · exact hsame
  · rw [hf] at h
    exact absurd h ((r.onLog stamp).finish_not_refused _ _ _)

theorem save_grows (ha : r.AppendsOnly) (a : Aggregate π σ) :
    EventLog.Grows log ((r.onLog stamp).save expected (a, log, w)).2.2.1 := by
  rcases r.save_cases stamp expected (a := a) log w with ⟨h, -⟩ | ⟨n, rs, -, -, -, -, h⟩ <;> rw [h]
  · exact EventLog.Grows.refl log
  · exact (EventLog.grows_append log rs).trans
      (AppendsOnly.finish (r := r.onLog stamp) ha (log.version n) a (log.append rs) w)

end OnLog

def saveAll (r : Repository π κ σ α β) (calls : List (Aggregate π σ × Option Nat)) (w : α × β) :
    α × β :=
  calls.foldl (fun w call => (r.save call.2 (call.1, w)).2.2) w

theorem saveAll_grows [EventPayload π] {r : Repository π κ σ EventLog β} (ha : r.AppendsOnly)
    (stamp : Nat → Stamp) (calls : List (Aggregate π σ × Option Nat)) (log : EventLog) (w : β) :
    EventLog.Grows log ((r.onLog stamp).saveAll calls (log, w)).1 := by
  induction calls generalizing log w with
  | nil => exact EventLog.Grows.refl log
  | cons call calls ih =>
    exact (r.save_grows stamp call.2 log w ha call.1).trans (ih _ _)

end Repository

end EventSourcing
