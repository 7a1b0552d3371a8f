import EventSourcing.Proofs.Registration
import EventSourcing.Proofs.Replay

/-!
What event handlers are handed. An observed repository notes every event that it hands over and the
store as it was then, and is otherwise the same. Over saves of any handles the events handed over
for a stream are its records, each once and in their order, with the numbers that replaying gives
them; each was stored before it was handed over.
-/

namespace EventSourcing

namespace Repository

variable {π κ σ α β : Type}

/-- The repository with, beside its world, a list of the events that were handed over, each with the
store as it was then. -/
def observed (r : Repository π κ σ α β) :
    Repository π κ σ α (β × List (EventMessage π × α)) where
  behavior := r.behavior
  store := r.store
  publish e := fun (s, w, seen) =>
    let (out, s', w') := r.publish e (s, w)
    (out, s', w', seen ++ [(e, s)])
  aggregates := r.aggregates
  namer := r.namer
  events := r.events

def handed (r : Repository π κ σ α β) (expected : Option Nat) (a : Aggregate π σ) (w : α × β) :
    List (EventMessage π × α) :=
  (r.observed.save expected (a, w.1, w.2, [])).2.2.2.2

structure Report (π κ σ α : Type) where
  aggregate : Aggregate π σ
  outcome : DomainOutcome κ Unit
  handed : List (EventMessage π × α)

def reports (r : Repository π κ σ α β) :
    List (Aggregate π σ × Option Nat) → α × β → List (Report π κ σ α)
  | [], _ => []
  | call :: calls, w =>
    ⟨call.1, (r.save call.2 (call.1, w)).1, r.handed call.2 call.1 w⟩ ::
      r.reports calls (r.save call.2 (call.1, w)).2.2

def handedOn (r : Repository π κ σ α β) (n : String) (done : List (Report π κ σ α)) :
    List (EventMessage π × α) :=
  (done.filter fun p => r.streamOf p.aggregate = some n).flatMap (·.handed)

theorem handedOn_cons (r : Repository π κ σ α β) (n : String) (p : Report π κ σ α)
    (done : List (Report π κ σ α)) :
    r.handedOn n (p :: done) =
      (if r.streamOf p.aggregate = some n then p.handed else []) ++ r.handedOn n done := by
  unfold handedOn
  by_cases h : r.streamOf p.aggregate = some n <;> simp [h]

section Observing

variable (r : Repository π κ σ α β) (expected : Option Nat) (a : Aggregate π σ) (s : α) (w : β)
  (seen : List (EventMessage π × α))

/-- The observed action did the same and noted some more. -/
def Shows (plain : DomainOutcome κ Unit × Aggregate π σ × α × β) (seen : List (EventMessage π × α))
    (watched : DomainOutcome κ Unit × Aggregate π σ × α × β × List (EventMessage π × α)) : Prop :=
  ∃ more, watched = (plain.1, plain.2.1, plain.2.2.1, plain.2.2.2, seen ++ more)

namespace Shows

variable {plain : DomainOutcome κ Unit × Aggregate π σ × α × β} {seen : List (EventMessage π × α)}
  {watched : DomainOutcome κ Unit × Aggregate π σ × α × β × List (EventMessage π × α)}

theorem nothing (plain : DomainOutcome κ Unit × Aggregate π σ × α × β)
    (seen : List (EventMessage π × α)) :
    Shows plain seen (plain.1, plain.2.1, plain.2.2.1, plain.2.2.2, seen) :=
  ⟨[], by rw [List.append_nil]⟩

theorem outcome (h : Shows plain seen watched) : plain.1 = watched.1 := by
  obtain ⟨more, rfl⟩ := h
  rfl

theorem aggregate (h : Shows plain seen watched) : plain.2.1 = watched.2.1 := by
  obtain ⟨more, rfl⟩ := h
  rfl

theorem store (h : Shows plain seen watched) : plain.2.2.1 = watched.2.2.1 := by
  obtain ⟨more, rfl⟩ := h
  rfl

end Shows

theorem observed_publish (e : EventMessage π) :
    r.observed.publish e (s, w, seen) =
      ((r.publish e (s, w)).1, (r.publish e (s, w)).2.1, (r.publish e (s, w)).2.2,
        seen ++ [(e, s)]) := rfl

theorem KeepsStore.observed {r : Repository π κ σ α β} (hk : r.KeepsStore) :
    r.observed.KeepsStore := fun e s w => hk e s w.1

theorem HandlersReturn.observed {r : Repository π κ σ α β} (hr : r.HandlersReturn) :
    r.observed.HandlersReturn := fun e w => hr e (w.1, w.2.1)

theorem KeepsStream.observed {r : Repository π κ σ EventLog β} {n : String}
    (hk : r.KeepsStream n) : r.observed.KeepsStream n := fun e log w => hk e log w.1

theorem observed_publishFrom (start offset : Nat) (es : List (EventMessage π)) :
    Shows (r.publishFrom start offset es (a, s, w)) seen
      (r.observed.publishFrom start offset es (a, s, w, seen)) := by
  induction es generalizing offset s w seen with
  | nil => exact Shows.nothing _ seen
  | cons e es ih =>
    simp only [publishFrom]
    cases placeOf start offset with
    | error o => exact Shows.nothing _ seen
    | ok place =>
      simp only [observed_publish]
      rcases r.publish (e.withVersion (some place)) (s, w) with ⟨out, s', w'⟩
      obtain ⟨more, h⟩ := ih s' w' (seen ++ [(e.withVersion (some place), s)]) (offset + 1)
      rw [List.append_assoc] at h
      rcases out with (_ | _ | _) | _
      · exact ⟨_, h⟩
      · exact ⟨_, rfl⟩
      · exact ⟨_, rfl⟩
      · exact ⟨_, h⟩

theorem observed_finish (start : Nat) :
    Shows (r.finish start (a, s, w)) seen (r.observed.finish start (a, s, w, seen)) := by
  simp only [finish]
  cases a.commitChangesAt start with
  | error o => exact Shows.nothing _ seen
  | ok p => exact r.observed_publishFrom p.2 s w seen start 0 (outgoing a)

theorem observed_save :
    Shows (r.save expected (a, s, w)) seen (r.observed.save expected (a, s, w, seen)) := by
  simp only [save, show r.observed.namer = r.namer from rfl,
    show r.observed.behavior = r.behavior from rfl, show r.observed.store = r.store from rfl]
  cases r.namer with
  | none => exact Shows.nothing _ seen
  | some namer =>
    by_cases hc : a.changes.isEmpty
    · simp only [hc, if_true]
      exact Shows.nothing _ seen
    · simp only [hc, Bool.false_eq_true, if_false]
      cases namer.streamName (r.behavior.typeTag a.state) a.id with
      | error e => exact Shows.nothing _ seen
      | ok n =>
        dsimp only
        rcases r.store.save n (outgoing a) (some (expected.getD a.version))
          (commonHeaders (r.behavior.typeTag a.state)) s with ⟨out, s'⟩
        rcases out with (e | _ | _) | _
        · cases e <;> exact Shows.nothing (_, a, s', w) seen
        · exact Shows.nothing (_, a, s', w) seen
        · exact Shows.nothing (_, a, s', w) seen
        · exact r.observed_finish a s' w seen (expected.getD a.version)

theorem handed_of_refused {r : Repository π κ σ α β} {expected : Option Nat} {a : Aggregate π σ}
    {s : α} {w : β} (h : (r.save expected (a, s, w)).1.Refused) :
    r.handed expected a (s, w) = [] := by
  rw [(r.observed_save expected a s w []).outcome] at h
  exact congrArg Prod.snd (r.observed.unchanged_of_refused h).2

/-- Publishing that comes back hands over all events, numbered by their places in the stream. The
stores they are handed over with are related to the first as handlers relate stores. -/
theorem publishFrom_handed {R : α → α → Prop} (hrefl : ∀ s, R s s)
    (htrans : ∀ {s s' s''}, R s s' → R s' s'' → R s s'')
    (hR : ∀ e s w, R s (r.publish e (s, w)).2.1) {start offset : Nat} {es : List (EventMessage π)}
    (hret : (r.observed.publishFrom start offset es (a, s, w, seen)).1.Returned) :
    ∃ more, (r.observed.publishFrom start offset es (a, s, w, seen)).2.2.2.2 = seen ++ more ∧
      Along (fun k e h => k + 1 < sizeLimit ∧ h.1 = e.withVersion (some (k + 1)) ∧ R s h.2)
        (start + offset) es more := by
  induction es generalizing offset s w seen with
  | nil => exact ⟨[], (List.append_nil seen).symm, Along.nil⟩
  | cons e es ih =>
    simp only [publishFrom] at hret ⊢
    rcases hplace : placeOf start offset with o | place
    · rw [hplace] at hret
      exact hret.elim
    obtain ⟨hlt, rfl⟩ := placeOf_eq_ok.1 hplace
    have hs := hR (e.withVersion (some (start + offset + 1))) s w
    simp only [hplace, observed_publish] at hret ⊢
    rcases hpub : r.publish (e.withVersion (some (start + offset + 1))) (s, w) with ⟨out, s', w'⟩
    rw [hpub] at hs
    simp only [hpub] at hret ⊢
    -- an error of the handler is passed over: the event counts as handed over all the same
    have hrest : (r.observed.publishFrom start (offset + 1) es (a, s', w',
          seen ++ [(e.withVersion (some (start + offset + 1)), s)])).1.Returned →
        ∃ more, (r.observed.publishFrom start (offset + 1) es (a, s', w',
          seen ++ [(e.withVersion (some (start + offset + 1)), s)])).2.2.2.2 = seen ++ more ∧
        Along (fun k e h => k + 1 < sizeLimit ∧ h.1 = e.withVersion (some (k + 1)) ∧ R s h.2)
          (start + offset) (e :: es) more := by
      intro hret
      obtain ⟨more, hmore, halong⟩ := ih s' w' _ hret
      refine ⟨(e.withVersion (some (start + offset + 1)), s) :: more,
        hmore.trans (List.append_assoc _ _ _), Along.cons ⟨hlt, rfl, hrefl s⟩ ?_⟩
      exact halong.imp fun h => ⟨h.1, h.2.1, htrans hs h.2.2⟩
    rcases out with (_ | _ | _) | _
    · exact hrest hret
    · exact hret.elim
    · exact hret.elim
    · exact hrest hret

theorem finish_handed {R : α → α → Prop} (hrefl : ∀ s, R s s)
    (htrans : ∀ {s s' s''}, R s s' → R s' s'' → R s s'')
    (hR : ∀ e s w, R s (r.publish e (s, w)).2.1) {start : Nat}
    (hret : (r.observed.finish start (a, s, w, [])).1.Returned) :
    Along (fun k e h => k + 1 < sizeLimit ∧ h.1 = e.withVersion (some (k + 1)) ∧ R s h.2)
      start (outgoing a) (r.observed.finish start (a, s, w, [])).2.2.2.2 := by
  rcases r.observed.finish_cases start a (s, w, []) with ⟨-, hfin⟩ | ⟨-, hfin⟩ <;>
    rw [hfin] at hret ⊢
  · exact hret.elim
  · obtain ⟨more, hmore, halong⟩ := r.publishFrom_handed _ s w [] hrefl htrans hR hret
    rw [hmore]
    exact halong

/-- Whatever handlers do, events are handed over with the numbers of their places. -/
theorem finish_numbered {start : Nat}
    (hret : (r.observed.finish start (a, s, w, [])).1.Returned) :
    Along (fun k e h => h.1 = e.withVersion (some (k + 1))) start (outgoing a)
      (r.observed.finish start (a, s, w, [])).2.2.2.2 := by
  have hhanded := r.finish_handed a s w (R := fun _ _ => True) (fun _ => trivial)
    (fun _ _ => trivial) (fun _ _ _ => trivial) hret
  exact hhanded.imp fun h => h.2.1

end Observing

section OnLog

variable [EventPayload π] {r : Repository π κ σ EventLog β} {stamp : Nat → Stamp}
  {a : Aggregate π σ} {expected : Option Nat} {log : EventLog} {w : β}

/-- The event was handed over as the one that the record holds, when the record was in the store.
A load that replays the record gives its event the same version. -/
structure Announces (b : Behavior π κ σ) (n : String) (k : Nat) (h : EventMessage π × EventLog)
    (rec : Record) : Prop where
  version : h.1.version = some (k + 1)
  eventType : rec.eventType = h.1.eventType
  payload : EventPayload.encode h.1.payload = .ok rec.payload
  stored : (h.2.stream n)[k]? = some rec
  replayed : ∀ f id a p, EventFactory.decode? f rec.eventType rec.payload = some (.ok p) →
    replayOne b f id a rec = .ofChecked do
      let applied ← b.apply a ⟨id, p, rec.headers, h.1.version⟩ false
      applied.incrementVersion

/-- What an accepted save hands over are the records it has just stored. -/
theorem announces_of_batch {b : Behavior π κ σ} {n : String} {common : Headers}
    {es : List (EventMessage π)} {rs : List Record} {hs : List (EventMessage π × EventLog)}
    (hb : Record.Batch n common (log.version n) es rs)
    (hh : Along (fun k e h => k + 1 < sizeLimit ∧ h.1 = e.withVersion (some (k + 1)) ∧
      h.2 = log.append rs) (log.version n) es hs) :
    Along (Announces b n) (log.version n) hs rs := by
  refine hh.of_both (hb.located (log.stream n) rfl) ?_
  rintro k e ⟨_, _⟩ rec ⟨hlt, rfl, rfl⟩ ⟨hrec, hat⟩
  refine ⟨rfl, hrec.eventType, hrec.payload, ?_, ?_⟩
  · rwa [EventLog.stream_append_self log hb.stream_eq]
  · intro f id a p hp
    exact replayOne_of_decoded b f id hp (Record.version_of_position hrec.position hlt)

/-- A save leaves all as it is, or it comes down to finishing with the batch in the store and with
nothing handed over so far. -/
theorem observed_save_cases (r : Repository π κ σ EventLog β) (stamp : Nat → Stamp)
    (expected : Option Nat) (a : Aggregate π σ) (log : EventLog) (w : β) :
    ((r.onLog stamp).observed.save expected (a, log, w, [])).2 = (a, log, w, []) ∧
      (((r.onLog stamp).observed.save expected (a, log, w, [])).1 = .ok () → a.changes = []) ∨
    ∃ n rs, r.streamOf a = some n ∧ a.changes ≠ [] ∧
      Record.Batch n (commonHeaders (r.behavior.typeTag a.state)) (log.version n) (outgoing a) rs ∧
      (r.onLog stamp).observed.save expected (a, log, w, []) =
        (r.onLog stamp).observed.finish (log.version n) (a, log.append rs, w, []) := by
  rcases r.observed.save_cases stamp expected (a := a) log (w, []) with
    ⟨hsame, hok⟩ | ⟨n, rs, hn, hp, -, hb, hf⟩
  · exact Or.inl ⟨hsame, hok⟩
  · exact Or.inr ⟨n, rs, hn, hp, hb, hf⟩

/-- A save that comes back appends to a stream what it hands over for that stream. -/
theorem appended_as_handed (hk : r.KeepsStore)
    (hret : ((r.onLog stamp).save expected (a, log, w)).1.Returned) (n : String) :
    ∃ rs, ((r.onLog stamp).save expected (a, log, w)).2.2.1.stream n = log.stream n ++ rs ∧
      Along (Announces r.behavior n) (log.version n)
        (if r.streamOf a = some n then (r.onLog stamp).handed expected a (log, w) else []) rs := by
  have hshow := (r.onLog stamp).observed_save expected a log w []
  rw [hshow.outcome] at hret
  rw [hshow.store]
  unfold handed
  rcases r.observed_save_cases stamp expected a log w with ⟨hsame, -⟩ | ⟨m, rs, hm, -, hb, hf⟩
  · rw [hsame]
    exact ⟨[], (List.append_nil _).symm, by rw [ite_self]; exact Along.nil⟩
  · rw [hf] at hret ⊢
    rw [KeepsStore.finish (r := (r.onLog stamp).observed) hk.observed]
    by_cases hmn : m = n
    · subst hmn
      rw [if_pos hm]
      refine ⟨rs, EventLog.stream_append_self log hb.stream_eq, ?_⟩
      exact announces_of_batch hb ((r.onLog stamp).finish_handed a _ w (R := fun s s' => s' = s)
        (fun _ => rfl) (fun h h' => h'.trans h) (fun e s w => hk e s w) hret)
    · rw [if_neg (fun h => hmn (Option.some.inj (hm.symm.trans h)))]
      refine ⟨[], ?_, Along.nil⟩
      rw [List.append_nil]
      exact EventLog.stream_append_ne log hb.stream_eq (fun h => hmn h.symm)

/-- Over saves that come back every stream grows by what is handed over for it. -/
theorem saveAll_appended (hk : r.KeepsStore) (calls : List (Aggregate π σ × Option Nat))
    (hret : ∀ p ∈ (r.onLog stamp).reports calls (log, w), p.outcome.Returned) (n : String) :
    ∃ rs, ((r.onLog stamp).saveAll calls (log, w)).1.stream n = log.stream n ++ rs ∧
      Along (Announces r.behavior n) (log.version n)
        (r.handedOn n ((r.onLog stamp).reports calls (log, w))) rs := by
  induction calls generalizing log w with
  | nil => exact ⟨[], (List.append_nil _).symm, Along.nil⟩
  | cons call calls ih =>
    obtain ⟨hfirst, hrest⟩ := List.forall_mem_cons.1 hret
    obtain ⟨rs, hs, ha⟩ := appended_as_handed hk hfirst n
    obtain ⟨rs', hs', ha'⟩ := ih hrest
    refine ⟨rs ++ rs', ?_, ?_⟩
    · rw [← List.append_assoc, ← hs]
      exact hs'
    · -- the stream is as much longer as events were handed over, so the places go on
      rw [EventLog.version, hs, List.length_append, ha.length_eq] at ha'
      simp only [reports, handedOn_cons]
      exact ha.append ha'

theorem handed_eq_nil {w : β}
    (h : ((r.onLog stamp).save expected (a, log, w)).1.Refused ∨ a.changes = []) :
    (r.onLog stamp).handed expected a (log, w) = [] := by
  rcases h with h | h
  · exact handed_of_refused h
  · unfold handed
    rw [(r.onLog stamp).observed.save_of_no_changes expected h]

theorem reports_handed_eq_nil (calls : List (Aggregate π σ × Option Nat))
    {p : Report π κ σ EventLog} (hp : p ∈ (r.onLog stamp).reports calls (log, w))
    (h : p.outcome.Refused ∨ p.aggregate.changes = []) : p.handed = [] := by
  induction calls generalizing log w with
  | nil => nomatch hp
  | cons call calls ih =>
    rcases List.mem_cons.1 hp with rfl | hp
    · exact handed_eq_nil h
    · exact ih hp

/-- Before the first event is handed over the handle is committed, and it stays so. -/
theorem committed_before_handed (h : (r.onLog stamp).handed expected a (log, w) ≠ []) :
    ∃ start log' committed, committed.changes = [] ∧
      (r.onLog stamp).observed.save expected (a, log, w, []) =
        (r.onLog stamp).observed.publishFrom start 0 (outgoing a) (committed, log', w, []) ∧
      ((r.onLog stamp).save expected (a, log, w)).2.1 = committed := by
  have hshow := (r.onLog stamp).observed_save expected a log w []
  rw [hshow.aggregate]
  unfold handed at h
  rcases r.observed_save_cases stamp expected a log w with ⟨hsame, -⟩ | ⟨m, rs, -, -, -, hf⟩
  · rw [hsame] at h
    exact absurd rfl h
  · rw [hf] at h ⊢
    rcases (r.onLog stamp).observed.finish_cases (log.version m) a (log.append rs, w, []) with
      ⟨-, hfin⟩ | ⟨-, hfin⟩ <;> rw [hfin] at h ⊢
    · exact absurd rfl h
    · exact ⟨log.version m, log.append rs, a.committedAt (log.version m), rfl, rfl,
        (publishFrom_spec _ _ _ _ _ _).1⟩

/-- From an empty log on, saves hand over for each stream its records: each once, in order, numbered
as replaying will number them, after the record was stored and the handle committed. -/
theorem published_as_stored (r : Repository π κ σ EventLog β) (stamp : Nat → Stamp)
    (calls : List (Aggregate π σ × Option Nat)) (w : β) (hk : r.KeepsStore)
    (hret : ∀ p ∈ (r.onLog stamp).reports calls (.empty, w), p.outcome.Returned) :
    let done := (r.onLog stamp).reports calls (.empty, w)
    let last := (r.onLog stamp).saveAll calls (.empty, w)
    (∀ expected a log w, Shows ((r.onLog stamp).save expected (a, log, w)) []
      ((r.onLog stamp).observed.save expected (a, log, w, []))) ∧
    (∀ n, Along (Announces r.behavior n) 0 (r.handedOn n done) (last.1.stream n)) ∧
    (∀ p ∈ done, p.outcome.Refused ∨ p.aggregate.changes = [] → p.handed = []) ∧
    (∀ expected a log w, (r.onLog stamp).handed expected a (log, w) ≠ [] →
      ∃ start log' committed, committed.changes = [] ∧
        (r.onLog stamp).observed.save expected (a, log, w, []) =
          (r.onLog stamp).observed.publishFrom start 0 (outgoing a) (committed, log', w, []) ∧
        ((r.onLog stamp).save expected (a, log, w)).2.1 = committed) ∧
    (∀ expected a log w, a.changes = [] → ∀ store : EventStore π κ EventLog,
      { r with store := store }.save expected (a, log, w) =
        (((r.onLog stamp).save expected (a, log, w)).1, (a, log, w))) := by
  intro done last
  refine ⟨fun expected a log w => observed_save _ expected a log w [], ?_,
    fun p hp => reports_handed_eq_nil calls hp,
    fun expected a log w => committed_before_handed, ?_⟩
  · intro n
    obtain ⟨rs, hs, ha⟩ := saveAll_appended hk calls hret n
    rw [EventLog.stream_empty, List.nil_append] at hs
    rw [hs]
    exact ha
  · intro expected a log w hc store
    rw [save_of_no_changes _ expected hc, save_of_no_changes _ expected hc]
    rfl

end OnLog

/-- The second save conflicts with the first. -/
theorem published_as_stored_twice :
    let r := Inventory.App.repository fun _ => ⟨"", .epoch⟩
    let a : Aggregate Inventory.Event Inventory.Item :=
      ⟨⟨"bolts", 0, [.new "bolts" (.created "bolt"), .new "bolts" (.checkedIn 3)]⟩, ⟨true, 3⟩⟩
    let done := r.reports [(a, none), (a, none)] (.empty, .empty)
    let last := r.saveAll [(a, none), (a, none)] (.empty, .empty)
    r.KeepsStore ∧ (∀ p ∈ done, p.outcome.Returned) ∧ last.1.version "InventoryItem-bolts" = 2 ∧
      Along (Announces Inventory.Item.behavior "InventoryItem-bolts") 0
        (r.handedOn "InventoryItem-bolts" done) (last.1.stream "InventoryItem-bolts") := by
  intro r a done last
  have hk : r.KeepsStore := Inventory.App.keepsStore _
  have hret : ∀ p ∈ done, p.outcome.Returned :=
    List.forall_mem_cons.2 ⟨trivial, List.forall_mem_cons.2 ⟨trivial, fun _ hp => nomatch hp⟩⟩
  obtain ⟨-, halong, -, -, -⟩ := published_as_stored r (fun _ => ⟨"", .epoch⟩)
    [(a, none), (a, none)] .empty hk hret
  exact ⟨hk, hret, rfl, halong _⟩

end Repository

end EventSourcing
