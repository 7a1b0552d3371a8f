import EventSourcing.Proofs.Publication
import EventSourcing.Proofs.Replay

/-!
What is saved is what comes back. A stream that only saves of one aggregate have written holds their
events, one record each; loading applies these events in order, each with its payload, the id that
was loaded, its place in the stream and its headers: its own, with the aggregate's id over them and
the aggregate's type under them. The events that were published lack the type.
-/

namespace EventSourcing

variable {π κ σ β : Type}

namespace EventMessage

/-- The event comes back as `m` from place `k` of the stream of an aggregate. -/
structure RestoredAs (type id : String) (k : Nat) (e m : EventMessage π) : Prop where
  aggregateId : m.aggregateId = id
  payload : m.payload = e.payload
  version : m.version = some (k + 1)
  headers : ∀ key, m.header key =
    if key = Headers.aggregateId then some (.text id)
    else if key = Headers.aggregateType then some ((e.header key).getD (.text type))
    else e.header key

/-- The event is handed over as `m` once it stands at place `k` of its stream. -/
structure PublishedAs (id : String) (k : Nat) (e m : EventMessage π) : Prop where
  aggregateId : m.aggregateId = e.aggregateId
  payload : m.payload = e.payload
  version : m.version = some (k + 1)
  headers : ∀ key, m.header key =
    if key = Headers.aggregateId then some (.text id) else e.header key

theorem header_withHeader (e : EventMessage π) (key other : String) (value : Json) :
    (e.withHeader key value).header other = if other = key then some value else e.header other := by
  unfold header withHeader
  by_cases h : other = key
  · rw [if_pos h, h, Headers.get?_insert_self]
  · rw [if_neg h, Headers.get?_insert_ne _ h]

end EventMessage

/-- Where applying leaves the version alone, either every event is applied and counted, or applying
one of them overflows. -/
theorem Behavior.applyAll_cases {b : Behavior π κ σ}
    (hb : ∀ a e a', b.apply a e false = .ok a' → a'.version = a.version)
    {es : List (EventMessage π)} {a : Aggregate π σ} (hfit : a.version + es.length < sizeLimit) :
    (∃ a', b.applyAll es a = .ok a' ∧ a'.version = a.version + es.length) ∨
    ∃ before e after a' o, es = before ++ e :: after ∧ b.applyAll before a = .ok a' ∧
      b.apply a' e false = .error o := by
  induction es generalizing a with
  | nil => exact Or.inl ⟨a, rfl, rfl⟩
  | cons e es ih =>
    rw [List.length_cons] at hfit
    rcases happ : b.apply a e false with o | applied
    · exact Or.inr ⟨[], e, es, a, o, rfl, rfl, happ⟩
    · have hv := hb a e applied happ
      have hinc := Aggregate.incrementVersion_eq_ok (a := applied) (by omega)
      have hcons : ∀ es', b.applyAll (e :: es') a = b.applyAll es' { applied with
          base := { applied.base with version := applied.version + 1 } } := by
        intro es'
        simp only [applyAll, happ, bind, Except.bind, hinc]
      rcases ih (a := { applied with base := { applied.base with version := applied.version + 1 } })
          (show applied.version + 1 + es.length < sizeLimit by omega) with
        ⟨a', ha', hv'⟩ | ⟨before, e', after, a', o, rfl, ha', ho⟩
      · refine Or.inl ⟨a', (hcons es).trans ha', ?_⟩
        rw [hv', List.length_cons]
        show applied.version + 1 + es.length = _
        omega
      · exact Or.inr ⟨e :: before, e', after, a', o, rfl, (hcons before).trans ha', ho⟩

namespace Repository

section Stored

variable [EventPayload π]

/-- The record is this event, saved for an aggregate, and its place can be counted. -/
structure StoredAs (n type id : String) (k : Nat) (e : EventMessage π) (r : Record) : Prop where
  holds : Record.Holds n (commonHeaders type) k (e.withHeader Headers.aggregateId (.text id)) r
  fits : k + 1 < sizeLimit

variable {n type id : String} {p k : Nat} {e : EventMessage π} {rec : Record}

/-- The aggregate's id lies over the event's headers, its type under them. -/
theorem StoredAs.header (h : StoredAs n type id k e rec) (key : String) :
    rec.headers.get? key =
      if key = Headers.aggregateId then some (.text id)
      else if key = Headers.aggregateType then some ((e.header key).getD (.text type))
      else e.header key := by
  have hown := e.header_withHeader Headers.aggregateId key (.text id)
  unfold EventMessage.header at hown
  rw [h.holds.headers, Headers.get?_overlay, hown]
  unfold commonHeaders
  by_cases hid : key = Headers.aggregateId
  · rw [if_pos hid, if_pos hid]
    rfl
  · rw [if_neg hid, if_neg hid]
    by_cases htype : key = Headers.aggregateType
    · rw [if_pos htype, htype, Headers.get?_insert_self]
      unfold EventMessage.header
      cases e.headers.get? Headers.aggregateType <;> rfl
    · rw [if_neg htype, Headers.get?_insert_ne _ htype, Headers.get?_empty, Option.or_none]
      rfl

theorem StoredAs.restored (h : StoredAs n type id k e rec) :
    e.RestoredAs type id k ⟨id, e.payload, rec.headers, some (k + 1)⟩ where
  aggregateId := rfl
  payload := rfl
  version := rfl
  headers := h.header

theorem StoredAs.readAs {f : EventFactory π} (h : StoredAs n type id k e rec)
    (hres : Restores f e.payload) :
    ReadAs f id rec ⟨id, e.payload, rec.headers, some (k + 1)⟩ where
  payload := Restores.decode (e := e.withHeader Headers.aggregateId (.text id)) hres h.holds
  aggregateId := rfl
  version := by rw [h.holds.position]
  headers := rfl

/-- Replaying the records of saved events is applying these events. -/
theorem replay_of_stored {f : EventFactory π} {es : List (EventMessage π)} {rs : List Record}
    (h : Along (StoredAs n type id) p es rs) (hres : ∀ e ∈ es, Restores f e.payload) :
    ∃ ms, Along (EventMessage.RestoredAs type id) p es ms ∧
      ∀ (b : Behavior π κ σ) a, replay b f id rs a = .ofChecked (b.applyAll ms a) := by
  have hread : ∃ ms, Along (EventMessage.RestoredAs type id) p es ms ∧
      List.Forall₂ (ReadAs f id) rs ms ∧ ∀ rec ∈ rs, rec.position + 1 < sizeLimit := by
    induction h with
    | nil => exact ⟨[], Along.nil, .nil, fun _ h => nomatch h⟩
    | cons hrec _ ih =>
      obtain ⟨hdec, hrest⟩ := List.forall_mem_cons.1 hres
      obtain ⟨ms, hms, hrs, hplaces⟩ := ih hrest
      exact ⟨_ :: ms, Along.cons hrec.restored hms, .cons (hrec.readAs hdec) hrs,
        List.forall_mem_cons.2 ⟨hrec.holds.position ▸ hrec.fits, hplaces⟩⟩
  obtain ⟨ms, hms, hrs, hplaces⟩ := hread
  exact ⟨ms, hms, fun b a => replay_of_readAs hrs hplaces a⟩

theorem length_of_stored {es : List (EventMessage π)} {rs : List Record}
    (h : Along (StoredAs n type id) p es rs) (hp : p < sizeLimit) : p + es.length < sizeLimit := by
  induction h with
  | nil => exact hp
  | @cons p e rec es rs hrec _ ih =>
    have := ih hrec.fits
    rw [List.length_cons]
    omega

end Stored

section Saving

variable {r : Repository π κ σ EventLog β} {stamp : Nat → Stamp} {n type id : String}

def savedOn {α : Type} (r : Repository π κ σ α β) (n : String) (done : List (Report π κ σ α)) :
    List (EventMessage π) :=
  (done.filter fun p => r.streamOf p.aggregate = some n ∧ ¬ p.outcome.Refused).flatMap
    (·.aggregate.changes)

theorem savedOn_cons {α : Type} (r : Repository π κ σ α β) (n : String) (p : Report π κ σ α)
    (done : List (Report π κ σ α)) :
    r.savedOn n (p :: done) =
      (if r.streamOf p.aggregate = some n ∧ ¬ p.outcome.Refused then p.aggregate.changes else []) ++
        r.savedOn n done := by
  unfold savedOn
  by_cases h : r.streamOf p.aggregate = some n ∧ ¬ p.outcome.Refused <;> simp [h]

variable [EventPayload π] {a : Aggregate π σ} {expected : Option Nat} {log : EventLog} {w : β}

theorem stored_of_batch {k : Nat} {rs : List Record} {hs : List (EventMessage π × EventLog)}
    {S : EventLog → Prop}
    (hb : Record.Batch n (commonHeaders (r.behavior.typeTag a.state)) k (outgoing a) rs)
    (hh : Along (fun k e h => k + 1 < sizeLimit ∧ h.1 = e.withVersion (some (k + 1)) ∧ S h.2)
      k (outgoing a) hs) :
    Along (StoredAs n (r.behavior.typeTag a.state) a.id) k a.changes rs ∧
      Along (fun k e h => e.PublishedAs a.id k h.1) k a.changes hs := by
  constructor
  · have hfit : Along (fun k e rec => Record.Holds n
          (commonHeaders (r.behavior.typeTag a.state)) k e rec ∧ k + 1 < sizeLimit)
        k (outgoing a) rs := hb.combine hh fun hrec hplace => ⟨hrec, hplace.1⟩
    exact hfit.of_map.imp fun h => ⟨h.1, h.2⟩
  · refine hh.of_map.imp ?_
    rintro k e ⟨_, _⟩ ⟨-, rfl, -⟩
    exact ⟨rfl, rfl, rfl, fun key => e.header_withHeader Headers.aggregateId key (.text a.id)⟩

/-- The changes of a save that was not refused are what its stream grows by and what is handed over
for it. -/
theorem stored_and_handed (hk : r.KeepsStream n)
    (hown : r.streamOf a = some n → r.behavior.typeTag a.state = type ∧ a.id = id)
    (hret : ((r.onLog stamp).save expected (a, log, w)).1.Returned) :
    let saved := if r.streamOf a = some n ∧
        ¬ ((r.onLog stamp).save expected (a, log, w)).1.Refused then a.changes else []
    let handed := if r.streamOf a = some n then (r.onLog stamp).handed expected a (log, w) else []
    ∃ rs, ((r.onLog stamp).save expected (a, log, w)).2.2.1.stream n = log.stream n ++ rs ∧
      Along (StoredAs n type id) (log.version n) saved rs ∧
      Along (fun k e h => e.PublishedAs id k h.1) (log.version n) saved handed := by
  have hshow := (r.onLog stamp).observed_save expected a log w []
  rw [hshow.outcome] at hret ⊢
  rw [hshow.store]
  unfold handed
  rcases r.observed_save_cases stamp expected a log w with
    ⟨hsame, hok⟩ | ⟨m, rs, hm, -, hb, hf⟩
  · -- a save that leaves all as it is was refused or had nothing to save
    have hsaved : (if r.streamOf a = some n ∧
        ¬ ((r.onLog stamp).observed.save expected (a, log, w, [])).1.Refused
        then a.changes else []) = [] := by
      split
      · rename_i h
        exact hok (Outcome.ok_of_returned hret h.2)
      · rfl
    rw [hsame, hsaved, ite_self]
    exact ⟨[], (List.append_nil _).symm, Along.nil, Along.nil⟩
  · have hkeep := KeepsStream.finish (r := (r.onLog stamp).observed) hk.observed (log.version m) a
      (log.append rs) (w, [])
    have hnot := (r.onLog stamp).observed.finish_not_refused (log.version m) a
      (log.append rs, w, [])
    rw [hf] at hret ⊢
    rw [hkeep]
    by_cases hmn : m = n
    · subst hmn
      obtain ⟨rfl, rfl⟩ := hown hm
      rw [if_pos ⟨hm, hnot⟩, if_pos hm]
      refine ⟨rs, EventLog.stream_append_self log hb.stream_eq, ?_⟩
      exact stored_of_batch (S := fun _ => True) hb ((r.onLog stamp).finish_handed a _ w
        (R := fun _ _ => True) (fun _ => trivial) (fun _ _ => trivial) (fun _ _ _ => trivial) hret)
    · have hne : r.streamOf a ≠ some n := fun h => hmn (Option.some.inj (hm.symm.trans h))
      rw [if_neg (fun h => hne h.1), if_neg hne]
      refine ⟨[], ?_, Along.nil, Along.nil⟩
      rw [List.append_nil]
      exact EventLog.stream_append_ne log hb.stream_eq (fun h => hmn h.symm)

theorem saveAll_stored (hk : r.KeepsStream n) (calls : List (Aggregate π σ × Option Nat))
    (hown : ∀ call ∈ calls, r.streamOf call.1 = some n →
      r.behavior.typeTag call.1.state = type ∧ call.1.id = id)
    (hret : ∀ p ∈ (r.onLog stamp).reports calls (log, w), p.outcome.Returned) :
    let done := (r.onLog stamp).reports calls (log, w)
    ∃ rs, ((r.onLog stamp).saveAll calls (log, w)).1.stream n = log.stream n ++ rs ∧
      Along (StoredAs n type id) (log.version n) (r.savedOn n done) rs ∧
      Along (fun k e h => e.PublishedAs id k h.1) (log.version n) (r.savedOn n done)
        (r.handedOn n done) := by
  induction calls generalizing log w with
  | nil => exact ⟨[], (List.append_nil _).symm, Along.nil, Along.nil⟩
  | cons call calls ih =>
    obtain ⟨hfirst, hrest⟩ := List.forall_mem_cons.1 hret
    obtain ⟨hcall, hcalls⟩ := List.forall_mem_cons.1 hown
    obtain ⟨rs, hs, hstored, hhanded⟩ := stored_and_handed hk hcall hfirst
    obtain ⟨rs', hs', hstored', hhanded'⟩ := ih hcalls hrest
    -- the stream is as much longer as events were saved, so the places go on
    rw [EventLog.version, hs, List.length_append, hstored.length_eq] at hstored' hhanded'
    simp only [reports, savedOn_cons, handedOn_cons]
    refine ⟨rs ++ rs', ?_, hstored.append hstored', hhanded.append hhanded'⟩
    rw [← List.append_assoc, ← hs]
    exact hs'

/-- Loading after saves that come back applies what was saved of the aggregate, and nothing else, in
order: the same payloads, numbered from one, under the aggregate's id and with its type unless an
event brought one of its own. It succeeds unless applying one of these events overflows. What was
handed over has the same payloads, numbers and id, without the type. -/
theorem load_applies_saved (r : Repository π κ σ EventLog β) (stamp : Nat → Stamp)
    (calls : List (Aggregate π σ × Option Nat)) (log : EventLog) (w : β) (type id : String)
    {n : String} {fresh : Aggregate π σ} {f : EventFactory π}
    (hprep : r.prepare type id = .ok (fresh, n, f)) (hnew : log.stream n = []) (hk : r.KeepsStream n)
    (hown : ∀ call ∈ calls, r.streamOf call.1 = some n →
      r.behavior.typeTag call.1.state = type ∧ call.1.id = id)
    (hret : ∀ p ∈ (r.onLog stamp).reports calls (log, w), p.outcome.Returned)
    (hres : ∀ e ∈ r.savedOn n ((r.onLog stamp).reports calls (log, w)), Restores f e.payload) :
    let done := (r.onLog stamp).reports calls (log, w)
    let saved := r.savedOn n done
    let last := (r.onLog stamp).saveAll calls (log, w)
    ∃ ms, Along (EventMessage.RestoredAs type id) 0 saved ms ∧
      Along (fun k e h => e.PublishedAs id k h.1) 0 saved (r.handedOn n done) ∧
      ∀ apply (w' : β),
        let b : Behavior π κ σ := { r.behavior with apply := apply }
        let load := { r.onLog stamp with behavior := b }.load type id (last.1, w')
        load = (.ofChecked (b.applyAll ms fresh), (last.1, w')) ∧
        ((∀ a e a', apply a e false = .ok a' → a'.version = a.version) → fresh.version = 0 →
          (∃ a, load = (.ok a, (last.1, w')) ∧ a.version = saved.length) ∨
          ∃ before m after a o, ms = before ++ m :: after ∧ b.applyAll before fresh = .ok a ∧
            apply a m false = .error o) := by
  intro done saved last
  obtain ⟨rs, hs, hstored, hhanded⟩ := saveAll_stored hk calls hown hret
  have hlast : last.1.stream n = rs := by rw [hs, hnew, List.nil_append]
  rw [EventLog.version, hnew] at hstored hhanded
  obtain ⟨ms, hms, hreplay⟩ := replay_of_stored (κ := κ) (σ := σ) hstored hres
  refine ⟨ms, hms, hhanded, fun apply w' => ?_⟩
  intro b load
  have hload : load = (.ofChecked (b.applyAll ms fresh), (last.1, w')) := by
    have hb : Repository.prepare { r with behavior := b } type id = .ok (fresh, n, f) := hprep
    refine (load_of_prepare hb stamp last.1 w').trans ?_
    rw [hlast]
    exact congrArg (·, (last.1, w')) (hreplay b fresh)
  refine ⟨hload, fun happ hzero => ?_⟩
  have hfit : fresh.version + ms.length < sizeLimit := by
    rw [hzero, hms.length_eq]
    exact length_of_stored hstored (by decide)
  rcases Behavior.applyAll_cases (b := b) happ hfit with ⟨a, ha, hv⟩ | hoverflow
  · refine Or.inl ⟨a, by rw [hload, ha]; rfl, ?_⟩
    rw [hv, hzero, hms.length_eq, Nat.zero_add]
  · exact Or.inr hoverflow

end Saving

/-- Two saves of bolts, the second after a load; an event's own aggregate id gives way, its own type
stays. -/
theorem load_applies_saved_bolts :
    let r := Inventory.App.repository fun _ => ⟨"", .epoch⟩
    let created : EventMessage Inventory.Event := ⟨"bolts", .created "bolt",
      (Headers.empty.insert "AggregateID" (.text "nuts")).insert "AggregateType" (.text "Nut"),
      none⟩
    let checked : EventMessage Inventory.Event := .new "bolts" (.checkedIn 3)
    let calls : List (Aggregate Inventory.Event Inventory.Item × Option Nat) :=
      [(⟨⟨"bolts", 0, [created]⟩, ⟨true, 0⟩⟩, none), (⟨⟨"bolts", 1, [checked]⟩, ⟨true, 3⟩⟩, none)]
    let done := r.reports calls (.empty, .empty)
    let last := r.saveAll calls (.empty, .empty)
    r.prepare "InventoryItem" "bolts" =
        .ok (Inventory.Item.new "bolts", "InventoryItem-bolts", Inventory.App.events) ∧
      r.KeepsStream "InventoryItem-bolts" ∧ (∀ p ∈ done, p.outcome.Returned) ∧
      r.savedOn "InventoryItem-bolts" done = [created, checked] ∧
      ∃ ms, Along (EventMessage.RestoredAs "InventoryItem" "bolts") 0 [created, checked] ms ∧
        r.load "InventoryItem" "bolts" last =
          (.ofChecked (Inventory.Item.behavior.applyAll ms (.new .initial "bolts")), last) := by
  intro r created checked calls done last
  have hk : r.KeepsStream "InventoryItem-bolts" := (Inventory.App.keepsStore _).keepsStream _
  have hret : ∀ p ∈ done, p.outcome.Returned :=
    List.forall_mem_cons.2 ⟨trivial, List.forall_mem_cons.2 ⟨trivial, fun _ hp => nomatch hp⟩⟩
  have hsaved : r.savedOn "InventoryItem-bolts" done = [created, checked] := rfl
  obtain ⟨ms, hms, -, hload⟩ := load_applies_saved r (fun _ => ⟨"", .epoch⟩) calls .empty .empty
    "InventoryItem" "bolts" (n := "InventoryItem-bolts") rfl rfl hk
    (List.forall_mem_cons.2 ⟨fun _ => ⟨rfl, rfl⟩,
      List.forall_mem_cons.2 ⟨fun _ => ⟨rfl, rfl⟩, fun _ h => nomatch h⟩⟩)
    hret (fun e _ => Inventory.App.restores e.payload)
  exact ⟨rfl, hk, hret, hsaved, ms, hms, (hload Inventory.Item.apply last.2).1⟩

end Repository

end EventSourcing
