import EventSourcing.Proofs.Saving

/-!
Loading from a log is replaying the records of a stream, one after the other. Replaying looks at no
stamp, it counts the records it takes, and what it makes of a stream goes on from what it made of
the beginning. It is a fold of the events that the records are read as. Loading prepares a new
aggregate and the name of its stream; it leaves the log alone.
-/

namespace EventSourcing

variable {π κ σ α β : Type}

theorem Aggregate.incrementVersion_eq_ok {a : Aggregate π σ} (h : a.version + 1 < sizeLimit) :
    a.incrementVersion = .ok { a with base := { a.base with version := a.version + 1 } } := by
  have hadd : addSize a.base.version 1 = .ok (a.version + 1) := addSize_eq_ok.2 ⟨h, rfl⟩
  unfold incrementVersion AggregateBase.incrementVersion
  rw [hadd]
  rfl

/-- Applies events one after the other, each of which then counts as stored. -/
def Behavior.applyAll (b : Behavior π κ σ) :
    List (EventMessage π) → Aggregate π σ → Except Overflow (Aggregate π σ)
  | [], a => .ok a
  | e :: es, a => do
    let applied ← b.apply a e false
    let counted ← applied.incrementVersion
    b.applyAll es counted

namespace Repository

structure ReadAs (f : EventFactory π) (id : String) (rec : Record) (m : EventMessage π) : Prop where
  payload : f.decode? rec.eventType rec.payload = some (.ok m.payload)
  aggregateId : m.aggregateId = id
  version : m.version = some (rec.position + 1)
  headers : m.headers = rec.headers

section Replaying

variable (b : Behavior π κ σ) (f : EventFactory π) (id : String)

theorem replay_append (rs rs' : List Record) (a : Aggregate π σ) :
    replay b f id (rs ++ rs') a = (replay b f id rs a).bind (replay b f id rs') := by
  induction rs generalizing a with
  | nil => rfl
  | cons r rs ih =>
    simp only [List.cons_append, replay]
    cases replayOne b f id a r with
    | error fault => rfl
    | ok a' => exact ih a'

theorem replay_unstamped (rs : List Record) (a : Aggregate π σ) :
    replay b f id (rs.map Record.unstamped) a = replay b f id rs a := by
  induction rs generalizing a with
  | nil => rfl
  | cons r rs ih =>
    simp only [List.map_cons, replay]
    rw [show replayOne b f id a r.unstamped = replayOne b f id a r from rfl]
    cases replayOne b f id a r with
    | error fault => rfl
    | ok a' => exact ih a'

theorem replay_alike {n : String} {log log' : EventLog} (h : EventLog.AlikeOn n log log')
    (a : Aggregate π σ) : replay b f id (log.stream n) a = replay b f id (log'.stream n) a := by
  rw [← replay_unstamped, h, replay_unstamped]

theorem replayOne_of_decoded {a : Aggregate π σ} {r : Record} {payload : π} {version : Nat}
    (hp : f.decode? r.eventType r.payload = some (.ok payload)) (hv : r.version = .ok version) :
    replayOne b f id a r = .ofChecked (do
      let applied ← b.apply a ⟨id, payload, r.headers, some version⟩ false
      applied.incrementVersion) := by
  unfold replayOne
  simp only [hp, hv]
  rfl

theorem replayOne_eq_ok {a a' : Aggregate π σ} {r : Record}
    (h : replayOne b f id a r = .ok a') :
    ∃ payload version applied, f.decode? r.eventType r.payload = some (.ok payload) ∧
      r.version = .ok version ∧
      b.apply a ⟨id, payload, r.headers, some version⟩ false = .ok applied ∧
      applied.version + 1 < sizeLimit ∧
      a' = { applied with base := { applied.base with version := applied.version + 1 } } := by
  unfold replayOne at h
  split at h
  · nomatch h
  · nomatch h
  · rename_i payload hdec
    rcases hv : r.version with o | version
    · rw [hv] at h; nomatch h
    rcases ha : b.apply a ⟨id, payload, r.headers, some version⟩ false with o | applied
    · simp only [hv, ha, bind, Except.bind] at h; nomatch h
    simp only [hv, ha, bind, Except.bind, Aggregate.incrementVersion,
      AggregateBase.incrementVersion] at h
    by_cases hlt : applied.base.version + 1 < sizeLimit
    · rw [addSize_eq_ok.2 ⟨hlt, rfl⟩] at h
      exact ⟨payload, version, applied, hdec, rfl, ha, hlt, (Except.ok.inj h).symm⟩
    · rw [show addSize applied.base.version 1 = .error .addition from if_neg hlt] at h
      nomatch h

/-- Replaying keeps what applying keeps, and counts the records. -/
theorem replay_base {P : σ → Prop}
    (hP : ∀ {a e applied}, P a.state → b.apply a e false = .ok applied →
      applied.base = a.base ∧ P applied.state)
    {rs : List Record} {a a' : Aggregate π σ} (h : replay b f id rs a = .ok a') (ha : P a.state) :
    a'.base = { a.base with version := a.version + rs.length } ∧ P a'.state := by
  induction rs generalizing a with
  | nil => exact Except.ok.inj h ▸ ⟨rfl, ha⟩
  | cons r rs ih =>
    simp only [replay] at h
    cases hone : replayOne b f id a r with
    | error fault => rw [hone] at h; nomatch h
    | ok a₁ =>
      rw [hone] at h
      obtain ⟨payload, version, applied, -, -, happ, -, rfl⟩ := replayOne_eq_ok b f id hone
      obtain ⟨hbase, hp⟩ := hP ha happ
      obtain ⟨hb, hp'⟩ := ih h hp
      refine ⟨hb.trans ?_, hp'⟩
      simp only [Aggregate.version, hbase, List.length_cons]
      rw [show a.base.version + 1 + rs.length = a.base.version + (rs.length + 1) by omega]

/-- Replaying fails on a record of unknown type or one that cannot be read. -/
theorem replay_fail {rs : List Record} {a : Aggregate π σ} {e : DomainError κ}
    (h : replay b f id rs a = .fail e) :
    (∃ type, e = .unknownEventType type) ∨ ∃ s, e = .serialization s := by
  induction rs generalizing a with
  | nil => nomatch h
  | cons r rs ih =>
    simp only [replay] at h
    rcases hone : replayOne b f id a r with fault | a' <;> rw [hone] at h
    · obtain rfl := Except.error.inj h
      unfold replayOne at hone
      split at hone
      · cases hone
        exact Or.inl ⟨_, rfl⟩
      · cases hone
        exact Or.inr ⟨_, rfl⟩
      · unfold Outcome.ofChecked at hone
        split at hone <;> cases hone
    · exact ih h

variable {b f id}

/-- Replaying records is applying the events that they are read as. -/
theorem replay_of_readAs {records : List Record} {ms : List (EventMessage π)}
    (h : List.Forall₂ (ReadAs f id) records ms)
    (hplaces : ∀ rec ∈ records, rec.position + 1 < sizeLimit) (a : Aggregate π σ) :
    replay b f id records a = .ofChecked (b.applyAll ms a) := by
  induction h generalizing a with
  | nil => rfl
  | @cons rec m records ms hm _ ih =>
    obtain ⟨hplace, hrest⟩ := List.forall_mem_cons.1 hplaces
    have hevent : m = ⟨id, m.payload, rec.headers, some (rec.position + 1)⟩ := by
      rw [← hm.aggregateId, ← hm.headers, ← hm.version]
    rw [replay, replayOne_of_decoded b f id hm.payload (Record.version_of_position rfl hplace),
      ← hevent]
    simp only [Behavior.applyAll, bind, Except.bind]
    rcases b.apply a m false with o | applied
    · rfl
    · dsimp only
      rcases applied.incrementVersion with o | counted
      · rfl
      · exact ih hrest counted

theorem readAs_of_replayOne {a a' : Aggregate π σ} {rec : Record}
    (h : replayOne b f id a rec = .ok a') :
    ∃ m, ReadAs f id rec m ∧ rec.position + 1 < sizeLimit ∧
      ∀ ms, b.applyAll (m :: ms) a = b.applyAll ms a' := by
  obtain ⟨payload, version, applied, hdec, hv, happ, hlt, rfl⟩ := replayOne_eq_ok _ _ _ h
  obtain ⟨hfit, rfl⟩ := addSize_eq_ok.1 hv
  refine ⟨⟨id, payload, rec.headers, some (rec.position + 1)⟩, ⟨hdec, rfl, rfl, rfl⟩, hfit,
    fun ms => ?_⟩
  simp only [Behavior.applyAll, happ, Aggregate.incrementVersion_eq_ok hlt, bind, Except.bind]

theorem readAs_of_replay {records : List Record} {a a' : Aggregate π σ}
    (h : replay b f id records a = .ok a') :
    (∀ rec ∈ records, rec.position + 1 < sizeLimit) ∧
      ∃ ms, List.Forall₂ (ReadAs f id) records ms ∧ b.applyAll ms a = .ok a' := by
  induction records generalizing a with
  | nil => exact ⟨fun _ hr => (nomatch hr), [], .nil, congrArg Except.ok (Except.ok.inj h)⟩
  | cons rec records ih =>
    simp only [replay] at h
    rcases hone : replayOne b f id a rec with fault | next <;> rw [hone] at h
    · nomatch h
    · obtain ⟨m, hm, hplace, hcons⟩ := readAs_of_replayOne hone
      obtain ⟨hplaces, ms, hms, happ⟩ := ih h
      exact ⟨List.forall_mem_cons.2 ⟨hplace, hplaces⟩, m :: ms, .cons hm hms,
        (hcons ms).trans happ⟩

end Replaying

/-- All that loading needs is configured, and the type is registered. -/
structure Configured (r : Repository π κ σ α β) (type id : String) (fresh : Aggregate π σ)
    (n : String) (f : EventFactory π) : Prop where
  make : ∃ aggregates, r.aggregates = some aggregates ∧ aggregates.make? type id = some fresh
  name : ∃ namer, r.namer = some namer ∧ namer.streamName (κ := κ) type id = .ok n
  events : r.events = some f

section Loading

theorem prepare_error_isConfiguration {r : Repository π κ σ α β} {type id : String}
    {e : DomainError κ} (h : r.prepare type id = .error e) : e.isConfiguration = true := by
  unfold prepare at h
  split at h
  · cases h
    rfl
  · cases h
    rfl
  · cases h
    rfl
  · split at h
    · cases h
      rfl
    · unfold StreamNamer.streamName at h
      split at h <;> rename_i hs <;> split at hs <;> cases hs <;> cases h
      rfl

theorem prepare_eq_ok {r : Repository π κ σ α β} {type id : String} {a : Aggregate π σ} {n : String}
    {f : EventFactory π} (h : r.prepare type id = .ok (a, n, f)) :
    ∃ aggregates namer name, r.aggregates = some aggregates ∧ aggregates.make? type id = some a ∧
      r.namer = some namer ∧ namer.find? type = some name ∧ name type id = n ∧
      r.events = some f := by
  unfold prepare at h
  split at h
  · nomatch h
  · nomatch h
  · nomatch h
  · rename_i aggregates namer events hag hna hev
    split at h
    · nomatch h
    · rename_i made hmade
      unfold StreamNamer.streamName at h
      rcases hfind : namer.find? type with _ | name
      · simp only [hfind] at h; nomatch h
      · simp only [hfind, Except.ok.injEq, Prod.mk.injEq] at h
        obtain ⟨rfl, rfl, rfl⟩ := h
        exact ⟨aggregates, namer, name, hag, hmade, hna, hfind, rfl, hev⟩

theorem Configured.prepare {r : Repository π κ σ α β} {type id n : String} {fresh : Aggregate π σ}
    {f : EventFactory π} (h : r.Configured type id fresh n f) :
    r.prepare type id = .ok (fresh, n, f) := by
  obtain ⟨aggregates, hag, hmake⟩ := h.make
  obtain ⟨namer, hna, hname⟩ := h.name
  simp only [Repository.prepare, hag, hna, h.events, hmake, hname]

theorem configured_of_prepare {r : Repository π κ σ α β} {type id n : String}
    {fresh : Aggregate π σ} {f : EventFactory π} (h : r.prepare type id = .ok (fresh, n, f)) :
    r.Configured type id fresh n f := by
  obtain ⟨aggregates, namer, name, hag, hmake, hna, hfind, hname, hev⟩ := prepare_eq_ok h
  refine ⟨⟨aggregates, hag, hmake⟩, ⟨namer, hna, ?_⟩, hev⟩
  simp only [StreamNamer.streamName, hfind, hname]

theorem streamOf_of_prepare {r : Repository π κ σ α β} {type id : String} {a x : Aggregate π σ}
    {n : String} {f : EventFactory π} (h : r.prepare type id = .ok (a, n, f))
    (htype : r.behavior.typeTag x.state = type) (hid : x.id = id) : r.streamOf x = some n := by
  obtain ⟨-, namer, name, -, -, hna, hfind, rfl, -⟩ := prepare_eq_ok h
  unfold streamOf
  rw [hna, htype, hid]
  show (namer.find? type).map (fun name => name type id) = _
  rw [hfind]
  rfl

variable [EventPayload π] (r : Repository π κ σ EventLog β) (stamp : Nat → Stamp)
  (type id : String) (log : EventLog) (w : β)

/-- A stream that was never written is replayed like any other. -/
theorem load_onLog : (r.onLog stamp).load type id (log, w) =
    match r.prepare type id with
    | .error e => (.fail e, (log, w))
    | .ok (a, n, f) => (replay r.behavior f id (log.stream n) a, (log, w)) := by
  rw [show r.prepare type id = (r.onLog stamp).prepare type id from rfl]
  unfold load
  cases (r.onLog stamp).prepare type id with
  | error e => rfl
  | ok p =>
    obtain ⟨a, n, f⟩ := p
    simp only [onLog, EventLog.store, EventLog.load]
    cases log.stream n with
    | nil => rfl
    | cons x xs => rfl

theorem load_of_prepare {r : Repository π κ σ EventLog β} {type id : String} {a : Aggregate π σ}
    {n : String} {f : EventFactory π} (h : r.prepare type id = .ok (a, n, f))
    (stamp : Nat → Stamp) (log : EventLog) (w : β) :
    (r.onLog stamp).load type id (log, w) =
      (replay r.behavior f id (log.stream n) a, (log, w)) := by
  rw [load_onLog, h]

end Loading

end Repository

end EventSourcing
