import EventSourcing.Proofs.Interleaving

/-!
Handling commands is serializable: whatever the order of loads and saves, the streams are those of
the executions that stored something, run one after another in the order in which they were saved.
The invariant that carries this holds for what has ended and for what is in flight.
-/

namespace EventSourcing

variable {π κ σ α β : Type}

namespace CommandMapping

section Serial

variable [EventPayload π] [CommandPayload κ] {m : CommandMapping}
  {r : Repository π κ σ EventLog β} {stamp : Nat → Stamp} {log : EventLog} {w : β}

/-- What an execution in flight can append, it appends too when it is run in one go, from a log that
differs in its stamps. -/
theorem execute_of_acceptable (hb : r.behavior.TracksOnly) (hf : r.BuildsFresh) (hk : r.KeepsStore)
    {c : CommandMessage κ} {a handled : Aggregate π σ} {n : String} {rs : List Record}
    (h : InFlight m r log (c, a)) (ha : Acceptable r c a handled n log)
    (happ : Appended r handled n log rs)
    {log' : EventLog} (hl : log'.unstamped = log.unstamped) (stamp : Nat → Stamp) (w : β) :
    (m.execute (r.onLog stamp) c (log', w)).1.deed = (c, handled.changes) ∧
      (m.execute (r.onLog stamp) c (log', w)).1.Stored ∧
      (m.execute (r.onLog stamp) c (log', w)).2.1.unstamped = (log.append rs).unstamped := by
  have halike : EventLog.AlikeOn n log log' := .of_unstamped hl.symm n
  have hload := loadFor_of_loadsFrom ((h.current hb hf ha).of_alike halike) stamp w
  have hversion : log'.version n = log.version n := halike.version.symm
  have hacc : Repository.Accepts n none handled log' :=
    ⟨by rw [hversion]; exact ha.accepts.version, by rw [hversion]; exact ha.accepts.writable⟩
  have ha' : Acceptable r c a handled n log' := ⟨ha.handles, ha.stream, ha.changes, hacc⟩
  obtain ⟨rs', happ', hlog, href⟩ := ha'.appended hk stamp w
  have hexec : m.execute (r.onLog stamp) c (log', w) =
      (⟨c, handled.changes, (handleAndSave (r.onLog stamp) c a (log', w)).1⟩,
        (handleAndSave (r.onLog stamp) c a (log', w)).2) := by
    unfold execute handle
    simp only [hload]
    rw [← ha.raised_eq]
    rfl
  rw [hexec]
  refine ⟨rfl, ⟨ha.changes, href⟩, ?_⟩
  simp only [hlog, EventLog.unstamped_append, hl, happ.unstamped_eq happ' hversion]

/-- A move leaves the world alone, or it appends what an execution in flight has raised. -/
theorem move_cases (hk : r.KeepsStore) (stamp : Nat → Stamp) (p : Progress π κ σ EventLog β)
    (mv : Move κ) :
    ((m.move (r.onLog stamp) p mv).world = p.world ∧
      (m.move (r.onLog stamp) p mv).stored = p.stored ∧
      ∀ x ∈ (m.move (r.onLog stamp) p mv).inFlight,
        x ∈ p.inFlight ∨ ∃ n, LoadsFrom m r x.1 n (p.world.1.stream n) x.2) ∨
    ∃ c a handled n rs e, (c, a) ∈ p.inFlight ∧ Acceptable r c a handled n p.world.1 ∧
      Appended r handled n p.world.1 rs ∧
      (m.move (r.onLog stamp) p mv).world.1 = p.world.1.append rs ∧
      (m.move (r.onLog stamp) p mv).ended = p.ended ++ [e] ∧
      e.deed = (c, handled.changes) ∧ e.Stored ∧
      ∀ x ∈ (m.move (r.onLog stamp) p mv).inFlight, x ∈ p.inFlight := by
  obtain ⟨⟨log, w⟩, inFlight, ended⟩ := p
  cases mv with
  | start c =>
    left
    rcases m.loadFor_cases (r := r) stamp c log w with ⟨fault, h⟩ | ⟨a, n, hl, h⟩
    · simp only [move, h]
      exact ⟨trivial, filter_concat_of_not_stored ended fun hst => hst.1 rfl, fun x hx => Or.inl hx⟩
    · simp only [move, h]
      refine ⟨trivial, rfl, fun x hx => ?_⟩
      rcases List.mem_append.1 hx with hx | hx
      · exact Or.inl hx
      · obtain rfl := List.mem_singleton.1 hx
        exact Or.inr ⟨n, hl⟩
  | complete i =>
    simp only [move]
    rcases hi : inFlight[i]? with _ | ⟨c, a⟩
    · exact Or.inl ⟨rfl, rfl, fun x hx => Or.inl hx⟩
    · have hrest : ∀ x ∈ inFlight.eraseIdx i, x ∈ inFlight := fun x hx =>
        (List.eraseIdx_sublist inFlight i).mem hx
      rcases handleAndSave_cases r stamp c a log w with ⟨hw, hnot⟩ | ⟨handled, n, ha⟩
      · left
        exact ⟨hw, filter_concat_of_not_stored ended hnot, fun x hx => Or.inl (hrest x hx)⟩
      · right
        obtain ⟨rs, happ, hlog, href⟩ := ha.appended hk stamp w
        refine ⟨c, a, handled, n, rs, _, List.mem_of_getElem? hi, ha, happ, hlog, rfl,
          congrArg (Prod.mk c) ha.raised_eq, ⟨?_, href⟩, hrest⟩
        show raised r.behavior c a ≠ []
        rw [ha.raised_eq]
        exact ha.changes

/-- What the executions that stored something come to when they are run one after another from a
log, whatever the stamps then are. -/
structure Serial (m : CommandMapping) (r : Repository π κ σ EventLog β) (start : EventLog)
    (p : Progress π κ σ EventLog β) : Prop where
  inFlight : ∀ x ∈ p.inFlight, InFlight m r p.world.1 x
  log : ∀ stamp w,
    (m.sequence (r.onLog stamp) (p.stored.map (·.command)) (start, w)).2.1.unstamped =
      p.world.1.unstamped
  deeds : ∀ stamp w, (m.sequence (r.onLog stamp) (p.stored.map (·.command)) (start, w)).1.map
    Execution.deed = p.stored.map Execution.deed
  all : ∀ stamp w, ∀ e ∈ (m.sequence (r.onLog stamp) (p.stored.map (·.command)) (start, w)).1,
    e.Stored

theorem Serial.move (hb : r.behavior.TracksOnly) (hf : r.BuildsFresh) (hk : r.KeepsStore)
    {p : Progress π κ σ EventLog β} (h : Serial m r log p) (mv : Move κ) :
    Serial m r log (m.move (r.onLog stamp) p mv) := by
  rcases move_cases (m := m) hk stamp p mv with ⟨hw, hst, hfl⟩ |
    ⟨c, a, handled, n, rs, e, hmem, ha, happ, hlog, hended, hdeed, hstored, hfl⟩
  · constructor
    · intro x hx
      rw [hw]
      rcases hfl x hx with hx | ⟨n, hl⟩
      · exact h.inFlight x hx
      · exact InFlight.loaded hb hf hl
    · rw [hw, hst]
      exact h.log
    · rw [hst]
      exact h.deeds
    · rw [hst]
      exact h.all
  · have hst : (m.move (r.onLog stamp) p mv).stored = p.stored ++ [e] := by
      unfold Progress.stored
      rw [hended, filter_concat_of_stored p.ended hstored]
    have hc : e.command = c := congrArg Prod.fst hdeed
    -- the sequence so far has left the same streams, so the execution loads the same there
    have hexec := fun stamp w =>
      execute_of_acceptable hb hf hk (h.inFlight _ hmem) ha happ (h.log stamp w) stamp
    constructor
    · intro x hx
      rw [hlog]
      exact (h.inFlight x (hfl x hx)).grows (EventLog.grows_append _ rs)
    · intro stamp w
      rw [hst, List.map_append, List.map_singleton, hc, sequence_concat, hlog]
      exact (hexec stamp w _).2.2
    · intro stamp w
      rw [hst, List.map_append, List.map_singleton, hc, sequence_concat, List.map_append,
        List.map_append, h.deeds, List.map_singleton, List.map_singleton, hdeed]
      exact congrArg _ (congrArg (· :: []) (hexec stamp w _).1)
    · intro stamp w e' he'
      rw [hst, List.map_append, List.map_singleton, hc, sequence_concat] at he'
      rcases List.mem_append.1 he' with he' | he'
      · exact h.all stamp w e' he'
      · rw [List.mem_singleton.1 he']
        exact (hexec stamp w _).2.1

theorem Serial.start : Serial m r log ⟨(log, w), [], []⟩ where
  inFlight := fun _ hx => nomatch hx
  log := fun _ _ => rfl
  deeds := fun _ _ => rfl
  all := fun _ _ _ he => nomatch he

theorem Serial.interleave (hb : r.behavior.TracksOnly) (hf : r.BuildsFresh) (hk : r.KeepsStore)
    (moves : List (Move κ)) (w : β) :
    Serial m r log (m.interleave (r.onLog stamp) moves (log, w)) := by
  have hrun : ∀ p, Serial m r log p → Serial m r log (moves.foldl (m.move (r.onLog stamp)) p) := by
    induction moves with
    | nil => exact fun p h => h
    | cons mv moves ih => exact fun p h => ih _ (h.move hb hf hk mv)
  exact hrun _ Serial.start

/-- Handling commands is serializable. Loading and saving may be interleaved in any way: but for
stamps the streams are those of the executions that stored something, one after the other in the
order of their saves, and each of them raises the same events alone. No other execution changes
anything. An execution that comes back has stored something just if it is well and raised events. -/
theorem interleaving_serializable (m : CommandMapping) (r : Repository π κ σ EventLog β)
    (stamp : Nat → Stamp) (log : EventLog) (w : β) (moves : List (Move κ))
    (hb : r.behavior.TracksOnly) (hf : r.BuildsFresh) (hk : r.KeepsStore) :
    let last := m.interleave (r.onLog stamp) moves (log, w)
    (∀ stamp' w', let alone := m.sequence (r.onLog stamp') (last.stored.map (·.command)) (log, w')
      (∀ n, (alone.2.1.stream n).map Record.unstamped =
        (last.world.1.stream n).map Record.unstamped) ∧
      alone.1.map Execution.deed = last.stored.map Execution.deed ∧ ∀ e ∈ alone.1, e.Stored) ∧
    (∀ e ∈ last.ended, e.outcome.Returned → (e.Stored ↔ e.outcome = .ok () ∧ e.raised ≠ [])) ∧
    (∀ before mv, let p := m.interleave (r.onLog stamp) before (log, w)
      let q := m.interleave (r.onLog stamp) (before ++ [mv]) (log, w)
      q.world = p.world ∨ ∃ e, e.Stored ∧ q.ended = p.ended ++ [e]) := by
  intro last
  have hserial : Serial m r log last := Serial.interleave hb hf hk moves w
  refine ⟨fun stamp' w' => ⟨fun n => ?_, hserial.deeds stamp' w', hserial.all stamp' w'⟩,
    fun e _ => Execution.stored_iff, fun before mv => ?_⟩
  · rw [← EventLog.stream_unstamped, ← EventLog.stream_unstamped, hserial.log stamp' w']
  · rw [interleave_concat]
    rcases move_cases (m := m) hk stamp (m.interleave (r.onLog stamp) before (log, w)) mv with
      ⟨hw, -, -⟩ | ⟨-, -, -, -, -, e, -, -, -, -, hended, -, hst, -⟩
    · exact Or.inl hw
    · exact Or.inr ⟨e, hst, hended⟩

end Serial

/-- Both commands have loaded when the first is saved; the second conflicts. -/
theorem interleaving_serializable_race :
    let r := Inventory.App.repository fun _ => ⟨"", .epoch⟩
    let first : CommandMessage Inventory.Command := .new "bolts" (.create "bolt")
    let second : CommandMessage Inventory.Command := .new "bolts" (.rename "nut")
    let last := Inventory.App.mapping.interleave r
      [.start first, .start second, .complete 1, .complete 0] (.empty, .empty)
    r.behavior.TracksOnly ∧ r.BuildsFresh ∧ r.KeepsStore ∧ last.ended.length = 2 ∧
      last.stored.map (·.command) = [second] ∧
      (Inventory.App.mapping.sequence r [second] (.empty, .empty)).1.map Execution.deed =
        last.stored.map Execution.deed := by
  intro r first second last
  have hb : r.behavior.TracksOnly := Inventory.Item.tracksOnly
  have hf : r.BuildsFresh := Inventory.App.buildsFresh _
  have hk : r.KeepsStore := Inventory.App.keepsStore _
  obtain ⟨halone, -, -⟩ := interleaving_serializable Inventory.App.mapping r
    (fun _ => ⟨"", .epoch⟩) .empty .empty
    [.start first, .start second, .complete 1, .complete 0] hb hf hk
  exact ⟨hb, hf, hk, rfl, rfl, (halone (fun _ => ⟨"", .epoch⟩) .empty).2.1⟩

end CommandMapping

end EventSourcing
