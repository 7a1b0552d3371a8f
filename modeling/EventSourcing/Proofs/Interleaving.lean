import EventSourcing.Application.CommandHandling
import EventSourcing.Proofs.Registration
import EventSourcing.Proofs.Replay

/-!
Commands that are handled at the same time, and commands that are handled one after another.
Handling is cut in two, loading and the rest, and the parts of different commands may follow each
other in any order. What an execution in flight has loaded is what the first records of its stream
replay to, as many as its version says; it can be appended only if these are still the whole stream.
-/

namespace EventSourcing

variable {π κ σ α β : Type}

namespace CommandMapping

/-- What an execution gives to be saved: the changes of the aggregate once the command is handled,
nothing if the command is refused. -/
def raised (b : Behavior π κ σ) (c : CommandMessage κ) (a : Aggregate π σ) :
    List (EventMessage π) :=
  match b.handle c a with
  | (.ok (), handled) => handled.changes
  | (.error _, _) => []

structure Execution (π κ : Type) where
  command : CommandMessage κ
  raised : List (EventMessage π)
  outcome : Outcome (AppError κ) Unit

def Execution.Stored (e : Execution π κ) : Prop := e.raised ≠ [] ∧ ¬ e.outcome.Refused

def Execution.deed (e : Execution π κ) : CommandMessage κ × List (EventMessage π) :=
  (e.command, e.raised)

instance (e : Execution π κ) : Decidable e.Stored :=
  inferInstanceAs (Decidable (e.raised ≠ [] ∧ ¬ e.outcome.Refused))

theorem Execution.stored_iff {e : Execution π κ} (h : e.outcome.Returned) :
    e.Stored ↔ e.outcome = .ok () ∧ e.raised ≠ [] := by
  constructor
  · exact fun hst => ⟨Outcome.ok_of_returned h hst.2, hst.1⟩
  · rintro ⟨hok, hne⟩
    refine ⟨hne, ?_⟩
    rw [hok]
    exact fun ⟨e, he⟩ => nomatch he

theorem filter_concat_of_stored (ended : List (Execution π κ)) {e : Execution π κ} (h : e.Stored) :
    (ended ++ [e]).filter (fun e => e.Stored) = ended.filter (fun e => e.Stored) ++ [e] := by
  rw [List.filter_append, List.filter_cons_of_pos (by simpa using h), List.filter_nil]

theorem filter_concat_of_not_stored (ended : List (Execution π κ)) {e : Execution π κ}
    (h : ¬ e.Stored) :
    (ended ++ [e]).filter (fun e => e.Stored) = ended.filter fun e => e.Stored := by
  rw [List.filter_append, List.filter_cons_of_neg (by simpa using h), List.filter_nil,
    List.append_nil]

section Running

variable [CommandPayload κ] (m : CommandMapping) (r : Repository π κ σ α β)

/-- Executions under way: what each has loaded, and the reports of those that have ended, in the
order of their ends. -/
structure Progress (π κ σ α β : Type) where
  world : α × β
  inFlight : List (CommandMessage κ × Aggregate π σ)
  ended : List (Execution π κ)

def Progress.stored (p : Progress π κ σ α β) : List (Execution π κ) :=
  p.ended.filter fun e => e.Stored

/-- A command is loaded for, or one of those in flight is handled and saved. -/
inductive Move (κ : Type) where
  | start (c : CommandMessage κ)
  | complete (i : Nat)

def move (p : Progress π κ σ α β) : Move κ → Progress π κ σ α β
  | .start c =>
    match m.loadFor r c p.world with
    | (.ok a, w) => { p with world := w, inFlight := p.inFlight ++ [(c, a)] }
    | (.error fault, w) => { p with world := w, ended := p.ended ++ [⟨c, [], .error fault⟩] }
  | .complete i =>
    match p.inFlight[i]? with
    | none => p
    | some (c, a) =>
      let (out, w) := handleAndSave r c a p.world
      ⟨w, p.inFlight.eraseIdx i, p.ended ++ [⟨c, raised r.behavior c a, out⟩]⟩

def interleave (moves : List (Move κ)) (w : α × β) : Progress π κ σ α β :=
  moves.foldl (m.move r) ⟨w, [], []⟩

theorem interleave_concat (moves : List (Move κ)) (mv : Move κ) (w : α × β) :
    m.interleave r (moves ++ [mv]) w = m.move r (m.interleave r moves w) mv := by
  unfold interleave
  rw [List.foldl_append]
  rfl

def execute (c : CommandMessage κ) (w : α × β) : Execution π κ × (α × β) :=
  let events := match m.loadFor r c w with
    | (.ok a, _) => raised r.behavior c a
    | (.error _, _) => []
  let (out, w) := m.handle r c w
  (⟨c, events, out⟩, w)

def sequence : List (CommandMessage κ) → α × β → List (Execution π κ) × (α × β)
  | [], w => ([], w)
  | c :: rest, w =>
    let (e, w) := m.execute r c w
    let (es, w) := sequence rest w
    (e :: es, w)

theorem sequence_concat (cs : List (CommandMessage κ)) (c : CommandMessage κ) (w : α × β) :
    m.sequence r (cs ++ [c]) w =
      ((m.sequence r cs w).1 ++ [(m.execute r c (m.sequence r cs w).2).1],
        (m.execute r c (m.sequence r cs w).2).2) := by
  induction cs generalizing w with
  | nil => rfl
  | cons d cs ih => simp only [List.cons_append, sequence, ih]

end Running

section Saving

variable [EventPayload π] (r : Repository π κ σ EventLog β) (stamp : Nat → Stamp)
  {c : CommandMessage κ} {a : Aggregate π σ} {log : EventLog} {w : β}

theorem handleAndSave_of_ok {handled : Aggregate π σ}
    (h : r.behavior.handle c a = (.ok (), handled)) (log : EventLog) (w : β) :
    handleAndSave (r.onLog stamp) c a (log, w) =
      (((r.onLog stamp).save none (handled, log, w)).1.mapError .domain,
        ((r.onLog stamp).save none (handled, log, w)).2.2) := by
  unfold handleAndSave
  rw [show (r.onLog stamp).behavior.handle c a = (.ok (), handled) from h]

theorem handleAndSave_of_error {handled : Aggregate π σ} {fault : Fault (DomainError κ)}
    (h : r.behavior.handle c a = (.error fault, handled)) (log : EventLog) (w : β) :
    handleAndSave (r.onLog stamp) c a (log, w) =
      (Outcome.mapError .domain (.error fault), (log, w)) := by
  unfold handleAndSave
  rw [show (r.onLog stamp).behavior.handle c a = (.error fault, handled) from h]

/-- The command is handled, and what was raised can be appended to the stream of the aggregate. -/
structure Acceptable (c : CommandMessage κ) (a handled : Aggregate π σ) (n : String)
    (log : EventLog) : Prop where
  handles : r.behavior.handle c a = (.ok (), handled)
  stream : r.streamOf handled = some n
  changes : handled.changes ≠ []
  accepts : Repository.Accepts n none handled log

variable {r}

theorem Acceptable.raised_eq {handled : Aggregate π σ} {n : String}
    (h : Acceptable r c a handled n log) : raised r.behavior c a = handled.changes := by
  simp only [raised, h.handles]

/-- What is stored of what was raised: all of it, or nothing if the stream has not the places. -/
def Appended (r : Repository π κ σ EventLog β) (handled : Aggregate π σ) (n : String)
    (log : EventLog) (rs : List Record) : Prop :=
  (log.version n + handled.changes.length ≤ sizeLimit ∧
    Record.Batch n (Repository.commonHeaders (r.behavior.typeTag handled.state)) (log.version n)
      (Repository.outgoing handled) rs) ∨
  (sizeLimit < log.version n + handled.changes.length ∧ rs = [])

theorem Appended.stream_eq {handled : Aggregate π σ} {n : String} {rs : List Record}
    (h : Appended r handled n log rs) : ∀ rec ∈ rs, rec.stream = n := by
  rcases h with ⟨-, hb⟩ | ⟨-, rfl⟩
  · exact hb.stream_eq
  · exact fun rec hrec => nomatch hrec

theorem Appended.unstamped_eq {handled : Aggregate π σ} {n : String} {log' : EventLog}
    {rs rs' : List Record} (h : Appended r handled n log rs) (h' : Appended r handled n log' rs')
    (hv : log'.version n = log.version n) :
    rs'.map Record.unstamped = rs.map Record.unstamped := by
  unfold Appended at h'
  rw [hv] at h'
  rcases h with ⟨hfit, hb⟩ | ⟨hover, rfl⟩ <;> rcases h' with ⟨hfit', hb'⟩ | ⟨hover', rfl⟩
  · exact hb'.unstamped_eq hb
  · exact absurd hfit (Nat.not_le.2 hover')
  · exact absurd hfit' (Nat.not_le.2 hover)
  · rfl

/-- What can be appended is appended as far as there are places, and no error is returned. -/
theorem Acceptable.appended (hk : r.KeepsStore) {handled : Aggregate π σ} {n : String}
    (h : Acceptable r c a handled n log) (stamp : Nat → Stamp) (w : β) :
    ∃ rs, Appended r handled n log rs ∧
      (handleAndSave (r.onLog stamp) c a (log, w)).2.1 = log.append rs ∧
      ¬ (handleAndSave (r.onLog stamp) c a (log, w)).1.Refused := by
  rw [handleAndSave_of_ok r stamp h.handles, Outcome.refused_mapError,
    r.save_refused_iff stamp none log w h.stream h.changes]
  rcases r.save_ends stamp none log w h.stream h.changes with
    ⟨hne, -⟩ | ⟨-, hnot, -⟩ | ⟨-, hover, hsave⟩ | ⟨-, hfit, rs, hb, hsave⟩
  · exact absurd h.accepts.version hne
  · exact absurd h.accepts hnot
  · refine ⟨[], Or.inr ⟨hover, rfl⟩, ?_, not_not_intro h.accepts⟩
    rw [hsave, EventLog.append_nil]
  · refine ⟨rs, Or.inl ⟨hfit, hb⟩, ?_, not_not_intro h.accepts⟩
    rw [hsave]
    exact Repository.KeepsStore.finish (r := r.onLog stamp) hk _ _ _ _

/-- The second half of an execution leaves the world alone, unless it can be appended. -/
theorem handleAndSave_cases (r : Repository π κ σ EventLog β) (stamp : Nat → Stamp)
    (c : CommandMessage κ) (a : Aggregate π σ) (log : EventLog) (w : β) :
    (handleAndSave (r.onLog stamp) c a (log, w)).2 = (log, w) ∧
      ¬ (⟨c, raised r.behavior c a, (handleAndSave (r.onLog stamp) c a (log, w)).1⟩ :
        Execution π κ).Stored ∨
    ∃ handled n, Acceptable r c a handled n log := by
  rcases hh : r.behavior.handle c a with ⟨fault | _, handled⟩
  · left
    rw [handleAndSave_of_error r stamp hh]
    refine ⟨rfl, fun hst => hst.1 ?_⟩
    simp only [raised, hh]
  · rw [handleAndSave_of_ok r stamp hh]
    by_cases hp : handled.changes = []
    · left
      rw [(r.onLog stamp).save_of_no_changes none hp]
      refine ⟨rfl, fun hst => hst.1 ?_⟩
      simpa only [raised, hh] using hp
    · by_cases href : ((r.onLog stamp).save none (handled, log, w)).1.Refused
      · left
        rw [r.save_of_refused stamp none log w href]
        exact ⟨rfl, fun hst => hst.2 ((Outcome.refused_mapError _ _).2 href)⟩
      · rcases hn : r.streamOf handled with _ | n
        · rw [(r.onLog stamp).save_of_no_stream none hn hp] at href
          exact absurd ⟨_, rfl⟩ href
        · rw [r.save_refused_iff stamp none log w hn hp, not_not] at href
          exact Or.inr ⟨handled, n, hh, hn, hp, href⟩

end Saving

section Loading

variable [CommandPayload κ] {m : CommandMapping} {r : Repository π κ σ EventLog β}
  {c : CommandMessage κ} {a : Aggregate π σ} {log log' : EventLog} {n : String}

/-- What is made for the command becomes this aggregate when the records are replayed. -/
def LoadsFrom (m : CommandMapping) (r : Repository π κ σ EventLog β) (c : CommandMessage κ)
    (n : String) (rs : List Record) (a : Aggregate π σ) : Prop :=
  ∃ type made f, m.find? c.commandType = some type ∧
    r.prepare type c.aggregateId = .ok (made, n, f) ∧
    Repository.replay r.behavior f c.aggregateId rs made = .ok a

/-- The records are read as events, and the aggregate is what these make of a new one of the type
that the command is mapped to. -/
def FoldedFrom (m : CommandMapping) (r : Repository π κ σ EventLog β) (c : CommandMessage κ)
    (n : String) (rs : List Record) (a : Aggregate π σ) : Prop :=
  ∃ type fresh f ms, m.find? c.commandType = some type ∧
    r.Configured type c.aggregateId fresh n f ∧
    List.Forall₂ (Repository.ReadAs f c.aggregateId) rs ms ∧ r.behavior.applyAll ms fresh = .ok a

/-- Replaying is folding, as far as places can be counted. -/
theorem loadsFrom_iff {rs : List Record} : LoadsFrom m r c n rs a ↔
    FoldedFrom m r c n rs a ∧ ∀ rec ∈ rs, rec.position + 1 < sizeLimit := by
  constructor
  · rintro ⟨type, fresh, f, hm, hp, hr⟩
    obtain ⟨hplaces, ms, hms, happ⟩ := Repository.readAs_of_replay hr
    exact ⟨⟨type, fresh, f, ms, hm, Repository.configured_of_prepare hp, hms, happ⟩, hplaces⟩
  · rintro ⟨⟨type, fresh, f, ms, hm, hc, hms, happ⟩, hplaces⟩
    refine ⟨type, fresh, f, hm, hc.prepare, ?_⟩
    rw [Repository.replay_of_readAs hms hplaces, happ]
    rfl

theorem LoadsFrom.of_alike (h : LoadsFrom m r c n (log.stream n) a)
    (hl : EventLog.AlikeOn n log log') : LoadsFrom m r c n (log'.stream n) a := by
  obtain ⟨type, made, f, hm, hp, hr⟩ := h
  exact ⟨type, made, f, hm, hp, (Repository.replay_alike _ _ _ hl made).symm.trans hr⟩

theorem LoadsFrom.base (hb : r.behavior.TracksOnly) {rs : List Record}
    (h : LoadsFrom m r c n rs a) :
    ∃ type made f, r.prepare type c.aggregateId = .ok (made, n, f) ∧
      a.base = { made.base with version := made.version + rs.length } ∧
      r.behavior.typeTag a.state = r.behavior.typeTag made.state := by
  obtain ⟨type, made, f, -, hp, hr⟩ := h
  obtain ⟨hbase, htag⟩ := Repository.replay_base r.behavior f c.aggregateId
    (P := fun s => r.behavior.typeTag s = r.behavior.typeTag made.state)
    (fun hs happ => ⟨(hb.apply happ).1, (hb.apply happ).2.trans hs⟩) hr rfl
  exact ⟨type, made, f, hp, hbase, htag⟩

/-- What was replayed has the stream it was replayed from. -/
theorem LoadsFrom.streamOf (hb : r.behavior.TracksOnly) (hn : r.BuildsNamed) {rs : List Record}
    (h : LoadsFrom m r c n rs a) : r.streamOf a = some n := by
  obtain ⟨type, made, f, hp, hbase, htag⟩ := h.base hb
  obtain ⟨aggregates, -, -, hag, hmake, -, -, -, -⟩ := Repository.prepare_eq_ok hp
  obtain ⟨htype, hid⟩ := hn aggregates type c.aggregateId made hag hmake
  exact Repository.streamOf_of_prepare hp (htag.trans htype)
    ((congrArg AggregateBase.id hbase).trans hid)

theorem LoadsFrom.version_streamOf (hb : r.behavior.TracksOnly) (hf : r.BuildsFresh)
    {rs : List Record} (h : LoadsFrom m r c n rs a) :
    a.version = rs.length ∧ r.streamOf a = some n := by
  refine ⟨?_, h.streamOf hb hf.buildsNamed⟩
  obtain ⟨type, made, f, hp, hbase, -⟩ := h.base hb
  obtain ⟨aggregates, -, -, hag, hmake, -, -, -, -⟩ := Repository.prepare_eq_ok hp
  obtain ⟨-, -, hversion⟩ := hf aggregates type c.aggregateId made hag hmake
  rw [Aggregate.version, hbase, hversion, Nat.zero_add]

theorem LoadsFrom.base_new (hb : r.behavior.TracksOnly) (hn : r.BuildsNew) {rs : List Record}
    (h : LoadsFrom m r c n rs a) : a.base = ⟨c.aggregateId, rs.length, []⟩ := by
  obtain ⟨type, made, f, hp, hbase, -⟩ := h.base hb
  obtain ⟨aggregates, -, -, hag, hmake, -, -, -, -⟩ := Repository.prepare_eq_ok hp
  obtain ⟨-, hmade⟩ := hn aggregates type c.aggregateId made hag hmake
  rw [hbase, Aggregate.version, hmade]
  show AggregateBase.mk c.aggregateId (0 + rs.length) [] = _
  rw [Nat.zero_add]

/-- In flight: the aggregate is what the first records of its stream replay to, as many as its
version says. -/
def InFlight (m : CommandMapping) (r : Repository π κ σ EventLog β) (log : EventLog)
    (x : CommandMessage κ × Aggregate π σ) : Prop :=
  ∃ n, x.2.version ≤ log.version n ∧ LoadsFrom m r x.1 n ((log.stream n).take x.2.version) x.2

theorem InFlight.loaded (hb : r.behavior.TracksOnly) (hf : r.BuildsFresh)
    (h : LoadsFrom m r c n (log.stream n) a) : InFlight m r log (c, a) := by
  have hv : a.version = log.version n := (h.version_streamOf hb hf).1
  refine ⟨n, Nat.le_of_eq hv, ?_⟩
  rw [hv, EventLog.take_version]
  exact h

theorem InFlight.grows {x : CommandMessage κ × Aggregate π σ} (h : InFlight m r log x)
    (hg : EventLog.Grows log log') : InFlight m r log' x := by
  obtain ⟨n, hle, hl⟩ := h
  refine ⟨n, Nat.le_trans hle (hg.version_le n), ?_⟩
  rw [hg.take hle]
  exact hl

variable [EventPayload π]

/-- What can be appended was loaded from what is still the whole stream. -/
theorem InFlight.current (hb : r.behavior.TracksOnly) (hf : r.BuildsFresh)
    (h : InFlight m r log (c, a)) {handled : Aggregate π σ} (ha : Acceptable r c a handled n log) :
    LoadsFrom m r c n (log.stream n) a := by
  obtain ⟨n', hle, hl⟩ := h
  have hstream : r.streamOf handled = some n' :=
    (Repository.streamOf_of_handle hb ha.handles).trans (hl.version_streamOf hb hf).2
  obtain rfl : n' = n := Option.some.inj (hstream.symm.trans ha.stream)
  obtain ⟨-, es, hbase⟩ := hb.handle ha.handles
  -- the save expects the version that was loaded, and finds it to be the length of the stream
  have hv : a.version = log.version n' := by
    rw [← ha.accepts.version, Option.getD_none, Aggregate.version, Aggregate.version, hbase]
  rw [hv, EventLog.take_version] at hl
  exact hl

theorem loadFor_cases (stamp : Nat → Stamp) (c : CommandMessage κ) (log : EventLog) (w : β) :
    (∃ fault, m.loadFor (r.onLog stamp) c (log, w) = (.error fault, (log, w))) ∨
    ∃ a n, LoadsFrom m r c n (log.stream n) a ∧
      m.loadFor (r.onLog stamp) c (log, w) = (.ok a, (log, w)) := by
  unfold loadFor
  cases hm : m.find? c.commandType with
  | none => exact Or.inl ⟨_, rfl⟩
  | some type =>
    simp only [Repository.load_onLog]
    rcases hp : r.prepare type c.aggregateId with e | ⟨made, n, f⟩
    · exact Or.inl ⟨_, rfl⟩
    · rcases hr : Repository.replay r.behavior f c.aggregateId (log.stream n) made with fault | a
      · left
        rcases fault with e | o | _
        · exact ⟨_, by simp only [hr]; rfl⟩
        · exact ⟨_, by simp only [hr]; rfl⟩
        · exact ⟨_, by simp only [hr]; rfl⟩
      · exact Or.inr ⟨a, n, ⟨type, made, f, hm, hp, hr⟩, by simp only [hr]; rfl⟩

theorem loadFor_of_loadsFrom (h : LoadsFrom m r c n (log.stream n) a) (stamp : Nat → Stamp)
    (w : β) : m.loadFor (r.onLog stamp) c (log, w) = (.ok a, (log, w)) := by
  obtain ⟨type, made, f, hm, hp, hr⟩ := h
  unfold loadFor
  simp only [hm, Repository.load_onLog, hp, hr]
  rfl

end Loading

end CommandMapping

end EventSourcing
