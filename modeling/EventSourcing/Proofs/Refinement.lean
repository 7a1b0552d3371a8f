import EventSourcing.Proofs.Publication
import EventSourcing.Proofs.StoreMirror

/-!
A repository on a remote end does what it does on the log in memory. Both run through the same acts
of a caller who builds, loads, changes and saves handles; what carries the runs along each other is
that the remote end keeps the records of the log. Step by step the answers are equal, but for a
stream that the remote end does not know and for a stale batch that cannot be written, until the log
has no places left.
-/

namespace EventSourcing

namespace Repository

variable {π κ σ α β γ ρ : Type}

section Parts

variable {Holds : ρ → Holdings → Prop} {V : β → γ → Prop}

structure WorldsAgree (Holds : ρ → Holdings → Prop) (V : β → γ → Prop) (w : EventLog × β)
    (w' : Connection ρ × γ) : Prop where
  store : w.1.MirroredBy Holds w'.1.remote
  world : V w.2 w'.2

structure EndsAgree (Holds : ρ → Holdings → Prop) (V : β → γ → Prop)
    (p : DomainOutcome κ Unit × Aggregate π σ × EventLog × β)
    (p' : DomainOutcome κ Unit × Aggregate π σ × Connection ρ × γ) : Prop where
  outcome : p'.1 = p.1
  aggregate : p'.2.1 = p.2.1
  worlds : WorldsAgree Holds V p.2.2 p'.2.2

/-- The repositories are made of the same parts but for their stores, and their handlers keep on
agreeing. -/
structure Counterparts (Holds : ρ → Holdings → Prop) (V : β → γ → Prop)
    (r : Repository π κ σ EventLog β) (r' : Repository π κ σ (Connection ρ) γ) : Prop where
  behavior : r'.behavior = r.behavior
  aggregates : r'.aggregates = r.aggregates
  namer : r'.namer = r.namer
  events : r'.events = r.events
  publish : ∀ e {w w'}, WorldsAgree Holds V w w' → (r'.publish e w').1 = (r.publish e w).1 ∧
    WorldsAgree Holds V (r.publish e w).2 (r'.publish e w').2

/-- A stale batch that cannot be written: the log tells of the version, the remote end is not
asked. -/
structure StaleUnwritable [EventPayload π] (r : Repository π κ σ EventLog β) (expected : Option Nat)
    (a : Aggregate π σ) (log : EventLog) (n : String) : Prop where
  stream : r.streamOf a = some n
  stale : expected.getD a.version ≠ log.version n
  unwritable : ¬ ∀ e ∈ a.changes, Record.Writable e

/-- A batch that would be stored if its stream had the places for it. The log aborts. -/
structure Overfills [EventPayload π] (r : Repository π κ σ EventLog β) (expected : Option Nat)
    (a : Aggregate π σ) (log : EventLog) (n : String) : Prop where
  stream : r.streamOf a = some n
  changes : a.changes ≠ []
  accepts : Accepts n expected a log
  full : sizeLimit < log.version n + a.changes.length

section Overfilling

variable [EventPayload π] {r : Repository π κ σ EventLog β} {expected : Option Nat}
  {a : Aggregate π σ} {log : EventLog} {n : String}

theorem Overfills.save_eq (h : Overfills r expected a log n) (stamp : Nat → Stamp) (w : β) :
    (r.onLog stamp).save expected (a, log, w) =
      (.error (.overflow .addition), (a, log, w)) := by
  rcases r.save_ends stamp expected log w h.stream h.changes with
    ⟨hne, -⟩ | ⟨-, hnot, -⟩ | ⟨-, -, hsave⟩ | ⟨-, hfit, -⟩
  · exact absurd h.accepts.version hne
  · exact absurd h.accepts hnot
  · exact hsave
  · exact absurd hfit (Nat.not_le.2 h.full)

theorem Overfills.handed_eq_nil (h : Overfills r expected a log n) (stamp : Nat → Stamp) (w : β) :
    (r.onLog stamp).handed expected a (log, w) = [] := by
  have hseen : Overfills r.observed expected a log n := ⟨h.stream, h.changes, h.accepts, h.full⟩
  exact congrArg (fun p => p.2.2.2.2) (hseen.save_eq stamp (w, []))

end Overfilling

namespace Counterparts

variable {r : Repository π κ σ EventLog β} {r' : Repository π κ σ (Connection ρ) γ}

theorem streamOf (h : Counterparts Holds V r r') (a : Aggregate π σ) :
    r'.streamOf a = r.streamOf a := by
  unfold Repository.streamOf
  rw [h.namer, h.behavior]

theorem prepare (h : Counterparts Holds V r r') (type id : String) :
    r'.prepare type id = r.prepare type id := by
  unfold Repository.prepare
  rw [h.aggregates, h.namer, h.events]

theorem observed (h : Counterparts Holds V r r') :
    Counterparts Holds (fun p p' => V p.1 p'.1 ∧ p'.2.map (·.1) = p.2.map (·.1))
      r.observed r'.observed where
  behavior := h.behavior
  aggregates := h.aggregates
  namer := h.namer
  events := h.events
  publish e := by
    rintro ⟨log, w, seen⟩ ⟨c, w', seen'⟩ ⟨hstore, hworld, hseen⟩
    obtain ⟨hout, hstore', hworld'⟩ := h.publish e
      (⟨hstore, hworld⟩ : WorldsAgree Holds V (log, w) (c, w'))
    rw [observed_publish, observed_publish]
    refine ⟨hout, hstore', hworld', ?_⟩
    simp only [List.map_append, hseen, List.map_cons, List.map_nil]

theorem publishFrom (h : Counterparts Holds V r r') (start offset : Nat)
    (es : List (EventMessage π)) (a : Aggregate π σ) {w : EventLog × β} {w' : Connection ρ × γ}
    (hw : WorldsAgree Holds V w w') :
    EndsAgree Holds V (r.publishFrom start offset es (a, w))
      (r'.publishFrom start offset es (a, w')) := by
  induction es generalizing offset w w' with
  | nil => exact ⟨rfl, rfl, hw⟩
  | cons e es ih =>
    simp only [Repository.publishFrom]
    cases placeOf start offset with
    | error o => exact ⟨rfl, rfl, hw⟩
    | ok place =>
      obtain ⟨hout, hnext⟩ := h.publish (e.withVersion (some place)) hw
      dsimp only
      rcases hp : r.publish (e.withVersion (some place)) w with ⟨out, v⟩
      rcases hp' : r'.publish (e.withVersion (some place)) w' with ⟨out', v'⟩
      rw [hp, hp'] at hout hnext
      obtain rfl : out' = out := hout
      rcases out' with (_ | _ | _) | _
      · exact ih _ hnext
      · exact ⟨rfl, rfl, hnext⟩
      · exact ⟨rfl, rfl, hnext⟩
      · exact ih _ hnext

theorem finish (h : Counterparts Holds V r r') (start : Nat) (a : Aggregate π σ)
    {w : EventLog × β} {w' : Connection ρ × γ} (hw : WorldsAgree Holds V w w') :
    EndsAgree Holds V (r.finish start (a, w)) (r'.finish start (a, w')) := by
  rcases a.commitChangesAt_cases start with ⟨-, hc⟩ | ⟨-, hc⟩ <;> simp only [Repository.finish, hc]
  · exact ⟨rfl, rfl, hw⟩
  · exact h.publishFrom start 0 (outgoing a) (a.committedAt start) hw

section Steps

variable [EventPayload π] {t : Transport ρ} {config : StreamingConfig} {log : EventLog}
  {c : Connection ρ} {w : β} {w' : γ}

theorem mounted (h : Counterparts Holds V r r') (stamp : Nat → Stamp) (config : StreamingConfig)
    (t : Transport ρ) : Counterparts Holds V (r.onLog stamp) (r'.onRemote config t) :=
  ⟨h.behavior, h.aggregates, h.namer, h.events, h.publish⟩

theorem answered (h : Counterparts Holds V r r') {a : Aggregate π σ} {n : String} {start : Nat}
    (hw : WorldsAgree Holds V (log, w) (c, w')) {o : DomainOutcome κ Unit × EventLog}
    {o' : DomainOutcome κ Unit × Connection ρ}
    (hs : SavedAlike Holds n (outgoing a) start log c o o') :
    EndsAgree Holds V (r.answered start n a w o) (r'.answered start n a w' o') ∨
    (start ≠ log.version n ∧ (¬ ∀ e ∈ a.changes, Record.Writable e) ∧
      r.answered start n a w o =
        (.fail (.concurrency (r.behavior.typeTag a.state) a.id start n), (a, log, w)) ∧
      ∃ s, r'.answered start n a w' o' = (.fail (.serialization s), (a, c, w'))) ∨
    (start = log.version n ∧ Record.WritableFrom (log.version n) a.changes ∧
      sizeLimit < log.version n + a.changes.length) := by
  cases hs with
  | stored _ hm => exact Or.inl (h.finish start a ⟨hm, hw.world⟩)
  | unwritable => exact Or.inl ⟨rfl, rfl, hw⟩
  | stale hm =>
    refine Or.inl ⟨?_, rfl, hm, hw.world⟩
    show Outcome.fail (DomainError.concurrency (r'.behavior.typeTag a.state) a.id start n) = _
    rw [h.behavior]
    rfl
  | staleUnwritable hne hbad =>
    exact Or.inr (Or.inl ⟨hne, fun hall => hbad ((writable_outgoing a).2 hall), rfl, _, rfl⟩)
  | full hv hwritable hover =>
    rw [length_outgoing] at hover
    exact Or.inr (Or.inr ⟨hv, (writableFrom_outgoing _ a).1 hwritable, hover⟩)

/-- Saves come to the same end, but for a stale batch that cannot be written and for one that has
not the places. -/
theorem save (h : Counterparts Holds V r r') (stamp : Nat → Stamp) (ht : t.KeepsLists Holds)
    (hlim : config.limits = .none) (expected : Option Nat) (a : Aggregate π σ)
    (hw : WorldsAgree Holds V (log, w) (c, w')) :
    EndsAgree Holds V ((r.onLog stamp).save expected (a, log, w))
      ((r'.onRemote config t).save expected (a, c, w')) ∨
    ∃ n, (StaleUnwritable r expected a log n ∧
      (r.onLog stamp).save expected (a, log, w) =
        (.fail (.concurrency (r.behavior.typeTag a.state) a.id (expected.getD a.version) n),
          (a, log, w)) ∧
      ∃ s, (r'.onRemote config t).save expected (a, c, w') =
        (.fail (.serialization s), (a, c, w'))) ∨
      Overfills r expected a log n := by
  by_cases hp : a.changes = []
  · rw [(r.onLog stamp).save_of_no_changes expected hp,
      (r'.onRemote config t).save_of_no_changes expected hp]
    refine Or.inl ⟨?_, rfl, hw⟩
    rw [(h.mounted stamp config t).namer]
  · rcases hn : r.streamOf a with _ | n
    · rw [(r.onLog stamp).save_of_no_stream expected hn hp,
        (r'.onRemote config t).save_of_no_stream expected ((h.streamOf a).trans hn) hp]
      refine Or.inl ⟨?_, rfl, hw⟩
      have hon := h.mounted stamp config t
      rw [hon.namer, hon.behavior]
    · rw [save_of_streamOf (r.onLog stamp) expected hn hp,
        save_of_streamOf (r'.onRemote config t) expected ((h.streamOf a).trans hn) hp]
      have hs := save_mirrored (κ := κ) (n := n) stamp ht hlim hw.store (outgoing_ne_nil hp)
        (expected.getD a.version) (ordered_commonHeaders (r.behavior.typeTag a.state))
      have hon := h.mounted stamp config t
      rw [hon.behavior]
      rcases hon.answered hw hs with hends | ⟨hstale, hbad, ho, ho'⟩ | ⟨hv, hwritable, hover⟩
      · exact Or.inl hends
      · exact Or.inr ⟨n, Or.inl ⟨⟨hn, hstale, hbad⟩, ho, ho'⟩⟩
      · exact Or.inr ⟨n, Or.inr ⟨hn, hp, ⟨hv, hwritable⟩, hover⟩⟩

theorem handed (h : Counterparts Holds V r r') (stamp : Nat → Stamp) (ht : t.KeepsLists Holds)
    (hlim : config.limits = .none) {expected : Option Nat} {a : Aggregate π σ}
    (hroom : ∀ n, ¬ Overfills r expected a log n) (hw : WorldsAgree Holds V (log, w) (c, w')) :
    ((r'.onRemote config t).handed expected a (c, w')).map (·.1) =
      ((r.onLog stamp).handed expected a (log, w)).map (·.1) := by
  have hseen : WorldsAgree Holds (fun p p' => V p.1 p'.1 ∧ p'.2.map (·.1) = p.2.map (·.1))
      (log, w, ([] : List (EventMessage π × EventLog)))
      (c, w', ([] : List (EventMessage π × Connection ρ))) := ⟨hw.store, hw.world, rfl⟩
  rcases h.observed.save stamp ht hlim expected a hseen with
    hends | ⟨n, ⟨-, ho, s, ho'⟩ | ⟨hn, hp, hacc, hover⟩⟩
  · exact hends.worlds.world.2
  · show ((r'.observed.onRemote config t).save expected (a, c, w', [])).2.2.2.2.map (·.1) =
      ((r.observed.onLog stamp).save expected (a, log, w, [])).2.2.2.2.map (·.1)
    rw [ho, ho']
    rfl
  · exact absurd ⟨hn, hp, hacc, hover⟩ (hroom n)

/-- Loads give the same, but for a stream that the remote end does not know. -/
theorem load (h : Counterparts Holds V r r') (stamp : Nat → Stamp) (ht : t.KeepsLists Holds)
    (hlim : config.limits = .none) (type id : String)
    (hw : WorldsAgree Holds V (log, w) (c, w')) :
    WorldsAgree Holds V ((r.onLog stamp).load type id (log, w)).2
      ((r'.onRemote config t).load type id (c, w')).2 ∧
    (((r'.onRemote config t).load type id (c, w')).1 =
        ((r.onLog stamp).load type id (log, w)).1 ∧
      (∀ a n f, r.prepare type id = .ok (a, n, f) →
        (Streaming.load (κ := κ) config t n c).1 ≠ .fail (.streamNotFound n)) ∨
    ∃ a n f, r.prepare type id = .ok (a, n, f) ∧ log.stream n = [] ∧
      (Streaming.load (κ := κ) config t n c).1 = .fail (.streamNotFound n) ∧
      ((r.onLog stamp).load type id (log, w)).1 = .ok a ∧
      ((r'.onRemote config t).load type id (c, w')).1 = .fail (.aggregateNotFound type id)) := by
  have hprep := h.prepare type id
  rw [load_onLog]
  unfold Repository.load
  rw [show (r'.onRemote config t).prepare type id = r.prepare type id from hprep,
    show (r'.onRemote config t).behavior = r.behavior from h.behavior]
  rcases r.prepare type id with e | ⟨a, n, f⟩
  · exact ⟨hw, Or.inl ⟨rfl, fun _ _ _ h => nomatch h⟩⟩
  · obtain ⟨hm, hread⟩ := Streaming.load_mirrored (κ := κ) ht hlim hw.store n
    simp only [show (r'.onRemote config t).store.load = Streaming.load config t from rfl]
    rcases hl : Streaming.load (κ := κ) config t n c with ⟨out, c'⟩
    rw [hl] at hm hread
    rcases hread with ⟨hout, hnil⟩ | ⟨raws, hout, hraws⟩ <;> obtain rfl : out = _ := hout
    · refine ⟨⟨hm, hw.world⟩, Or.inr ⟨a, n, f, rfl, hnil, by rw [hl], ?_, rfl⟩⟩
      rw [hnil]
      rfl
    · refine ⟨⟨hm, hw.world⟩, Or.inl ⟨replay_mirrored r.behavior f id n hraws a, ?_⟩⟩
      rintro a' n' f' hsame
      obtain ⟨-, rfl, -⟩ := Prod.mk.inj (Except.ok.inj hsame)
      rw [hl]
      exact fun h => nomatch h

end Steps

end Counterparts

end Parts

section Acts

/-- What a caller does. Handles are known by the order in which they were obtained. -/
inductive Act (π σ : Type) where
  | build (a : Aggregate π σ)
  | load (type id : String)
  | change (k : Nat) (f : Aggregate π σ → Aggregate π σ)
  | save (k : Nat) (expected : Option Nat)

inductive Reply (π κ σ : Type) where
  | done
  | noHandle
  | loaded (out : DomainOutcome κ (Aggregate π σ))
  | saved (out : DomainOutcome κ Unit) (published : List (EventMessage π))

/-- The handles of a caller, the store and what the handlers work on. In the place of a handle that
could not be loaded there is none. -/
structure Desk (π σ α β : Type) where
  handles : List (Option (Aggregate π σ))
  store : α
  world : β

namespace Desk

variable (d : Desk π σ α β)

def handle (k : Nat) : Option (Aggregate π σ) := (d.handles[k]?).join

def take (x : Option (Aggregate π σ)) (s : α) (w : β) : Desk π σ α β := ⟨d.handles ++ [x], s, w⟩

def put (k : Nat) (a : Aggregate π σ) (s : α) (w : β) : Desk π σ α β :=
  ⟨d.handles.set k (some a), s, w⟩

theorem handle_take (x : Option (Aggregate π σ)) (s : α) (w : β) (k : Nat) :
    (d.take x s w).handle k = if k = d.handles.length then x else d.handle k := by
  unfold handle take
  grind

theorem handle_put {k : Nat} {old : Aggregate π σ} (hk : d.handle k = some old)
    (a : Aggregate π σ) (s : α) (w : β) (j : Nat) :
    (d.put k a s w).handle j = if j = k then some a else d.handle j := by
  unfold handle put at *
  grind

end Desk

def perform (r : Repository π κ σ α β) :
    Act π σ → Desk π σ α β → Reply π κ σ × Desk π σ α β
  | .build a, d => (.done, d.take (some a) d.store d.world)
  | .load type id, d =>
    let (out, s, w) := r.load type id (d.store, d.world)
    (.loaded out, d.take out.toOption s w)
  | .change k f, d =>
    match d.handle k with
    | none => (.noHandle, d)
    | some a => (.done, d.put k (f a) d.store d.world)
  | .save k expected, d =>
    match d.handle k with
    | none => (.noHandle, d)
    | some a =>
      let (out, a', s, w) := r.save expected (a, d.store, d.world)
      (.saved out ((r.handed expected a (d.store, d.world)).map (·.1)), d.put k a' s w)

def Act.subject : Act π σ → Option Nat
  | .build _ => none
  | .load _ _ => none
  | .change k _ => some k
  | .save k _ => some k

def Act.Common (act : Act π σ) (d : Desk π σ α β) {α' β' : Type} (d' : Desk π σ α' β') : Prop :=
  ∀ k, act.subject = some k → (d'.handle k).isSome = (d.handle k).isSome

/-- No act uses a handle that only one of the runs has. -/
def Usable {α' β' : Type} (r : Repository π κ σ α β) (r' : Repository π κ σ α' β') :
    List (Act π σ) → Desk π σ α β → Desk π σ α' β' → Prop
  | [], _, _ => True
  | act :: acts, d, d' =>
    act.Common d d' ∧ Usable r r' acts (r.perform act d).2 (r'.perform act d').2

end Acts

section Runs

/-- The remote end keeps the records of the log. What the run on it has of handles, the other has
too. -/
structure DesksAgree (Holds : ρ → Holdings → Prop) (d : Desk π σ EventLog β)
    (d' : Desk π σ (Connection ρ) β) : Prop where
  count : d'.handles.length = d.handles.length
  handles : ∀ k, d'.handle k = none ∨ d'.handle k = d.handle k
  store : d.store.MirroredBy Holds d'.store.remote
  world : d'.world = d.world

namespace DesksAgree

variable {Holds : ρ → Holdings → Prop} {d : Desk π σ EventLog β} {d' : Desk π σ (Connection ρ) β}

theorem handle_eq (h : DesksAgree Holds d d') {k : Nat}
    (hk : (d'.handle k).isSome = (d.handle k).isSome) : d'.handle k = d.handle k := by
  rcases h.handles k with hnone | heq
  · rw [hnone] at hk ⊢
    cases hd : d.handle k with
    | none => rfl
    | some a =>
      rw [hd] at hk
      nomatch hk
  · exact heq

theorem take (h : DesksAgree Holds d d') {x x' : Option (Aggregate π σ)} (hx : x' = none ∨ x' = x)
    {log : EventLog} {c : Connection ρ} {w w' : β}
    (hw : WorldsAgree Holds (fun w w' => w' = w) (log, w) (c, w')) :
    DesksAgree Holds (d.take x log w) (d'.take x' c w') where
  count := by
    unfold Desk.take
    rw [List.length_append, List.length_append, h.count]
    rfl
  handles k := by
    rw [d.handle_take, d'.handle_take, h.count]
    split
    · exact hx
    · exact h.handles k
  store := hw.store
  world := hw.world

theorem put (h : DesksAgree Holds d d') {k : Nat} {old : Aggregate π σ}
    (hk : d.handle k = some old) (hk' : d'.handle k = some old) (a : Aggregate π σ)
    {log : EventLog} {c : Connection ρ} {w w' : β}
    (hw : WorldsAgree Holds (fun w w' => w' = w) (log, w) (c, w')) :
    DesksAgree Holds (d.put k a log w) (d'.put k a c w') where
  count := by
    unfold Desk.put
    rw [List.length_set, List.length_set, h.count]
  handles j := by
    rw [d.handle_put hk, d'.handle_put hk']
    split
    · exact Or.inr rfl
    · exact h.handles j
  store := hw.store
  world := hw.world

theorem worlds (h : DesksAgree Holds d d') :
    WorldsAgree Holds (fun w w' => w' = w) (d.store, d.world) (d'.store, d'.world) :=
  ⟨h.store, h.world⟩

theorem start {x : ρ} (hx : Holds x fun _ => none) (clock : Clock) (w : β) :
    DesksAgree (π := π) (σ := σ) Holds ⟨[], .empty, w⟩ ⟨[], ⟨x, clock⟩, w⟩ where
  count := rfl
  handles _ := Or.inl rfl
  store := ⟨_, hx, fun _ => Along.nil⟩
  world := rfl

end DesksAgree

variable [EventPayload π]

/-- What is answered on the log and on the remote end: the same, unless a stream that was never
written is loaded from a remote end that does not know it, or a stale batch that cannot be written
is saved. -/
inductive Answers (r : Repository π κ σ EventLog β) (r' : Repository π κ σ (Connection ρ) β)
    (d : Desk π σ EventLog β) (d' : Desk π σ (Connection ρ) β) :
    Act π σ → Reply π κ σ → Reply π κ σ → Prop
  | same {act reply} : (∀ type id, act ≠ .load type id) → Answers r r' d d' act reply reply
  | known {type id out} : (∀ a n f, r.prepare type id = .ok (a, n, f) →
      (r'.store.load n d'.store).1 ≠ .fail (.streamNotFound n)) →
      Answers r r' d d' (.load type id) (.loaded out) (.loaded out)
  | unknown {type id a n f} : r.prepare type id = .ok (a, n, f) → d.store.stream n = [] →
      (r'.store.load n d'.store).1 = .fail (.streamNotFound n) →
      Answers r r' d d' (.load type id) (.loaded (.ok a))
        (.loaded (.fail (.aggregateNotFound type id)))
  | staleUnwritable {k expected a n s} : d.handle k = some a →
      StaleUnwritable r expected a d.store n →
      Answers r r' d d' (.save k expected)
        (.saved (.fail (.concurrency (r.behavior.typeTag a.state) a.id (expected.getD a.version) n))
          [])
        (.saved (.fail (.serialization s)) [])

/-- An act on the log that aborts since a stream would be longer than can be counted. -/
inductive Aborts (r : Repository π κ σ EventLog β) (d : Desk π σ EventLog β) :
    Act π σ → Reply π κ σ → Prop
  | overfull {k expected a n} : d.handle k = some a → Overfills r expected a d.store n →
      Aborts r d (.save k expected) (.saved (.error (.overflow .addition)) [])

/-- The two runs agree before and after each act, and in what is answered, until the one on the log
aborts. -/
def InLockstep (Holds : ρ → Holdings → Prop) (r : Repository π κ σ EventLog β)
    (r' : Repository π κ σ (Connection ρ) β) :
    List (Act π σ) → Desk π σ EventLog β → Desk π σ (Connection ρ) β → Prop
  | [], d, d' => DesksAgree Holds d d'
  | act :: acts, d, d' => DesksAgree Holds d d' ∧ (Aborts r d act (r.perform act d).1 ∨
    Answers r r' d d' act (r.perform act d).1 (r'.perform act d').1 ∧
    InLockstep Holds r r' acts (r.perform act d).2 (r'.perform act d').2)

variable {Holds : ρ → Holdings → Prop} {r : Repository π κ σ EventLog β}
  {r' : Repository π κ σ (Connection ρ) β} {t : Transport ρ} {config : StreamingConfig}
  {d : Desk π σ EventLog β} {d' : Desk π σ (Connection ρ) β}

theorem perform_save_agree (h : Counterparts Holds (fun w w' => w' = w) r r')
    (stamp : Nat → Stamp) (ht : t.KeepsLists Holds) (hlim : config.limits = .none)
    (hd : DesksAgree Holds d d') {k : Nat} {a : Aggregate π σ} (hk : d.handle k = some a)
    (hk' : d'.handle k = some a) (expected : Option Nat) :
    let act : Act π σ := .save k expected
    Aborts (r.onLog stamp) d act ((r.onLog stamp).perform act d).1 ∨
    Answers (r.onLog stamp) (r'.onRemote config t) d d' act
        ((r.onLog stamp).perform act d).1 ((r'.onRemote config t).perform act d').1 ∧
      DesksAgree Holds ((r.onLog stamp).perform act d).2
        ((r'.onRemote config t).perform act d').2 := by
  simp only [perform, hk, hk']
  by_cases hroom : ∀ n, ¬ Overfills r expected a d.store n
  · right
    rcases h.save stamp ht hlim expected a hd.worlds with hends | ⟨n, ⟨hsu, ho, s, ho'⟩ | hover⟩
    · rw [h.handed stamp ht hlim hroom hd.worlds, hends.outcome, hends.aggregate]
      exact ⟨.same nofun, hd.put hk hk' _ hends.worlds⟩
    · have hnone : (r.onLog stamp).handed expected a (d.store, d.world) = [] :=
        handed_of_refused ⟨_, congrArg Prod.fst ho⟩
      have hnone' : (r'.onRemote config t).handed expected a (d'.store, d'.world) = [] :=
        handed_of_refused ⟨_, congrArg Prod.fst ho'⟩
      rw [ho, ho', hnone, hnone']
      exact ⟨.staleUnwritable hk ⟨hsu.stream, hsu.stale, hsu.unwritable⟩, hd.put hk hk' a hd.worlds⟩
    · exact absurd hover (hroom n)
  · left
    obtain ⟨n, hover⟩ : ∃ n, Overfills r expected a d.store n := by
      simpa only [not_forall, not_not] using hroom
    rw [hover.save_eq stamp d.world, hover.handed_eq_nil stamp d.world]
    exact .overfull hk ⟨hover.stream, hover.changes, hover.accepts, hover.full⟩

/-- One act on each side: the answers agree, and so do the desks afterwards, unless it aborts. -/
theorem perform_agree (h : Counterparts Holds (fun w w' => w' = w) r r') (stamp : Nat → Stamp)
    (ht : t.KeepsLists Holds) (hlim : config.limits = .none) (act : Act π σ)
    (hd : DesksAgree Holds d d') (hact : act.Common d d') :
    Aborts (r.onLog stamp) d act ((r.onLog stamp).perform act d).1 ∨
    Answers (r.onLog stamp) (r'.onRemote config t) d d' act
        ((r.onLog stamp).perform act d).1 ((r'.onRemote config t).perform act d').1 ∧
      DesksAgree Holds ((r.onLog stamp).perform act d).2
        ((r'.onRemote config t).perform act d').2 := by
  cases act with
  | build a => exact Or.inr ⟨.same nofun, hd.take (Or.inr rfl) hd.worlds⟩
  | load type id =>
    obtain ⟨hw, hends⟩ := h.load stamp ht hlim type id hd.worlds
    simp only [perform]
    rcases hends with ⟨hout, hknown⟩ | ⟨a, n, f, hp, hnil, hunknown, hout, hout'⟩
    · rw [hout]
      exact Or.inr ⟨.known hknown, hd.take (Or.inr rfl) hw⟩
    · rw [hout, hout']
      exact Or.inr ⟨.unknown hp hnil hunknown, hd.take (Or.inl rfl) hw⟩
  | change k f =>
    have hk' := hd.handle_eq (hact k rfl)
    simp only [perform, hk']
    rcases hk : d.handle k with _ | a
    · exact Or.inr ⟨.same nofun, hd⟩
    · exact Or.inr ⟨.same nofun, hd.put hk (hk'.trans hk) (f a) hd.worlds⟩
  | save k expected =>
    have hk' := hd.handle_eq (hact k rfl)
    rcases hk : d.handle k with _ | a
    · simp only [perform, hk', hk]
      exact Or.inr ⟨.same nofun, hd⟩
    · exact perform_save_agree h stamp ht hlim hd hk (hk'.trans hk) expected

theorem lockstep_of_agree (h : Counterparts Holds (fun w w' => w' = w) r r') (stamp : Nat → Stamp)
    (ht : t.KeepsLists Holds) (hlim : config.limits = .none) (acts : List (Act π σ))
    (hd : DesksAgree Holds d d')
    (hused : Usable (r.onLog stamp) (r'.onRemote config t) acts d d') :
    InLockstep Holds (r.onLog stamp) (r'.onRemote config t) acts d d' := by
  induction acts generalizing d d' with
  | nil => exact hd
  | cons act acts ih =>
    obtain ⟨hact, hrest⟩ := hused
    refine ⟨hd, ?_⟩
    rcases perform_agree h stamp ht hlim act hd hact with haborts | ⟨hanswers, hnext⟩
    · exact Or.inl haborts
    · exact Or.inr ⟨hanswers, ih hnext hrest⟩

/-- From an empty log and a remote end that keeps lists and holds nothing yet, the two runs of a
caller agree step by step: in what is answered, in the records that are stored and in the events
that are handed over. Only a stream that would be longer than can be counted ends this: then the log
aborts, with nothing stored or handed over. -/
theorem remote_refines_log (h : Counterparts Holds (fun w w' => w' = w) r r') (stamp : Nat → Stamp)
    (ht : t.KeepsLists Holds) (hlim : config.limits = .none) {x : ρ} (hx : Holds x fun _ => none)
    (clock : Clock) (w : β) (acts : List (Act π σ))
    (hused : Usable (r.onLog stamp) (r'.onRemote config t) acts
      ⟨[], .empty, w⟩ ⟨[], ⟨x, clock⟩, w⟩) :
    InLockstep Holds (r.onLog stamp) (r'.onRemote config t) acts
      ⟨[], .empty, w⟩ ⟨[], ⟨x, clock⟩, w⟩ :=
  lockstep_of_agree h stamp ht hlim acts (DesksAgree.start hx clock w) hused

end Runs

theorem counterparts_onStore {Holds : ρ → Holdings → Prop} {r : Repository π κ σ EventLog β}
    {handle : EventMessage π → Action β (DomainError κ) Unit}
    (hpub : ∀ e log w, r.publish e (log, w) = ((handle e w).1, (log, (handle e w).2)))
    (store : EventStore π κ (Connection ρ)) :
    Counterparts Holds (fun w w' => w' = w) r (r.onStore handle store) where
  behavior := rfl
  aggregates := rfl
  namer := rfl
  events := rfl
  publish e := by
    rintro ⟨log, w⟩ ⟨c, w'⟩ ⟨hstore, rfl⟩
    rw [hpub]
    exact ⟨rfl, hstore, rfl⟩

/-- The first load shows the one difference: the remote end does not know bolts yet. -/
theorem remote_refines_log_bolts :
    let r := Inventory.App.repository fun _ => ⟨"", .epoch⟩
    let r' := Inventory.App.repositoryOn (Streaming.store ⟨.none, 8⟩ Remote.transport)
    let bolts : Aggregate Inventory.Event Inventory.Item :=
      ⟨⟨"bolts", 0, [.new "bolts" (.created "bolt")]⟩, ⟨true, 0⟩⟩
    let load : Act Inventory.Event Inventory.Item := .load "InventoryItem" "bolts"
    let acts := [load, .build bolts, .save 1 none, load]
    let d : Desk Inventory.Event Inventory.Item EventLog Inventory.View := ⟨[], .empty, .empty⟩
    let d' : Desk Inventory.Event Inventory.Item (Connection Remote) Inventory.View :=
      ⟨[], ⟨.empty, .start⟩, .empty⟩
    (r.perform load d).1 = .loaded (.ok (Inventory.Item.new "bolts")) ∧
      (r'.perform load d').1 =
        .loaded (.fail (.aggregateNotFound "InventoryItem" "bolts")) ∧
      Usable r r' acts d d' ∧ InLockstep Remote.Holds r r' acts d d' := by
  intro r r' bolts load acts d d'
  have hused : Usable r r' acts d d' := by
    refine ⟨nofun, nofun, fun k hk => ?_, nofun, trivial⟩
    obtain rfl := Option.some.inj hk
    rfl
  have hparts : Counterparts Remote.Holds (fun w w' => w' = w) r r' :=
    counterparts_onStore Inventory.App.publish_eq _
  refine ⟨rfl, rfl, hused, ?_⟩
  show InLockstep Remote.Holds (r.onLog fun _ => ⟨"", .epoch⟩)
    (r'.onRemote ⟨.none, 8⟩ Remote.transport) acts d d'
  exact remote_refines_log hparts (fun _ => ⟨"", .epoch⟩) Remote.keepsLists rfl
    ⟨rfl, fun _ => rfl⟩ .start .empty acts hused

end Repository

end EventSourcing
