import EventSourcing.Inventory.App
import EventSourcing.Proofs.Saving
import EventSourcing.Store.Streaming

/-!
The store on a remote end, call by call. A load hands on the items of the feed up to the first
failure, which ends it; a save is settled by the answer to its one append. Events are sent as what
their records would hold.
-/

namespace EventSourcing

variable {π κ ρ : Type}

namespace DomainError

/-- The answers of a store that are not meant for the callers of a repository. -/
def StoreLevel : DomainError κ → Prop
  | .versionConflict .. | .noEventsToAppend | .noEventsFound _ | .streamNotFound _ => True
  | _ => False

end DomainError

def Record.sent (r : Record) : OutgoingEvent := ⟨r.eventType, r.payload, r.headers⟩

namespace Streaming

section Reading

variable {limits : WaitLimits} {n : String} {stalls : Bool}

/-- Every item comes before a time limit strikes and before the wait is cancelled. -/
def Arrives (limits : WaitLimits) : List (Duration × ReadItem) → Clock → Prop
  | [], _ => True
  | (delay, _) :: rest, clock =>
    (clock.await limits (some delay)).1 = .ready ∧
      Arrives limits rest (clock.await limits (some delay)).2

theorem arrives_unlimited (items : List (Duration × ReadItem)) (clock : Clock) :
    Arrives .none items clock := by
  induction items generalizing clock with
  | nil => trivial
  | cons i rest ih => exact ⟨rfl, ih _⟩

theorem drain_cons {delay : Duration} {item : ReadItem} {rest : List (Duration × ReadItem)}
    {clock : Clock} (h : (clock.await limits (some delay)).1 = .ready) :
    (drain (κ := κ) limits n stalls ((delay, item) :: rest) clock).1 =
      match item with
      | .error e => .fail (errorFor n none e)
      | .ok (raw, response) =>
        (drain limits n stalls rest (clock.await limits (some delay)).2).1.map
          (recordOf n raw response :: ·) := by
  simp only [drain]
  rcases hw : clock.await limits (some delay) with ⟨ending, clock'⟩
  rw [hw] at h
  obtain rfl : ending = .ready := h
  rcases item with e | ⟨raw, response⟩
  · rfl
  · dsimp only
    rcases drain limits n stalls rest clock' with ⟨_ | _, _⟩ <;> rfl

/-- What was read before the first failure does not matter. -/
theorem drain_of_failure {before after : List (Duration × ReadItem)} {delay : Duration}
    {e : TransportError} {clock : Clock} (hok : ∀ i ∈ before, ∃ r, i.2 = .ok r)
    (harr : Arrives limits (before ++ [(delay, .error e)]) clock) :
    (drain (κ := κ) limits n stalls (before ++ (delay, .error e) :: after) clock).1 =
      .fail (errorFor n none e) := by
  induction before generalizing clock with
  | nil => exact drain_cons harr.1
  | cons i before ih =>
    obtain ⟨⟨r, hr⟩, hrest⟩ := List.forall_mem_cons.1 hok
    obtain ⟨d, item⟩ := i
    obtain rfl : item = .ok r := hr
    rw [List.cons_append, drain_cons harr.1, ih hrest harr.2]
    rfl

/-- Without limits a feed that closes is read to its end. -/
theorem drain_of_closed {arrived : List (RawRecord × Headers)} {items : List (Duration × ReadItem)}
    (h : items.map (·.2) = arrived.map .ok) (clock : Clock) :
    (drain (κ := κ) .none n false items clock).1 =
      .ok (arrived.map fun r => recordOf n r.1 r.2) := by
  induction items generalizing arrived clock with
  | nil =>
    obtain rfl := List.map_eq_nil_iff.1 h.symm
    rfl
  | cons i rest ih =>
    obtain ⟨delay, item⟩ := i
    cases arrived with
    | nil => nomatch h
    | cons r arrived =>
      obtain ⟨rfl, hrest⟩ := List.cons_eq_cons.1 h
      rw [drain_cons rfl, ih hrest]
      rfl

theorem settle_of_not_ready {α : Type} {value : DomainOutcome κ α} {ending : WaitEnd}
    {err : DomainError κ} (hend : ending ≠ .ready) (h : settle value ending = .fail err) :
    ∃ reason, err = .repositoryUnavailable reason := by
  cases ending with
  | ready => exact absurd rfl hend
  | timedOut limit => cases h; exact ⟨_, rfl⟩
  | cancelled => cases h; exact ⟨_, rfl⟩
  | never => nomatch h

theorem drain_of_not_ready {delay : Duration} {item : ReadItem}
    {rest : List (Duration × ReadItem)} {clock : Clock}
    (h : (clock.await limits (some delay)).1 ≠ .ready) :
    drain (κ := κ) limits n stalls ((delay, item) :: rest) clock =
      (settle (.ok []) (clock.await limits (some delay)).1,
        (clock.await limits (some delay)).2) := by
  simp only [drain]

theorem drain_error {items : List (Duration × ReadItem)} {clock : Clock} {err : DomainError κ}
    (h : (drain limits n stalls items clock).1 = .fail err) :
    (∃ e, err = errorFor n none e) ∨ ∃ reason, err = .repositoryUnavailable reason := by
  induction items generalizing clock with
  | nil =>
    simp only [drain] at h
    by_cases hend : (clock.await limits (if stalls then none else some ⟨0⟩)).1 = .ready
    · rw [hend] at h
      nomatch h
    · exact Or.inr (settle_of_not_ready hend h)
  | cons i rest ih =>
    obtain ⟨delay, item⟩ := i
    by_cases hend : (clock.await limits (some delay)).1 = .ready
    · rw [drain_cons hend] at h
      rcases item with e | ⟨raw, response⟩
      · exact Or.inl ⟨e, (Fault.error.inj (Except.error.inj h)).symm⟩
      · rcases hd : (drain (κ := κ) limits n stalls rest (clock.await limits (some delay)).2).1 with
          f | records
        · simp only [hd] at h
          exact ih (hd.trans h)
        · simp only [hd] at h
          nomatch h
    · rw [drain_of_not_ready hend] at h
      exact Or.inr (settle_of_not_ready hend h)

end Reading

section Sending

variable [EventPayload π]

/-- What is sent of an event. Its own headers win over the common ones. -/
structure SentAs (common : Headers) (e : EventMessage π) (sent : OutgoingEvent) : Prop where
  eventType : sent.eventType = e.eventType
  payload : EventPayload.encode e.payload = .ok sent.payload
  header : ∀ key, sent.headers.get? key = (e.header key).or (common.get? key)

theorem outgoingAll_of_writable (common : Headers) {es : List (EventMessage π)}
    (h : ∀ e ∈ es, Record.Writable e) :
    ∃ sent, outgoingAll common es = .ok sent ∧ List.Forall₂ (SentAs common) es sent := by
  induction es with
  | nil => exact ⟨[], rfl, .nil⟩
  | cons e es ih =>
    obtain ⟨⟨j, hj⟩, hes⟩ := List.forall_mem_cons.1 h
    obtain ⟨sent, hsent, hall⟩ := ih hes
    refine ⟨⟨e.eventType, j, common.overlay e.headers⟩ :: sent, ?_,
      .cons ⟨rfl, hj, Headers.get?_overlay common e.headers⟩ hall⟩
    simp only [outgoingAll, outgoing, hj, hsent]
    rfl

theorem outgoingAll_of_first {before : List (EventMessage π)} {bad : EventMessage π} {s : String}
    (hw : ∀ e ∈ before, Record.Writable e) (hs : EventPayload.encode bad.payload = .error s)
    (after : List (EventMessage π)) (common : Headers) :
    outgoingAll common (before ++ bad :: after) = .error s := by
  induction before with
  | nil =>
    simp only [List.nil_append, outgoingAll, outgoing, hs]
    rfl
  | cons e before ih =>
    obtain ⟨⟨j, hj⟩, hrest⟩ := List.forall_mem_cons.1 hw
    simp only [List.cons_append, outgoingAll, outgoing, hj, ih hrest]
    rfl

theorem outgoingAll_of_batch {n : String} {common : Headers} {p : Nat} {es : List (EventMessage π)}
    {rs : List Record} (h : Record.Batch n common p es rs) :
    outgoingAll common es = .ok (rs.map Record.sent) := by
  induction h with
  | nil => rfl
  | @cons p e r es rs hr _ ih =>
    simp only [outgoingAll, outgoing, hr.payload, ih, List.map_cons, Record.sent, hr.eventType,
      hr.headers]
    rfl

variable {config : StreamingConfig} {t : Transport ρ} {n : String} {es : List (EventMessage π)}
  {expected : Option Nat} {common : Headers} {c : Connection ρ} {sent : List OutgoingEvent}

def waited (config : StreamingConfig) (t : Transport ρ) (n : String) (expected : Option Nat)
    (sent : List OutgoingEvent) (c : Connection ρ) : WaitEnd × Clock :=
  c.clock.await config.limits (some (t.append n expected sent c.remote).delay)

theorem save_of_unwritable {s : String} (hne : es ≠ []) (h : outgoingAll common es = .error s) :
    save (κ := κ) config t n es expected common c = (.fail (.serialization s), c) := by
  cases es with
  | nil => exact absurd rfl hne
  | cons e es => simp only [save, h]

theorem save_of_ready (hne : es ≠ []) (h : outgoingAll common es = .ok sent)
    (hw : (waited config t n expected sent c).1 = .ready) :
    save (κ := κ) config t n es expected common c =
      ((t.append n expected sent c.remote).answer.mapError
          (Fault.error ∘ errorFor n expected),
        ⟨(t.append n expected sent c.remote).remote, (waited config t n expected sent c).2⟩) := by
  cases es with
  | nil => exact absurd rfl hne
  | cons e es =>
    simp only [save, h]
    unfold waited at hw ⊢
    rcases hwait : c.clock.await config.limits
      (some (t.append n expected sent c.remote).delay) with ⟨ending, clock⟩
    rw [hwait] at hw
    obtain rfl : ending = .ready := hw
    dsimp only
    rcases (t.append n expected sent c.remote).answer with e | _ <;> rfl

/-- An append that is given up has not happened. -/
theorem save_of_not_ready (hne : es ≠ []) (h : outgoingAll common es = .ok sent)
    (hw : (waited config t n expected sent c).1 ≠ .ready) :
    save (κ := κ) config t n es expected common c =
      (settle (.ok ()) (waited config t n expected sent c).1,
        ⟨c.remote, (waited config t n expected sent c).2⟩) := by
  cases es with
  | nil => exact absurd rfl hne
  | cons e es =>
    simp only [save, h]
    unfold waited at hw ⊢
    rcases hwait : c.clock.await config.limits
      (some (t.append n expected sent c.remote).delay) with ⟨_ | _ | _ | _, clock⟩
    · rw [hwait] at hw
      exact absurd rfl hw
    · rfl
    · rfl
    · rfl

end Sending

end Streaming

namespace Repository

variable {σ α β γ : Type}

/-- The same repository on another store, for handlers that do not look at the store. -/
def onStore (r : Repository π κ σ α β) (handle : EventMessage π → Action β (DomainError κ) Unit)
    (store : EventStore π κ γ) : Repository π κ σ γ β where
  behavior := r.behavior
  store := store
  publish e := fun (s, w) =>
    let (out, w) := handle e w
    (out, (s, w))
  aggregates := r.aggregates
  namer := r.namer
  events := r.events

def onRemote [EventPayload π] (r : Repository π κ σ (Connection ρ) β) (config : StreamingConfig)
    (t : Transport ρ) : Repository π κ σ (Connection ρ) β :=
  { r with store := Streaming.store config t }

end Repository

def Inventory.App.repositoryOn {α : Type} (store : EventStore Event Command α) :
    Repository Event Command Item α View :=
  (repository fun _ => ⟨"", .epoch⟩).onStore (Bus.publish (fun _ => bus) fun _ => View.handle) store

end EventSourcing
