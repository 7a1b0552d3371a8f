import EventSourcing.Proofs.Publication
import EventSourcing.Proofs.RemoteStore
import EventSourcing.Proofs.Replay

/-!
What the callers of a repository on a remote end are told when it fails. Loading never lets out an
answer that is meant for the repository alone. Saving lets out one of them: that the stream an
append was for is not there. A save that fails leaves all but the connection as it was.
-/

namespace EventSourcing

variable {π κ σ α β ρ : Type}

/-- How a failure of the remote end is told; `missing` tells that the stream is not there,
`conflict` that an append was refused for the version. -/
def DomainError.ofFailure (missing : DomainError κ) (conflict : String → DomainError κ) :
    TransportError → DomainError κ
  | .notFound => missing
  | .unauthorized => .unauthorized
  | .unavailable reason => .repositoryUnavailable reason
  | .network reason => .repositoryUnavailable reason
  | .conflict reason => conflict reason
  | .status code message => .unexpected (.transport (.status code message))

namespace Streaming

section Reading

variable {config : StreamingConfig} {t : Transport ρ} {n : String} {c : Connection ρ}
  {e : TransportError}

def ReadFails (config : StreamingConfig) (t : Transport ρ) (n : String) (c : Connection ρ)
    (e : TransportError) : Prop :=
  ∃ before delay after,
    (t.read n (max config.capacity 1) c.remote).1.items = before ++ (delay, .error e) :: after ∧
    (∀ i ∈ before, ∃ r, i.2 = .ok r) ∧ Arrives config.limits (before ++ [(delay, .error e)]) c.clock

theorem load_of_readFails (h : ReadFails config t n c e) :
    (load (κ := κ) config t n c).1 = .fail (errorFor n none e) := by
  obtain ⟨before, delay, after, hitems, hok, harr⟩ := h
  unfold load
  dsimp only
  rw [hitems]
  exact drain_of_failure hok harr

theorem load_error {err : DomainError κ} (h : (load config t n c).1 = .fail err) :
    (∃ e, err = errorFor n none e) ∨ ∃ reason, err = .repositoryUnavailable reason := drain_error h

end Reading

section Sending

variable [EventPayload π] {config : StreamingConfig} {t : Transport ρ} {n : String}
  {es : List (EventMessage π)} {expected : Option Nat} {common : Headers} {c : Connection ρ}
  {e : TransportError}

def AppendFails (config : StreamingConfig) (t : Transport ρ) (n : String)
    (es : List (EventMessage π)) (expected : Option Nat) (common : Headers) (c : Connection ρ)
    (e : TransportError) : Prop :=
  ∃ sent, outgoingAll common es = .ok sent ∧ (waited config t n expected sent c).1 = .ready ∧
    (t.append n expected sent c.remote).answer = .error e

theorem save_of_appendFails (hne : es ≠ []) (h : AppendFails config t n es expected common c e) :
    (save (κ := κ) config t n es expected common c).1 = .fail (errorFor n expected e) := by
  obtain ⟨sent, hsent, hw, hans⟩ := h
  rw [save_of_ready hne hsent hw, hans]
  rfl

theorem save_error (hne : es ≠ []) {err : DomainError κ}
    (h : (save config t n es expected common c).1 = .fail err) :
    (∃ s, err = .serialization s) ∨ (∃ reason, err = .repositoryUnavailable reason) ∨
      ∃ e, AppendFails config t n es expected common c e ∧ err = errorFor n expected e := by
  rcases hsent : outgoingAll common es with s | sent
  · rw [save_of_unwritable hne hsent] at h
    exact Or.inl ⟨s, (Fault.error.inj (Except.error.inj h)).symm⟩
  · right
    by_cases hw : (waited config t n expected sent c).1 = .ready
    · rw [save_of_ready hne hsent hw] at h
      rcases hans : (t.append n expected sent c.remote).answer with e | _
      · rw [hans] at h
        exact Or.inr ⟨e, ⟨sent, hsent, hw, hans⟩, (Fault.error.inj (Except.error.inj h)).symm⟩
      · rw [hans] at h
        nomatch h
    · rw [save_of_not_ready hne hsent hw] at h
      exact Or.inl (settle_of_not_ready hw h)

end Sending

end Streaming

namespace Repository

section Loading

theorem prepare_error {r : Repository π κ σ α β} {type id : String} {err : DomainError κ}
    (h : r.prepare type id = .error err) : ¬ err.StoreLevel := by
  have hconf : err.isConfiguration = true := prepare_error_isConfiguration h
  intro hs
  cases err <;> simp only [DomainError.isConfiguration, DomainError.StoreLevel] at hconf hs <;>
    contradiction

theorem replay_error {b : Behavior π κ σ} {f : EventFactory π} {id : String} {rs : List Record}
    {a : Aggregate π σ} {err : DomainError κ} (h : replay b f id rs a = .fail err) :
    ¬ err.StoreLevel := by
  rcases replay_fail b f id h with ⟨type, rfl⟩ | ⟨s, rfl⟩
  · exact fun hs => hs
  · exact fun hs => hs

end Loading

section OnRemote

variable [EventPayload π] (r : Repository π κ σ (Connection ρ) β) {config : StreamingConfig}
  {t : Transport ρ} {n : String} {c : Connection ρ} {e : TransportError} {w : β}

theorem load_of_readFails {type id : String} {a : Aggregate π σ} {f : EventFactory π}
    (hp : r.prepare type id = .ok (a, n, f)) (h : Streaming.ReadFails config t n c e) :
    ((r.onRemote config t).load type id (c, w)).1 = .fail (.ofFailure (.aggregateNotFound type id)
      (fun reason => .unexpected (.transport (.conflict reason))) e) := by
  have hload := Streaming.load_of_readFails (κ := κ) h
  unfold load
  simp only [show (r.onRemote config t).prepare type id = .ok (a, n, f) from hp,
    show (r.onRemote config t).store.load n c = Streaming.load config t n c from rfl]
  rcases hl : Streaming.load (κ := κ) config t n c with ⟨out, c'⟩
  rw [hl] at hload
  obtain rfl : out = .fail (Streaming.errorFor n none e) := hload
  cases e <;> rfl

theorem load_error {type id : String} {err : DomainError κ} {w : Connection ρ × β}
    (h : ((r.onRemote config t).load type id w).1 = .fail err) : ¬ err.StoreLevel := by
  obtain ⟨c, w⟩ := w
  unfold load at h
  rcases hp : (r.onRemote config t).prepare type id with e | ⟨a, n, f⟩
  · simp only [hp] at h
    obtain rfl := Fault.error.inj (Except.error.inj h)
    exact prepare_error hp
  · simp only [hp, show (r.onRemote config t).store.load n c = Streaming.load config t n c from rfl]
      at h
    rcases hl : Streaming.load (κ := κ) config t n c with ⟨(e | _ | _) | records, c'⟩
    · rw [hl] at h
      rcases Streaming.load_error (congrArg Prod.fst hl) with ⟨e', rfl⟩ | ⟨reason, rfl⟩
      · cases e' <;> cases h <;> exact fun hs => hs
      · cases h
        exact fun hs => hs
    · rw [hl] at h
      nomatch h
    · rw [hl] at h
      nomatch h
    · rw [hl] at h
      exact replay_error h

variable {expected : Option Nat} {a : Aggregate π σ}

theorem save_of_appendFails (hn : r.streamOf a = some n) (hp : a.changes ≠ [])
    (h : Streaming.AppendFails config t n (outgoing a) (some (expected.getD a.version))
      (commonHeaders (r.behavior.typeTag a.state)) c e) :
    ((r.onRemote config t).save expected (a, c, w)).1 = .fail (.ofFailure (.streamNotFound n)
      (fun _ => .concurrency (r.behavior.typeTag a.state) a.id (expected.getD a.version) n) e) := by
  have hsave := Streaming.save_of_appendFails (κ := κ) (outgoing_ne_nil hp) h
  rw [save_of_streamOf (r.onRemote config t) expected hn hp]
  simp only [onRemote, Streaming.store]
  rcases hs : Streaming.save (κ := κ) config t n (outgoing a) (some (expected.getD a.version))
    (commonHeaders (r.behavior.typeTag a.state)) c with ⟨out, c'⟩
  rw [hs] at hsave
  obtain rfl : out = .fail (Streaming.errorFor n (some (expected.getD a.version)) e) := hsave
  cases e <;> rfl

/-- One store-level answer gets out of a save, and only when the remote end does not know the
stream. -/
theorem save_error {err : DomainError κ}
    (h : ((r.onRemote config t).save expected (a, c, w)).1 = .fail err) (hs : err.StoreLevel) :
    ∃ n, err = .streamNotFound n ∧ r.streamOf a = some n ∧
      Streaming.AppendFails config t n (outgoing a) (some (expected.getD a.version))
        (commonHeaders (r.behavior.typeTag a.state)) c .notFound := by
  by_cases hp : a.changes = []
  · rw [save_of_no_changes _ expected hp] at h
    dsimp only at h
    split at h
    · nomatch h
    · cases h
      exact hs.elim
  · rcases hn : r.streamOf a with _ | n
    · rw [save_of_no_stream (r.onRemote config t) expected hn hp] at h
      dsimp only at h
      split at h
      all_goals
        cases h
        exact hs.elim
    · rw [save_of_streamOf (r.onRemote config t) expected hn hp] at h
      simp only [onRemote, Streaming.store] at h
      rcases ht : Streaming.save (κ := κ) config t n (outgoing a) (some (expected.getD a.version))
        (commonHeaders (r.behavior.typeTag a.state)) c with ⟨(e | _ | _) | _, c'⟩ <;> rw [ht] at h
      · rcases Streaming.save_error (outgoing_ne_nil hp) (congrArg Prod.fst ht) with
          ⟨s, rfl⟩ | ⟨reason, rfl⟩ | ⟨e', hfails, rfl⟩
        · cases h
          exact hs.elim
        · cases h
          exact hs.elim
        · cases e' <;> cases h
          · exact ⟨n, rfl, rfl, hfails⟩
          all_goals exact hs.elim
      · nomatch h
      · nomatch h
      · exact absurd ⟨err, h⟩ (finish_not_refused _ _ _ _)

/-- What comes of a failure of the remote end. Loading tells of it by its kind and lets out no
answer meant for the repository alone. So does saving, which changes nothing and hands over nothing,
but for a stream that is not there: there the store's own answer gets out, and only there. -/
theorem remote_failures (r : Repository π κ σ (Connection ρ) β) (config : StreamingConfig)
    (t : Transport ρ) :
    (∀ type id a n f c w e, r.prepare type id = .ok (a, n, f) →
      Streaming.ReadFails config t n c e →
      ((r.onRemote config t).load type id (c, w)).1 = .fail (.ofFailure (.aggregateNotFound type id)
        (fun reason => .unexpected (.transport (.conflict reason))) e)) ∧
    (∀ type id w err, ((r.onRemote config t).load type id w).1 = .fail err → ¬ err.StoreLevel) ∧
    (∀ expected a n c w e, r.streamOf a = some n → a.changes ≠ [] →
      Streaming.AppendFails config t n (outgoing a) (some (expected.getD a.version))
        (commonHeaders (r.behavior.typeTag a.state)) c e →
      let saved := (r.onRemote config t).save expected (a, c, w)
      let conflict := DomainError.concurrency (r.behavior.typeTag a.state) a.id
        (expected.getD a.version) n
      saved.1 = .fail (.ofFailure (.streamNotFound n) (fun _ => conflict) e) ∧
      (saved.1 = .fail (.ofFailure (.aggregateNotFound (r.behavior.typeTag a.state) a.id)
        (fun _ => conflict) e) ↔ e ≠ .notFound) ∧
      saved.2.1 = a ∧ saved.2.2.2 = w ∧ (r.onRemote config t).handed expected a (c, w) = []) ∧
    (∀ expected a c w err, ((r.onRemote config t).save expected (a, c, w)).1 = .fail err →
      err.StoreLevel → ∃ n, err = .streamNotFound n ∧ r.streamOf a = some n ∧
        Streaming.AppendFails config t n (outgoing a) (some (expected.getD a.version))
          (commonHeaders (r.behavior.typeTag a.state)) c .notFound) := by
  refine ⟨fun type id a n f c w e hp h => r.load_of_readFails hp h,
    fun type id w err h => r.load_error h, ?_, fun expected a c w err h hs => r.save_error h hs⟩
  intro expected a n c w e hn hp h saved conflict
  have hsave : saved.1 = .fail (.ofFailure (.streamNotFound n) (fun _ => conflict) e) :=
    r.save_of_appendFails hn hp h
  have hrefused : saved.1.Refused := ⟨_, hsave⟩
  obtain ⟨ha, hw⟩ := (r.onRemote config t).unchanged_of_refused hrefused
  refine ⟨hsave, ?_, ha, hw, handed_of_refused hrefused⟩
  rw [hsave]
  cases e with
  | notFound => exact ⟨fun h => (nomatch h), fun h => absurd rfl h⟩
  | _ => exact ⟨fun _ => TransportError.noConfusion, fun _ => rfl⟩

end OnRemote

theorem remote_failures_unavailable :
    let t := Transport.failing (.unavailable "down")
    let r := Inventory.App.repositoryOn (Streaming.store ⟨.none, 64⟩ t)
    let a : Aggregate Inventory.Event Inventory.Item :=
      ⟨⟨"bolts", 0, [.new "bolts" (.created "bolt")]⟩, ⟨true, 0⟩⟩
    let c : Connection Unit := ⟨(), .start⟩
    (r.load "InventoryItem" "bolts" (c, .empty)).1 = .fail (.repositoryUnavailable "down") ∧
      (r.save none (a, c, .empty)).1 = .fail (.repositoryUnavailable "down") ∧
      (r.save none (a, c, .empty)).2.1 = a := by
  intro t r a c
  obtain ⟨hload, -, hsave, -⟩ := remote_failures r ⟨.none, 64⟩ t
  have hread : Streaming.ReadFails ⟨.none, 64⟩ t "InventoryItem-bolts" c (.unavailable "down") :=
    ⟨[], ⟨0⟩, [], rfl, fun _ hi => (nomatch hi), Streaming.arrives_unlimited _ _⟩
  obtain ⟨hout, -, ha, -, -⟩ := hsave none a "InventoryItem-bolts" c .empty
    (.unavailable "down") rfl (List.cons_ne_nil _ _) ⟨_, rfl, rfl, rfl⟩
  exact ⟨hload "InventoryItem" "bolts" _ _ _ c .empty _ rfl hread, hout, ha⟩

/-- A save is told of a stream that is not there in the words of the store. -/
theorem missing_stream_of_save :
    let t := Transport.failing .notFound
    let r := Inventory.App.repositoryOn (Streaming.store ⟨.none, 64⟩ t)
    let a : Aggregate Inventory.Event Inventory.Item :=
      ⟨⟨"bolts", 0, [.new "bolts" (.created "bolt")]⟩, ⟨true, 0⟩⟩
    let c : Connection Unit := ⟨(), .start⟩
    r.streamOf a = some "InventoryItem-bolts" ∧ a.changes ≠ [] ∧
      Streaming.AppendFails ⟨.none, 64⟩ t "InventoryItem-bolts" (outgoing a) (some 0)
        (commonHeaders "InventoryItem") c .notFound ∧
      (r.save none (a, c, .empty)).1 = .fail (.streamNotFound "InventoryItem-bolts") ∧
      (r.save none (a, c, .empty)).1 ≠ .fail (.aggregateNotFound "InventoryItem" "bolts") ∧
      (r.load "InventoryItem" "bolts" (c, .empty)).1 =
        .fail (.aggregateNotFound "InventoryItem" "bolts") := by
  intro t r a c
  have hout : (r.save none (a, c, .empty)).1 = .fail (.streamNotFound "InventoryItem-bolts") := rfl
  refine ⟨rfl, List.cons_ne_nil _ _, ⟨_, rfl, rfl, rfl⟩, hout, ?_, rfl⟩
  rw [hout]
  exact fun h => nomatch h

end Repository

end EventSourcing
