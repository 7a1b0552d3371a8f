import EventSourcing.Proofs.Registration

/-!
The sums of versions that a save works out are those of the stream it extends, so they fit into a
machine word as long as the extended stream does. An aggregate may have any version and a caller may
expect any: a number that is not the length of the stream is refused before anything is added to it.
-/

namespace EventSourcing

namespace Repository

variable {π κ σ α β : Type}

/-- The sums that are worked out to store, commit and publish this many events behind the first
`start` of a stream. -/
structure SumsFit (start count : Nat) : Prop where
  position : ∀ k < count, addSize start k = .ok (start + k)
  committed : addSize start count = .ok (start + count)
  place : ∀ k < count, placeOf start k = .ok (start + k + 1)

theorem sumsFit_of_lt {start count : Nat} (h : start + count < sizeLimit) : SumsFit start count where
  position := fun k hk => addSize_eq_ok.2 ⟨by omega, rfl⟩
  committed := addSize_eq_ok.2 ⟨h, rfl⟩
  place := fun k hk => placeOf_eq_ok.2 ⟨by omega, rfl⟩

/-- Publishing that does not come back ends as a handler did that was handed one of the events. -/
theorem publishFrom_not_returned (r : Repository π κ σ α β) {start offset : Nat}
    {es : List (EventMessage π)} {a : Aggregate π σ} {w : α × β}
    (hfit : start + offset + es.length < sizeLimit)
    (h : ¬ (r.publishFrom start offset es (a, w)).1.Returned) :
    ∃ e ∈ numbered (start + offset) es, ∃ w',
      (r.publish e w').1 = (r.publishFrom start offset es (a, w)).1 := by
  induction es generalizing offset w with
  | nil => exact absurd trivial h
  | cons e es ih =>
    rw [List.length_cons] at hfit
    rw [numbered_cons]
    simp only [publishFrom, placeOf_eq_ok.2 ⟨show start + offset + 1 < sizeLimit by omega, rfl⟩] at h ⊢
    -- an event whose handlers come back, with an error or without, leaves it to the events behind it
    have hrest : ∀ w', ¬ (r.publishFrom start (offset + 1) es (a, w')).1.Returned →
        ∃ e' ∈ e.withVersion (some (start + offset + 1)) :: numbered (start + offset + 1) es, ∃ w'',
          (r.publish e' w'').1 = (r.publishFrom start (offset + 1) es (a, w')).1 := by
      intro w' h'
      obtain ⟨e', he', w'', hw''⟩ :=
        ih (show start + (offset + 1) + es.length < sizeLimit by omega) h'
      exact ⟨e', List.mem_cons_of_mem _ he', w'', hw''⟩
    rcases hp : r.publish (e.withVersion (some (start + offset + 1))) w with ⟨(_ | _ | _) | _, w'⟩ <;>
      simp only [hp] at h ⊢
    · exact hrest w' h
    · exact ⟨_, List.mem_cons_self, w, congrArg Prod.fst hp⟩
    · exact ⟨_, List.mem_cons_self, w, congrArg Prod.fst hp⟩
    · exact hrest w' h

section OnLog

variable [EventPayload π] {r : Repository π κ σ EventLog β} {stamp : Nat → Stamp}
  {expected : Option Nat} {a : Aggregate π σ} {n : String} {log : EventLog} {w : β}

/-- Without changes or without a stream a save has nothing to add up. -/
theorem save_returned_of_idle (h : r.streamOf a = none ∨ a.changes = []) :
    ((r.onLog stamp).save expected (a, log, w)).1.Returned ∧
      ((r.onLog stamp).save expected (a, log, w)).2 = (a, log, w) := by
  by_cases hp : a.changes = []
  · rw [(r.onLog stamp).save_of_no_changes expected hp]
    refine ⟨?_, rfl⟩
    dsimp only
    split <;> trivial
  · rw [(r.onLog stamp).save_of_no_stream expected (h.resolve_right hp) hp]
    exact ⟨trivial, rfl⟩

theorem save_publishes (stamp : Nat → Stamp) (w : β) (hn : r.streamOf a = some n)
    (hp : a.changes ≠ []) (hacc : Accepts n expected a log)
    (hfit : log.version n + a.changes.length < sizeLimit) :
    ∃ rs, Record.Batch n (commonHeaders (r.behavior.typeTag a.state)) (log.version n)
        (outgoing a) rs ∧
      (r.onLog stamp).save expected (a, log, w) = (r.onLog stamp).publishFrom (log.version n) 0
        (outgoing a) (a.committedAt (log.version n), log.append rs, w) := by
  obtain ⟨rs, hb, hsave⟩ :=
    r.save_accepted stamp expected log w hn hp hacc (Nat.le_of_lt hfit)
  refine ⟨rs, hb, hsave.trans ?_⟩
  rcases (r.onLog stamp).finish_cases (log.version n) a (log.append rs, w) with ⟨hle, -⟩ | ⟨-, hf⟩
  · exact absurd hfit (Nat.not_lt.2 hle)
  · exact hf

theorem save_not_returned (hn : r.streamOf a = some n) (hp : a.changes ≠ [])
    (hfit : log.version n + a.changes.length < sizeLimit)
    (h : ¬ ((r.onLog stamp).save expected (a, log, w)).1.Returned) :
    ∃ e ∈ numbered (log.version n) (outgoing a), ∃ w',
      (r.publish e w').1 = ((r.onLog stamp).save expected (a, log, w)).1 := by
  by_cases hacc : Accepts n expected a log
  · obtain ⟨rs, -, hsave⟩ := save_publishes stamp w hn hp hacc hfit
    rw [hsave] at h ⊢
    exact publishFrom_not_returned (r.onLog stamp) (by rwa [length_outgoing]) h
  · obtain ⟨e, he⟩ := (r.save_refused_iff stamp expected log w hn hp).2 hacc
    rw [he] at h
    exact absurd trivial h

/-- With handlers that come back, a save overflows just if it is accepted and leaves a stream longer
than a machine word can count. -/
theorem save_returned_iff (hn : r.streamOf a = some n) (hp : a.changes ≠ [])
    (hr : r.HandlersReturn) :
    ((r.onLog stamp).save expected (a, log, w)).1.Returned ↔
      (Accepts n expected a log → log.version n + a.changes.length < sizeLimit) := by
  rcases r.save_ends stamp expected log w hn hp with
    ⟨hne, h⟩ | ⟨-, hnot, s, h⟩ | ⟨hacc, hlt, h⟩ | ⟨hacc, -, rs, -, h⟩ <;> rw [h]
  · exact iff_of_true trivial fun hacc => absurd hacc.version hne
  · exact iff_of_true trivial fun hacc => absurd hacc hnot
  · exact iff_of_false id fun hfit => absurd (hfit hacc) (Nat.not_lt.2 (Nat.le_of_lt hlt))
  · rcases (r.onLog stamp).finish_cases (log.version n) a (log.append rs, w) with
      ⟨hle, hf⟩ | ⟨hlt, -⟩
    · rw [hf]
      exact iff_of_false id fun hfit => absurd (hfit hacc) (Nat.not_lt.2 hle)
    · rw [finish_ok (r := r.onLog stamp) hr hlt]
      exact iff_of_true trivial fun _ => hlt

/-- No sum of versions overflows in a save, whatever the log, the version and the changes of the
aggregate and the version that is expected, as long as the stream can be counted with the changes
in it. A version that is not the length of the stream is reported as a conflict; only the length
itself is added to, and then all sums fit. So a save comes back, unless a handler that it hands an
event to does not. The bound is exact: a stream that can no longer be counted does overflow. -/
theorem version_sums_fit (r : Repository π κ σ EventLog β) (stamp : Nat → Stamp)
    (expected : Option Nat) (a : Aggregate π σ) (log : EventLog) (w : β) :
    let start := expected.getD a.version
    let saved := (r.onLog stamp).save expected (a, log, w)
    (r.streamOf a = none ∨ a.changes = [] → saved.1.Returned ∧ saved.2 = (a, log, w)) ∧
    ∀ n, r.streamOf a = some n → a.changes ≠ [] →
      (start ≠ log.version n →
        saved = (.fail (.concurrency (r.behavior.typeTag a.state) a.id start n), (a, log, w))) ∧
      (log.version n + a.changes.length < sizeLimit →
        (start = log.version n → SumsFit start a.changes.length ∧
          (saved.1.Refused ∧ saved.2 = (a, log, w) ∨
            ∃ rs, Record.Batch n (commonHeaders (r.behavior.typeTag a.state)) start (outgoing a) rs ∧
              saved = (r.onLog stamp).publishFrom start 0 (outgoing a)
                (a.committedAt start, log.append rs, w))) ∧
        (saved.1.Returned ∨ ∃ e ∈ numbered (log.version n) (outgoing a), ∃ w',
          (r.publish e w').1 = saved.1)) ∧
      (r.HandlersReturn → (saved.1.Returned ↔
        (Accepts n expected a log → log.version n + a.changes.length < sizeLimit))) := by
  intro start saved
  refine ⟨save_returned_of_idle, fun n hn hp => ⟨r.save_conflict stamp expected log w hn hp,
    fun hfit => ⟨?_, ?_⟩, save_returned_iff hn hp⟩⟩
  · intro hstart
    refine ⟨sumsFit_of_lt (by rwa [hstart]), ?_⟩
    by_cases hacc : Accepts n expected a log
    · rw [hstart]
      exact Or.inr (save_publishes _ _ hn hp hacc hfit)
    · have href := (r.save_refused_iff stamp expected log w hn hp).2 hacc
      exact Or.inl ⟨href, r.save_of_refused stamp expected log w href⟩
  · by_cases hret : saved.1.Returned
    · exact Or.inl hret
    · exact Or.inr (save_not_returned hn hp hfit hret)

end OnLog

/-- A handle that was moved to the last version there is cannot have one more added to its version.
On the empty stream it conflicts; it is saved if it is told to expect that stream. -/
theorem version_sums_fit_last :
    let r : Repository Inventory.Event Inventory.Command Inventory.Item EventLog Inventory.View :=
      { Inventory.App.repository fun _ => ⟨"", .epoch⟩ with publish := fun _ w => (.ok (), w) }
    let a : Aggregate Inventory.Event Inventory.Item :=
      ⟨⟨"bolts", 18446744073709551615, [.new "bolts" (.created "bolt")]⟩, ⟨true, 0⟩⟩
    r.streamOf a = some "InventoryItem-bolts" ∧ a.changes ≠ [] ∧ r.HandlersReturn ∧
      EventLog.empty.version "InventoryItem-bolts" + a.changes.length < sizeLimit ∧
      addSize a.version a.changes.length = .error .addition ∧
      r.save none (a, .empty, .empty) = (.fail (.concurrency Inventory.Item.typeTag "bolts"
        18446744073709551615 "InventoryItem-bolts"), (a, .empty, .empty)) ∧
      SumsFit 0 a.changes.length ∧ (r.save (some 0) (a, .empty, .empty)).1.Returned := by
  intro r a
  have hn : r.streamOf a = some "InventoryItem-bolts" := rfl
  have hp : a.changes ≠ [] := List.cons_ne_nil _ _
  have hr : r.HandlersReturn := fun _ _ => trivial
  have hfit : EventLog.empty.version "InventoryItem-bolts" + a.changes.length < sizeLimit := by decide
  obtain ⟨-, hsaved⟩ := version_sums_fit r (fun _ => ⟨"", .epoch⟩) none a .empty .empty
  obtain ⟨hconflict, -⟩ := hsaved _ hn hp
  obtain ⟨-, hsaved'⟩ := version_sums_fit r (fun _ => ⟨"", .epoch⟩) (some 0) a .empty .empty
  obtain ⟨-, hfits, hreturned⟩ := hsaved' _ hn hp
  exact ⟨hn, hp, hr, hfit, by decide, hconflict (by decide), ((hfits hfit).1 rfl).1,
    (hreturned hr).2 fun _ => hfit⟩

end Repository

end EventSourcing
