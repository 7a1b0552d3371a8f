import EventSourcing.Proofs.RemoteFailures
import EventSourcing.Transport.Remote

/-!
What is asked of a remote end. A noting transport keeps a list of the calls it gets and is otherwise
the transport it stands for. A save makes no call, or one append of all its events; a load makes one
call and hands on all that it brings, or nothing but its first failure.
-/

namespace EventSourcing

variable {π κ ρ : Type}

/-- The transport with a list of the calls it got beside its state. -/
def Transport.noting (t : Transport ρ) : Transport (ρ × List RemoteCall) where
  read n capacity := fun (x, calls) =>
    let (feed, x) := t.read n capacity x
    (feed, x, calls ++ [.read n capacity])
  append n expected sent := fun (x, calls) =>
    let pending := t.append n expected sent x
    ⟨pending.delay, pending.answer, (pending.remote, calls ++ [.append n expected sent])⟩

namespace Streaming

section Sending

variable [EventPayload π] {n : String} {common : Headers} {es : List (EventMessage π)}

theorem save_noting (capacity : Nat) (t : Transport ρ) (n : String) (es : List (EventMessage π))
    (expected : Option Nat) (common : Headers) (x : ρ) (calls : List RemoteCall) (clock : Clock) :
    let saved := save (κ := κ) ⟨.none, capacity⟩ t n es expected common ⟨x, clock⟩
    let noted := save (κ := κ) ⟨.none, capacity⟩ t.noting n es expected common ⟨(x, calls), clock⟩
    noted.1 = saved.1 ∧ noted.2.remote.1 = saved.2.remote ∧ noted.2.clock = saved.2.clock := by
  intro saved noted
  unfold saved noted
  by_cases hne : es = []
  · subst hne
    exact ⟨rfl, rfl, rfl⟩
  · rcases hsent : outgoingAll common es with s | sent
    · rw [save_of_unwritable hne hsent, save_of_unwritable hne hsent]
      exact ⟨rfl, rfl, rfl⟩
    · rw [save_of_ready hne hsent rfl, save_of_ready hne hsent rfl]
      exact ⟨rfl, rfl, rfl⟩

/-- Without limits a save makes no call if there is nothing to send or an event cannot be written.
Else it makes one append of all events, in their order, and succeeds just if that does. -/
theorem save_appends_once (κ : Type) (capacity : Nat) (t : Transport ρ) (n : String)
    (es : List (EventMessage π)) (expected : Option Nat) (common : Headers) (x : ρ)
    (clock : Clock) :
    let saved := save (κ := κ) ⟨.none, capacity⟩ t n es expected common ⟨x, clock⟩
    let noted := save (κ := κ) ⟨.none, capacity⟩ t.noting n es expected common ⟨(x, []), clock⟩
    (noted.1 = saved.1 ∧ noted.2.remote.1 = saved.2.remote ∧ noted.2.clock = saved.2.clock) ∧
    (es = [] → saved.1 = .fail .noEventsToAppend ∧ noted.2 = ⟨(x, []), clock⟩) ∧
    (∀ before bad after s, es = before ++ bad :: after → (∀ e ∈ before, Record.Writable e) →
      EventPayload.encode bad.payload = .error s →
      saved.1 = .fail (.serialization s) ∧ noted.2 = ⟨(x, []), clock⟩) ∧
    (es ≠ [] → (∀ e ∈ es, Record.Writable e) → ∃ sent, List.Forall₂ (SentAs common) es sent ∧
      let pending := t.append n expected sent x
      noted.2.remote = (pending.remote, [.append n expected sent]) ∧
      (saved.1 = .ok () ↔ pending.answer = .ok ()) ∧
      ∀ e, pending.answer = .error e → saved.1 = .fail (errorFor n expected e)) := by
  intro saved noted
  refine ⟨save_noting capacity t n es expected common x [] clock, ?_, ?_, ?_⟩
  · rintro rfl
    exact ⟨rfl, rfl⟩
  · rintro before bad after s rfl hw hs
    have hne : before ++ bad :: after ≠ [] := by simp
    have hbad := outgoingAll_of_first hw hs after common
    exact ⟨congrArg Prod.fst (save_of_unwritable hne hbad),
      congrArg Prod.snd (save_of_unwritable hne hbad)⟩
  · intro hne hw
    obtain ⟨sent, hsent, hall⟩ := outgoingAll_of_writable common hw
    have hsaved : saved = _ := save_of_ready hne hsent rfl
    have hnoted : noted = _ := save_of_ready hne hsent rfl
    refine ⟨sent, hall, by rw [hnoted]; rfl, ?_, ?_⟩
    · rw [hsaved]
      rcases (t.append n expected sent x).answer with e | _
      · exact ⟨fun h => (nomatch h), fun h => (nomatch h)⟩
      · exact ⟨fun _ => rfl, fun _ => rfl⟩
    · intro e hans
      rw [hsaved, hans]
      rfl

/-- Two events go out in one append, though they set a header that is common to both. -/
theorem save_appends_once_bolts :
    let common := Headers.empty.insert "trace" (.text "a")
    let created : EventMessage Inventory.Event := .new "bolts" (.created "bolt")
    let es := [created, created.withHeader "trace" (.text "b")]
    let noted := save (κ := Inventory.Command) ⟨.none, 64⟩ Remote.transport.noting "bolts" es
      (some 0) common ⟨(.empty, []), .start⟩
    ∃ first second, noted.1 = .ok () ∧
      noted.2.remote.2 = [.append "bolts" (some 0) [first, second]] ∧
      first.headers.get? "trace" = some (.text "a") ∧
      second.headers.get? "trace" = some (.text "b") := by
  intro common created es noted
  obtain ⟨⟨hnoted, -⟩, -, -, hsent⟩ := save_appends_once Inventory.Command 64 Remote.transport
    "bolts" es (some 0) common .empty .start
  obtain ⟨sent, hall, hcalls, hok, -⟩ := hsent (List.cons_ne_nil _ _) fun e _ => ⟨_, rfl⟩
  change List.Forall₂ _ [_, _] sent at hall
  rcases hall with _ | ⟨hfirst, _ | ⟨hsecond, _ | _⟩⟩
  exact ⟨_, _, hnoted.trans (hok.2 rfl), congrArg Prod.snd hcalls, hfirst.header "trace",
    hsecond.header "trace"⟩

end Sending

section Reading

variable {n : String} {items : List (Duration × ReadItem)}

/-- What is read of an item. Headers of the record win over those of the response. -/
structure ReadFrom (n : String) (item : RawRecord × Headers) (rec : Record) : Prop where
  eventId : rec.eventId = item.1.eventId
  eventType : rec.eventType = item.1.eventType
  stream : rec.stream = n
  position : rec.position = item.1.position
  occurredAt : rec.occurredAt = item.1.occurredAt
  payload : rec.payload = item.1.payload
  header : ∀ key, rec.headers.get? key = (item.1.headers.get? key).or (item.2.get? key)

theorem forall_readFrom (n : String) (arrived : List (RawRecord × Headers)) :
    List.Forall₂ (ReadFrom n) arrived (arrived.map fun r => recordOf n r.1 r.2) := by
  induction arrived with
  | nil => exact .nil
  | cons r arrived ih =>
    refine .cons ⟨rfl, rfl, rfl, rfl, rfl, rfl, ?_⟩ ih
    exact Headers.get?_overlay r.2 r.1.headers

theorem arrived_or_first (items : List ReadItem) :
    (∃ arrived, items = List.map .ok arrived) ∨
      ∃ before e after, items = List.map .ok before ++ .error e :: after := by
  induction items with
  | nil => exact Or.inl ⟨[], rfl⟩
  | cons item items ih =>
    rcases item with e | r
    · exact Or.inr ⟨[], e, items, rfl⟩
    · rcases ih with ⟨arrived, rfl⟩ | ⟨before, e, after, rfl⟩
      · exact Or.inl ⟨r :: arrived, rfl⟩
      · exact Or.inr ⟨r :: before, e, after, rfl⟩

/-- The first failure ends the read, whatever was read before it and whatever would follow. -/
theorem drain_of_first {before : List (RawRecord × Headers)} {e : TransportError}
    {after : List ReadItem} (h : items.map (·.2) = before.map .ok ++ .error e :: after)
    (stalls : Bool) (clock : Clock) :
    (drain (κ := κ) .none n stalls items clock).1 = .fail (errorFor n none e) := by
  obtain ⟨front, back, rfl, hfront, hback⟩ := List.map_eq_append_iff.1 h
  obtain ⟨⟨delay, item⟩, rest, rfl, hitem, -⟩ := List.map_eq_cons_iff.1 hback
  obtain rfl : item = .error e := hitem
  refine drain_of_failure ?_ (arrives_unlimited _ _)
  intro i hi
  obtain ⟨r, -, hr⟩ := List.mem_map.1 (hfront ▸ List.mem_map_of_mem hi)
  exact ⟨r, hr.symm⟩

/-- Without limits a load makes one call and drains the feed. If no item is a failure, it gives a
record for each, in their order; else it tells of the first failure, by its kind. -/
theorem load_drained_or_failed (κ : Type) (capacity : Nat) (t : Transport ρ) (n : String) (x : ρ)
    (clock : Clock) :
    let feed := (t.read n (max capacity 1) x).1
    let items := feed.items.map (·.2)
    let loaded := load (κ := κ) ⟨.none, capacity⟩ t n ⟨x, clock⟩
    let noted := load (κ := κ) ⟨.none, capacity⟩ t.noting n ⟨(x, []), clock⟩
    (noted.1 = loaded.1 ∧ noted.2.remote = (loaded.2.remote, [.read n (max capacity 1)])) ∧
    (feed.stalls = false →
      ((∃ records, loaded.1 = .ok records) ↔ ∀ i ∈ items, ∃ r, i = .ok r) ∧
      ∀ arrived, items = List.map .ok arrived →
        ∃ records, loaded.1 = .ok records ∧ List.Forall₂ (ReadFrom n) arrived records) ∧
    (∀ before e after, items = List.map .ok before ++ .error e :: after →
      loaded.1 = .fail (.ofFailure (.streamNotFound n)
        (fun reason => .unexpected (.transport (.conflict reason))) e)) ∧
    ∀ stream v actual, loaded.1 ≠ .fail (.versionConflict stream v actual) := by
  intro feed items loaded noted
  have hgood : feed.stalls = false → ∀ arrived, items = List.map .ok arrived →
      loaded.1 = .ok (arrived.map fun r => recordOf n r.1 r.2) := by
    intro hstalls arrived h
    show (drain _ n feed.stalls feed.items clock).1 = _
    rw [hstalls]
    exact drain_of_closed h clock
  have hbad : ∀ before e after, items = List.map .ok before ++ .error e :: after →
      loaded.1 = .fail (errorFor n none e) :=
    fun before e after h => drain_of_first h feed.stalls clock
  refine ⟨⟨rfl, rfl⟩, fun hstalls => ⟨⟨?_, ?_⟩, ?_⟩, ?_, ?_⟩
  · rintro ⟨records, hrecords⟩
    rcases arrived_or_first items with ⟨arrived, h⟩ | ⟨before, e, after, h⟩
    · rw [h]
      exact List.forall_mem_map.2 fun r _ => ⟨r, rfl⟩
    · rw [hbad before e after h] at hrecords
      nomatch hrecords
  · intro hall
    rcases arrived_or_first items with ⟨arrived, h⟩ | ⟨before, e, after, h⟩
    · exact ⟨_, hgood hstalls arrived h⟩
    · obtain ⟨r, hr⟩ := hall (.error e) (by rw [h]; simp)
      nomatch hr
  · exact fun arrived h => ⟨_, hgood hstalls arrived h, forall_readFrom n arrived⟩
  · intro before e after h
    rw [hbad before e after h]
    cases e <;> rfl
  · intro stream v actual h
    rcases load_error h with ⟨e, he⟩ | ⟨reason, he⟩
    · cases e <;> nomatch he
    · nomatch he

/-- The stream of bolts is read to its end, that of nuts up to the failure in its middle. -/
theorem load_drained_or_failed_nuts :
    let bolt : RawRecord := ⟨"r-0", "InventoryItemCreated", .null, 0, .epoch, .empty⟩
    let response := Headers.empty.insert "trace" (.text "a")
    let bolts : List (Duration × ReadItem) :=
      [(⟨0⟩, .ok (bolt, response)), (⟨5⟩, .ok (bolt, .empty))]
    let nuts : List (Duration × ReadItem) :=
      [(⟨0⟩, .ok (bolt, response)), (⟨1⟩, .error .unauthorized), (⟨0⟩, .error .notFound)]
    let t : Transport Unit :=
      { Transport.failing .notFound with
        read := fun n _ _ => (⟨if n = "bolts" then bolts else nuts, false⟩, ()) }
    let load := fun n => (load (κ := Inventory.Command) ⟨.none, 0⟩ t n ⟨(), .start⟩).1
    (∃ first second, load "bolts" = .ok [first, second] ∧ first.stream = "bolts" ∧
      first.headers.get? "trace" = some (.text "a")) ∧ load "nuts" = .fail .unauthorized := by
  intro bolt response bolts nuts t load
  obtain ⟨-, hgood, -, -⟩ := load_drained_or_failed Inventory.Command 0 t "bolts" () .start
  obtain ⟨records, hrecords, hread⟩ := (hgood rfl).2 [(bolt, response), (bolt, .empty)] rfl
  obtain ⟨-, -, hbad, -⟩ := load_drained_or_failed Inventory.Command 0 t "nuts" () .start
  refine ⟨?_, hbad [(bolt, response)] .unauthorized [.error .notFound] rfl⟩
  rcases hread with _ | ⟨hfirst, _ | ⟨-, _ | _⟩⟩
  exact ⟨_, _, hrecords, hfirst.stream, hfirst.header "trace"⟩

end Reading

end Streaming

end EventSourcing
