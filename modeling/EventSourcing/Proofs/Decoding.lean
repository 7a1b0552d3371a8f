import EventSourcing.Proofs.Registration
import EventSourcing.Proofs.RoundTrip

/-!
Loading, record by record, whatever store the records come from. Each record is read as an event:
its payload decoded, its place counted from one, its headers, and the id that was asked for. If all
can be read, loading applies these events to a new aggregate, from left to right. Otherwise the
first record that cannot be read decides what loading answers, whatever comes after it.
-/

namespace EventSourcing

variable {π κ σ α β : Type}

namespace Repository

def Readable (f : EventFactory π) (rec : Record) : Prop :=
  ∃ p, f.decode? rec.eventType rec.payload = some (.ok p)

/-- Applying the event of a record, after the events before it, overflows nothing and leaves the
version alone. -/
def Steady (b : Behavior π κ σ) (f : EventFactory π) (id : String) (fresh : Aggregate π σ)
    (records : List Record) : Prop :=
  ∀ before rec after ms m a, records = before ++ rec :: after →
    List.Forall₂ (ReadAs f id) before ms → ReadAs f id rec m → b.applyAll ms fresh = .ok a →
    ∃ applied, b.apply a m false = .ok applied ∧ applied.version = a.version

/-- These are the records that a store answered with; none if it found no events. -/
def Answered (out : DomainOutcome κ (List Record)) (records : List Record) : Prop :=
  out = .ok records ∨ records = [] ∧ ∃ n, out = .fail (.noEventsFound n)

section Replaying

variable {b : Behavior π κ σ} {f : EventFactory π} {id : String} {fresh : Aggregate π σ}
  {records before after : List Record} {rec bad : Record} {ms : List (EventMessage π)}
  {m : EventMessage π}

theorem exists_readAs (f : EventFactory π) (id : String)
    (h : ∀ rec ∈ records, Readable f rec) : ∃ ms, List.Forall₂ (ReadAs f id) records ms := by
  induction records with
  | nil => exact ⟨[], .nil⟩
  | cons rec records ih =>
    obtain ⟨⟨p, hp⟩, hrest⟩ := List.forall_mem_cons.1 h
    obtain ⟨ms, hms⟩ := ih hrest
    exact ⟨⟨id, p, rec.headers, some (rec.position + 1)⟩ :: ms, .cons ⟨hp, rfl, rfl, rfl⟩ hms⟩

theorem Steady.left (h : Steady b f id fresh (before ++ after)) : Steady b f id fresh before := by
  intro front rec rest ms m a hr hms hm happ
  exact h front rec (rest ++ after) ms m a (by rw [hr, List.append_assoc]; rfl) hms hm happ

/-- The first event is applied and counted, and the others go on from there. -/
theorem Steady.step (h : Steady b f id fresh (rec :: records)) (hm : ReadAs f id rec m)
    (hfit : fresh.version + 1 < sizeLimit) :
    ∃ counted, (∀ ms, b.applyAll (m :: ms) fresh = b.applyAll ms counted) ∧
      counted.version = fresh.version + 1 ∧ Steady b f id counted records := by
  obtain ⟨applied, happ, hkept⟩ := h [] rec records [] m fresh rfl .nil hm rfl
  have hcons : ∀ ms, b.applyAll (m :: ms) fresh = b.applyAll ms
      { applied with base := { applied.base with version := applied.version + 1 } } := by
    intro ms
    have hinc := Aggregate.incrementVersion_eq_ok (a := applied) (by omega)
    simp only [Behavior.applyAll, happ, hinc, bind, Except.bind]
  refine ⟨_, hcons, congrArg (· + 1) hkept, ?_⟩
  intro front next rest ms m' a hr hms hm' ha
  exact h (rec :: front) next rest (m :: ms) m' a (congrArg (rec :: ·) hr) (.cons hm hms) hm'
    ((hcons ms).trans ha)

theorem Steady.applyAll (h : Steady b f id fresh records)
    (hms : List.Forall₂ (ReadAs f id) records ms)
    (hfit : fresh.version + records.length < sizeLimit) :
    ∃ a, b.applyAll ms fresh = .ok a ∧ a.version = fresh.version + records.length := by
  induction hms generalizing fresh with
  | nil => exact ⟨fresh, rfl, rfl⟩
  | cons hm _ ih =>
    rw [List.length_cons] at hfit ⊢
    obtain ⟨counted, hcons, hv, hrest⟩ := h.step hm (by omega)
    obtain ⟨a, ha, hva⟩ := ih hrest (by omega)
    exact ⟨a, (hcons _).trans ha, by omega⟩

/-- The first record that cannot be read ends the replay, whatever comes after it. -/
theorem replay_of_bad {a : Aggregate π σ} {fault : Fault (DomainError κ)}
    (hbefore : replay b f id before fresh = .ok a)
    (hbad : ∀ a, replayOne b f id a bad = .error fault) :
    replay b f id (before ++ bad :: after) fresh = .error fault := by
  rw [replay_append, hbefore]
  simp only [Except.bind, replay, hbad]

theorem replayOne_of_unregistered (h : f.find? bad.eventType = none) (a : Aggregate π σ) :
    replayOne b f id a bad = .fail (.unknownEventType bad.eventType) := by
  simp only [replayOne, EventFactory.decode?, h, Option.map_none]

theorem replayOne_of_undecodable {decode : Json → Except String π} {e : String}
    (h : f.find? bad.eventType = some decode) (he : decode bad.payload = .error e)
    (a : Aggregate π σ) : replayOne b f id a bad = .fail (.serialization e) := by
  simp only [replayOne, EventFactory.decode?, h, he, Option.map_some]

theorem not_readable (h : ¬ Readable f bad) :
    f.find? bad.eventType = none ∨
      ∃ decode e, f.find? bad.eventType = some decode ∧ decode bad.payload = .error e := by
  rcases hf : f.find? bad.eventType with _ | decode
  · exact Or.inl rfl
  · rcases he : decode bad.payload with e | p
    · exact Or.inr ⟨decode, e, rfl, he⟩
    · exact absurd ⟨p, by simp only [EventFactory.decode?, hf, he, Option.map_some]⟩ h

theorem readable_or_first (f : EventFactory π) (records : List Record) :
    (∀ rec ∈ records, Readable f rec) ∨ ∃ before bad after, records = before ++ bad :: after ∧
      (∀ rec ∈ before, Readable f rec) ∧ ¬ Readable f bad := by
  classical
  rcases hfind : records.find? (¬ Readable f ·) with _ | bad
  · exact Or.inl (by simpa using hfind)
  · obtain ⟨hbad, before, after, hr, hbefore⟩ := List.find?_eq_some_iff_append.1 hfind
    exact Or.inr ⟨before, bad, after, hr, by simpa using hbefore, by simpa using hbad⟩

end Replaying

section Loading

variable {r : Repository π κ σ α β} {type id n : String} {fresh : Aggregate π σ}
  {f : EventFactory π} {s : α} {records : List Record}

theorem Configured.load_eq (h : r.Configured type id fresh n f)
    (hanswer : Answered (r.store.load n s).1 records) (w : β) :
    r.load type id (s, w) =
      (replay r.behavior f id records fresh, ((r.store.load n s).2, w)) := by
  unfold load
  rw [h.prepare]
  rcases hload : r.store.load n s with ⟨out, s'⟩
  rw [hload] at hanswer
  rcases hanswer with rfl | ⟨rfl, m, rfl⟩
  · simp only [hload]
  · simp only [hload]
    rfl

/-- Loading is replaying, and the first record that cannot be read decides. A new aggregate stands
at version zero, so it ends at the number of its records. -/
theorem load_decided_by_first (r : Repository π κ σ α β) (type id : String)
    (hc : r.Configured type id fresh n f) (s : α) (w : β)
    (hanswer : Answered (r.store.load n s).1 records)
    (hplaces : ∀ rec ∈ records, rec.position + 1 < sizeLimit)
    (hfit : fresh.version + records.length < sizeLimit)
    (hsteady : Steady r.behavior f id fresh records) :
    let loaded := r.load type id (s, w)
    loaded.2 = ((r.store.load n s).2, w) ∧
    ((∃ a, loaded.1 = .ok a) ↔ ∀ rec ∈ records, Readable f rec) ∧
    ((∀ rec ∈ records, Readable f rec) → ∃ ms a, List.Forall₂ (ReadAs f id) records ms ∧
      r.behavior.applyAll ms fresh = .ok a ∧ loaded.1 = .ok a ∧
      a.version = fresh.version + records.length) ∧
    ∀ before bad after, records = before ++ bad :: after → (∀ rec ∈ before, Readable f rec) →
      (f.find? bad.eventType = none → loaded.1 = .fail (.unknownEventType bad.eventType)) ∧
      ∀ decode e, f.find? bad.eventType = some decode → decode bad.payload = .error e →
        loaded.1 = .fail (.serialization e) := by
  intro loaded
  have hloaded : loaded = _ := hc.load_eq hanswer w
  have hgood : (∀ rec ∈ records, Readable f rec) → ∃ ms a, List.Forall₂ (ReadAs f id) records ms ∧
      r.behavior.applyAll ms fresh = .ok a ∧ loaded.1 = .ok a ∧
      a.version = fresh.version + records.length := by
    intro hread
    obtain ⟨ms, hms⟩ := exists_readAs f id hread
    obtain ⟨a, ha, hv⟩ := hsteady.applyAll hms hfit
    refine ⟨ms, a, hms, ha, ?_, hv⟩
    rw [hloaded, replay_of_readAs hms hplaces, ha]
    rfl
  have hbad : ∀ before bad after, records = before ++ bad :: after →
      (∀ rec ∈ before, Readable f rec) →
      (f.find? bad.eventType = none → loaded.1 = .fail (.unknownEventType bad.eventType)) ∧
      ∀ decode e, f.find? bad.eventType = some decode → decode bad.payload = .error e →
        loaded.1 = .fail (.serialization e) := by
    rintro before bad after rfl hread
    obtain ⟨ms, hms⟩ := exists_readAs f id hread
    obtain ⟨a, ha, -⟩ := hsteady.left.applyAll hms (by rw [List.length_append] at hfit; omega)
    have hrep : replay r.behavior f id before fresh = .ok a := by
      rw [replay_of_readAs hms (List.forall_mem_append.1 hplaces).1, ha]
      rfl
    rw [hloaded]
    exact ⟨fun h => replay_of_bad hrep (replayOne_of_unregistered h),
      fun decode e h he => replay_of_bad hrep (replayOne_of_undecodable h he)⟩
  refine ⟨by rw [hloaded], ⟨?_, fun hread => ?_⟩, hgood, hbad⟩
  · rintro ⟨a, ha⟩
    rcases readable_or_first f records with hall | ⟨before, bad, after, hr, hread, hnot⟩
    · exact hall
    · obtain ⟨hunregistered, hundecodable⟩ := hbad before bad after hr hread
      rcases not_readable hnot with h | ⟨decode, e, h, he⟩
      · rw [hunregistered h] at ha; nomatch ha
      · rw [hundecodable decode e h he] at ha; nomatch ha
  · obtain ⟨-, a, -, -, ha, -⟩ := hgood hread
    exact ⟨a, ha⟩

end Loading

/-- A record of an unknown type stands in front of one that cannot be decoded. -/
theorem load_decided_by_first_unknown :
    let r := Inventory.App.repository fun _ => ⟨"", .epoch⟩
    let created : Record := ⟨"", "InventoryItemCreated", "InventoryItem-bolts", 0, .epoch,
      .object [("name", .text "bolt")], .empty⟩
    let painted : Record := ⟨"", "InventoryItemPainted", "InventoryItem-bolts", 1, .epoch,
      .null, .empty⟩
    let garbled : Record := ⟨"", "InventoryItemCreated", "InventoryItem-bolts", 2, .epoch,
      .null, .empty⟩
    let records := [created, painted, garbled]
    let fresh := Inventory.Item.new "bolts"
    r.Configured "InventoryItem" "bolts" fresh "InventoryItem-bolts" Inventory.App.events ∧
      Answered (r.store.load "InventoryItem-bolts" ⟨records⟩).1 records ∧
      (∀ rec ∈ records, rec.position + 1 < sizeLimit) ∧
      fresh.version + records.length < sizeLimit ∧
      Steady r.behavior Inventory.App.events "bolts" fresh records ∧
      (r.load "InventoryItem" "bolts" (⟨records⟩, .empty)).1 =
        .fail (.unknownEventType "InventoryItemPainted") := by
  intro r created painted garbled records fresh
  have hc : r.Configured "InventoryItem" "bolts" fresh "InventoryItem-bolts" Inventory.App.events :=
    ⟨⟨_, rfl, rfl⟩, ⟨_, rfl, rfl⟩, rfl⟩
  have hanswer : Answered (r.store.load "InventoryItem-bolts" ⟨records⟩).1 records := Or.inl rfl
  have hplaces : ∀ rec ∈ records, rec.position + 1 < sizeLimit := by decide
  have hfit : fresh.version + records.length < sizeLimit := by decide
  have hread : Inventory.App.events.decode? created.eventType created.payload =
      some (.ok (.created "bolt")) := rfl
  have hpainted : ∀ m, ¬ ReadAs Inventory.App.events "bolts" painted m :=
    fun m hm => nomatch hm.payload
  have hsteady : Steady r.behavior Inventory.App.events "bolts" fresh records := by
    intro before rec after ms m a hr hms hm happ
    rcases before with _ | ⟨first, before⟩
    · obtain ⟨rfl, -⟩ := List.cons.inj hr
      have hp : .created "bolt" = m.payload :=
        Except.ok.inj (Option.some.inj (hread.symm.trans hm.payload))
      refine ⟨⟨a.base, { a.state with activated := true }⟩, ?_, rfl⟩
      show Inventory.Item.apply a m false = _
      rw [Inventory.Item.apply_eq, ← hp]
      rfl
    · -- the second record is not read as any event
      obtain ⟨-, hr⟩ := List.cons.inj hr
      rcases before with _ | ⟨second, before⟩
      · obtain ⟨rfl, -⟩ := List.cons.inj hr
        exact absurd hm (hpainted m)
      · obtain ⟨rfl, -⟩ := List.cons.inj hr
        rcases hms with _ | ⟨-, _ | ⟨hsecond, -⟩⟩
        exact absurd hsecond (hpainted _)
  obtain ⟨-, -, -, hbad⟩ := load_decided_by_first r "InventoryItem" "bolts" hc ⟨records⟩
    Inventory.View.empty hanswer hplaces hfit hsteady
  exact ⟨hc, hanswer, hplaces, hfit, hsteady,
    (hbad [created] painted [garbled] rfl (by simpa using ⟨_, hread⟩)).1 rfl⟩

end Repository

end EventSourcing
