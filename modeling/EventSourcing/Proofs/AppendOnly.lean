import EventSourcing.Inventory.Item
import EventSourcing.Proofs.Streams

/-!
The log in memory is append-only. Whatever saves are asked of it, every record stands in its stream
at the place it names. A save changes nothing, or it adds to the end of one stream one record for
each event. What it answers hangs on the batch and on the number of records of that stream.
-/

namespace EventSourcing

variable {π κ : Type} [EventPayload π]

theorem Record.ofMessages_of_first {before : List (EventMessage π)} {bad : EventMessage π}
    {s : String} (hw : ∀ e ∈ before, Writable e) (hs : EventPayload.encode bad.payload = .error s)
    (after : List (EventMessage π)) (stamp : Nat → Stamp) (stream : String) (common : Headers)
    (serial start offset : Nat) (hfit : start + offset + before.length < sizeLimit) :
    ofMessages stamp stream common serial start offset (before ++ bad :: after) = .fail s := by
  have hplace : addSize start offset = .ok (start + offset) := addSize_eq_ok.2 ⟨by omega, rfl⟩
  induction before generalizing offset with
  | nil =>
    rcases ofMessage_cases (stamp (serial + offset)) stream (start + offset) bad common with
      ⟨s', hs', he⟩ | ⟨r, hr, -⟩
    · obtain rfl := Except.error.inj (hs.symm.trans hs')
      simp only [List.nil_append, ofMessages, hplace, he]
    · exact absurd hr.writable (not_writable hs)
  | cons e before ih =>
    rw [List.length_cons] at hfit
    obtain ⟨hwe, hrest⟩ := List.forall_mem_cons.1 hw
    rcases ofMessage_cases (stamp (serial + offset)) stream (start + offset) e common with
      ⟨s', hs', -⟩ | ⟨r, -, he⟩
    · exact absurd hwe (not_writable hs')
    · have hnext := ih hrest (offset + 1) (by omega)
        (addSize_eq_ok.2 ⟨by omega, rfl⟩)
      simp only [List.cons_append, ofMessages, hplace, he, hnext]
      rfl

namespace EventLog

structure Request (π : Type) where
  stream : String
  events : List (EventMessage π)
  expected : Option Nat
  common : Headers

def Request.save (q : Request π) (stamp : Nat → Stamp) : Action EventLog (DomainError κ) Unit :=
  EventLog.save stamp q.stream q.events q.expected q.common

def saveAll (κ : Type) (stamp : Nat → Stamp) (calls : List (Request π)) (log : EventLog) :
    EventLog :=
  calls.foldl (fun log q => (q.save (κ := κ) stamp log).2) log

section Names

variable {log : EventLog} {n : String}

theorem mem_names : n ∈ log.names ↔ log.stream n ≠ [] := by
  unfold names stream
  rw [List.mem_eraseDups, List.mem_map, ne_eq, List.filter_eq_nil_iff]
  constructor
  · rintro ⟨r, hr, hn⟩ hnone
    exact hnone r hr (beq_iff_eq.2 hn)
  · intro hsome
    by_contra hno
    exact hsome fun r hr hn => hno ⟨r, hr, beq_iff_eq.1 hn⟩

theorem load_of_mem (h : n ∈ log.names) :
    load (κ := κ) n log = (.ok (log.stream n), log) := by
  unfold load
  cases hs : log.stream n with
  | nil => exact absurd hs (mem_names.1 h)
  | cons r rs => rfl

theorem load_of_not_mem (h : n ∉ log.names) :
    log.version n = 0 ∧ load (κ := κ) n log = (.fail (.noEventsFound n), log) := by
  have hs : log.stream n = [] := by
    by_contra hne
    exact h (mem_names.2 hne)
  unfold version load
  rw [hs]
  exact ⟨rfl, rfl⟩

theorem mem_names_append {rs : List Record} (h : ∀ r ∈ rs, r.stream = n) (hne : rs ≠ [])
    {m : String} : m ∈ (log.append rs).names ↔ m ∈ log.names ∨ m = n := by
  rw [mem_names, mem_names]
  by_cases hm : m = n
  · subst hm
    rw [stream_append_self log h]
    exact ⟨fun _ => Or.inr rfl, fun _ hnil => hne (List.append_eq_nil_iff.1 hnil).2⟩
  · rw [stream_append_ne log h hm]
    exact ⟨Or.inl, fun h => h.resolve_right hm⟩

theorem mem_stream {r : Record} (h : r ∈ log.stream n) : r.stream = n :=
  beq_iff_eq.1 (List.mem_filter.1 h).2

end Names

def Placed (log : EventLog) : Prop :=
  ∀ (n : String) (k : Nat) (r : Record), (log.stream n)[k]? = some r → r.position = k

theorem placed_empty : empty.Placed := fun _ _ _ h => nomatch h

theorem Placed.append {log : EventLog} (h : log.Placed) {n : String} {common : Headers}
    {es : List (EventMessage π)} {rs : List Record}
    (hb : Record.Batch n common (log.version n) es rs) : (log.append rs).Placed := by
  intro m k r hr
  by_cases hm : m = n
  · subst hm
    rw [stream_append_self log hb.stream_eq] at hr
    by_cases hk : k < log.version m
    · rw [List.getElem?_append_left hk] at hr
      exact h m k r hr
    · have hle : log.version m ≤ k := Nat.not_lt.1 hk
      rw [List.getElem?_append_right hle] at hr
      obtain ⟨e, -, hrec⟩ := hb.getElem? hr
      rw [hrec.position]
      exact Nat.add_sub_of_le hle
  · rw [stream_append_ne log hb.stream_eq hm] at hr
    exact h m k r hr

section Save

variable (stamp : Nat → Stamp)

theorem Placed.save {log : EventLog} (h : log.Placed) (q : Request π) :
    (q.save (κ := κ) stamp log).2.Placed := by
  unfold Request.save
  rcases save_cases (κ := κ) stamp q.stream q.events q.expected q.common log with
    ⟨-, hs⟩ | ⟨-, v, -, -, hs⟩ | ⟨-, -, -, -, -, -, -, ⟨-, s, -, hs⟩ | ⟨-, hs⟩⟩ |
    ⟨-, -, -, -, rs, hb, hs⟩ <;> rw [hs]
  · exact h
  · exact h
  · exact h
  · exact h
  · exact h.append hb

theorem Placed.saveAll {log : EventLog} (h : log.Placed) (calls : List (Request π)) :
    (saveAll κ stamp calls log).Placed := by
  induction calls generalizing log with
  | nil => exact h
  | cons q calls ih => exact ih (h.save stamp q)

/-- The end of one stream is longer by one record for each event, and that is all. -/
structure Extended (q : Request π) (log log' : EventLog) : Prop where
  stream : ∃ rs, Record.Batch q.stream q.common (log.version q.stream) q.events rs ∧
    log'.stream q.stream = log.stream q.stream ++ rs
  others : ∀ m, m ≠ q.stream → log'.stream m = log.stream m
  names : ∀ m, m ∈ log'.names ↔ m ∈ log.names ∨ m = q.stream

theorem extended_append {q : Request π} {log : EventLog} {rs : List Record}
    (hb : Record.Batch q.stream q.common (log.version q.stream) q.events rs) (hne : q.events ≠ []) :
    Extended q log (log.append rs) where
  stream := ⟨rs, hb, stream_append_self log hb.stream_eq⟩
  others := fun _ hm => stream_append_ne log hb.stream_eq hm
  names := fun _ => by
    refine mem_names_append hb.stream_eq ?_
    rintro rfl
    exact hne (List.length_eq_zero_iff.1 hb.length_eq.symm)

theorem save_all_or_none (q : Request π) (log : EventLog) :
    (∃ e, q.save (κ := κ) stamp log = (.fail e, log)) ∨
    (sizeLimit < log.version q.stream + q.events.length ∧
      q.save (κ := κ) stamp log = (.error (.overflow .addition), log)) ∨
    ((q.save (κ := κ) stamp log).1 = .ok () ∧ Extended q log (q.save (κ := κ) stamp log).2) := by
  unfold Request.save
  rcases save_cases (κ := κ) stamp q.stream q.events q.expected q.common log with
    ⟨-, hs⟩ | ⟨-, v, -, -, hs⟩ | ⟨-, -, before, bad, after, hes, -, ⟨-, s, -, hs⟩ | ⟨hle, hs⟩⟩ |
    ⟨hne, -, -, -, rs, hb, hs⟩ <;> rw [hs]
  · exact Or.inl ⟨_, rfl⟩
  · exact Or.inl ⟨_, rfl⟩
  · exact Or.inl ⟨_, rfl⟩
  · refine Or.inr (Or.inl ⟨?_, rfl⟩)
    rw [hes, List.length_append, List.length_cons]
    omega
  · exact Or.inr (Or.inr ⟨rfl, extended_append hb hne⟩)

theorem save_eq_ok_iff (q : Request π) (log : EventLog) :
    (q.save (κ := κ) stamp log).1 = .ok () ↔ q.events ≠ [] ∧
      Meets (log.version q.stream) q.expected ∧ (∀ e ∈ q.events, Record.Writable e) ∧
      log.version q.stream + q.events.length ≤ sizeLimit := by
  unfold Request.save
  rcases save_cases (κ := κ) stamp q.stream q.events q.expected q.common log with
    ⟨hnil, hs⟩ | ⟨-, v, hv, hne, hs⟩ |
    ⟨-, -, before, bad, after, hes, -, ⟨-, s, hbad, hs⟩ | ⟨hle, hs⟩⟩ |
    ⟨hne, hm, hw, hfit, rs, -, hs⟩ <;> rw [hs]
  · exact ⟨fun h => (nomatch h), fun h => absurd hnil h.1⟩
  · exact ⟨fun h => (nomatch h), fun h => absurd (h.2.1 v hv) hne⟩
  · refine ⟨fun h => (nomatch h), fun h => ?_⟩
    exact absurd (h.2.2.1 bad (by rw [hes]; simp)) (Record.not_writable hbad)
  · refine ⟨fun h => (nomatch h), fun h => ?_⟩
    have hfit := h.2.2.2
    rw [hes, List.length_append, List.length_cons] at hfit
    omega
  · exact ⟨fun _ => ⟨hne, hm, hw, hfit⟩, fun _ => rfl⟩

theorem save_of_nil {q : Request π} (h : q.events = []) (log : EventLog) :
    (q.save (κ := κ) stamp log).1 = .fail .noEventsToAppend := by
  unfold Request.save
  rw [h]
  rfl

theorem save_of_unmet {q : Request π} {log : EventLog} (hne : q.events ≠ []) {v : Nat}
    (hv : q.expected = some v) (hlt : v ≠ log.version q.stream) :
    (q.save (κ := κ) stamp log).1 =
      .fail (.versionConflict q.stream v (some (log.version q.stream))) := by
  unfold Request.save
  rcases save_cases (κ := κ) stamp q.stream q.events q.expected q.common log with
    ⟨hnil, -⟩ | ⟨-, v', hv', -, hs⟩ | ⟨-, hm, -⟩ | ⟨-, hm, -⟩
  · exact absurd hnil hne
  · obtain rfl : v = v' := Option.some.inj (hv.symm.trans hv')
    rw [hs]
  · exact absurd (hm v hv) hlt
  · exact absurd (hm v hv) hlt

theorem save_of_bad {q : Request π} {log : EventLog}
    (hm : Meets (log.version q.stream) q.expected) {before after : List (EventMessage π)}
    {bad : EventMessage π} {s : String} (hes : q.events = before ++ bad :: after)
    (hw : ∀ e ∈ before, Record.Writable e) (hs : EventPayload.encode bad.payload = .error s)
    (hfit : log.version q.stream + before.length < sizeLimit) :
    (q.save (κ := κ) stamp log).1 = .fail (.serialization s) := by
  have hu : unmet (log.version q.stream) q.expected = none := by
    rcases unmet_cases q.expected (log.version q.stream) with ⟨v, hv, hne, -⟩ | ⟨-, hu⟩
    · exact absurd (hm v hv) hne
    · exact hu
  have hout := Record.ofMessages_of_first hw hs after stamp q.stream q.common log.records.length
    (log.version q.stream) 0 hfit
  rw [← hes] at hout
  unfold Request.save
  rw [save_of_ne_nil stamp q.stream q.events q.expected q.common log (by rw [hes]; simp), hu, hout]
  rfl

end Save

/-- After any saves on an empty log, streams are present if they have records, whose places and
versions count up; the next save changes nothing or extends one stream; it succeeds just for a batch
that is not empty, meets the version and can be written, and else names the first of these that
fails. Only a stream of more records than places can be counted makes it overflow instead. -/
theorem append_only (κ : Type) (stamp : Nat → Stamp) (calls : List (Request π)) (q : Request π) :
    let log := saveAll κ stamp calls empty
    let saved := q.save (κ := κ) stamp log
    let count := log.version q.stream
    (∀ n, (n ∈ log.names ∧ log.stream n ≠ [] ∧
        load (κ := κ) n log = (.ok (log.stream n), log)) ∨
      (n ∉ log.names ∧ log.version n = 0 ∧
        load (κ := κ) n log = (.fail (.noEventsFound n), log))) ∧
    (∀ n k r, (log.stream n)[k]? = some r → r.stream = n ∧ r.position = k ∧
      (k + 1 < sizeLimit → r.version = .ok (k + 1))) ∧
    ((∃ e, saved = (.fail e, log)) ∨
      (sizeLimit < count + q.events.length ∧ saved = (.error (.overflow .addition), log)) ∨
      (saved.1 = .ok () ∧ Extended q log saved.2)) ∧
    (saved.1 = .ok () ↔ q.events ≠ [] ∧ Meets count q.expected ∧
      (∀ e ∈ q.events, Record.Writable e) ∧ count + q.events.length ≤ sizeLimit) ∧
    (q.events = [] → saved.1 = .fail .noEventsToAppend) ∧
    (q.events ≠ [] → ∀ v, q.expected = some v → v ≠ count →
      saved.1 = .fail (.versionConflict q.stream v (some count))) ∧
    (Meets count q.expected → ∀ before bad after s, q.events = before ++ bad :: after →
      (∀ e ∈ before, Record.Writable e) → EventPayload.encode bad.payload = .error s →
      count + before.length < sizeLimit → saved.1 = .fail (.serialization s)) := by
  intro log saved count
  have hplaced : log.Placed := placed_empty.saveAll stamp calls
  refine ⟨fun n => ?_, fun n k r hr => ?_, save_all_or_none stamp q log, save_eq_ok_iff stamp q log,
    fun h => save_of_nil stamp h log, fun hne v hv hlt => save_of_unmet stamp hne hv hlt,
    fun hm before bad after s hes hw hs hfit => save_of_bad stamp hm hes hw hs hfit⟩
  · by_cases hn : n ∈ log.names
    · exact Or.inl ⟨hn, mem_names.1 hn, load_of_mem hn⟩
    · exact Or.inr ⟨hn, load_of_not_mem hn⟩
  · have hpos : r.position = k := hplaced n k r hr
    exact ⟨mem_stream (List.mem_of_getElem? hr), hpos, Record.version_of_position hpos⟩

/-- Two events are stored; who expects one finds two. -/
theorem append_only_conflict :
    let calls : List (Request Inventory.Event) := [⟨"bolts",
      [.new "bolts" (.created "bolt"), .new "bolts" (.checkedIn 3)], some 0, .empty⟩]
    let q : Request Inventory.Event := ⟨"bolts", [.new "bolts" (.renamed "nut")], some 1, .empty⟩
    let log := saveAll Inventory.Command (fun _ => ⟨"", .epoch⟩) calls empty
    log.version "bolts" = 2 ∧
      (q.save (κ := Inventory.Command) (fun _ => ⟨"", .epoch⟩) log).1 =
        .fail (.versionConflict "bolts" 1 (some 2)) := by
  intro calls q log
  obtain ⟨-, -, -, -, -, hconflict, -⟩ :=
    append_only Inventory.Command (fun _ => ⟨"", .epoch⟩) calls q
  exact ⟨rfl, hconflict (List.cons_ne_nil _ _) 1 rfl (by decide)⟩

end EventLog

end EventSourcing
