import EventSourcing.Store.Memory
import Mathlib.Tactic.Common

/-!
A log seen stream by stream. Events are written out as a batch of records that follow each other in
one stream. A save appends such a batch or leaves the log alone, so a stream only ever grows at its
end. Two logs that differ in nothing but their stamps answer alike.
-/

namespace EventSourcing

variable {π κ : Type}

/-- The lists are related item by item, the first two items at place `p`. -/
inductive Along {ι ρ : Type} (R : Nat → ι → ρ → Prop) : Nat → List ι → List ρ → Prop
  | nil {p : Nat} : Along R p [] []
  | cons {p : Nat} {x : ι} {y : ρ} {xs : List ι} {ys : List ρ} :
    R p x y → Along R (p + 1) xs ys → Along R p (x :: xs) (y :: ys)

namespace Along

variable {ι ρ : Type} {R : Nat → ι → ρ → Prop} {p : Nat} {xs xs' : List ι} {ys ys' : List ρ}

theorem length_eq (h : Along R p xs ys) : ys.length = xs.length := by
  induction h with
  | nil => rfl
  | cons _ _ ih => rw [List.length_cons, List.length_cons, ih]

theorem append (h : Along R p xs ys) (h' : Along R (p + xs.length) xs' ys') :
    Along R p (xs ++ xs') (ys ++ ys') := by
  induction h with
  | nil => exact h'
  | @cons p x y xs ys hr _ ih =>
    rw [List.length_cons, show p + (xs.length + 1) = p + 1 + xs.length by omega] at h'
    exact cons hr (ih h')

theorem imp {S : Nat → ι → ρ → Prop} (h : Along R p xs ys) (hS : ∀ {k x y}, R k x y → S k x y) :
    Along S p xs ys := by
  induction h with
  | nil => exact nil
  | cons hr _ ih => exact cons (hS hr) ih

theorem getElem? (h : Along R p xs ys) {i : Nat} {y : ρ} (hy : ys[i]? = some y) :
    ∃ x, xs[i]? = some x ∧ R (p + i) x y := by
  induction h generalizing i with
  | nil => nomatch hy
  | @cons p x y' xs ys hr _ ih =>
    cases i with
    | zero =>
      obtain rfl := Option.some.inj hy
      exact ⟨x, rfl, hr⟩
    | succ i =>
      obtain ⟨x', hx', hr'⟩ := ih hy
      exact ⟨x', hx', by rwa [show p + (i + 1) = p + 1 + i by omega]⟩

theorem swap (h : Along R p xs ys) : Along (fun k y x => R k x y) p ys xs := by
  induction h with
  | nil => exact nil
  | cons hr _ ih => exact cons hr ih

/-- What stands beside the same items stands side by side. -/
theorem of_both {τ : Type} {S : Nat → ι → τ → Prop} {T : Nat → ρ → τ → Prop} {zs : List τ}
    (h : Along R p xs ys) (h' : Along S p xs zs) (hT : ∀ {k x y z}, R k x y → S k x z → T k y z) :
    Along T p ys zs := by
  induction h generalizing zs with
  | nil => cases h'; exact nil
  | cons hr _ ih =>
    cases h' with
    | cons hs hrest => exact cons (hT hr hs) (ih hrest)

theorem combine {τ : Type} {S : Nat → ι → τ → Prop} {T : Nat → ι → ρ → Prop} {zs : List τ}
    (h : Along R p xs ys) (h' : Along S p xs zs) (hT : ∀ {k x y z}, R k x y → S k x z → T k x y) :
    Along T p xs ys := by
  induction h generalizing zs with
  | nil => exact nil
  | cons hr _ ih =>
    cases h' with
    | cons hs hrest => exact cons (hT hr hs) (ih hrest)

theorem map_eq {τ : Type} {f : ι → τ} {g : ρ → τ} (h : Along (fun _ x y => f x = g y) p xs ys) :
    xs.map f = ys.map g := by
  induction h with
  | nil => rfl
  | cons hr _ ih => rw [List.map_cons, List.map_cons, hr, ih]

theorem of_map {τ : Type} {f : τ → ι} {ts : List τ} (h : Along R p (ts.map f) ys) :
    Along (fun k x y => R k (f x) y) p ts ys := by
  induction ts generalizing p ys with
  | nil => cases h; exact nil
  | cons t ts ih =>
    cases h with
    | cons hr hrest => exact cons hr (ih hrest)

theorem located (h : Along R p xs ys) (before : List ρ) (hp : before.length = p) :
    Along (fun k x y => R k x y ∧ (before ++ ys)[k]? = some y) p xs ys := by
  induction h generalizing before with
  | nil => exact nil
  | @cons p x y xs ys hr _ ih =>
    refine cons ⟨hr, ?_⟩ ?_
    · rw [← hp, List.getElem?_append_right (Nat.le_refl _), Nat.sub_self]
      rfl
    · have hrest := ih (before ++ [y]) (by rw [List.length_append, hp]; rfl)
      rwa [List.append_assoc] at hrest

end Along

namespace Record

/-- The record without what the store added of its own accord. -/
def unstamped (r : Record) : Record := { r with eventId := "", occurredAt := .epoch }

/-- The record is this event, written out at this place of the stream. -/
structure Holds [EventPayload π] (stream : String) (common : Headers) (position : Nat)
    (e : EventMessage π) (r : Record) : Prop where
  eventType : r.eventType = e.eventType
  stream : r.stream = stream
  position : r.position = position
  payload : EventPayload.encode e.payload = .ok r.payload
  headers : r.headers = common.overlay e.headers

/-- The records are these events, one after the other, the first at this place. -/
abbrev Batch [EventPayload π] (stream : String) (common : Headers) :
    Nat → List (EventMessage π) → List Record → Prop := Along (Holds stream common)

def Writable [EventPayload π] (e : EventMessage π) : Prop :=
  ∃ j, EventPayload.encode e.payload = .ok j

theorem not_writable [EventPayload π] {e : EventMessage π} {s : String}
    (h : EventPayload.encode e.payload = .error s) : ¬ Writable e := by
  rintro ⟨j, hj⟩
  rw [hj] at h
  nomatch h

/-- The events that have a place behind the first `start` of a stream can all be written. -/
def WritableFrom [EventPayload π] (start : Nat) (es : List (EventMessage π)) : Prop :=
  ∀ e ∈ es.take (sizeLimit - start), Writable e

theorem writableFrom_of_forall [EventPayload π] (start : Nat) {es : List (EventMessage π)}
    (h : ∀ e ∈ es, Writable e) : WritableFrom start es :=
  fun e he => h e (List.mem_of_mem_take he)

theorem writableFrom_of_full [EventPayload π] {start : Nat} {before : List (EventMessage π)}
    (hw : ∀ e ∈ before, Writable e) (hle : sizeLimit ≤ start + before.length)
    (after : List (EventMessage π)) : WritableFrom start (before ++ after) := by
  intro e he
  rw [List.take_append_of_le_length (by omega)] at he
  exact hw e (List.mem_of_mem_take he)

theorem not_writableFrom [EventPayload π] {start : Nat} {before : List (EventMessage π)}
    {bad : EventMessage π} (hlt : start + before.length < sizeLimit) (hbad : ¬ Writable bad)
    (after : List (EventMessage π)) : ¬ WritableFrom start (before ++ bad :: after) := by
  intro h
  refine hbad (h bad (List.mem_take_iff_getElem.2 ⟨before.length, ?_, ?_⟩))
  · rw [List.length_append, List.length_cons]
    omega
  · simp

theorem version_of_position {r : Record} {k : Nat} (h : r.position = k) (hlt : k + 1 < sizeLimit) :
    r.version = .ok (k + 1) := by
  unfold version
  rw [h]
  exact addSize_eq_ok.2 ⟨hlt, rfl⟩

variable [EventPayload π] {stream : String} {common : Headers}

theorem ofMessage_cases (stamp : Stamp) (stream : String) (p : Nat) (e : EventMessage π)
    (common : Headers) :
    (∃ s, EventPayload.encode e.payload = .error s ∧
      ofMessage stamp stream p e common = .error s) ∨
    ∃ r, Holds stream common p e r ∧ ofMessage stamp stream p e common = .ok r := by
  unfold ofMessage
  cases h : EventPayload.encode e.payload with
  | error s => exact Or.inl ⟨s, rfl, rfl⟩
  | ok j => exact Or.inr ⟨_, ⟨rfl, rfl, rfl, h, rfl⟩, rfl⟩

theorem Holds.writable {p : Nat} {e : EventMessage π} {r : Record}
    (h : Holds stream common p e r) : Writable e := ⟨r.payload, h.payload⟩

/-- Events make a batch, or there is a first event that cannot be written or has no place. -/
theorem ofMessages_cases (stamp : Nat → Stamp) (stream : String) (common : Headers)
    (serial start offset : Nat) (es : List (EventMessage π)) :
    (∃ rs, Batch stream common (start + offset) es rs ∧
      (∀ k < es.length, start + offset + k < sizeLimit) ∧
      ofMessages stamp stream common serial start offset es = .ok rs) ∨
    ∃ before bad after, es = before ++ bad :: after ∧ (∀ e ∈ before, Writable e) ∧
      ((start + offset + before.length < sizeLimit ∧
        ∃ s, EventPayload.encode bad.payload = .error s ∧
          ofMessages stamp stream common serial start offset es = .fail s) ∨
      (sizeLimit ≤ start + offset + before.length ∧
        ofMessages stamp stream common serial start offset es = .error (.overflow .addition))) := by
  induction es generalizing offset with
  | nil => exact Or.inl ⟨[], Along.nil, (fun k hk => nomatch hk), rfl⟩
  | cons e es ih =>
    by_cases hfit : start + offset < sizeLimit
    · have hplace : addSize start offset = .ok (start + offset) := addSize_eq_ok.2 ⟨hfit, rfl⟩
      rcases ofMessage_cases (stamp (serial + offset)) stream (start + offset) e common with
        ⟨s, hs, he⟩ | ⟨r, hr, he⟩
      · refine Or.inr ⟨[], e, es, rfl, (fun e he => nomatch he), Or.inl ⟨hfit, s, hs, ?_⟩⟩
        simp only [ofMessages, hplace, he]
      · rcases ih (offset + 1) with ⟨rs, hb, hrest, hrs⟩ | ⟨before, bad, after, rfl, hw, hend⟩
        · refine Or.inl ⟨r :: rs, Along.cons hr hb, fun k hk => ?_,
            by simp only [ofMessages, hplace, he, hrs]⟩
          rcases k with _ | k
          · exact hfit
          · have := hrest k (Nat.lt_of_succ_lt_succ hk)
            omega
        · refine Or.inr ⟨e :: before, bad, after, rfl, List.forall_mem_cons.2 ⟨hr.writable, hw⟩, ?_⟩
          rw [List.length_cons]
          rcases hend with ⟨hlt, s, hs, herr⟩ | ⟨hle, herr⟩
          · exact Or.inl ⟨by omega, s, hs, by simp only [ofMessages, hplace, he, herr]; rfl⟩
          · exact Or.inr ⟨by omega, by simp only [ofMessages, hplace, he, herr]⟩
    · have hplace : addSize start offset = .error .addition := if_neg hfit
      refine Or.inr ⟨[], e, es, rfl, (fun e he => nomatch he), Or.inr ⟨Nat.not_lt.1 hfit, ?_⟩⟩
      simp only [ofMessages, hplace]

theorem Batch.writable {p : Nat} {es : List (EventMessage π)} {rs : List Record}
    (h : Batch stream common p es rs) : ∀ e ∈ es, Writable e := by
  induction h with
  | nil => exact fun e he => nomatch he
  | cons hr _ ih => exact List.forall_mem_cons.2 ⟨hr.writable, ih⟩

theorem Batch.stream_eq {p : Nat} {es : List (EventMessage π)} {rs : List Record}
    (h : Batch stream common p es rs) : ∀ r ∈ rs, r.stream = stream := by
  induction h with
  | nil => exact fun r hr => nomatch hr
  | cons hr _ ih => exact List.forall_mem_cons.2 ⟨hr.stream, ih⟩

/-- The event decides all of its record but the stamp. -/
theorem Holds.unstamped_eq {p : Nat} {e : EventMessage π} {r r' : Record}
    (h : Holds stream common p e r) (h' : Holds stream common p e r') :
    r.unstamped = r'.unstamped := by
  have hpayload : r.payload = r'.payload := Except.ok.inj (h.payload.symm.trans h'.payload)
  unfold unstamped
  rw [h.eventType, h.stream, h.position, hpayload, h.headers, h'.eventType, h'.stream,
    h'.position, h'.headers]

theorem Batch.unstamped_eq {p : Nat} {es : List (EventMessage π)} {rs rs' : List Record}
    (h : Batch stream common p es rs) (h' : Batch stream common p es rs') :
    rs.map unstamped = rs'.map unstamped :=
  Along.map_eq (h.of_both h' fun hr hr' => hr.unstamped_eq hr')

end Record

namespace EventLog

def unstamped (log : EventLog) : EventLog := ⟨log.records.map Record.unstamped⟩

theorem stream_unstamped (log : EventLog) (name : String) :
    log.unstamped.stream name = (log.stream name).map Record.unstamped := by
  unfold stream unstamped
  rw [List.filter_map]
  rfl

theorem take_version (log : EventLog) (name : String) :
    (log.stream name).take (log.version name) = log.stream name := List.take_length

theorem unstamped_append (log : EventLog) (rs : List Record) :
    (log.append rs).unstamped = log.unstamped.append (rs.map Record.unstamped) := by
  simp only [unstamped, append, List.map_append]

@[simp] theorem stream_empty (name : String) : empty.stream name = [] := rfl

theorem stream_append (log : EventLog) (rs : List Record) (name : String) :
    (log.append rs).stream name = log.stream name ++ rs.filter fun r => r.stream == name :=
  List.filter_append _ _

theorem append_nil (log : EventLog) : log.append [] = log :=
  congrArg EventLog.mk (List.append_nil log.records)

theorem stream_append_self (log : EventLog) {rs : List Record} {name : String}
    (h : ∀ r ∈ rs, r.stream = name) : (log.append rs).stream name = log.stream name ++ rs := by
  rw [stream_append, List.filter_eq_self.2 fun r hr => by simp [h r hr]]

theorem stream_append_ne (log : EventLog) {rs : List Record} {name other : String}
    (h : ∀ r ∈ rs, r.stream = name) (hne : other ≠ name) :
    (log.append rs).stream other = log.stream other := by
  rw [stream_append, List.filter_eq_nil_iff.2 fun r hr => by simp [h r hr, hne.symm],
    List.append_nil]

theorem version_append_self (log : EventLog) {rs : List Record} {name : String}
    (h : ∀ r ∈ rs, r.stream = name) :
    (log.append rs).version name = log.version name + rs.length := by
  unfold version
  rw [stream_append_self log h, List.length_append]

def Grows (log log' : EventLog) : Prop := log.records <+: log'.records

theorem Grows.refl (log : EventLog) : Grows log log := List.prefix_refl _

theorem Grows.trans {a b c : EventLog} (h : Grows a b) (h' : Grows b c) : Grows a c :=
  List.IsPrefix.trans h h'

theorem grows_append (log : EventLog) (rs : List Record) : Grows log (log.append rs) :=
  List.prefix_append _ _

theorem Grows.stream {log log' : EventLog} (h : Grows log log') (name : String) :
    log.stream name <+: log'.stream name := List.IsPrefix.filter _ h

theorem Grows.version_le {log log' : EventLog} (h : Grows log log') (name : String) :
    log.version name ≤ log'.version name := (h.stream name).length_le

/-- What a stream held before it grew is still its beginning. -/
theorem Grows.take {log log' : EventLog} (h : Grows log log') {name : String} {k : Nat}
    (hk : k ≤ log.version name) : (log'.stream name).take k = (log.stream name).take k := by
  obtain ⟨t, ht⟩ := h.stream name
  rw [← ht, List.take_append_of_le_length hk]

def AlikeOn (name : String) (log log' : EventLog) : Prop :=
  (log.stream name).map Record.unstamped = (log'.stream name).map Record.unstamped

theorem AlikeOn.refl (name : String) (log : EventLog) : AlikeOn name log log := rfl

theorem AlikeOn.symm {name : String} {log log' : EventLog} (h : AlikeOn name log log') :
    AlikeOn name log' log := Eq.symm h

theorem AlikeOn.trans {name : String} {a b c : EventLog} (h : AlikeOn name a b)
    (h' : AlikeOn name b c) : AlikeOn name a c := Eq.trans h h'

theorem AlikeOn.of_stream_eq {name : String} {log log' : EventLog}
    (h : log.stream name = log'.stream name) : AlikeOn name log log' :=
  congrArg (List.map Record.unstamped) h

theorem AlikeOn.of_unstamped {log log' : EventLog} (h : log.unstamped = log'.unstamped)
    (name : String) : AlikeOn name log log' := by
  unfold AlikeOn
  rw [← stream_unstamped, h, stream_unstamped]

theorem AlikeOn.version {name : String} {log log' : EventLog} (h : AlikeOn name log log') :
    log.version name = log'.version name := by
  have hlength := congrArg List.length h
  rwa [List.length_map, List.length_map] at hlength

theorem AlikeOn.append {name : String} {log log' : EventLog} {rs rs' : List Record}
    (h : AlikeOn name log log') (hrs : rs.map Record.unstamped = rs'.map Record.unstamped) :
    AlikeOn name (log.append rs) (log'.append rs') := by
  unfold AlikeOn at h ⊢
  rw [← stream_unstamped, ← stream_unstamped, unstamped_append, unstamped_append, stream_append,
    stream_append, stream_unstamped, stream_unstamped, h, hrs]

section Save

variable [EventPayload π] (stamp : Nat → Stamp) (name : String) (es : List (EventMessage π))
  (expected : Option Nat) (common : Headers) (log : EventLog)

def Meets (version : Nat) (expected : Option Nat) : Prop := ∀ v, expected = some v → v = version

theorem unmet_cases (version : Nat) :
    (∃ v, expected = some v ∧ v ≠ version ∧ unmet version expected = some v) ∨
    (Meets version expected ∧ unmet version expected = none) := by
  rcases expected with _ | v
  · exact Or.inr ⟨(fun v hv => nomatch hv), rfl⟩
  · by_cases hv : v = version
    · exact Or.inr ⟨fun w hw => by rw [← Option.some.inj hw, hv], by simp only [unmet, if_pos hv]⟩
    · exact Or.inl ⟨v, rfl, hv, by simp only [unmet, if_neg hv]⟩

theorem save_of_ne_nil (hes : es ≠ []) :
    save (κ := κ) stamp name es expected common log =
      match unmet (log.version name) expected with
      | some v => (.fail (.versionConflict name v (some (log.version name))), log)
      | none =>
        match Record.ofMessages stamp name common log.records.length (log.version name) 0 es with
        | .error fault => (Outcome.mapError .serialization (.error fault), log)
        | .ok rs => (.ok (), log.append rs) := by
  cases es with
  | nil => exact absurd rfl hes
  | cons e es => rfl

/-- A save refuses an empty batch, then a version that is not met, then an event that cannot be
written, unless it runs out of places before; else it appends the batch. -/
theorem save_cases :
    (es = [] ∧ save (κ := κ) stamp name es expected common log = (.fail .noEventsToAppend, log)) ∨
    (es ≠ [] ∧ ∃ v, expected = some v ∧ v ≠ log.version name ∧
      save (κ := κ) stamp name es expected common log =
        (.fail (.versionConflict name v (some (log.version name))), log)) ∨
    (es ≠ [] ∧ Meets (log.version name) expected ∧
      ∃ before bad after, es = before ++ bad :: after ∧ (∀ e ∈ before, Record.Writable e) ∧
        ((log.version name + before.length < sizeLimit ∧
          ∃ s, EventPayload.encode bad.payload = .error s ∧
            save (κ := κ) stamp name es expected common log = (.fail (.serialization s), log)) ∨
        (sizeLimit ≤ log.version name + before.length ∧
          save (κ := κ) stamp name es expected common log = (.error (.overflow .addition), log)))) ∨
    (es ≠ [] ∧ Meets (log.version name) expected ∧ (∀ e ∈ es, Record.Writable e) ∧
      log.version name + es.length ≤ sizeLimit ∧
      ∃ rs, Record.Batch name common (log.version name) es rs ∧
        save (κ := κ) stamp name es expected common log = (.ok (), log.append rs)) := by
  by_cases hne : es = []
  · subst hne
    exact Or.inl ⟨rfl, rfl⟩
  · right
    rw [save_of_ne_nil stamp name es expected common log hne]
    rcases unmet_cases expected (log.version name) with ⟨v, rfl, hv, hu⟩ | ⟨hm, hu⟩ <;> rw [hu]
    · exact Or.inl ⟨hne, v, rfl, hv, rfl⟩
    · right
      have hwritten := Record.ofMessages_cases stamp name common log.records.length
        (log.version name) 0 es
      rw [Nat.add_zero] at hwritten
      rcases hwritten with ⟨rs, hb, hfit, hrs⟩ | ⟨before, bad, after, hes, hw, hend⟩
      · refine Or.inr ⟨hne, hm, hb.writable, ?_, rs, hb, by rw [hrs]⟩
        have hpos : 0 < es.length := List.length_pos_iff.2 hne
        have hlast := hfit (es.length - 1) (by omega)
        omega
      · refine Or.inl ⟨hne, hm, before, bad, after, hes, hw, ?_⟩
        rcases hend with ⟨hlt, s, hs, herr⟩ | ⟨hle, herr⟩
        · exact Or.inl ⟨hlt, s, hs, by rw [herr]; rfl⟩
        · exact Or.inr ⟨hle, by rw [herr]; rfl⟩

end Save

end EventLog

end EventSourcing
