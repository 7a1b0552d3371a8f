import EventSourcing.Proofs.RemoteStore
import EventSourcing.Transport.Remote

/-!
A remote end that keeps its streams as lists. Reading a stream brings its records in order, or tells
that there is no such stream; an append adds to one list or is refused for the version it expects.
A header map whose keys ascend comes back as it was sent, and all that are stored are such.
-/

namespace EventSourcing

variable {π κ ρ : Type}

namespace Headers

theorem forall_setMember {P : String → Prop} {key : String} (hkey : P key) (value : Json)
    {ms : List (String × Json)} (hms : ∀ m ∈ ms, P m.1) : ∀ m ∈ setMember key value ms, P m.1 := by
  induction ms with
  | nil => exact List.forall_mem_cons.2 ⟨hkey, fun m hm => nomatch hm⟩
  | cons m rest ih =>
    obtain ⟨hm, hrest⟩ := List.forall_mem_cons.1 hms
    simp only [setMember]
    split
    · exact List.forall_mem_cons.2 ⟨hkey, hrest⟩
    · split
      · exact List.forall_mem_cons.2 ⟨hkey, hms⟩
      · exact List.forall_mem_cons.2 ⟨hm, ih hrest⟩

def Ordered (hd : Headers) : Prop := hd.members.Pairwise fun m m' => m.1 < m'.1

theorem ordered_empty : empty.Ordered := List.Pairwise.nil

namespace Ordered

variable {hd : Headers}

theorem insert (h : hd.Ordered) (key : String) (value : Json) : (hd.insert key value).Ordered := by
  obtain ⟨ms⟩ := hd
  unfold Ordered Headers.insert at *
  induction ms with
  | nil => exact List.pairwise_singleton _ _
  | cons m rest ih =>
    obtain ⟨k, v⟩ := m
    obtain ⟨hk, hrest⟩ := List.pairwise_cons.1 h
    simp only [setMember]
    split
    · rename_i heq
      subst heq
      exact List.pairwise_cons.2 ⟨hk, hrest⟩
    · split
      · rename_i hlt
        exact List.pairwise_cons.2
          ⟨List.forall_mem_cons.2 ⟨hlt, fun m hm => String.lt_trans hlt (hk m hm)⟩, h⟩
      · rename_i hne hnlt
        have hlt : k < key := by grind
        exact List.pairwise_cons.2 ⟨forall_setMember (P := (k < ·)) hlt value hk, ih hrest⟩

theorem overlay {base : Headers} (h : base.Ordered) (top : Headers) :
    (base.overlay top).Ordered := by
  obtain ⟨ms⟩ := top
  induction ms with
  | nil => exact h
  | cons m rest ih => exact ih.insert m.1 m.2

theorem overlay_empty (h : hd.Ordered) : empty.overlay hd = hd := by
  obtain ⟨ms⟩ := hd
  induction ms with
  | nil => rfl
  | cons m rest ih =>
    obtain ⟨hm, hrest⟩ := List.pairwise_cons.1 h
    show (empty.overlay ⟨rest⟩).insert m.1 m.2 = _
    rw [ih hrest]
    cases rest with
    | nil => rfl
    | cons m' rest =>
      have hlt : m.1 < m'.1 := hm m' List.mem_cons_self
      have hne : ¬ m'.1 = m.1 := by grind
      simp only [Headers.insert, setMember, hne, hlt, if_true, if_false]

end Ordered

end Headers

def RawRecord.sent (raw : RawRecord) : OutgoingEvent := ⟨raw.eventType, raw.payload, raw.headers⟩

abbrev Holdings := String → Option (List RawRecord)

namespace Holdings

def records (held : Holdings) (n : String) : List RawRecord := (held n).getD []

def put (held : Holdings) (n : String) (raws : List RawRecord) : Holdings :=
  fun m => if m = n then some raws else held m

theorem records_put_self (held : Holdings) (n : String) (raws : List RawRecord) :
    (held.put n raws).records n = raws := by
  simp only [records, put, if_true, Option.getD_some]

theorem records_put_ne (held : Holdings) {n m : String} (hne : m ≠ n) (raws : List RawRecord) :
    (held.put n raws).records m = held.records m := by
  simp only [records, put, hne, if_false]

end Holdings

/-- The feed brings the records of a stream, or tells that there is no such stream. -/
def Feed.Brings (feed : Feed) : Option (List RawRecord) → Prop
  | none => ∃ delay, feed.items = [(delay, .error .notFound)]
  | some raws =>
    feed.stalls = false ∧ feed.items.map (·.2) = raws.map fun raw => .ok (raw, .empty)

/-- The remote end keeps lists of records, however long its answers take. -/
structure Transport.KeepsLists (t : Transport ρ) (Holds : ρ → Holdings → Prop) : Prop where
  read : ∀ {x held}, Holds x held → ∀ n capacity,
    (t.read n capacity x).1.Brings (held n) ∧ Holds (t.read n capacity x).2 held
  accept : ∀ {x held n expected}, Holds x held →
    EventLog.Meets (held.records n).length expected → ∀ sent,
    (t.append n expected sent x).answer = .ok () ∧
      ∃ raws, Along (fun k e raw => raw.sent = e ∧ raw.position = k) (held.records n).length
          sent raws ∧
        Holds (t.append n expected sent x).remote (held.put n (held.records n ++ raws))
  refuse : ∀ {x held n expected}, Holds x held →
    ¬ EventLog.Meets (held.records n).length expected → ∀ sent,
    ∃ reason held', (t.append n expected sent x).answer = .error (.conflict reason) ∧
      Holds (t.append n expected sent x).remote held' ∧ ∀ m, held'.records m = held.records m

namespace Streaming

theorem drain_unlimited {n : String} {raws : List RawRecord} {items : List (Duration × ReadItem)}
    (h : items.map (·.2) = raws.map fun raw => .ok (raw, .empty)) (clock : Clock) :
    (drain (κ := κ) .none n false items clock).1 =
      .ok (raws.map fun raw => recordOf n raw .empty) := by
  have harrived : items.map (·.2) = (raws.map (·, Headers.empty)).map .ok := by
    rw [h, List.map_map]
    rfl
  have hdrain := drain_of_closed (κ := κ) (n := n) harrived clock
  rwa [List.map_map] at hdrain

end Streaming

theorem Along.mapIdx {ι ρ : Type} (f : Nat → ι → ρ) (p : Nat) (xs : List ι) :
    Along (fun k x y => y = f k x) p xs (xs.mapIdx fun i x => f (p + i) x) := by
  induction xs generalizing p with
  | nil => exact Along.nil
  | cons x xs ih =>
    rw [List.mapIdx_cons]
    refine Along.cons rfl ?_
    simpa only [Nat.add_assoc, Nat.add_comm 1] using ih (p + 1)

namespace Remote

def feedOf (raws : List RawRecord) : Feed := ⟨raws.map fun raw => (⟨0⟩, .ok (raw, .empty)), false⟩

/-- No answer is scripted, and the feeds are those of the records held. -/
structure Holds (x : Remote) (held : Holdings) : Prop where
  script : x.script = []
  feeds : ∀ n, x.feed? n = (held n).map feedOf

theorem feed?_seed (x : Remote) (n : String) (feed : Feed) (m : String) :
    (x.seed n feed).feed? m = if m = n then some feed else x.feed? m := by
  unfold feed? seed
  induction x.streams with
  | nil => grind [putFeed]
  | cons s rest ih => grind [putFeed]

variable {x : Remote} {held : Holdings}

def recordAt (position : Nat) (e : OutgoingEvent) : RawRecord :=
  ⟨"r-" ++ toString position, e.eventType, e.payload, position, .epoch, e.headers⟩

theorem Holds.feed (h : x.Holds held) (n : String) :
    (x.feed? n).getD ⟨[], false⟩ = feedOf (held.records n) := by
  rw [h.feeds]
  unfold Holdings.records
  cases held n <;> rfl

theorem Holds.noted (h : x.Holds held) (call : RemoteCall) :
    Holds { x with calls := x.calls ++ [call] } held := ⟨h.script, h.feeds⟩

theorem Holds.seed (h : x.Holds held) (n : String) (raws : List RawRecord) :
    (x.seed n (feedOf raws)).Holds (held.put n raws) where
  script := h.script
  feeds m := by
    rw [feed?_seed, h.feeds]
    unfold Holdings.put
    split <;> rfl

theorem Holds.add (h : x.Holds held) (n : String) (sent : List OutgoingEvent) :
    (x.add n (feedOf (held.records n)) sent).Holds (held.put n (held.records n ++
      sent.mapIdx fun i e => recordAt ((held.records n).length + i) e)) := by
  have hitems : (feedOf (held.records n)).items ++ sent.mapIdx (fun i e =>
        itemOf ((feedOf (held.records n)).items.length + i) e) =
      (feedOf (held.records n ++ sent.mapIdx fun i e =>
        recordAt ((held.records n).length + i) e)).items := by
    simp only [feedOf, List.map_append, List.length_map, List.mapIdx_eq_zipIdx_map, List.map_map]
    rfl
  unfold Remote.add
  simp only [hitems]
  exact h.seed n _

theorem Holds.append (h : x.Holds held) (n : String) (expected : Option Nat)
    (sent : List OutgoingEvent) :
    let noted : Remote :=
      { x with calls := x.calls ++ [.append n expected sent], script := x.script.tail }
    noted.Holds held ∧ Remote.append n expected sent x =
      match EventLog.unmet (held.records n).length expected with
      | none => ⟨x.delay, .ok (), noted.add n (feedOf (held.records n)) sent⟩
      | some v => ⟨x.delay, .error (.conflict ("expected " ++ toString v ++ ", actual " ++
          toString (held.records n).length)), noted.seed n (feedOf (held.records n))⟩ := by
  have hlen : (feedOf (held.records n)).items.length = (held.records n).length :=
    List.length_map _
  refine ⟨⟨by rw [h.script]; rfl, h.feeds⟩, ?_⟩
  unfold Remote.append
  rw [h.feed, h.script]
  rcases expected with _ | v
  · rfl
  · simp only [List.headD_nil, EventLog.unmet, hlen]
    split <;> rfl

theorem keepsLists : transport.KeepsLists Holds where
  read := by
    intro x held h n capacity
    refine ⟨?_, h.noted _⟩
    show ((x.feed? n).getD ⟨[(⟨0⟩, .error .notFound)], false⟩).Brings (held n)
    rw [h.feeds]
    cases held n with
    | none => exact ⟨⟨0⟩, rfl⟩
    | some raws =>
      refine ⟨rfl, ?_⟩
      show (feedOf raws).items.map (·.2) = _
      unfold feedOf
      rw [List.map_map]
      rfl
  accept := by
    intro x held n expected h hmeets sent
    obtain ⟨hnoted, happ⟩ := h.append n expected sent
    rcases EventLog.unmet_cases expected (held.records n).length with ⟨v, hv, hne, -⟩ | ⟨-, hu⟩
    · exact absurd (hmeets v hv) hne
    · rw [hu] at happ
      simp only [show transport.append = Remote.append from rfl, happ]
      refine ⟨trivial, _, ?_, hnoted.add n sent⟩
      refine (Along.mapIdx recordAt _ sent).imp fun h => ?_
      rw [h]
      exact ⟨rfl, rfl⟩
  refuse := by
    intro x held n expected h hmeets sent
    obtain ⟨hnoted, happ⟩ := h.append n expected sent
    rcases EventLog.unmet_cases expected (held.records n).length with ⟨v, -, -, hu⟩ | ⟨hm, -⟩
    · rw [hu] at happ
      simp only [show transport.append = Remote.append from rfl, happ]
      refine ⟨_, _, rfl, hnoted.seed n (held.records n), fun m => ?_⟩
      by_cases hm : m = n
      · rw [hm, Holdings.records_put_self]
      · rw [Holdings.records_put_ne held hm]
    · exact absurd hm hmeets

end Remote

end EventSourcing
