import EventSourcing.Proofs.Replay
import EventSourcing.Proofs.RemoteLists

/-!
The log in memory beside a remote end that keeps the same records. Reading a stream brings what the
log has, unless the remote end does not know it; a batch that the log has places for is stored by
both or by neither. What is asked first differs: the remote end looks at the version only once all
events were written out.
-/

namespace EventSourcing

variable {π κ σ β γ ρ : Type}

structure Record.Mirrors (k : Nat) (r : Record) (raw : RawRecord) : Prop where
  sent : raw.sent = r.sent
  place : raw.position = k
  position : r.position = k
  ordered : r.headers.Ordered

/-- Stream by stream the remote end keeps the records of the log. -/
def EventLog.MirroredBy (Holds : ρ → Holdings → Prop) (log : EventLog) (x : ρ) : Prop :=
  ∃ held, Holds x held ∧ ∀ n, Along Record.Mirrors 0 (log.stream n) (held.records n)

theorem Repository.ordered_commonHeaders (type : String) : (commonHeaders type).Ordered :=
  Headers.ordered_empty.insert _ _

/-- A record that was read is replayed as the one it mirrors. -/
theorem Repository.replay_mirrored (b : Behavior π κ σ) (f : EventFactory π) (id n : String)
    {k : Nat} {rs : List Record} {raws : List RawRecord} (h : Along Record.Mirrors k rs raws)
    (a : Aggregate π σ) :
    replay b f id (raws.map fun raw => Streaming.recordOf n raw .empty) a = replay b f id rs a := by
  induction h generalizing a with
  | nil => rfl
  | @cons k r raw rs raws hr _ ih =>
    have hone : replayOne b f id a (Streaming.recordOf n raw .empty) = replayOne b f id a r := by
      obtain ⟨htype, hpayload, hheaders⟩ := OutgoingEvent.mk.inj hr.sent
      unfold replayOne Streaming.recordOf Record.version
      simp only [htype, hpayload, hheaders, hr.ordered.overlay_empty, hr.place, hr.position]
    rw [List.map_cons]
    simp only [replay, hone]
    cases replayOne b f id a r with
    | error fault => rfl
    | ok a' => exact ih a'

section Store

variable {t : Transport ρ} {Holds : ρ → Holdings → Prop} {config : StreamingConfig}
  {log : EventLog} {c : Connection ρ} {n : String}

/-- A read brings the stream, or says that there is none; then the log has none either. -/
theorem Streaming.load_mirrored (ht : t.KeepsLists Holds) (hlim : config.limits = .none)
    (hm : log.MirroredBy Holds c.remote) (n : String) :
    log.MirroredBy Holds (load (κ := κ) config t n c).2.remote ∧
      (((load (κ := κ) config t n c).1 = .fail (.streamNotFound n) ∧ log.stream n = []) ∨
      ∃ raws, (load (κ := κ) config t n c).1 = .ok (raws.map fun raw => recordOf n raw .empty) ∧
        Along Record.Mirrors 0 (log.stream n) raws) := by
  obtain ⟨held, hx, hall⟩ := hm
  obtain ⟨hbrings, hstill⟩ := ht.read hx n (max config.capacity 1)
  have hn := hall n
  have hload : (load (κ := κ) config t n c).1 =
      (drain config.limits n (t.read n (max config.capacity 1) c.remote).1.stalls
        (t.read n (max config.capacity 1) c.remote).1.items c.clock).1 := rfl
  refine ⟨⟨held, hstill, hall⟩, ?_⟩
  rw [hload, hlim]
  unfold Holdings.records at hn
  rcases hheld : held n with _ | raws <;> rw [hheld] at hbrings hn
  · obtain ⟨delay, hitems⟩ := hbrings
    rw [hitems]
    exact Or.inl ⟨drain_cons rfl, List.length_eq_zero_iff.1 hn.length_eq.symm⟩
  · obtain ⟨hstalls, hitems⟩ := hbrings
    rw [hstalls]
    exact Or.inr ⟨raws, drain_unlimited hitems c.clock, hn⟩

variable [EventPayload π]

theorem Record.Batch.mirrors {common : Headers} {p : Nat} {es : List (EventMessage π)}
    {rs : List Record} {raws : List RawRecord} (hb : Batch n common p es rs)
    (hcommon : common.Ordered)
    (hraws : Along (fun k e raw => raw.sent = e ∧ raw.position = k) p (rs.map sent) raws) :
    Along Mirrors p rs raws := by
  refine hraws.of_map.combine hb.swap ?_
  intro k r raw e hkept hrec
  refine ⟨hkept.1, hkept.2, hrec.position, ?_⟩
  rw [hrec.headers]
  exact hcommon.overlay e.headers

theorem append_mirrored (ht : t.KeepsLists Holds) {x : ρ} (hm : log.MirroredBy Holds x)
    {v : Nat} (hmeets : EventLog.Meets (log.version n) (some v)) {common : Headers}
    (hcommon : common.Ordered) {es : List (EventMessage π)} {rs : List Record}
    (hb : Record.Batch n common (log.version n) es rs) :
    (t.append n (some v) (rs.map Record.sent) x).answer = .ok () ∧
      (log.append rs).MirroredBy Holds (t.append n (some v) (rs.map Record.sent) x).remote := by
  obtain ⟨held, hx, hall⟩ := hm
  have hlen : (held.records n).length = log.version n := (hall n).length_eq
  rw [← hlen] at hmeets
  obtain ⟨hans, raws, hraws, hx'⟩ := ht.accept hx hmeets (rs.map Record.sent)
  rw [hlen] at hraws
  refine ⟨hans, _, hx', fun m => ?_⟩
  by_cases hmn : m = n
  · subst hmn
    rw [Holdings.records_put_self, EventLog.stream_append_self log hb.stream_eq]
    refine (hall m).append ?_
    rw [Nat.zero_add]
    exact hb.mirrors hcommon hraws
  · rw [Holdings.records_put_ne held hmn, EventLog.stream_append_ne log hb.stream_eq hmn]
    exact hall m

theorem conflict_mirrored (ht : t.KeepsLists Holds) {x : ρ} (hm : log.MirroredBy Holds x)
    {v : Nat} (hne : v ≠ log.version n) (sent : List OutgoingEvent) :
    (∃ reason, (t.append n (some v) sent x).answer = .error (.conflict reason)) ∧
      log.MirroredBy Holds (t.append n (some v) sent x).remote := by
  obtain ⟨held, hx, hall⟩ := hm
  have hunmet : ¬ EventLog.Meets (held.records n).length (some v) := by
    rw [show (held.records n).length = log.version n from (hall n).length_eq]
    exact fun h => hne (h v rfl)
  obtain ⟨reason, held', hans, hx', hsame⟩ := ht.refuse hx hunmet sent
  refine ⟨⟨reason, hans⟩, held', hx', fun m => ?_⟩
  rw [hsame m]
  exact hall m

/-- What the two stores make of a batch for which version `v` is expected. If the log runs out of
places for it, nothing is said of the remote end. -/
inductive SavedAlike (Holds : ρ → Holdings → Prop) (n : String) (es : List (EventMessage π))
    (v : Nat) (log : EventLog) (c : Connection ρ) :
    DomainOutcome κ Unit × EventLog → DomainOutcome κ Unit × Connection ρ → Prop
  | stored {log' c'} : v = log.version n → log'.MirroredBy Holds c'.remote →
    SavedAlike Holds n es v log c (.ok (), log') (.ok (), c')
  | unwritable {s} : SavedAlike Holds n es v log c
    (.fail (.serialization s), log) (.fail (.serialization s), c)
  | stale {actual actual' c'} : log.MirroredBy Holds c'.remote → SavedAlike Holds n es v log c
    (.fail (.versionConflict n v actual), log) (.fail (.versionConflict n v actual'), c')
  | full {o'} : v = log.version n → Record.WritableFrom (log.version n) es →
    sizeLimit < log.version n + es.length →
    SavedAlike Holds n es v log c (.error (.overflow .addition), log) o'
  | staleUnwritable {actual s} : v ≠ log.version n → (¬ ∀ e ∈ es, Record.Writable e) →
    SavedAlike Holds n es v log c
      (.fail (.versionConflict n v actual), log) (.fail (.serialization s), c)

/-- The remote end looks at the version only once the batch was written out, the log before. -/
theorem save_mirrored (stamp : Nat → Stamp) (ht : t.KeepsLists Holds)
    (hlim : config.limits = .none) (hm : log.MirroredBy Holds c.remote)
    {es : List (EventMessage π)} (hes : es ≠ []) (v : Nat) {common : Headers}
    (hcommon : common.Ordered) :
    SavedAlike (κ := κ) Holds n es v log c (EventLog.save stamp n es (some v) common log)
      (Streaming.save config t n es (some v) common c) := by
  have hready : ∀ sent, (Streaming.waited config t n (some v) sent c).1 = .ready := by
    intro sent
    unfold Streaming.waited
    rw [hlim]
    rfl
  rcases EventLog.save_cases (κ := κ) stamp n es (some v) common log with
    ⟨hnil, -⟩ | ⟨-, v', hv', hne, hst⟩ | ⟨-, hmeets, before, bad, after, hsplit, hw, hend⟩ |
    ⟨-, hmeets, -, -, rs, hb, hst⟩
  · exact absurd hnil hes
  · obtain rfl := Option.some.inj hv'
    rw [hst]
    rcases hsent : Streaming.outgoingAll common es with s | sent
    · rw [Streaming.save_of_unwritable hes hsent]
      refine .staleUnwritable hne fun hwritable => ?_
      obtain ⟨sent, hok, -⟩ := Streaming.outgoingAll_of_writable common hwritable
      nomatch hok.symm.trans hsent
    · obtain ⟨⟨reason, hans⟩, hm'⟩ := conflict_mirrored ht hm hne sent
      rw [Streaming.save_of_ready hes hsent (hready sent), hans]
      exact .stale hm'
  · rcases hend with ⟨-, s, hs, hst⟩ | ⟨hle, hst⟩ <;> rw [hst]
    · have hsent := Streaming.outgoingAll_of_first hw hs after common
      rw [← hsplit] at hsent
      rw [Streaming.save_of_unwritable hes hsent]
      exact .unwritable
    · refine .full (hmeets v rfl) ?_ ?_ <;> rw [hsplit]
      · exact Record.writableFrom_of_full hw hle (bad :: after)
      · rw [List.length_append, List.length_cons]
        omega
  · obtain ⟨hans, hm'⟩ := append_mirrored ht hm hmeets hcommon hb
    rw [hst, Streaming.save_of_ready hes (Streaming.outgoingAll_of_batch hb) (hready _), hans]
    exact .stored (hmeets v rfl) hm'

end Store

end EventSourcing
