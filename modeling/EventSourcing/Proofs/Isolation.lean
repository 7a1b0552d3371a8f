import EventSourcing.Proofs.OptimisticConcurrency
import EventSourcing.Proofs.Replay

/-!
Aggregates whose streams are named by type, dash and id. A dash may occur in both parts, so the
names of two types can meet, and do just if one type is the other with a dash and more text behind
it. Where the names differ, a save of one aggregate is not seen by who loads the other; where they
meet, the two are one stream.
-/

namespace EventSourcing

variable {π κ σ α β : Type}

namespace StreamNamer

variable {type type' id id' : String}

theorem defaultName_assoc (type rest id : String) :
    defaultName type (defaultName rest id) = defaultName (defaultName type rest) id := by
  simp [defaultName, String.append_assoc]

/-- If one type begins the other, what is left over is nothing or starts with the dash. -/
theorem defaultName_split {surplus : List Char} (htype : type'.toList = type.toList ++ surplus)
    (hid : '-' :: id.toList = surplus ++ '-' :: id'.toList) :
    (type = type' ∧ id = id') ∨
      ∃ rest, type' = defaultName type rest ∧ id = defaultName rest id' := by
  rcases surplus with _ | ⟨dash, rest⟩
  · left
    rw [List.append_nil] at htype
    exact ⟨String.toList_inj.1 htype.symm, String.toList_inj.1 (List.cons.inj hid).2⟩
  · right
    obtain ⟨rfl, hrest⟩ := List.cons.inj hid
    refine ⟨String.ofList rest, String.toList_inj.1 ?_, String.toList_inj.1 ?_⟩
    · simp [defaultName, htype]
    · simpa [defaultName] using hrest

/-- A dash inside the one name may stand where the other has the dash between type and id. -/
theorem defaultName_eq_iff : defaultName type id = defaultName type' id' ↔
    (type = type' ∧ id = id') ∨
    (∃ rest, type' = defaultName type rest ∧ id = defaultName rest id') ∨
    ∃ rest, type = defaultName type' rest ∧ id' = defaultName rest id := by
  constructor
  · intro h
    have hchars : type.toList ++ '-' :: id.toList = type'.toList ++ '-' :: id'.toList := by
      simpa [defaultName] using congrArg String.toList h
    rcases List.append_eq_append_iff.1 hchars with ⟨surplus, htype, hid⟩ | ⟨surplus, htype, hid⟩
    · exact (defaultName_split htype hid).imp_right Or.inl
    · rcases defaultName_split htype hid with ⟨rfl, rfl⟩ | hext
      · exact Or.inl ⟨rfl, rfl⟩
      · exact Or.inr (Or.inr hext)
  · rintro (⟨rfl, rfl⟩ | ⟨rest, rfl, rfl⟩ | ⟨rest, rfl, rfl⟩)
    · rfl
    · exact defaultName_assoc type rest id'
    · exact (defaultName_assoc type' rest id).symm

theorem ne_defaultName (type rest : String) : type ≠ defaultName type rest := by
  intro h
  have hlength := congrArg String.length h
  simp only [defaultName, String.length_append, show "-".length = 1 from rfl] at hlength
  omega

/-- The names of two types never meet just if neither type extends the other by a dash. -/
theorem names_apart_iff (type type' : String) :
    (∀ id id', defaultName type id = defaultName type' id' → type = type' ∧ id = id') ↔
      (∀ rest, type' ≠ defaultName type rest) ∧ ∀ rest, type ≠ defaultName type' rest := by
  constructor
  · intro hapart
    refine ⟨fun rest h => ?_, fun rest h => ?_⟩
    · obtain ⟨heq, -⟩ := hapart _ _ (h ▸ defaultName_assoc type rest "")
      exact ne_defaultName type rest (heq.trans h)
    · obtain ⟨heq, -⟩ := hapart _ _ (h ▸ (defaultName_assoc type' rest "").symm)
      exact ne_defaultName type' rest (heq.symm.trans h)
  · rintro ⟨hleft, hright⟩ id id' h
    rcases defaultName_eq_iff.1 h with heq | ⟨rest, htype, -⟩ | ⟨rest, htype, -⟩
    · exact heq
    · exact absurd htype (hleft rest)
    · exact absurd htype (hright rest)

end StreamNamer

namespace Repository

open StreamNamer (defaultName)

def NamesByDefault (r : Repository π κ σ α β) (type : String) : Prop :=
  ∃ namer, r.namer = some namer ∧ namer.find? type = some defaultName

section Named

variable {r : Repository π κ σ α β} {type id : String}

theorem NamesByDefault.streamOf (h : r.NamesByDefault type) {a : Aggregate π σ}
    (ha : r.behavior.typeTag a.state = type) : r.streamOf a = some (defaultName type a.id) := by
  obtain ⟨namer, hr, hfind⟩ := h
  simp only [Repository.streamOf, hr, ha, hfind, Option.bind_some, Option.map_some]

theorem NamesByDefault.prepare_eq (h : r.NamesByDefault type) {fresh : Aggregate π σ} {n : String}
    {f : EventFactory π} (hp : r.prepare type id = .ok (fresh, n, f)) :
    n = defaultName type id := by
  obtain ⟨namer, hr, hfind⟩ := h
  obtain ⟨-, namer', name, -, -, hr', hfind', hname, -⟩ := prepare_eq_ok hp
  obtain rfl := Option.some.inj (hr.symm.trans hr')
  obtain rfl := Option.some.inj (hfind.symm.trans hfind')
  exact hname.symm

end Named

variable [EventPayload π]

def LoadsAlike (r : Repository π κ σ EventLog β) (type id : String) (log log' : EventLog) : Prop :=
  ∀ stamp w w', ((r.onLog stamp).load type id (log, w)).1 =
    ((r.onLog stamp).load type id (log', w')).1

section Saving

variable {r : Repository π κ σ EventLog β} {stamp : Nat → Stamp} {expected : Option Nat}
  {a : Aggregate π σ} {n type id : String} {log log' : EventLog} {w : β}

theorem NamesByDefault.loadsAlike (h : r.NamesByDefault type)
    (hs : log'.stream (defaultName type id) = log.stream (defaultName type id)) :
    r.LoadsAlike type id log log' := by
  intro stamp w w'
  simp only [load_onLog]
  rcases hp : r.prepare type id with e | ⟨fresh, n, f⟩
  · rfl
  · obtain rfl := h.prepare_eq hp
    simp only [hs]

/-- A save to another stream changes nothing for who loads this aggregate: not when the save is
refused, not when handlers are called, and not after them if they keep off its stream. -/
theorem NamesByDefault.unseen (h : r.NamesByDefault type) (hn : r.streamOf a = some n)
    (hne : defaultName type id ≠ n) :
    let saved := (r.onLog stamp).save expected (a, log, w)
    (saved.2 = (a, log, w) ∨ ∃ found start, r.LoadsAlike type id log found ∧
      saved = (r.onLog stamp).finish start (a, found, w)) ∧
    (r.KeepsStream (defaultName type id) → r.LoadsAlike type id log saved.2.2.1) := by
  intro saved
  rcases r.save_cases stamp expected (a := a) log w with ⟨hsame, -⟩ | ⟨m, rs, hm, -, -, hb, hf⟩
  · refine ⟨Or.inl hsame, fun _ => h.loadsAlike ?_⟩
    exact congrArg (fun p => p.2.1.stream (defaultName type id)) hsame
  · obtain rfl := Option.some.inj (hn.symm.trans hm)
    have hfound := EventLog.stream_append_ne log hb.stream_eq hne
    refine ⟨Or.inr ⟨_, _, h.loadsAlike hfound, hf⟩, fun hk => h.loadsAlike ?_⟩
    rw [show saved = _ from hf]
    exact (KeepsStream.finish (r := r.onLog stamp) hk _ a _ w).trans hfound

/-- A save to its own stream, for whatever aggregate, is replayed with it. -/
theorem NamesByDefault.seen (h : r.NamesByDefault type)
    (hn : r.streamOf a = some (defaultName type id)) (hp : a.changes ≠ [])
    (hk : r.KeepsStream (defaultName type id)) :
    let saved := (r.onLog stamp).save expected (a, log, w)
    let n := defaultName type id
    saved.1 = .ok () → ∃ rs,
      Record.Batch n (commonHeaders (r.behavior.typeTag a.state)) (log.version n) (outgoing a) rs ∧
      ∀ fresh m f w', r.prepare type id = .ok (fresh, m, f) →
        ((r.onLog stamp).load type id (saved.2.2.1, w')).1 =
          replay r.behavior f id (log.stream n ++ rs) fresh := by
  intro saved n hok
  obtain ⟨rs, hbatch, hstream⟩ := (stored_of_ok hk hn hp hok).batch
  refine ⟨rs, hbatch, fun fresh m f w' hprep => ?_⟩
  obtain rfl := h.prepare_eq hprep
  rw [load_of_prepare hprep, ← hstream]

end Saving

/-- Two types named in the default way: when no names of theirs meet; that a save of an aggregate of
the one is then not seen in the other, neither by handlers nor, if these keep off its stream, after
them; and that otherwise the records saved for the one are replayed for the other. -/
theorem isolated_by_default_name (r : Repository π κ σ EventLog β) (stamp : Nat → Stamp)
    (type type' : String) (ht : r.NamesByDefault type) (ht' : r.NamesByDefault type') :
    ((∀ id id', defaultName type id = defaultName type' id' → type = type' ∧ id = id') ↔
      (∀ rest, type' ≠ type ++ "-" ++ rest) ∧ ∀ rest, type ≠ type' ++ "-" ++ rest) ∧
    ((∀ rest, type' ≠ type ++ "-" ++ rest) → (∀ rest, type ≠ type' ++ "-" ++ rest) →
      ∀ id id', (type, id) ≠ (type', id') → defaultName type id ≠ defaultName type' id' ∧
      ∀ expected a log w, r.behavior.typeTag a.state = type → a.id = id →
        let saved := (r.onLog stamp).save expected (a, log, w)
        (saved.2 = (a, log, w) ∨ ∃ found start, r.LoadsAlike type' id' log found ∧
          saved = (r.onLog stamp).finish start (a, found, w)) ∧
        (r.KeepsStream (defaultName type' id') → r.LoadsAlike type' id' log saved.2.2.1)) ∧
    (∀ rest, type' = type ++ "-" ++ rest → ∀ id',
      let n := defaultName type' id'
      (∀ a b, r.behavior.typeTag a.state = type → a.id = rest ++ "-" ++ id' →
        r.behavior.typeTag b.state = type' → b.id = id' →
        r.streamOf a = some n ∧ r.streamOf b = some n) ∧
      ∀ expected a log w, r.behavior.typeTag a.state = type → a.id = rest ++ "-" ++ id' →
        a.changes ≠ [] → r.KeepsStream n →
        let saved := (r.onLog stamp).save expected (a, log, w)
        saved.1 = .ok () → ∃ rs,
          Record.Batch n (commonHeaders type) (log.version n) (outgoing a) rs ∧
          ∀ fresh m f w', r.prepare type' id' = .ok (fresh, m, f) →
            ((r.onLog stamp).load type' id' (saved.2.2.1, w')).1 =
              replay r.behavior f id' (log.stream n ++ rs) fresh) := by
  have hnames := StreamNamer.names_apart_iff type type'
  refine ⟨hnames, ?_, ?_⟩
  · intro hleft hright id id' hne
    have hapart : defaultName type id ≠ defaultName type' id' := by
      intro h
      obtain ⟨rfl, rfl⟩ := hnames.2 ⟨hleft, hright⟩ id id' h
      exact hne rfl
    refine ⟨hapart, ?_⟩
    rintro expected a log w ha rfl
    exact ht'.unseen (ht.streamOf ha) hapart.symm
  · rintro rest rfl id' n
    have hstream : ∀ a, r.behavior.typeTag a.state = type → a.id = rest ++ "-" ++ id' →
        r.streamOf a = some n := by
      intro a ha hid
      rw [ht.streamOf ha, hid]
      exact congrArg some (StreamNamer.defaultName_assoc type rest id')
    refine ⟨?_, ?_⟩
    · intro a b ha hid hb hid'
      refine ⟨hstream a ha hid, ?_⟩
      rw [ht'.streamOf hb, hid']
    · intro expected a log w ha hid hp hk saved hok
      have hseen := ht'.seen (hstream a ha hid) hp hk hok
      rwa [ha] at hseen

/-- Item `spare-bolts` is nothing to item `bolts`, but it is `bolts` of the other type. -/
theorem isolated_by_default_name_spare :
    let r := { Inventory.App.repository fun _ => ⟨"", .epoch⟩ with
      aggregates := some
        ⟨[("InventoryItem", Inventory.Item.new), ("InventoryItem-spare", Inventory.Item.new)]⟩
      namer := some ⟨[("InventoryItem", defaultName), ("InventoryItem-spare", defaultName)]⟩ }
    let a : Aggregate Inventory.Event Inventory.Item :=
      ⟨⟨"spare-bolts", 0, [.new "spare-bolts" (.created "bolt")]⟩, ⟨true, 0⟩⟩
    let saved := r.save none (a, .empty, .empty)
    r.NamesByDefault "InventoryItem" ∧ r.NamesByDefault "InventoryItem-spare" ∧
      saved.1 = .ok () ∧ r.LoadsAlike "InventoryItem" "bolts" .empty saved.2.2.1 ∧
      ∃ rs, rs.length = 1 ∧ (r.load "InventoryItem-spare" "bolts" (saved.2.2.1, .empty)).1 =
        replay r.behavior Inventory.App.events "bolts" rs (Inventory.Item.new "bolts") := by
  intro r a saved
  have ht : r.NamesByDefault "InventoryItem" := ⟨_, rfl, rfl⟩
  have ht' : r.NamesByDefault "InventoryItem-spare" := ⟨_, rfl, rfl⟩
  have hk : r.KeepsStore := Inventory.App.keepsStore fun _ => ⟨"", .epoch⟩
  have hok : saved.1 = .ok () := rfl
  obtain ⟨-, hapart, -⟩ := isolated_by_default_name r (fun _ => ⟨"", .epoch⟩) _ _ ht ht
  obtain ⟨-, hisolated⟩ := hapart (StreamNamer.ne_defaultName _) (StreamNamer.ne_defaultName _)
    "spare-bolts" "bolts" (by decide)
  obtain ⟨-, -, hshared⟩ := isolated_by_default_name r (fun _ => ⟨"", .epoch⟩) _ _ ht ht'
  obtain ⟨-, hseen⟩ := hshared "spare" rfl "bolts"
  obtain ⟨rs, hbatch, hload⟩ := hseen none a .empty .empty rfl rfl (List.cons_ne_nil _ _)
    (hk.keepsStream _) hok
  obtain ⟨-, hafter⟩ := hisolated none a .empty .empty rfl rfl
  exact ⟨ht, ht', hok, hafter (hk.keepsStream _), rs, hbatch.length_eq,
    hload _ _ _ .empty rfl⟩

end Repository

end EventSourcing
