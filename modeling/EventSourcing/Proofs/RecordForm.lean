import EventSourcing.Proofs.WrittenTime
import EventSourcing.Record

/-!
Stored events and their JSON form. What is read, from an object with its members in any order and
unknown ones among them or from a list of the fields, with the time written in whatever way, is
written in one form, which is read as the same record again. The records that are read are those with a place
that a machine word can hold and a valid time.
-/

namespace EventSourcing

namespace Reader

variable {α β : Type} {j : Json}

theorem text_eq_ok {s : String} : text j = .ok s ↔ j = .text s := by
  cases j <;> simp [text, Json.wrongKind]

theorem size_eq_ok {n : Nat} : size j = .ok n ↔ j = .int n ∧ n < UInt64.size := by
  constructor
  · intro h
    cases j with
    | int m =>
      simp only [size, integer] at h
      split at h
      · obtain rfl := Except.ok.inj h
        have hm : (m.toNat : Int) = m := Int.toNat_of_nonneg (by omega)
        exact ⟨by rw [hm], by omega⟩
      · nomatch h
    | _ => nomatch h
  · rintro ⟨rfl, hlt⟩
    have hin : (0 : Int) ≤ n ∧ (n : Int) < UInt64.size := ⟨Int.natCast_nonneg n, Int.ofNat_lt.2 hlt⟩
    simp only [size, integer, if_pos hin]
    rfl

theorem build_required {fs : Fields (α → β)} {name : String} {r : Reader α} {get : String → Option Json}
    {b : β} : (fs.required name r).build get = .ok b ↔
      ∃ f j a, fs.build get = .ok f ∧ get name = some j ∧ r j = .ok a ∧ f a = b := by
  simp only [Fields.required, bind_eq_ok]
  constructor
  · rintro ⟨f, hf, h⟩
    cases hj : get name with
    | none =>
      rw [hj] at h
      nomatch h
    | some j =>
      rw [hj] at h
      obtain ⟨a, ha, h⟩ := bind_eq_ok.1 h
      exact ⟨f, j, a, hf, rfl, ha, Except.ok.inj h⟩
  · rintro ⟨f, j, a, hf, hj, ha, rfl⟩
    refine ⟨f, hf, ?_⟩
    rw [hj]
    exact bind_eq_ok.2 ⟨a, ha, rfl⟩

theorem checkMembers_eq_ok {checks : List (String × (Json → Except String Unit))}
    {members : List (String × Json)} : checkMembers checks members = .ok () ↔
      ∀ m ∈ members, ∀ check, checkOf m.1 checks = some check → check m.2 = .ok () := by
  induction members with
  | nil => exact ⟨fun _ => nofun, fun _ => rfl⟩
  | cons m members ih =>
    obtain ⟨key, value⟩ := m
    rw [List.forall_mem_cons, ← ih, checkMembers]
    cases checkOf key checks with
    | none => simp [bind, Except.bind]
    | some check =>
      simp only [bind_eq_ok, Option.some.injEq, forall_eq']
      exact ⟨fun ⟨_, hcheck, hrest⟩ => ⟨hcheck, hrest⟩, fun ⟨hcheck, hrest⟩ => ⟨_, hcheck, hrest⟩⟩

theorem build_of_record {expected : String} {fs : Fields α} {a : α} (h : record expected fs j = .ok a) :
    ∃ get, fs.build get = .ok a := by
  cases j with
  | object members =>
    obtain ⟨_, -, hbuild⟩ := bind_eq_ok.1 h
    exact ⟨_, hbuild⟩
  | list items =>
    obtain ⟨_, -, hbuild⟩ := bind_eq_ok.1 h
    exact ⟨_, hbuild⟩
  | _ => nomatch h

end Reader

namespace Record

variable {j : Json} {e : Record}

/-- The records that have a form: the place is a machine word, the time is valid. -/
structure Readable (e : Record) : Prop where
  position : e.position < UInt64.size
  occurredAt : e.occurredAt.Valid

theorem readInstant_eq_ok {t : Instant} :
    readInstant j = .ok t ↔ ∃ s, j = .text s ∧ Rfc3339.read s = .ok t := by
  cases j with
  | text s =>
    simp only [readInstant, Json.text.injEq, exists_eq_left']
    rcases Rfc3339.read s with err | t' <;> simp
  | _ => simp [readInstant, Json.wrongKind]

theorem readHeaders_eq_ok {h : Headers} : readHeaders j = .ok h ↔ j = .object h.members := by
  cases j with
  | object members =>
    simp only [readHeaders, Except.ok.injEq, Json.object.injEq]
    exact ⟨fun heq => heq ▸ rfl, fun heq => heq ▸ rfl⟩
  | _ => simp [readHeaders, Json.wrongKind]

theorem build_fields {get : String → Option Json} : fields.build get = .ok e ↔
    get "event_id" = some (.text e.eventId) ∧ get "event_type" = some (.text e.eventType) ∧
    get "stream" = some (.text e.stream) ∧
    (get "position" = some (.int e.position) ∧ e.position < UInt64.size) ∧
    (∃ s, get "occurred_at" = some (.text s) ∧ Rfc3339.read s = .ok e.occurredAt) ∧
    get "payload" = some e.payload ∧ get "headers" = some (.object e.headers.members) := by
  constructor
  · intro h₇
    obtain ⟨_, _, headers, h₆, hheaders, hread, rfl⟩ := Reader.build_required.1 h₇
    obtain rfl := readHeaders_eq_ok.1 hread
    obtain ⟨_, _, payload, h₅, hpayload, hread, rfl⟩ := Reader.build_required.1 h₆
    obtain rfl := Except.ok.inj hread
    obtain ⟨_, _, occurredAt, h₄, htime, hread, rfl⟩ := Reader.build_required.1 h₅
    obtain ⟨s, rfl, hs⟩ := readInstant_eq_ok.1 hread
    obtain ⟨_, _, position, h₃, hposition, hread, rfl⟩ := Reader.build_required.1 h₄
    obtain ⟨rfl, hlt⟩ := Reader.size_eq_ok.1 hread
    obtain ⟨_, _, stream, h₂, hstream, hread, rfl⟩ := Reader.build_required.1 h₃
    obtain rfl := Reader.text_eq_ok.1 hread
    obtain ⟨_, _, eventType, h₁, htype, hread, rfl⟩ := Reader.build_required.1 h₂
    obtain rfl := Reader.text_eq_ok.1 hread
    obtain ⟨_, _, eventId, h₀, hid, hread, rfl⟩ := Reader.build_required.1 h₁
    obtain rfl := Reader.text_eq_ok.1 hread
    obtain rfl := Except.ok.inj h₀
    exact ⟨hid, htype, hstream, ⟨hposition, hlt⟩, ⟨s, htime, hs⟩, hpayload, hheaders⟩
  · rintro ⟨hid, htype, hstream, ⟨hposition, hlt⟩, ⟨s, htime, hs⟩, hpayload, hheaders⟩
    have hsize : Reader.size (.int e.position) = .ok e.position := Reader.size_eq_ok.2 ⟨rfl, hlt⟩
    have hinstant : readInstant (.text s) = .ok e.occurredAt := readInstant_eq_ok.2 ⟨s, rfl, hs⟩
    simp only [fields, Reader.Fields.required, Reader.Fields.of, hid, htype, hstream, hposition, htime,
      hpayload, hheaders, hsize, hinstant]
    rfl

theorem readable_of_read (h : read j = .ok e) : e.Readable := by
  obtain ⟨get, hbuild⟩ := Reader.build_of_record h
  obtain ⟨-, -, -, ⟨-, hlt⟩, ⟨s, -, hs⟩, -⟩ := build_fields.1 hbuild
  exact ⟨hlt, Rfc3339.exists_read_iff.1 ⟨s, hs⟩⟩

theorem read_write_iff : read (write e) = .ok e ↔ e.Readable := by
  refine ⟨readable_of_read, fun ⟨hlt, hvalid⟩ => ?_⟩
  have hsize : Reader.size (.int e.position) = .ok e.position := Reader.size_eq_ok.2 ⟨rfl, hlt⟩
  have hinstant : readInstant (.text (Rfc3339.write e.occurredAt)) = .ok e.occurredAt :=
    readInstant_eq_ok.2 ⟨_, rfl, Rfc3339.read_write hvalid⟩
  refine bind_eq_ok.2 ⟨(), Reader.checkMembers_eq_ok.2 ?_, build_fields.2 ?_⟩
  · intro m hm check hcheck
    simp only [List.mem_cons, List.not_mem_nil, or_false] at hm
    rcases hm with rfl | rfl | rfl | rfl | rfl | rfl | rfl <;> obtain rfl := Option.some.inj hcheck <;>
      simp only [hsize, hinstant] <;> rfl
  · exact ⟨rfl, rfl, rfl, ⟨rfl, hlt⟩, ⟨_, rfl, Rfc3339.read_write hvalid⟩, rfl, rfl⟩

theorem exists_read_iff : (∃ j, read j = .ok e) ↔ e.Readable :=
  ⟨fun ⟨_, h⟩ => readable_of_read h, fun h => ⟨e.write, read_write_iff.2 h⟩⟩

/-- A record that was read from some form has one form of its own. It is read as that record again,
so that writing that again gives the same form; no other record that can be read has it; and the time
in it is written in universal time, with no places or three, six or nine. -/
theorem form_survives (h : read j = .ok e) :
    read (write e) = .ok e ∧
    (read (write e)).map write = .ok (write e) ∧
    (∀ j' e', read j' = .ok e' → write e' = write e → e' = e) ∧
    ∃ members s, write e = .object members ∧ memberOf "occurred_at" members = some (.text s) ∧
      Rfc3339.Universal s.toList ∧ Rfc3339.read s = .ok e.occurredAt := by
  have hreadable := readable_of_read h
  have hagain : read (write e) = .ok e := read_write_iff.2 hreadable
  refine ⟨hagain, by rw [hagain]; rfl, fun j' e' h' hsame => ?_, ?_⟩
  · have hagain' := read_write_iff.2 (readable_of_read h')
    rw [hsame, hagain] at hagain'
    exact (Except.ok.inj hagain').symm
  · refine ⟨_, Rfc3339.write e.occurredAt, rfl, rfl, ?_, Rfc3339.read_write hreadable.occurredAt⟩
    rw [Rfc3339.write, String.toList_ofList]
    exact Rfc3339.universal_writeChars e.occurredAt

theorem read_list {time : String} (hposition : e.position < UInt64.size)
    (htime : Rfc3339.read time = .ok e.occurredAt) :
    read (.list [.text e.eventId, .text e.eventType, .text e.stream, .int e.position, .text time,
      e.payload, .object e.headers.members]) = .ok e := by
  have hsize : Reader.size (.int e.position) = .ok e.position := Reader.size_eq_ok.2 ⟨rfl, hposition⟩
  have hinstant : readInstant (.text time) = .ok e.occurredAt := readInstant_eq_ok.2 ⟨_, rfl, htime⟩
  refine bind_eq_ok.2 ⟨(), ?_, build_fields.2
    ⟨rfl, rfl, rfl, ⟨rfl, hposition⟩, ⟨_, rfl, htime⟩, rfl, rfl⟩⟩
  simp only [fields, Reader.Fields.required, Reader.Fields.of, List.nil_append, List.cons_append,
    Reader.checkItems, hsize, hinstant]
  rfl

/-- At the leap second of 2016, with the last place that can be read. -/
def leapRecord : Record where
  eventId := "7"
  eventType := "Renamed"
  stream := "Item-bolts"
  position := 18446744073709551615
  occurredAt := ⟨⟨2016, 12, 31⟩, 86399, 1500000000⟩
  payload := .object [("new_name", .text "nut")]
  headers := .empty

def leapTime : String := "2016-12-31 18:59:60.5-05:00"

theorem form_survives_leap :
    Rfc3339.read leapTime = .ok leapRecord.occurredAt ∧
      read (.list [.text "7", .text "Renamed", .text "Item-bolts", .int 18446744073709551615,
        .text leapTime, .object [("new_name", .text "nut")], .object []]) = .ok leapRecord ∧
      read (write leapRecord) = .ok leapRecord := by
  have hsome : (Rfc3339.read leapTime).toOption = some leapRecord.occurredAt := by decide +kernel
  have htime : Rfc3339.read leapTime = .ok leapRecord.occurredAt := by
    cases h : Rfc3339.read leapTime with
    | error err =>
      rw [h] at hsome
      nomatch hsome
    | ok t =>
      rw [h] at hsome
      exact congrArg Except.ok (Option.some.inj hsome)
  have h := read_list (e := leapRecord) (by decide) htime
  exact ⟨htime, h, (form_survives h).1⟩

end Record

end EventSourcing
