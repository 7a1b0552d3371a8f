import EventSourcing.Time.Rfc3339
import Mathlib.Algebra.Group.Nat.Defs

/-!
Instants and their text. Whatever text is read, with any offset, any number of places and leap
seconds, the instant is valid, and its own text is read as the same instant again. That text is one
for each instant: in universal time, with no places or three, six or nine of them.
-/

namespace EventSourcing

theorem bind_eq_ok {ε α β : Type} {x : Except ε α} {f : α → Except ε β} {b : β} :
    (x >>= f) = .ok b ↔ ∃ a, x = .ok a ∧ f a = .ok b := by
  cases x with
  | error e => exact ⟨nofun, fun ⟨_, h, _⟩ => nomatch h⟩
  | ok a => exact ⟨fun h => ⟨a, rfl, h⟩, fun ⟨_, h, hf⟩ => Except.ok.inj h ▸ hf⟩

namespace Date

variable {d d' : Date}

theorem daysInMonth_pos (year : Int) (month : Nat) : 1 ≤ daysInMonth year month := by
  unfold daysInMonth
  split
  · split <;> omega
  · split <;> omega

theorem daysInMonth_le (year : Int) (month : Nat) : daysInMonth year month ≤ 31 := by
  unfold daysInMonth
  split
  · split <;> omega
  · split <;> omega

theorem valid_mk {year : Int} {month day : Nat} : Valid ⟨year, month, day⟩ ↔
    (firstYear ≤ year ∧ year ≤ lastYear) ∧ (1 ≤ month ∧ month ≤ 12) ∧
      1 ≤ day ∧ day ≤ daysInMonth year month :=
  ⟨fun ⟨hyear, hmonth, hday⟩ => ⟨hyear, hmonth, hday⟩,
    fun ⟨hyear, hmonth, hday⟩ => ⟨hyear, hmonth, hday⟩⟩

theorem ofParts_eq_some {year : Int} {month day : Nat} :
    ofParts year month day = some d ↔ d.Valid ∧ ⟨year, month, day⟩ = d := by
  simp only [ofParts, Option.ite_none_right_eq_some, Option.some.injEq]
  constructor
  · rintro ⟨hvalid, rfl⟩
    exact ⟨hvalid, rfl⟩
  · rintro ⟨hvalid, rfl⟩
    exact ⟨hvalid, rfl⟩

theorem Valid.next (h : d.Valid) (hn : d.next = some d') : d'.Valid := by
  obtain ⟨hyear, hmonth, hday⟩ := h
  have hfirst := daysInMonth_pos
  unfold Date.next at hn
  split at hn
  · obtain rfl := Option.some.inj hn
    exact valid_mk.2 ⟨hyear, hmonth, by omega⟩
  · split at hn
    · obtain rfl := Option.some.inj hn
      exact valid_mk.2 ⟨hyear, by omega, Nat.le_refl 1, hfirst _ _⟩
    · split at hn
      · obtain rfl := Option.some.inj hn
        exact valid_mk.2 ⟨by omega, by decide, Nat.le_refl 1, hfirst _ _⟩
      · nomatch hn

theorem Valid.previous (h : d.Valid) (hp : d.previous = some d') : d'.Valid := by
  obtain ⟨hyear, hmonth, hday⟩ := h
  unfold Date.previous at hp
  split at hp
  · obtain rfl := Option.some.inj hp
    exact valid_mk.2 ⟨hyear, hmonth, by omega⟩
  · split at hp
    · obtain rfl := Option.some.inj hp
      exact valid_mk.2 ⟨hyear, by omega, daysInMonth_pos _ _, Nat.le_refl _⟩
    · split at hp
      · obtain rfl := Option.some.inj hp
        exact valid_mk.2 ⟨by omega, by decide, by decide, Nat.le_refl 31⟩
      · nomatch hp

end Date

namespace Instant

/-- Offsets are whole minutes, so that a leap second stays at the end of its minute. -/
theorem valid_ofLocal {date : Date} {second nano : Nat} {offset : Int} {t : Instant}
    (hdate : date.Valid) (hsecond : second < secondsPerDay)
    (hnano : nano < billion ∨ second % 60 = 59 ∧ nano < 2 * billion)
    (hoffset : offset.natAbs < secondsPerDay) (hminutes : offset % 60 = 0)
    (h : ofLocal date second nano offset = some t) : t.Valid := by
  have hday : (secondsPerDay : Int) = 60 * 1440 := rfl
  simp only [ofLocal] at h
  split at h
  · obtain ⟨d, hd, rfl⟩ := Option.map_eq_some_iff.1 h
    exact ⟨hdate.previous hd, by simp only; omega, by simp only; omega⟩
  · split at h
    · obtain rfl := Option.some.inj h
      exact ⟨hdate, by simp only; omega, by simp only; omega⟩
    · obtain ⟨d, hd, rfl⟩ := Option.map_eq_some_iff.1 h
      exact ⟨hdate.next hd, by simp only; omega, by simp only; omega⟩

theorem ofLocal_zero (date : Date) {second : Nat} (h : second < secondsPerDay) (nano : Nat) :
    ofLocal date second nano 0 = some ⟨date, second, nano⟩ := by
  simp only [ofLocal]
  rw [if_neg (by omega), if_pos (by omega)]
  simp

end Instant

namespace Rfc3339

open Text

theorem isDigit_iff {c : Char} : isDigit c ↔ 48 ≤ c.toNat ∧ c.toNat ≤ 57 := by
  simp [isDigit, Char.le_def, UInt32.le_iff_toNat_le]

theorem isDigit_digitChar {n : Nat} (h : n < 10) : isDigit (Nat.digitChar n) := by
  rw [isDigit_iff, Nat.toNat_digitChar_of_lt_ten h]
  omega

theorem not_isBlank_of_isDigit {c : Char} (h : isDigit c) : ¬ isBlank c := by
  have hc := isDigit_iff.1 h
  simp only [isBlank, blankPoints, List.contains_iff_mem, List.mem_cons, List.not_mem_nil,
    or_false]
  omega

theorem valueOf_eq (ds : List Char) : valueOf ds = Nat.ofDigitChars 10 ds 0 := by
  rw [Nat.ofDigitChars_eq_foldl]
  simp only [Nat.mul_comm 10]
  rfl

theorem valueOf_append (ds ds' : List Char) :
    valueOf (ds ++ ds') = valueOf ds * 10 ^ ds'.length + valueOf ds' := by
  rw [valueOf_eq, valueOf_eq, valueOf_eq, Nat.ofDigitChars_append,
    Nat.ofDigitChars_eq_ofDigitChars_zero, Nat.mul_comm]

theorem isDigit_zeros (n : Nat) : ∀ c ∈ List.replicate n '0', isDigit c := by
  intro c hc
  rw [List.eq_of_mem_replicate hc]
  rfl

theorem valueOf_zeros (n : Nat) : valueOf (List.replicate n '0') = 0 := by
  rw [valueOf_eq, Nat.ofDigitChars_replicate_zero, Nat.mul_zero]

theorem valueOf_lt {ds : List Char} (h : ∀ c ∈ ds, isDigit c) : valueOf ds < 10 ^ ds.length := by
  induction ds with
  | nil => decide
  | cons c ds ih =>
    have hrest := ih fun c' hc' => h c' (List.mem_cons_of_mem c hc')
    have hc := isDigit_iff.1 (h c (List.mem_cons_self ..))
    have hone : valueOf [c] = c.toNat - 48 := by
      simp [valueOf, digitValue]
    have hle : valueOf [c] * 10 ^ ds.length ≤ 9 * 10 ^ ds.length :=
      Nat.mul_le_mul_right _ (by omega)
    rw [← List.singleton_append, valueOf_append, List.singleton_append, List.length_cons, Nat.pow_succ]
    omega

section Digits

variable (n v : Nat)

theorem length_digits : (digits n v).length = n := by
  induction n generalizing v with
  | zero => rfl
  | succ n ih => rw [digits, List.length_append, ih, List.length_singleton]

theorem isDigit_of_mem_digits : ∀ c ∈ digits n v, isDigit c := by
  induction n generalizing v with
  | zero => exact nofun
  | succ n ih =>
    intro c hc
    rcases List.mem_append.1 hc with hc | hc
    · exact ih (v / 10) c hc
    · rw [List.mem_singleton.1 hc]
      exact isDigit_digitChar (Nat.mod_lt v (by decide))

theorem digits_succ : ∃ d ds, digits (n + 1) v = d :: ds ∧ isDigit d := by
  obtain ⟨d, ds, hcons⟩ :=
    List.exists_cons_of_ne_nil (List.ne_nil_of_length_eq_add_one (length_digits (n + 1) v))
  exact ⟨d, ds, hcons, isDigit_of_mem_digits (n + 1) v d (hcons ▸ List.mem_cons_self ..)⟩

theorem valueOf_digits : valueOf (digits n v) = v % 10 ^ n := by
  induction n generalizing v with
  | zero => exact (Nat.mod_one v).symm
  | succ n ih =>
    have hlast : valueOf [Nat.digitChar (v % 10)] = v % 10 := by
      simp [valueOf, digitValue, Nat.toNat_digitChar_of_lt_ten (Nat.mod_lt v (by decide : 0 < 10))]
    rw [digits, valueOf_append, ih, hlast, List.length_singleton, Nat.pow_one, Nat.pow_succ,
      Nat.mul_comm (10 ^ n) 10, Nat.mod_mul]
    omega

end Digits

section Reading

variable {ds rest : List Char} {n : Nat}

/-- Digits are taken up to the first character that is none, or up to so many. -/
theorem takeDigits_append (hds : ∀ c ∈ ds, isDigit c) (hlength : ds.length ≤ n)
    (hend : ds.length = n ∨ ∀ c ∈ rest.head?, ¬ isDigit c) :
    takeDigits n (ds ++ rest) = (ds, rest) := by
  induction ds generalizing n with
  | nil =>
    cases n with
    | zero => rfl
    | succ n =>
      cases rest with
      | nil => rfl
      | cons c rest =>
        have hc : ¬ isDigit c := hend.resolve_left (by simp) c rfl
        rw [List.nil_append, takeDigits, if_neg hc]
  | cons d ds ih =>
    cases n with
    | zero => simp at hlength
    | succ n =>
      have hd := hds d (List.mem_cons_self ..)
      have hrest := ih (fun c hc => hds c (List.mem_cons_of_mem d hc)) (Nat.le_of_succ_le_succ hlength)
        (hend.imp_left Nat.succ.inj)
      rw [List.cons_append, takeDigits, if_pos hd, hrest]

theorem number_append (hne : ds ≠ []) (hds : ∀ c ∈ ds, isDigit c) (hlength : ds.length ≤ n)
    (hend : ds.length = n ∨ ∀ c ∈ rest.head?, ¬ isDigit c) :
    number n (ds ++ rest) = .ok (valueOf ds, rest) := by
  unfold number
  rw [takeDigits_append hds hlength hend]
  cases ds with
  | nil => exact absurd rfl hne
  | cons d ds => rfl

theorem takeDigits_eq (n : Nat) (cs : List Char) :
    (∀ c ∈ (takeDigits n cs).1, isDigit c) ∧ (takeDigits n cs).1.length ≤ n := by
  induction n generalizing cs with
  | zero => exact ⟨nofun, Nat.le_refl 0⟩
  | succ n ih =>
    cases cs with
    | nil => exact ⟨nofun, Nat.zero_le _⟩
    | cons c cs =>
      rw [takeDigits]
      split
      · rename_i hc
        obtain ⟨hds, hlength⟩ := ih cs
        exact ⟨List.forall_mem_cons.2 ⟨hc, hds⟩, Nat.succ_le_succ hlength⟩
      · exact ⟨nofun, Nat.zero_le _⟩

theorem number_digits {v : Nat} (hv : v < 10 ^ (n + 1)) (rest : List Char) :
    number (n + 1) (digits (n + 1) v ++ rest) = .ok (v, rest) := by
  have hlength := length_digits (n + 1) v
  have hvalue : valueOf (digits (n + 1) v) = v := by rw [valueOf_digits, Nat.mod_eq_of_lt hv]
  rw [number_append (List.ne_nil_of_length_eq_add_one hlength) (isDigit_of_mem_digits (n + 1) v)
    (Nat.le_of_eq hlength) (Or.inl hlength), hvalue]

theorem skipBlanks_digits (n v : Nat) (rest : List Char) :
    skipBlanks (digits (n + 1) v ++ rest) = digits (n + 1) v ++ rest := by
  obtain ⟨d, ds, hcons, hd⟩ := digits_succ n v
  rw [hcons]
  exact List.dropWhile_cons_of_neg (not_isBlank_of_isDigit hd)

theorem field_digits {low high v : Nat} (hlow : low ≤ v) (hhigh : v ≤ high) (htwo : high < 100)
    (rest : List Char) : field low high (digits 2 v ++ rest) = .ok (v, rest) := by
  unfold field
  rw [skipBlanks_digits, number_digits (by omega : v < 10 ^ 2)]
  exact if_pos ⟨hlow, hhigh⟩

theorem field_eq_ok {low high v : Nat} {cs : List Char} (h : field low high cs = .ok (v, rest)) :
    low ≤ v ∧ v ≤ high := by
  obtain ⟨⟨m, rest'⟩, -, h⟩ := bind_eq_ok.1 h
  simp only at h
  split at h
  · rename_i hin
    obtain ⟨rfl, -⟩ := Prod.mk.inj (Except.ok.inj h)
    exact hin
  · nomatch h

end Reading

@[simp] theorem separator_minus (rest : List Char) : separator '-' ('-' :: rest) = .ok ((), rest) := rfl

@[simp] theorem separator_colon (rest : List Char) : separator ':' (':' :: rest) = .ok ((), rest) := rfl

@[simp] theorem dateEnd_T (rest : List Char) : dateEnd ('T' :: rest) = .ok ((), rest) := rfl

section Year

variable {rest : List Char}

theorem exists_yearDigits (n : Nat) : ∃ ds, ds ≠ [] ∧ (∀ c ∈ ds, isDigit c) ∧ valueOf ds = n ∧
    List.replicate (4 - (Nat.toDigits 10 n).length) '0' ++ Nat.toDigits 10 n = ds := by
  refine ⟨_, ?_, List.forall_mem_append.2 ⟨isDigit_zeros _, fun c hc => ?_⟩, ?_, rfl⟩
  · exact List.append_ne_nil_of_right_ne_nil _ Nat.toDigits_ne_nil
  · have hdigit := Nat.isDigit_of_mem_toDigits (by decide) (by decide) hc
    simpa [isDigit, Char.isDigit, Char.le_def] using hdigit
  · rw [valueOf_append, valueOf_zeros, valueOf_eq, Nat.ofDigitChars_ten_toDigits]
    omega

theorem year_digits {v : Nat} (hv : v < 10000) (rest : List Char) :
    year (digits 4 v ++ '-' :: rest) = .ok ((v : Int), '-' :: rest) := by
  have hnumber := number_digits (by omega : v < 10 ^ 4) ('-' :: rest)
  have hskip := skipBlanks_digits 3 v ('-' :: rest)
  obtain ⟨d, ds, hcons, hd⟩ := digits_succ 3 v
  rw [hcons, List.cons_append] at hnumber hskip ⊢
  unfold year
  rw [hskip]
  -- the first character is a digit, not a sign
  split
  · rename_i heq
    rw [(List.cons.inj heq).1] at hd
    nomatch hd
  · rename_i heq
    rw [(List.cons.inj heq).1] at hd
    nomatch hd
  · rw [hnumber]
    rfl

theorem year_signed {ds : List Char} (hne : ds ≠ []) (hds : ∀ c ∈ ds, isDigit c)
    (hlt : valueOf ds < yearLimit) (rest : List Char) :
    year ('-' :: ds ++ '-' :: rest) = .ok (-(valueOf ds : Int), '-' :: rest) ∧
      year ('+' :: ds ++ '-' :: rest) = .ok ((valueOf ds : Int), '-' :: rest) := by
  have hnumber : number (ds ++ '-' :: rest).length (ds ++ '-' :: rest) =
      .ok (valueOf ds, '-' :: rest) :=
    number_append hne hds (by simp) (Or.inr (by simp [isDigit]))
  constructor
  · simp only [year, show skipBlanks ('-' :: ds ++ '-' :: rest) = '-' :: (ds ++ '-' :: rest) from rfl,
      hnumber]
    exact if_pos (Nat.le_of_lt hlt)
  · simp only [year, show skipBlanks ('+' :: ds ++ '-' :: rest) = '+' :: (ds ++ '-' :: rest) from rfl,
      hnumber]
    exact if_pos hlt

theorem year_yearText {y : Int} (h : y.natAbs < yearLimit) (rest : List Char) :
    year (yearText y ++ '-' :: rest) = .ok (y, '-' :: rest) := by
  unfold yearText
  split
  · have hdigits := year_digits (v := y.toNat) (by omega) rest
    rwa [Int.toNat_of_nonneg (by omega)] at hdigits
  · obtain ⟨ds, hne, hds, hvalue, htext⟩ := exists_yearDigits y.natAbs
    obtain ⟨hminus, hplus⟩ := year_signed hne hds (by rwa [hvalue]) rest
    rw [hvalue] at hminus hplus
    simp only [List.cons_append, htext]
    split
    · have hy : -(y.natAbs : Int) = y := by omega
      rwa [hy] at hminus
    · have hy : (y.natAbs : Int) = y := by omega
      rwa [hy] at hplus

end Year

section Fraction

theorem fraction_places {k v : Nat} (hk : k < 9) (hv : v < 10 ^ (k + 1)) :
    fraction ('.' :: digits (k + 1) v ++ ['Z']) = .ok (v * 10 ^ (8 - k), ['Z']) := by
  have hlength := length_digits (k + 1) v
  have htake : takeDigits 9 (digits (k + 1) v ++ ['Z']) = (digits (k + 1) v, ['Z']) :=
    takeDigits_append (isDigit_of_mem_digits (k + 1) v) (by omega) (Or.inr (by simp [isDigit]))
  have hvalue : valueOf (digits (k + 1) v ++ List.replicate (9 - (digits (k + 1) v).length) '0') =
      v * 10 ^ (8 - k) := by
    rw [hlength, valueOf_append, valueOf_zeros, List.length_replicate, valueOf_digits,
      Nat.mod_eq_of_lt hv, Nat.add_zero, Nat.add_sub_add_right 8 1 k]
  obtain ⟨d, ds, hcons, -⟩ := digits_succ k v
  rw [hcons, List.cons_append] at htake hvalue
  rw [hcons, List.cons_append, List.cons_append]
  simp only [fraction, htake, List.cons_append, hvalue]
  rfl

theorem fraction_fractionText {nano : Nat} (h : nano < Instant.billion) :
    fraction (fractionText nano ++ ['Z']) = .ok (nano, ['Z']) := by
  have hb : Instant.billion = 1000000000 := rfl
  unfold fractionText
  split
  · rename_i hzero
    rw [hzero]
    rfl
  · split
    · rw [fraction_places (by decide : 2 < 9) (by omega)]
      congr 2
      omega
    · split
      · rw [fraction_places (by decide : 5 < 9) (by omega)]
        congr 2
        omega
      · rw [fraction_places (by decide : 8 < 9) (by omega)]
        congr 2
        omega

theorem fraction_lt {cs rest : List Char} {nano : Nat} (h : fraction cs = .ok (nano, rest)) :
    nano < Instant.billion := by
  unfold fraction at h
  split at h
  · rename_i cs'
    obtain ⟨hds, hlength⟩ := takeDigits_eq 9 cs'
    split at h
    · nomatch h
    · nomatch h
    · rename_i ds rest' _ _ htake
      obtain ⟨rfl, -⟩ := Prod.mk.inj (Except.ok.inj h)
      rw [htake] at hds hlength
      have hlt := valueOf_lt (List.forall_mem_append.2 ⟨hds, isDigit_zeros (9 - ds.length)⟩)
      rwa [List.length_append, List.length_replicate, Nat.add_sub_cancel' hlength] at hlt
  · obtain ⟨rfl, -⟩ := Prod.mk.inj (Except.ok.inj h)
    decide

end Fraction

section Offset

variable {cs rest : List Char}

theorem offsetSize_eq_ok {n : Nat} (h : offsetSize cs = .ok (n, rest)) : n % 60 = 0 := by
  obtain ⟨⟨⟨h1, h2⟩, cs'⟩, -, h⟩ := bind_eq_ok.1 h
  obtain ⟨⟨⟨m1, m2⟩, cs''⟩, -, h⟩ := bind_eq_ok.1 h
  simp only at h
  split at h
  · nomatch h
  · obtain ⟨rfl, -⟩ := Prod.mk.inj (Except.ok.inj h)
    omega

theorem offset_eq_ok {off : Int} (h : offset cs = .ok (off, rest)) : off % 60 = 0 := by
  unfold offset at h
  split at h
  · obtain ⟨rfl, -⟩ := Prod.mk.inj (Except.ok.inj h)
    rfl
  · obtain ⟨rfl, -⟩ := Prod.mk.inj (Except.ok.inj h)
    rfl
  · split at h
    · obtain ⟨rfl, -⟩ := Prod.mk.inj (Except.ok.inj h)
      rfl
    · split at h
      · obtain ⟨⟨n, rest'⟩, hn, h⟩ := bind_eq_ok.1 h
        obtain ⟨rfl, -⟩ := Prod.mk.inj (Except.ok.inj h)
        have hminutes := offsetSize_eq_ok hn
        omega
      · split at h
        · obtain ⟨⟨n, rest'⟩, hn, h⟩ := bind_eq_ok.1 h
          obtain ⟨rfl, -⟩ := Prod.mk.inj (Except.ok.inj h)
          have hminutes := offsetSize_eq_ok hn
          omega
        · nomatch h
  · nomatch h

end Offset

theorem instantOf_eq_ok {y : Int} {mo d h mi s nano : Nat} {off : Int} {t : Instant}
    (hread : instantOf y mo d h mi s nano off = .ok t) (hh : h ≤ 23) (hmi : mi ≤ 59) (hs : s ≤ 60)
    (hnano : nano < Instant.billion) (hoff : off % 60 = 0) : t.Valid := by
  have hday : Instant.secondsPerDay = 86400 := rfl
  unfold instantOf at hread
  split at hread
  · nomatch hread
  · rename_i date hdate
    obtain ⟨hvalid, -⟩ := Date.ofParts_eq_some.1 hdate
    split at hread
    · nomatch hread
    · by_cases hleap : s = 60
      · -- a leap second is the last second of its minute and another one
        simp only [if_pos hleap] at hread
        split at hread
        · nomatch hread
        · rename_i t' hlocal
          obtain rfl := Except.ok.inj hread
          exact Instant.valid_ofLocal hvalid (by omega) (Or.inr (by omega)) (by omega) hoff hlocal
      · simp only [if_neg hleap] at hread
        split at hread
        · nomatch hread
        · rename_i t' hlocal
          obtain rfl := Except.ok.inj hread
          exact Instant.valid_ofLocal hvalid (by omega) (Or.inl hnano) (by omega) hoff hlocal

section Instants

variable {date : Date} {h mi s nano : Nat} {off : Int} {t : Instant}

theorem instantOf_of_local (hdate : date.Valid) (hs : s ≠ 60) (hoff : off.natAbs < 86400)
    (hlocal : Instant.ofLocal date (h * 3600 + mi * 60 + s) nano off = some t) :
    instantOf date.year date.month date.day h mi s nano off = .ok t := by
  have hparts : Date.ofParts date.year date.month date.day = some date :=
    Date.ofParts_eq_some.2 ⟨hdate, rfl⟩
  simp only [instantOf, hparts, if_neg (Nat.not_le.2 hoff), if_neg hs, hlocal]

theorem instantOf_of_local_leap (hdate : date.Valid) (hoff : off.natAbs < 86400)
    (hlocal : Instant.ofLocal date (h * 3600 + mi * 60 + 59) (nano + Instant.billion) off = some t) :
    instantOf date.year date.month date.day h mi 60 nano off = .ok t := by
  have hparts : Date.ofParts date.year date.month date.day = some date :=
    Date.ofParts_eq_some.2 ⟨hdate, rfl⟩
  simp only [instantOf, hparts, if_neg (Nat.not_le.2 hoff), if_pos, hlocal]

end Instants

theorem instantOf_parts {t : Instant} (h : t.Valid) :
    instantOf t.date.year t.date.month t.date.day (t.second / 3600) (t.second / 60 % 60)
      (t.second % 60 + t.nano / Instant.billion) (t.nano % Instant.billion) 0 = .ok t := by
  obtain ⟨hdate, hsecond, hnano⟩ := h
  have hzero : Int.natAbs 0 < 86400 := by simp
  have hlocal := Instant.ofLocal_zero t.date hsecond t.nano
  by_cases hleap : t.nano < Instant.billion
  · have hs : t.second / 3600 * 3600 + t.second / 60 % 60 * 60 + t.second % 60 = t.second := by omega
    rw [Nat.div_eq_of_lt hleap, Nat.mod_eq_of_lt hleap, Nat.add_zero]
    exact instantOf_of_local hdate (by omega) hzero (by rw [hs, hlocal])
  · obtain ⟨hlast, hlt⟩ := hnano.resolve_left hleap
    have hs : t.second / 3600 * 3600 + t.second / 60 % 60 * 60 + 59 = t.second := by omega
    have hone : t.nano / Instant.billion = 1 :=
      Nat.div_eq_of_lt_le (by omega) (by omega)
    have hrest : t.nano % Instant.billion + Instant.billion = t.nano := by
      rw [Nat.mod_eq_sub_mod (by omega), Nat.mod_eq_of_lt (by omega)]
      omega
    rw [hlast, hone]
    exact instantOf_of_local_leap hdate hzero (by rw [hs, hrest, hlocal])

/-- What is read is valid, whatever the text. -/
theorem readChars_valid {cs : List Char} {t : Instant} (hread : readChars cs = .ok t) : t.Valid := by
  unfold readChars at hread
  obtain ⟨⟨y, cs⟩, -, hread⟩ := bind_eq_ok.1 hread
  obtain ⟨⟨_, cs⟩, -, hread⟩ := bind_eq_ok.1 hread
  obtain ⟨⟨mo, cs⟩, -, hread⟩ := bind_eq_ok.1 hread
  obtain ⟨⟨_, cs⟩, -, hread⟩ := bind_eq_ok.1 hread
  obtain ⟨⟨d, cs⟩, -, hread⟩ := bind_eq_ok.1 hread
  obtain ⟨⟨_, cs⟩, -, hread⟩ := bind_eq_ok.1 hread
  obtain ⟨⟨h, cs⟩, hh, hread⟩ := bind_eq_ok.1 hread
  obtain ⟨⟨_, cs⟩, -, hread⟩ := bind_eq_ok.1 hread
  obtain ⟨⟨mi, cs⟩, hmi, hread⟩ := bind_eq_ok.1 hread
  obtain ⟨⟨_, cs⟩, -, hread⟩ := bind_eq_ok.1 hread
  obtain ⟨⟨s, cs⟩, hs, hread⟩ := bind_eq_ok.1 hread
  obtain ⟨⟨nano, cs⟩, hnano, hread⟩ := bind_eq_ok.1 hread
  obtain ⟨⟨off, cs⟩, hoff, hread⟩ := bind_eq_ok.1 hread
  simp only at hread
  split at hread
  · exact instantOf_eq_ok hread (field_eq_ok hh).2 (field_eq_ok hmi).2 (field_eq_ok hs).2
      (fraction_lt hnano) (offset_eq_ok hoff)
  · nomatch hread

theorem readChars_writeChars {t : Instant} (h : t.Valid) : readChars (writeChars t) = .ok t := by
  have hparts := instantOf_parts h
  obtain ⟨⟨hyear, hmonth, hday⟩, hsecond, hnano⟩ := h
  have hsize : Instant.secondsPerDay = 86400 := rfl
  have hlimit : t.date.year.natAbs < yearLimit := by
    simp only [Date.firstYear, Date.lastYear, yearLimit] at hyear ⊢
    omega
  have hdays := Date.daysInMonth_le t.date.year t.date.month
  have hs : t.second % 60 + t.nano / Instant.billion ≤ 60 := by
    rcases hnano with hlt | ⟨hlast, hlt⟩
    · rw [Nat.div_eq_of_lt hlt]
      omega
    · have hone := Nat.div_lt_of_lt_mul (Nat.mul_comm _ _ ▸ hlt)
      omega
  have hfraction := fraction_fractionText (Nat.mod_lt t.nano (by decide : 0 < Instant.billion))
  have hend : offset (skipBlanks ['Z']) = .ok (0, []) := rfl
  have hnothing : skipBlanks [] = [] := rfl
  simp only [readChars, writeChars, List.append_assoc, List.cons_append, bind, Except.bind,
    year_yearText hlimit, separator_minus, separator_colon, dateEnd_T,
    field_digits hmonth.1 hmonth.2 (by decide),
    field_digits hday.1 (Nat.le_trans hday.2 hdays) (by decide),
    field_digits (Nat.zero_le _) (show t.second / 3600 ≤ 23 by omega) (by decide),
    field_digits (Nat.zero_le _) (show t.second / 60 % 60 ≤ 59 by omega) (by decide),
    field_digits (Nat.zero_le _) hs (by decide), hfraction, hend, hnothing, if_pos, hparts]

/-- A text in universal time: the time of day with hours, minutes and seconds of two digits each, then
no places, or a point and three, six or nine of them. -/
def Universal (cs : List Char) : Prop :=
  ∃ date h mi s places, cs = date ++ 'T' :: digits 2 h ++ ':' :: digits 2 mi ++ ':' :: digits 2 s ++
      places ++ ['Z'] ∧
    (places = [] ∨ ∃ ds, places = '.' :: ds ∧ (∀ c ∈ ds, isDigit c) ∧ ds.length ∈ [3, 6, 9])

theorem universal_writeChars (t : Instant) : Universal (writeChars t) := by
  refine ⟨yearText t.date.year ++ '-' :: digits 2 t.date.month ++ '-' :: digits 2 t.date.day, _, _, _,
    fractionText (t.nano % Instant.billion), rfl, ?_⟩
  unfold fractionText
  split
  · exact Or.inl rfl
  · right
    split
    · exact ⟨_, rfl, isDigit_of_mem_digits 3 _, by simp [length_digits]⟩
    · split
      · exact ⟨_, rfl, isDigit_of_mem_digits 6 _, by simp [length_digits]⟩
      · exact ⟨_, rfl, isDigit_of_mem_digits 9 _, by simp [length_digits]⟩

theorem read_write {t : Instant} (h : t.Valid) : read (write t) = .ok t := by
  unfold read write
  rw [String.toList_ofList]
  exact readChars_writeChars h

theorem exists_read_iff {t : Instant} : (∃ s, read s = .ok t) ↔ t.Valid :=
  ⟨fun ⟨_, h⟩ => readChars_valid h, fun h => ⟨write t, read_write h⟩⟩

end Rfc3339

end EventSourcing
