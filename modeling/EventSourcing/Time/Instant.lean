/-!
Points in time, in universal time: a date of the Gregorian calendar, a second of that day and a
fraction. A leap second is the last second of its minute with a fraction of one second or more.
-/

namespace EventSourcing

structure Date where
  year : Int
  month : Nat
  day : Nat
deriving DecidableEq, Repr

namespace Date

def isLeapYear (year : Int) : Bool := year % 4 = 0 && (year % 100 ≠ 0 || year % 400 = 0)

def daysInMonth (year : Int) (month : Nat) : Nat :=
  if month = 2 then if isLeapYear year then 29 else 28
  else if month = 4 ∨ month = 6 ∨ month = 9 ∨ month = 11 then 30
  else 31

/-- The years that dates are kept for. -/
def firstYear : Int := -262143

def lastYear : Int := 262142

structure Valid (d : Date) : Prop where
  year : firstYear ≤ d.year ∧ d.year ≤ lastYear
  month : 1 ≤ d.month ∧ d.month ≤ 12
  day : 1 ≤ d.day ∧ d.day ≤ daysInMonth d.year d.month

instance (d : Date) : Decidable d.Valid :=
  decidable_of_iff ((firstYear ≤ d.year ∧ d.year ≤ lastYear) ∧ (1 ≤ d.month ∧ d.month ≤ 12) ∧
      1 ≤ d.day ∧ d.day ≤ daysInMonth d.year d.month)
    ⟨fun ⟨a, b, c⟩ => ⟨a, b, c⟩, fun ⟨a, b, c⟩ => ⟨a, b, c⟩⟩

def ofParts (year : Int) (month day : Nat) : Option Date :=
  let d : Date := ⟨year, month, day⟩
  if d.Valid then some d else none

/-- The day after, if there is one. -/
def next (d : Date) : Option Date :=
  if d.day < daysInMonth d.year d.month then some { d with day := d.day + 1 }
  else if d.month < 12 then some ⟨d.year, d.month + 1, 1⟩
  else if d.year < lastYear then some ⟨d.year + 1, 1, 1⟩
  else none

/-- The day before, if there is one. -/
def previous (d : Date) : Option Date :=
  if 1 < d.day then some { d with day := d.day - 1 }
  else if 1 < d.month then some ⟨d.year, d.month - 1, daysInMonth d.year (d.month - 1)⟩
  else if firstYear < d.year then some ⟨d.year - 1, 12, 31⟩
  else none

end Date

structure Instant where
  date : Date
  /-- Second of the day. -/
  second : Nat
  /-- Billionths of a second; from one billion on, of the leap second that follows. -/
  nano : Nat
deriving DecidableEq, Repr

namespace Instant

def secondsPerDay : Nat := 86400

def billion : Nat := 1000000000

structure Valid (t : Instant) : Prop where
  date : t.date.Valid
  second : t.second < secondsPerDay
  nano : t.nano < billion ∨ t.second % 60 = 59 ∧ t.nano < 2 * billion

/-- Midnight of the first of January 1970. -/
def epoch : Instant := ⟨⟨1970, 1, 1⟩, 0, 0⟩

/-- The instant at which a clock shows `date` and `second` that is `offset` seconds, less than a day
either way, ahead of universal time. -/
def ofLocal (date : Date) (second nano : Nat) (offset : Int) : Option Instant :=
  let s : Int := second - offset
  if s < 0 then date.previous.map fun d => ⟨d, (s + secondsPerDay).toNat, nano⟩
  else if s < secondsPerDay then some ⟨date, s.toNat, nano⟩
  else date.next.map fun d => ⟨d, (s - secondsPerDay).toNat, nano⟩

end Instant

end EventSourcing
