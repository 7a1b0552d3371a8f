import EventSourcing.Text.Blank
import EventSourcing.Time.Instant

/-!
The written form of instants: date, time of day and offset from universal time. Writing always
uses universal time and the fewest of 0, 3, 6 or 9 places that are exact. Reading is lenient: it
takes short fields, blanks before separators, any number of places and any offset below a day.
-/

namespace EventSourcing.Rfc3339

open EventSourcing.Text

inductive ReadError where
  | tooShort
  | invalid
  | outOfRange
  | impossible
  | tooLong
deriving DecidableEq, Repr

def ReadError.message : ReadError → String
  | .tooShort => "premature end of input"
  | .invalid => "input contains invalid characters"
  | .outOfRange => "input is out of range"
  | .impossible => "no possible date and time matching input"
  | .tooLong => "trailing input"

/-- A reader of the front of a text gives a value and the rest. -/
abbrev Step (α : Type) := List Char → Except ReadError (α × List Char)

def isDigit (c : Char) : Bool := '0' ≤ c && c ≤ '9'

def digitValue (c : Char) : Nat := c.toNat - '0'.toNat

def valueOf (ds : List Char) : Nat := ds.foldl (fun n d => n * 10 + digitValue d) 0

/-- At most `n` digits from the front. -/
def takeDigits : Nat → List Char → List Char × List Char
  | 0, cs => ([], cs)
  | _, [] => ([], [])
  | n + 1, c :: cs =>
    if isDigit c then
      let (ds, rest) := takeDigits n cs
      (c :: ds, rest)
    else ([], c :: cs)

/-- A number of one to `width` digits. -/
def number (width : Nat) : Step Nat := fun cs =>
  match takeDigits width cs with
  | ([], []) => .error .tooShort
  | ([], _ :: _) => .error .invalid
  | (ds, rest) => .ok (valueOf ds, rest)

/-- A number in `low..high` after blanks. -/
def field (low high : Nat) : Step Nat := fun cs => do
  let (n, rest) ← number 2 (skipBlanks cs)
  if low ≤ n ∧ n ≤ high then return (n, rest) else .error .outOfRange

/-- Years beyond this are refused before the date is looked at. -/
def yearLimit : Nat := 0x80000000

/-- Four digits at most, or a sign and any number of digits. -/
def year : Step Int := fun cs =>
  match skipBlanks cs with
  | '-' :: rest => do
    let (n, rest) ← number rest.length rest
    if n ≤ yearLimit then return (-(n : Int), rest) else .error .outOfRange
  | '+' :: rest => do
    let (n, rest) ← number rest.length rest
    if n < yearLimit then return ((n : Int), rest) else .error .outOfRange
  | rest => do
    let (n, rest) ← number 4 rest
    return ((n : Int), rest)

/-- The separator `c` after blanks. -/
def separator (c : Char) : Step Unit := fun cs =>
  match skipBlanks cs with
  | [] => .error .tooShort
  | d :: rest => if d = c then .ok ((), rest) else .error .invalid

/-- What may stand between date and time. -/
def dateEnd : Step Unit
  | [] => .error .tooShort
  | c :: rest => if c = 'T' ∨ c = 't' ∨ c = ' ' then .ok ((), rest) else .error .invalid

/-- Places of the second, in billionths. Places after the ninth are skipped. -/
def fraction : Step Nat
  | '.' :: cs =>
    match takeDigits 9 cs with
    | ([], []) => .error .tooShort
    | ([], _ :: _) => .error .invalid
    | (ds, rest) =>
      .ok (valueOf (ds ++ List.replicate (9 - ds.length) '0'), rest.dropWhile isDigit)
  | cs => .ok (0, cs)

/-- Two characters that have to be digits. -/
def twoDigits : Step (Char × Char)
  | [] => .error .tooShort
  | [c] => if c.toNat < 128 then .error .tooShort else .error .invalid
  | c :: d :: rest => if isDigit c ∧ isDigit d then .ok ((c, d), rest) else .error .invalid

def offsetGap (c : Char) : Bool := c = ':' || isBlank c

/-- Hours and minutes after the sign, in seconds. -/
def offsetSize : Step Nat := fun cs => do
  let ((h1, h2), rest) ← twoDigits cs
  let ((m1, m2), rest) ← twoDigits (rest.dropWhile offsetGap)
  if '6' ≤ m1 then .error .outOfRange
  else return (valueOf [h1, h2] * 3600 + valueOf [m1, m2] * 60, rest)

/-- Seconds ahead of universal time. -/
def offset : Step Int := fun cs =>
  match cs with
  | 'Z' :: rest => .ok (0, rest)
  | 'z' :: rest => .ok (0, rest)
  | c :: rest =>
    if cs.take 3 |>.map Char.toUpper |> (· = ['U', 'T', 'C']) then .ok (0, cs.drop 3)
    else if c = '+' then do
      let (n, rest) ← offsetSize rest
      return ((n : Int), rest)
    else if c = '-' ∨ c = '\u2212' then do
      let (n, rest) ← offsetSize rest
      return (-(n : Int), rest)
    else .error .invalid
  | [] => .error .tooShort

/-- The instant that a clock with the given offset shows. A second of 60 is a leap second. -/
def instantOf (y : Int) (mo d h mi s nano : Nat) (off : Int) : Except ReadError Instant :=
  match Date.ofParts y mo d with
  | none => .error .outOfRange
  | some date =>
    if 86400 ≤ off.natAbs then .error .outOfRange
    else
      let (s, nano) := if s = 60 then (59, nano + Instant.billion) else (s, nano)
      match Instant.ofLocal date (h * 3600 + mi * 60 + s) nano off with
      | none => .error .impossible
      | some t => .ok t

def readChars (cs : List Char) : Except ReadError Instant := do
  let (y, cs) ← year cs
  let (_, cs) ← separator '-' cs
  let (mo, cs) ← field 1 12 cs
  let (_, cs) ← separator '-' cs
  let (d, cs) ← field 1 31 cs
  let (_, cs) ← dateEnd cs
  let (h, cs) ← field 0 23 cs
  let (_, cs) ← separator ':' cs
  let (mi, cs) ← field 0 59 cs
  let (_, cs) ← separator ':' cs
  let (s, cs) ← field 0 60 cs
  let (nano, cs) ← fraction cs
  let (off, cs) ← offset (skipBlanks cs)
  if skipBlanks cs = [] then instantOf y mo d h mi s nano off else .error .tooLong

def read (s : String) : Except ReadError Instant := readChars s.toList

/-- The last `n` decimal digits. -/
def digits : Nat → Nat → List Char
  | 0, _ => []
  | n + 1, v => digits n (v / 10) ++ [Nat.digitChar (v % 10)]

/-- Four digits, or a sign and at least four. -/
def yearText (y : Int) : List Char :=
  if 0 ≤ y ∧ y ≤ 9999 then digits 4 y.toNat
  else
    let all := Nat.toDigits 10 y.natAbs
    (if y < 0 then '-' else '+') :: List.replicate (4 - all.length) '0' ++ all

def fractionText (nano : Nat) : List Char :=
  if nano = 0 then []
  else if nano % 1000000 = 0 then '.' :: digits 3 (nano / 1000000)
  else if nano % 1000 = 0 then '.' :: digits 6 (nano / 1000)
  else '.' :: digits 9 nano

def writeChars (t : Instant) : List Char :=
  let s := t.second % 60 + t.nano / Instant.billion
  yearText t.date.year ++ '-' :: digits 2 t.date.month ++ '-' :: digits 2 t.date.day
    ++ 'T' :: digits 2 (t.second / 3600) ++ ':' :: digits 2 (t.second / 60 % 60)
    ++ ':' :: digits 2 s ++ fractionText (t.nano % Instant.billion) ++ ['Z']

def write (t : Instant) : String := String.ofList (writeChars t)

end EventSourcing.Rfc3339
