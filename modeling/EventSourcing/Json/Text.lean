import EventSourcing.Double
import EventSourcing.Json
import EventSourcing.Text.Quoted

/-!
JSON text. `Json.parse` reads a value from a whole text, or nothing; a number with a point or an
exponent is a decimal. `Json.write` writes a value without white space.
-/

namespace EventSourcing

open EventSourcing.Text

namespace Json

def isSpace (c : Char) : Bool := c = ' ' || c = '\t' || c = '\n' || c = '\x0d'

def skipSpace (cs : List Char) : List Char := cs.dropWhile isSpace

/-! ## Reading -/

/-- Splits the inside of a text from what follows its closing quote. -/
def closeText : List Char → Option (List Char × List Char)
  | [] => none
  | '\\' :: c :: rest => (closeText rest).map fun p => ('\\' :: c :: p.1, p.2)
  | c :: rest =>
    if c = '\x22' then some ([], rest) else (closeText rest).map fun p => (c :: p.1, p.2)

/-- The character that a letter behind a backslash stands for. -/
def escaped (c : Char) : Char :=
  if c = 'n' then '\n' else if c = 't' then '\t' else if c = 'r' then '\x0d'
  else if c = 'b' then '\x08' else if c = 'f' then '\x0c' else c

/-- The inside of a text with its escapes resolved. Two surrogates are one character; `high` is the
first of them, once read. -/
def resolve (high : Option Nat) : List Char → List Char
  | '\\' :: 'u' :: a :: b :: c :: d :: rest =>
    let unit := hexValue [a, b, c, d]
    if 0xD800 ≤ unit ∧ unit < 0xDC00 then resolve (some unit) rest
    else
      match high with
      | some first =>
        Char.ofNat (0x10000 + (first - 0xD800) * 0x400 + (unit - 0xDC00)) :: resolve none rest
      | none => Char.ofNat unit :: resolve none rest
  | '\\' :: c :: rest => escaped c :: resolve none rest
  | c :: rest => c :: resolve none rest
  | [] => []

def readText (cs : List Char) : Option (String × List Char) :=
  (closeText cs).map fun p => (String.ofList (resolve none p.1), p.2)

/-! A number keeps as many of its digits as a word of sixty-four bits can hold. What is no whole
number, or too large for a word, is a fraction of double precision, and so is zero with a sign. -/

/-- Digits behind those of `n`, while a word can hold them all: the number, how many they are, and
what follows. -/
def readDigits (n : Nat) : List Char → Nat × Nat × List Char
  | [] => (n, 0, [])
  | c :: rest =>
    let longer := n * 10 + (c.toNat - '0'.toNat)
    if c.isDigit ∧ longer < UInt64.size then
      let (value, count, after) := readDigits longer rest
      (value, count + 1, after)
    else (n, 0, c :: rest)

/-- The decimal of this sign, with these digits times a power of ten. -/
def decimalOf (negative : Bool) (digits : Nat) (power : Int) : Option Json :=
  (Double.ofParts digits power).map fun d => .decimal (d.shortest negative)

/-- The exponent behind its letter. -/
def readExponent (cs : List Char) : Int × List Char :=
  match cs with
  | '-' :: rest => (-(Decimal.valueOf (rest.takeWhile Char.isDigit)), rest.dropWhile Char.isDigit)
  | '+' :: rest => (Decimal.valueOf (rest.takeWhile Char.isDigit), rest.dropWhile Char.isDigit)
  | rest => (Decimal.valueOf (rest.takeWhile Char.isDigit), rest.dropWhile Char.isDigit)

/-- What follows the digits of a decimal. -/
def readScaled (negative : Bool) (digits : Nat) (power : Int) (cs : List Char) :
    Option (Json × List Char) :=
  let (exponent, after) := match cs with
    | 'e' :: rest | 'E' :: rest => readExponent rest
    | _ => (0, cs)
  (decimalOf negative digits (power + exponent)).map fun j => (j, after)

/-- What follows the whole digits of a decimal; `power` counts those that were left out. -/
def readPlaces (negative : Bool) (digits : Nat) (power : Int) (cs : List Char) :
    Option (Json × List Char) :=
  match cs with
  | '.' :: rest =>
    let (digits, count, after) := readDigits digits rest
    readScaled negative digits (power - count) (after.dropWhile Char.isDigit)
  | _ => readScaled negative digits power cs

/-- A number from its first digit on. -/
def readUnsigned (negative : Bool) (cs : List Char) : Option (Json × List Char) :=
  let (n, count, rest) := readDigits 0 cs
  let skipped := rest.takeWhile Char.isDigit
  let after := rest.dropWhile Char.isDigit
  if count = 0 then none
  else if skipped ≠ [] ∨ after.head?.any (['.', 'e', 'E'].contains ·) then
    readPlaces negative n skipped.length after
  else if !negative then some (.int n, after)
  else if n = 0 ∨ 9223372036854775808 < n then readScaled negative n 0 after
  else some (.int (-n), after)

def readNumber : List Char → Option (Json × List Char)
  | '-' :: rest => readUnsigned true rest
  | cs => readUnsigned false cs

mutual

/-- The steps bound how deep values, items and members are nested; twice the length of the text is
enough. -/
def readValue : Nat → List Char → Option (Json × List Char)
  | 0, _ => none
  | steps + 1, cs =>
    match skipSpace cs with
    | '[' :: rest =>
      match skipSpace rest with
      | ']' :: after => some (.list [], after)
      | inside => (readItems steps inside).map fun p => (.list p.1, p.2)
    | '\x7b' :: rest =>
      match skipSpace rest with
      | '\x7d' :: after => some (.object [], after)
      | inside => (readMembers steps inside).map fun p => (.object p.1, p.2)
    | '\x22' :: rest => (readText rest).map fun p => (.text p.1, p.2)
    | 'n' :: 'u' :: 'l' :: 'l' :: rest => some (.null, rest)
    | 't' :: 'r' :: 'u' :: 'e' :: rest => some (.bool true, rest)
    | 'f' :: 'a' :: 'l' :: 's' :: 'e' :: rest => some (.bool false, rest)
    | inside => readNumber inside

/-- At least one item, up to the end of the list. -/
def readItems : Nat → List Char → Option (List Json × List Char)
  | 0, _ => none
  | steps + 1, cs =>
    match readValue steps cs with
    | none => none
    | some (item, rest) =>
      match skipSpace rest with
      | ']' :: after => some ([item], after)
      | ',' :: more => (readItems steps more).map fun p => (item :: p.1, p.2)
      | _ => none

/-- At least one member, up to the end of the object. Of two values for a key the last one
counts. -/
def readMembers : Nat → List Char → Option (List (String × Json) × List Char)
  | 0, _ => none
  | steps + 1, cs =>
    match skipSpace cs with
    | '\x22' :: rest =>
      match readText rest with
      | none => none
      | some (key, rest) =>
        match skipSpace rest with
        | ':' :: rest =>
          match readValue steps rest with
          | none => none
          | some (value, rest) =>
            match skipSpace rest with
            | '\x7d' :: after => some ([(key, value)], after)
            | ',' :: more =>
              (readMembers steps more).map fun p =>
                (if (memberOf key p.1).isSome then p.1 else setMember key value p.1, p.2)
            | _ => none
        | _ => none
    | _ => none

end

def parse (s : String) : Option Json :=
  match readValue (2 * s.length + 1) s.toList with
  | some (j, rest) => if (skipSpace rest).isEmpty then some j else none
  | none => none

/-! ## Writing -/

def writtenChar (c : Char) : List Char :=
  if c = '\x22' then ['\\', '\x22']
  else if c = '\\' then ['\\', '\\']
  else if c.toNat < 0x20 then
    '\\' :: 'u' :: '0' :: '0' :: hexDigits (c.toNat / 16) ++ hexDigits (c.toNat % 16)
  else [c]

def writtenText (s : String) : List Char := '\x22' :: s.toList.flatMap writtenChar ++ ['\x22']

mutual

/-- The characters of a value. -/
def chars : Json → List Char
  | .null => ['n', 'u', 'l', 'l']
  | .bool true => ['t', 'r', 'u', 'e']
  | .bool false => ['f', 'a', 'l', 's', 'e']
  | .int n => (toString n).toList
  | .decimal d => d.text.toList
  | .text s => writtenText s
  | .list [] => ['[', ']']
  | .list (item :: items) => '[' :: chars item ++ moreItems items ++ [']']
  | .object [] => ['\x7b', '\x7d']
  | .object ((key, value) :: members) =>
    '\x7b' :: writtenText key ++ ':' :: chars value ++ moreMembers members ++ ['\x7d']

def moreItems : List Json → List Char
  | [] => []
  | item :: items => ',' :: chars item ++ moreItems items

def moreMembers : List (String × Json) → List Char
  | [] => []
  | (key, value) :: members =>
    ',' :: writtenText key ++ ':' :: chars value ++ moreMembers members

end

def write (j : Json) : String := String.ofList j.chars

end Json

end EventSourcing
