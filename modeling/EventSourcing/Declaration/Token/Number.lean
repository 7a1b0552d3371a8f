import EventSourcing.Declaration.Token
import EventSourcing.Text.Blank
import EventSourcing.Text.Quoted

/-!
Words and numbers of Rust source text. `Token.number` splits a number with its suffix from what
follows it; `Token.indexValue` is the value of a whole number, as it names a field of a tuple.
-/

namespace EventSourcing.Declaration.Token

open EventSourcing.Text

/-- What may stand between tokens: white space and the marks of writing direction. -/
def isGap (c : Char) : Bool := isBlank c || c = '\u200e' || c = '\u200f'

def isWordStart (c : Char) : Bool := c.isAlpha || c = '_' || 128 ≤ c.toNat && !isGap c

def isWordPart (c : Char) : Bool := isWordStart c || c.isDigit

def isDigitOrLine (c : Char) : Bool := c.isDigit || c = '_'

/-- Splits at the first character that is not of a kind. -/
def spanOf (p : Char → Bool) (cs : List Char) : List Char × List Char :=
  (cs.takeWhile p, cs.dropWhile p)

/-- The exponent behind its letter: lines, a sign, and a digit somewhere behind that. -/
def exponent? (cs : List Char) : Option (List Char × List Char) :=
  let (lines, rest) := spanOf (· = '_') cs
  let (sign, rest) := match rest with
    | '+' :: more => (['+'], more)
    | '-' :: more => (['-'], more)
    | _ => ([], rest)
  let (digits, after) := spanOf isDigitOrLine rest
  if digits.any Char.isDigit then some (lines ++ sign ++ digits, after) else none

def isExponentLetter (c : Char) : Bool := c = 'e' || c = 'E'

/-- A number with a point or an exponent. A point counts only if neither a second one nor a word
follows it; behind a point, letters that are no exponent are a suffix. -/
def fraction? (cs : List Char) : Option (List Char × List Char) :=
  let (whole, rest) := spanOf isDigitOrLine cs
  match rest with
  | '.' :: more =>
    if more.head?.any fun c => c = '.' || isWordStart c then none
    else
      let (places, after) := spanOf isDigitOrLine more
      let unscaled := (whole ++ '.' :: places, after)
      match after with
      | e :: behind =>
        if isExponentLetter e then
          match exponent? behind with
          | some (digits, after) => some (whole ++ '.' :: places ++ e :: digits, after)
          | none => some unscaled
        else some unscaled
      | [] => some unscaled
  | e :: behind =>
    if isExponentLetter e then
      (exponent? behind).map fun p => (whole ++ e :: p.1, p.2)
    else none
  | [] => none

/-- A number with its suffix, from its first digit on. -/
def number (cs : List Char) : List Char × List Char :=
  match fraction? cs with
  | some (digits, rest) => (digits ++ rest.takeWhile isWordPart, rest.dropWhile isWordPart)
  | none => spanOf isWordPart cs

def isDigitOf (base : Nat) (c : Char) : Bool :=
  if base ≤ 10 then c.isDigit && c.toNat - '0'.toNat < base else c.isDigit || isHexLetter c
where
  isHexLetter (c : Char) : Bool := 'a' ≤ c && c ≤ 'f' || 'A' ≤ c && c ≤ 'F'

/-- The value of digits that lines may part, at least one digit. -/
def valueIn (base : Nat) (cs : List Char) : Option Nat :=
  let digits := cs.filter (· ≠ '_')
  if digits.isEmpty || !digits.all (isDigitOf base) then none
  else some (digits.foldl (fun n c => n * base + hexValue [c]) 0)

/-- The value of a whole number without a suffix. -/
def indexValue (cs : List Char) : Option Nat :=
  match cs with
  | '0' :: 'x' :: digits => valueIn 16 digits
  | '0' :: 'o' :: digits => valueIn 8 digits
  | '0' :: 'b' :: digits => valueIn 2 digits
  | _ => if cs.head?.any Char.isDigit then valueIn 10 cs else none

end EventSourcing.Declaration.Token
