import EventSourcing.Text.Unprintable

/-!
Text in double quotes, as error messages show it: quotes, backslashes and the common controls are
escaped by letter, what cannot be seen by its code point.
-/

namespace EventSourcing.Text

/-- Lower case, without leading zeros. -/
def hexDigits (n : Nat) : List Char := Nat.toDigits 16 n

/-- The number that hexadecimal digits of either case write; other characters do not count. -/
def hexValue (cs : List Char) : Nat :=
  cs.foldl (fun n c =>
    if c.isDigit then n * 16 + (c.toNat - '0'.toNat)
    else if 'a' ≤ c && c ≤ 'f' then n * 16 + 10 + (c.toNat - 'a'.toNat)
    else if 'A' ≤ c && c ≤ 'F' then n * 16 + 10 + (c.toNat - 'A'.toNat)
    else n) 0

def quotedChar (c : Char) : List Char :=
  match c.toNat with
  | 0x00 => ['\\', '0']
  | 0x09 => ['\\', 't']
  | 0x0A => ['\\', 'n']
  | 0x0D => ['\\', 'r']
  | 0x22 => ['\\', '\x22']
  | 0x5C => ['\\', '\\']
  | n => if isPrintable c then [c] else ['\\', 'u', '\x7b'] ++ hexDigits n ++ ['\x7d']

def quoted (s : String) : String :=
  String.ofList ('\x22' :: s.toList.flatMap quotedChar ++ ['\x22'])

end EventSourcing.Text
