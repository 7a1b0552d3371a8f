/-!
Decimal fractions: digits times a power of ten, where zero has a sign too. The written form has a
point while the number reaches at most sixteen places before it, and otherwise an exponent.
-/

namespace EventSourcing

structure Decimal where
  negative : Bool
  digits : Nat
  exponent : Int
deriving DecidableEq, Repr, Inhabited

namespace Decimal

def valueOf (cs : List Char) : Nat := cs.foldl (fun n c => n * 10 + (c.toNat - '0'.toNat)) 0

/-- The number with these digits before and after its point, times a power of ten. Zeros at the end
go into the exponent, so that every number has one form. -/
def ofDigits (negative : Bool) (whole places : List Char) (exponent : Int) : Decimal :=
  let all := whole ++ places
  let kept := (all.reverse.dropWhile (· == '0')).reverse
  if kept.isEmpty then ⟨negative, 0, 0⟩
  else ⟨negative, valueOf kept, exponent + all.length - kept.length - places.length⟩

def natDigits (n : Nat) : List Char := Nat.toDigits 10 n

/-- One digit before the point, none behind it if there are no others, and the exponent. -/
def scientific (ds : List Char) (exponent : Int) : List Char :=
  let places := if ds.length = 1 then [] else '.' :: ds.drop 1
  ds.take 1 ++ places ++ 'e' :: (if exponent < 0 then '-' else '+') :: natDigits exponent.natAbs

/-- The digits with a point behind the first `point` of them, filled up with zeros. -/
def positional (ds : List Char) (point : Int) : List Char :=
  if point ≤ 0 then '0' :: '.' :: List.replicate (-point).toNat '0' ++ ds
  else if point < ds.length then ds.take point.toNat ++ '.' :: ds.drop point.toNat
  else ds ++ List.replicate (point.toNat - ds.length) '0' ++ ['.', '0']

def text (d : Decimal) : String :=
  let ds := natDigits d.digits
  let point := ds.length + d.exponent
  let unsigned :=
    if d.digits = 0 then ['0', '.', '0']
    else if -5 < point ∧ point ≤ 16 then positional ds point
    else scientific ds (point - 1)
  String.ofList (if d.negative then '-' :: unsigned else unsigned)

end Decimal

end EventSourcing
