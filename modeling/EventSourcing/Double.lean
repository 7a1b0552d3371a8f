import EventSourcing.Decimal

/-!
Fractions of double precision: fifty-three binary digits times a power of two. `ofRatio` rounds to
the nearest one, `shortest` gives the fewest decimal digits that no other one is nearer to. A number
that is written with a power of ten is read in two steps, its digits and then the power, each of
them rounded.
-/

namespace EventSourcing

/-- The mantissa is below the fifty-third power of two, and below the fifty-second one only if the
exponent is the least there is. -/
structure Double where
  mantissa : Nat
  exponent : Int
deriving DecidableEq, Repr

namespace Double

def leastExponent : Int := -1074

def greatestExponent : Int := 971

/-- The least mantissa for all exponents but the least. -/
def fullMantissa : Nat := 4503599627370496

def zero : Double := ⟨0, leastExponent⟩

/-- A ratio divided by a power of two, as a ratio. -/
def shifted (num den : Nat) (exponent : Int) : Nat × Nat :=
  if 0 ≤ exponent then (num, den <<< exponent.toNat) else (num <<< exponent.natAbs, den)

/-- The nearest whole number to a ratio; of two, the even one. -/
def nearest (num den : Nat) : Nat :=
  let whole := num / den
  let twice := 2 * (num % den)
  if twice < den then whole else if den < twice then whole + 1 else whole + whole % 2

/-- The exponent by which a ratio has a full mantissa. -/
def exponentFor (num den : Nat) : Int :=
  let guess : Int := num.log2 - den.log2 - 52
  let (n, d) := shifted num den guess
  if n / d < fullMantissa then guess - 1 else guess

/-- The nearest fraction to a ratio of positive numbers, where exponents have no upper limit. -/
def ofRatio (num den : Nat) : Double :=
  if num = 0 then zero
  else
    let exponent := max (exponentFor num den) leastExponent
    let (n, d) := shifted num den exponent
    let mantissa := nearest n d
    if mantissa = 2 * fullMantissa then ⟨fullMantissa, exponent + 1⟩ else ⟨mantissa, exponent⟩

def num (d : Double) : Nat := d.mantissa <<< d.exponent.toNat

def den (d : Double) : Nat := 1 <<< (-d.exponent).toNat

def isFinite (d : Double) : Bool := d.exponent ≤ greatestExponent

def mul (a b : Double) : Double := ofRatio (a.num * b.num) (a.den * b.den)

def div (a b : Double) : Double := ofRatio (a.num * b.den) (a.den * b.num)

def ofNat (n : Nat) : Double := ofRatio n 1

def powerOfTen (n : Nat) : Double := ofNat (Nat.pow 10 n)

/-- The greatest power of ten that is at most the greatest fraction. -/
def greatestPower : Nat := 308

/-- Multiplies by a power of ten, or divides by one, the greatest one first. Nothing is left after
three divisions by it. -/
def scaleSteps (d : Double) : (steps : Nat) → (power : Int) → Option Double
  | 0, _ => some d
  | steps + 1, power =>
    if power.natAbs ≤ greatestPower then
      if 0 ≤ power then
        let product := d.mul (powerOfTen power.toNat)
        if product.isFinite then some product else none
      else some (d.div (powerOfTen power.natAbs))
    else if d = zero then some d
    else if 0 ≤ power then none
    else scaleSteps (d.div (powerOfTen greatestPower)) steps (power + greatestPower)

/-- Digits times a power of ten, if that is not too much. -/
def ofParts (digits : Nat) (power : Int) : Option Double := scaleSteps (ofNat digits) 4 power

/-! ## Shortest digits -/

/-- The two numbers that a whole number times a power of ten, and one times a power of two, have to
be multiplied with so that they can be compared. -/
def scales (power exponent : Int) : Nat × Nat :=
  ((Nat.pow 10 power.toNat) <<< (-exponent).toNat,
    (Nat.pow 10 (-power).toNat) <<< exponent.toNat)

/-- The digits on the grid of a power of ten that no other fraction is nearer to, if there are any.
Of two such the nearer one is taken, or else the even one. Distances are counted in quarters of the
last binary digit. -/
def onGrid (d : Double) (power : Int) : Option Nat :=
  let (ten, two) := scales power (d.exponent - 2)
  let value := 4 * d.mantissa * two
  let below := if d.mantissa = fullMantissa ∧ leastExponent < d.exponent then 1 else 2
  let low := (4 * d.mantissa - below) * two
  let high := (4 * d.mantissa + 2) * two
  let isNear (digits : Nat) : Bool :=
    if d.mantissa % 2 = 0 then low ≤ digits * ten && digits * ten ≤ high
    else low < digits * ten && digits * ten < high
  let floor := value / ten
  match isNear floor, isNear (floor + 1) with
  | true, true => some (nearest value ten)
  | true, false => some floor
  | false, true => some (floor + 1)
  | false, false => none

/-- The power of ten of the first digit. Four hundred places reach behind the first digit of every
fraction. -/
def firstPower (d : Double) : Int :=
  (Decimal.natDigits (d.num * Nat.pow 10 400 / d.den)).length - 401

/-- The first grid on which there are digits, from one digit on. -/
def shortestFrom (d : Double) (power : Int) : (grids : Nat) → Nat × Int
  | 0 => (d.mantissa, power)
  | grids + 1 =>
    match d.onGrid power with
    | some digits => (digits, power)
    | none => shortestFrom d (power - 1) grids

/-- Seventeen digits are always enough. -/
def shortest (negative : Bool) (d : Double) : Decimal :=
  if d.mantissa = 0 then ⟨negative, 0, 0⟩
  else
    let (digits, power) := d.shortestFrom d.firstPower 17
    .ofDigits negative (Decimal.natDigits digits) [] power

end Double

end EventSourcing
