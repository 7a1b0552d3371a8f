/-!
Lengths of time in billionths of a second, and their text: the largest unit that gives at least
one, with the fewest places that are exact.
-/

namespace EventSourcing

structure Duration where
  nanos : Nat
deriving DecidableEq, Repr

namespace Duration

def ofMicros (n : Nat) : Duration := ⟨n * 1000⟩

def ofMillis (n : Nat) : Duration := ⟨n * 1000000⟩

/-- A value of `whole` and `rest` out of ten to the power `width`. -/
def inUnit (whole rest width : Nat) (unit : String) : String :=
  let ds := Nat.toDigits 10 rest
  let places := List.replicate (width - ds.length) '0' ++ ds
  let shown := (places.reverse.dropWhile (· == '0')).reverse
  if shown.isEmpty then toString whole ++ unit
  else toString whole ++ "." ++ String.ofList shown ++ unit

def text (d : Duration) : String :=
  if 1000000000 ≤ d.nanos then inUnit (d.nanos / 1000000000) (d.nanos % 1000000000) 9 "s"
  else if 1000000 ≤ d.nanos then inUnit (d.nanos / 1000000) (d.nanos % 1000000) 6 "ms"
  else if 1000 ≤ d.nanos then inUnit (d.nanos / 1000) (d.nanos % 1000) 3 "µs"
  else toString d.nanos ++ "ns"

end Duration

end EventSourcing
