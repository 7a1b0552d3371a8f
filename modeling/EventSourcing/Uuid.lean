/-!
Identifiers drawn at random: version 4 UUIDs in lower case. The bits come from a generator whose
whole state is one word, so drawing is a function of where the generator stands.
-/

namespace EventSourcing

namespace Uuid

/-- The last `n` hexadecimal digits. -/
def hex : Nat → Nat → List Char
  | 0, _ => []
  | n + 1, v => hex n (v / 16) ++ [Nat.digitChar (v % 16)]

/-- The identifier of these bits, but for the six that say version and variant. -/
def version4 (high low : UInt64) : String :=
  String.ofList (hex 8 (high >>> 32).toNat ++ '-' :: hex 4 (high >>> 16).toNat
    ++ '-' :: '4' :: hex 3 high.toNat ++ '-' :: hex 1 (8 + (low >>> 62).toNat)
    ++ hex 3 (low >>> 48).toNat ++ '-' :: hex 12 low.toNat)

def isHex (c : Char) : Bool := ('0' ≤ c && c ≤ '9') || ('a' ≤ c && c ≤ 'f')

/-- Whether a text has the form of a version 4 UUID in lower case. -/
def isVersion4 (s : String) : Bool :=
  let cs := s.toList
  cs.length = 36 && (cs.zipIdx.all fun (c, i) =>
    if i = 8 ∨ i = 13 ∨ i = 18 ∨ i = 23 then c = '-'
    else if i = 14 then c = '4'
    else if i = 19 then c = '8' || c = '9' || c = 'a' || c = 'b'
    else isHex c)

end Uuid

/-- A generator of random words. -/
structure Randomness where
  state : UInt64
deriving DecidableEq, Repr

namespace Randomness

def next (r : Randomness) : UInt64 × Randomness :=
  let s := r.state + 0x9E3779B97F4A7C15
  let z := (s ^^^ (s >>> 30)) * 0xBF58476D1CE4E5B9
  let z := (z ^^^ (z >>> 27)) * 0x94D049BB133111EB
  (z ^^^ (z >>> 31), ⟨s⟩)

/-- A new identifier. -/
def newId (r : Randomness) : String × Randomness :=
  let (high, r) := r.next
  let (low, r) := r.next
  (Uuid.version4 high low, r)

def newIds : Nat → Randomness → List String × Randomness
  | 0, r => ([], r)
  | n + 1, r =>
    let (id, r) := r.newId
    let (ids, r) := newIds n r
    (id :: ids, r)

end Randomness

end EventSourcing
