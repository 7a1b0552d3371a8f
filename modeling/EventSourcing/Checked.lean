/-!
Sizes and counts are machine words. Their sums and differences are checked: a result that does not
fit is an `Overflow`, never a wrapped number. A size (version, position) is kept as a `Nat` below
`sizeLimit`, a count as a `UInt32`.
-/

namespace EventSourcing

inductive Overflow where
  | addition
  | subtraction
deriving DecidableEq, Repr

def Overflow.message : Overflow → String
  | .addition => "attempt to add with overflow"
  | .subtraction => "attempt to subtract with overflow"

/-- Sizes are 64 bit words. -/
def sizeLimit : Nat := UInt64.size

def addSize (a b : Nat) : Except Overflow Nat :=
  if a + b < sizeLimit then .ok (a + b) else .error .addition

def addCount (a b : UInt32) : Except Overflow UInt32 :=
  if a.toNat + b.toNat < UInt32.size then .ok (a + b) else .error .addition

def subCount (a b : UInt32) : Except Overflow UInt32 :=
  if b.toNat ≤ a.toNat then .ok (a - b) else .error .subtraction

theorem addSize_eq_ok {a b c : Nat} : addSize a b = .ok c ↔ a + b < sizeLimit ∧ c = a + b := by
  unfold addSize
  split
  · rename_i h
    exact ⟨fun e => ⟨h, (Except.ok.inj e).symm⟩, fun e => congrArg Except.ok e.2.symm⟩
  · rename_i h
    exact ⟨fun e => (nomatch e), fun e => absurd e.1 h⟩

theorem toNat_of_addCount {a b c : UInt32} (h : addCount a b = .ok c) :
    c.toNat = a.toNat + b.toNat := by
  unfold addCount at h
  split at h
  · rename_i hlt
    cases h
    rw [UInt32.toNat_add]
    exact Nat.mod_eq_of_lt hlt
  · cases h

theorem toNat_of_subCount {a b c : UInt32} (h : subCount a b = .ok c) :
    c.toNat + b.toNat = a.toNat := by
  unfold subCount at h
  split at h
  · rename_i hle
    cases h
    have := UInt32.toNat_sub_of_le a b (UInt32.le_iff_toNat_le.2 hle)
    omega
  · cases h

theorem addCount_eq_error {a b : UInt32} {o : Overflow} :
    addCount a b = .error o ↔ o = .addition ∧ UInt32.size ≤ a.toNat + b.toNat := by
  unfold addCount
  split
  · rename_i hlt
    exact ⟨fun e => (nomatch e), fun e => absurd hlt (Nat.not_lt.2 e.2)⟩
  · rename_i hge
    exact ⟨fun e => ⟨(Except.error.inj e).symm, Nat.not_lt.1 hge⟩, fun e => congrArg _ e.1.symm⟩

theorem subCount_eq_error {a b : UInt32} {o : Overflow} :
    subCount a b = .error o ↔ o = .subtraction ∧ a.toNat < b.toNat := by
  unfold subCount
  split
  · rename_i hle
    exact ⟨fun e => (nomatch e), fun e => absurd hle (Nat.not_le.2 e.2)⟩
  · rename_i hgt
    exact ⟨fun e => ⟨(Except.error.inj e).symm, Nat.not_le.1 hgt⟩, fun e => congrArg _ e.1.symm⟩

end EventSourcing
