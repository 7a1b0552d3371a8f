import EventSourcing.Decimal

/-!
JSON values: payloads, header values and the written form of stored events. Integers are exact and
apart from decimal fractions. The members of an object stand in the order of their keys, each key
once.
-/

namespace EventSourcing

inductive Json where
  | null
  | bool (b : Bool)
  | int (n : Int)
  | decimal (d : Decimal)
  | text (s : String)
  | list (items : List Json)
  | object (members : List (String × Json))
deriving Inhabited, Repr

/-- The first value under a key. -/
def memberOf (key : String) : List (String × Json) → Option Json
  | [] => none
  | (k, v) :: rest => if k = key then some v else memberOf key rest

/-- Sets a key, in the order of the keys. -/
def setMember (key : String) (value : Json) : List (String × Json) → List (String × Json)
  | [] => [(key, value)]
  | (k, v) :: rest =>
    if k = key then (key, value) :: rest
    else if key < k then (key, value) :: (k, v) :: rest
    else (k, v) :: setMember key value rest

theorem memberOf_setMember_self (key : String) (value : Json) (ms : List (String × Json)) :
    memberOf key (setMember key value ms) = some value := by
  induction ms with
  | nil => simp [setMember, memberOf]
  | cons m rest ih =>
    obtain ⟨k, v⟩ := m
    simp only [setMember]
    split
    · simp [memberOf]
    · split
      · simp [memberOf]
      · rename_i hk _
        simp [memberOf, hk, ih]

theorem memberOf_setMember_ne {key other : String} (h : other ≠ key) (value : Json)
    (ms : List (String × Json)) : memberOf other (setMember key value ms) = memberOf other ms := by
  induction ms with
  | nil => simp [setMember, memberOf, h.symm]
  | cons m rest ih =>
    obtain ⟨k, v⟩ := m
    simp only [setMember]
    split
    · rename_i hk
      subst hk
      simp [memberOf, h.symm]
    · split
      · simp [memberOf, h.symm]
      · simp only [memberOf, ih]

end EventSourcing
