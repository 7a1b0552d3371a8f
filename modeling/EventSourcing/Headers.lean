import EventSourcing.Json

/-!
Header maps of messages and records. A key has one value; the later of two settings wins, and in
`overlay` the map laid on top wins.
-/

namespace EventSourcing

structure Headers where
  members : List (String × Json)
deriving Inhabited

namespace Headers

def empty : Headers := ⟨[]⟩

def get? (h : Headers) (key : String) : Option Json := memberOf key h.members

def insert (h : Headers) (key : String) (value : Json) : Headers :=
  ⟨setMember key value h.members⟩

/-- The members of `top`, then those of `base` that `top` does not have. -/
def overlay (base top : Headers) : Headers :=
  top.members.foldr (fun m h => h.insert m.1 m.2) base

@[simp] theorem get?_empty (key : String) : empty.get? key = none := rfl

@[simp] theorem get?_insert_self (h : Headers) (key : String) (value : Json) :
    (h.insert key value).get? key = some value :=
  memberOf_setMember_self key value h.members

theorem get?_insert_ne (h : Headers) {key other : String} (hne : other ≠ key) (value : Json) :
    (h.insert key value).get? other = h.get? other :=
  memberOf_setMember_ne hne value h.members

theorem get?_overlay (base top : Headers) (key : String) :
    (base.overlay top).get? key = (top.get? key).or (base.get? key) := by
  obtain ⟨ms⟩ := top
  induction ms with
  | nil => simp [overlay, get?, memberOf]
  | cons m rest ih =>
    obtain ⟨k, v⟩ := m
    have hstep : base.overlay ⟨(k, v) :: rest⟩ = (base.overlay ⟨rest⟩).insert k v := rfl
    rw [hstep]
    by_cases hk : k = key
    · subst hk
      simp [get?, memberOf, insert, memberOf_setMember_self]
    · rw [get?_insert_ne _ (Ne.symm hk), ih]
      simp [get?, memberOf, hk]

/-- Under this key a saved event carries the id of its aggregate. -/
def aggregateId : String := "AggregateID"

/-- Under this key a stored record carries the type of its aggregate. -/
def aggregateType : String := "AggregateType"

end Headers

end EventSourcing
