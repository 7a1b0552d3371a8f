import EventSourcing.Outcome

/-!
Registries hand out one delegate per tag. A call registers one delegate for several tags, all or
none: it fails on the first tag that the call repeats or that is taken, and names it.
-/

namespace EventSourcing

structure Registry (δ : Type) where
  entries : List (String × δ)

namespace Registry

variable {δ : Type}

def empty : Registry δ := ⟨[]⟩

def find? (r : Registry δ) (tag : String) : Option δ :=
  (r.entries.find? fun e => e.1 == tag).map (·.2)

def has (r : Registry δ) (tag : String) : Bool := (r.find? tag).isSome

/-- Whatever the tag had before is gone. -/
def insert (delegate : δ) (r : Registry δ) (tag : String) : Registry δ :=
  ⟨(tag, delegate) :: r.entries.filter fun e => e.1 != tag⟩

/-- The first of `tags` that repeats an earlier one, is among `seen`, or that `taken` holds of. -/
def firstRefused (taken : String → Bool) (seen : List String) : List String → Option String
  | [] => none
  | tag :: rest =>
    if seen.contains tag || taken tag then some tag else firstRefused taken (tag :: seen) rest

/-- Looks at all tags before it writes the first. The error is the tag that is refused. -/
def register (tags : List String) (delegate : δ) : Action (Registry δ) String Unit :=
  fun r =>
    match firstRefused r.has [] tags with
    | some tag => (.fail tag, r)
    | none => (.ok (), tags.foldl (insert delegate) r)

theorem find?_insert (delegate : δ) (r : Registry δ) (tag t : String) :
    (r.insert delegate tag).find? t = if t = tag then some delegate else r.find? t := by
  unfold find? insert
  by_cases h : t = tag
  · simp [h]
  · rw [if_neg h, List.find?_cons_of_neg (by simpa using Ne.symm h), List.find?_filter]
    congr 2
    funext e
    by_cases he : e.1 = t <;> simp [he, h]

end Registry

end EventSourcing
