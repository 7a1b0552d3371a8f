import EventSourcing.Declaration.Token.Scan
import EventSourcing.Declaration.Written

/-!
Attributes, and the traits that an item derives. All derive attributes of an item are merged into
one: traits that are derived already come first, then the required ones that are missing. Two paths
count as one trait if their keys agree; the first spelling stays.
-/

namespace EventSourcing.Declaration

namespace Path

/-- What tells traits apart: arguments do not, nor does where the trait comes from. -/
def key (p : Path) : String :=
  if p.last.name = "Serialize" ∨ p.last.name = "Deserialize" then "serde::" ++ p.last.name
  else p.last.name

def readList : (steps : Nat) → List Token → Option (List Path)
  | 0, _ => none
  | _, [] => some []
  | steps + 1, ts => do
    let (p, rest) ← Written.ofPath ts
    if rest = [] then return [p]
    return p :: (← readList steps (← Token.behindMark "," rest))

/-- Paths with commas between them and perhaps one at the end. -/
def listOfTokens (ts : List Token) : Option (List Path) := readList (ts.length + 1) ts

end Path

inductive Attribute where
  | derive (paths : List Path)
  /-- A derive attribute whose arguments, brackets included, are no list of paths. -/
  | badDerive (arguments : List Token)
  | other (tokens : List Token)
deriving DecidableEq, Repr

namespace Attribute

def isDerive : Attribute → Bool
  | other _ => false
  | _ => true

def paths : Attribute → List Path
  | derive ps => ps
  | _ => []

/-- The attribute between the brackets of `#[..]`. -/
def ofTokens (ts : List Token) : Attribute :=
  match ts with
  | .word "derive" :: rest =>
    match rest with
    | .symbol ':' _ :: _ => .other (Written.ofAttribute ts)
    | t :: inside =>
      if t.opens then
        match Path.listOfTokens inside.dropLast with
        | some ps => .derive ps
        | none => .badDerive rest
      else .badDerive rest
    | [] => .badDerive []
  | _ => .other (Written.ofAttribute ts)

def readList : (steps : Nat) → List Token → Option (List Attribute)
  | 0, _ => none
  | _, [] => some []
  | steps + 1, .symbol '#' _ :: .symbol '[' _ :: rest =>
    let (inside, after) := Token.group 0 rest
    (readList steps after).map (ofTokens inside.dropLast :: ·)
  | _, _ => none

/-- Reads attributes, doc comments among them, from their text. -/
def scan (s : String) : Option (List Attribute) :=
  let ts := Token.scan s
  readList (ts.length + 1) ts

/-- An attribute with this between its brackets. -/
def enclose (ts : List Token) : String :=
  Layout.text (Token.mark "#" ++ Token.bracket '[' :: ts ++ [Token.bracket ']'])

/-- The text of an attribute that is no list of derived traits. -/
def source : Attribute → String
  | derive ps => "#[derive(" ++ ",".intercalate (ps.map Path.text) ++ ")]"
  | badDerive ts => enclose (.word "derive" :: ts)
  | other ts => enclose ts

end Attribute

namespace Derive

/-- Leaves out the paths whose key is among `seen` or belongs to an earlier path. -/
def distinct (seen : List String) : List Path → List Path
  | [] => []
  | p :: rest =>
    if seen.contains p.key then distinct seen rest else p :: distinct (p.key :: seen) rest

/-- The attributes that are not about derived traits. -/
def retained (attrs : List Attribute) : List Attribute := attrs.filter fun a => !a.isDerive

/-- The traits derived so far. -/
def existing (attrs : List Attribute) : List Path := attrs.flatMap Attribute.paths

/-- The attributes with all derived traits in one attribute in front, `required` ones among them. -/
def merge (attrs : List Attribute) (required : List Path) : List Attribute :=
  .derive (distinct [] (existing attrs ++ required)) :: retained attrs

end Derive

end EventSourcing.Declaration
