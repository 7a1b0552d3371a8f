import EventSourcing.Declaration.Grammar.Path

/-!
Patterns. Three dots between the ends of a range are written as two dots and an equals sign; a boxed
pattern keeps its own tokens.
-/

namespace EventSourcing.Declaration.Grammar

open Reading Token

/-- The number of a field, written by its value. -/
def index : Reading (List Token) := fun ts =>
  match ts with
  | .literal s :: rest =>
    (indexValue s.toList).map fun n => ([.literal (toString n)], rest)
  | _ => none

/-- A field by name or number. -/
def member : Reading (List Token) := do if ← next startsName then name else index

/-- Alternatives of patterns. -/
def alternatives (g : Grammar) : Reading (List Token) :=
  inOrder [optionalMark "|", g.pattern, manyWhile startsAlternative (inOrder [mark "|", g.pattern])]
where
  startsAlternative (ts : List Token) : Bool :=
    startsMarkNot "|" "||" ts && !startsMark "|=" ts

def startsNoEnd (ts : List Token) : Bool :=
  atEnd ts || startsMark "|" ts || startsMark "=" ts || startsMarkNot ":" "::" ts
    || startsMark "," ts || startsMark ";" ts || startsWord "if" ts

/-- An end of a range. -/
def rangeEnd (g : Grammar) : Reading (List Token) := do
  if ← next startsLiteral then literal
  else if ← next (startsWord "const") then inOrder [word "const", g.block]
  else return (← g.qualifiedPath true).tokens

def rangeMark : Reading (List Token) := do
  if ← next (startsMark "...") then
    let _ ← mark "..."
    return Token.mark "..="
  else if ← next (startsMark "..=") then mark "..="
  else mark ".."

/-- What follows the first end of a range, if it is one. -/
def rangeTail (g : Grammar) : Reading (List Token) :=
  given (startsMark "..")
    (inOrder [rangeMark, given (fun ts => !startsNoEnd ts) g.rangeEnd])

/-- A name in a pattern, perhaps with a pattern for what it names. -/
def namePattern (g : Grammar) : Reading (List Token) :=
  inOrder [optionalWord "ref", optionalWord "mut",
    one (fun ts => startsName ts || startsWord "self" ts),
    given (startsMark "@") (inOrder [mark "@", g.pattern])]

def fieldPattern (g : Grammar) : Reading (List Token) := do
  let attributes ← g.outerAttributes
  if ← next (startsMark "..") then return attributes ++ (← mark "..")
  let modes := inOrder [optionalWord "ref", optionalWord "mut", name]
  if ← next (startsWord "box") then
    return attributes ++ (← sourceOf (inOrder [word "box", modes]))
  if ← next (fun ts => startsWord "ref" ts || startsWord "mut" ts) then
    return attributes ++ (← modes)
  return attributes ++ (← inOrder [member,
    given (startsMark ":") (inOrder [mark ":", g.alternatives])])

/-- A pattern that starts with a path. -/
def pathPattern (g : Grammar) : Reading (List Token) := do
  let q ← g.qualifiedPath true
  if q.isPlain && (← next startsInvocation) then return q.tokens ++ (← invocation)
  if ← next (startsBracket '\x7b') then return q.tokens ++ (← braced (commas g.fieldPattern))
  if ← next (startsBracket '(') then return q.tokens ++ (← parenthesized (commas g.alternatives))
  return q.tokens ++ (← g.rangeTail)

/-- Whether a pattern starts with a path that is more than a name. -/
def startsPathPattern : List Token → Bool
  | t :: rest =>
    let leads (w : String) := startsWord w [t]
    startsName [t] && continues rest || leads "self" && startsMark "::" rest
      || startsMark "::" (t :: rest) || startsMark "<" [t]
      || leads "Self" || leads "super" || leads "crate"
  | [] => false
where
  continues (ts : List Token) : Bool :=
    startsMark "::" ts || startsMark "!" ts || startsBracket '\x7b' ts || startsBracket '(' ts
      || startsMark ".." ts

def anyPattern (g : Grammar) : Reading Phrase := do
  let ts ← get
  let plain (r : Reading (List Token)) : Reading Phrase := do return ⟨← r, .plain⟩
  if startsPathPattern ts then plain g.pathPattern
  else if startsLiteral ts || startsWord "const" ts then plain (inOrder [g.rangeEnd, g.rangeTail])
  else
    match ts with
    | .word "_" :: _ => plain anyWord
    | .word "box" :: _ => do return ⟨← sourceOf (inOrder [word "box", g.pattern]), .source⟩
    | .symbol '&' _ :: _ => plain (inOrder [mark "&", optionalWord "mut", g.pattern])
    | .symbol '(' _ :: _ => plain (parenthesized (commas g.alternatives))
    | .symbol '[' _ :: _ => plain (bracketed (commas g.alternatives))
    | .symbol '.' _ :: _ => plain g.rangeTail
    | _ => plain g.namePattern

end EventSourcing.Declaration.Grammar
