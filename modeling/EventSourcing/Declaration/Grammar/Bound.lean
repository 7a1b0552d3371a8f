import EventSourcing.Declaration.Grammar.Generics

/-!
Bounds: lifetimes, captures and traits; and the conditions of a where clause. A trait can bind
parameters and can be relaxed by a mark, which is written first. A bound that is constant keeps its
own tokens. A where clause without conditions is not written.
-/

namespace EventSourcing.Declaration.Grammar

open Reading Token

/-- The parameters that a `for` binds, in their order. -/
def binder (g : Grammar) : Reading (List Token) := do
  let keyword ← inOrder [word "for", mark "<"]
  let ps ← g.parameters
  return keyword ++ ps.flatMap (fun p => p.declared.written) ++ (← mark ">")

def optionalBinder (g : Grammar) : Reading (List Token) := given (startsWord "for") g.binder

/-- The result behind an arrow, if there is one. -/
def simpleResult (g : Grammar) : Reading (List Token) :=
  given (startsMark "->") (inOrder [mark "->", g.simpleType])

/-- Whether arguments in parentheses follow; there may be colons in front, which are not written. -/
def startsInputs (ts : List Token) : Bool :=
  startsBracket '(' ts || (behindMark "::" ts).any (startsBracket '(')

def inputs (g : Grammar) : Reading (List Token) := do
  let _ ← optionalMark "::"
  inOrder [parenthesized (commas g.type), g.simpleResult]

/-- The mark of a constant bound, if there is one. -/
def constancy : Reading (List Token) := do
  if ← next (startsBracket '[') then bracketed (word "const")
  else if ← next (startsMark "~") then inOrder [mark "~", word "const"]
  else optionalWord "const"

/-- A trait with its marks; a constant one has no other written form. -/
def traitBound (g : Grammar) : Reading (Option (List Token)) := do
  let outer ← g.optionalBinder
  let constant ← constancy
  let relaxed ← optionalMark "?"
  let inner ← if outer.isEmpty then g.optionalBinder else pure []
  let p ← g.path false
  let applied ←
    if p.last.isBare && (← next startsInputs) then pure (p.apply (← g.inputs)) else pure p
  return if constant.isEmpty then some (relaxed ++ outer ++ inner ++ applied.tokens) else none

/-- Parameters that a type captures, lifetimes first. -/
def capture : Reading (List Token) := do
  let _ ← word "use"
  let es ← Entry.list do
    if ← next startsLifetime then return (← lifetime, true)
    return (← one startsPlain, false)
  return .word "use" :: Entry.enclose es

def anyBound (g : Grammar) : Reading Phrase := do
  let written ←
    if ← next startsLifetime then lifetime
    else if ← next (startsWord "use") then capture
    else orSource do
      if ← next (startsBracket '(') then
        let _ ← one (startsBracket '(')
        let written ← g.traitBound
        let _ ← one (startsBracket ')')
        return written.map fun ts => bracket '(' :: ts ++ [bracket ')']
      else g.traitBound
  return ⟨written, .plain⟩

/-- More bounds behind a plus sign. -/
def moreBounds (g : Grammar) : Reading (List Token) :=
  given (startsMark "+") (inOrder [mark "+", g.bounds])

/-- Whether there are only lifetimes among bounds. -/
def isTraitless (bounds : List Token) : Bool :=
  bounds.all fun t => startsLifetime [t] || startsMark "+" [t]

/-- At least one bound, and more of them if `plus` holds. One of them is a trait. -/
def someBounds (g : Grammar) (plus : Bool) : Reading (List Token) := do
  let bs ← inOrder [g.bound, if plus then g.moreBounds else pure []]
  if isTraitless bs then refuse else return bs

/-- One condition of a where clause; its colon stays even without bounds. -/
def condition (g : Grammar) : Reading (List Token) :=
  inOrder [g.optionalBinder, do if ← next startsBareLifetime then lifetime else g.type,
    mark ":", g.bounds]
where
  startsBareLifetime : List Token → Bool
    | t :: rest => startsLifetime [t] && startsMark ":" rest
    | [] => false

def endsConditions (ts : List Token) : Bool :=
  atEnd ts || startsBracket '\x7b' ts || startsMark "," ts || startsMark ";" ts
    || startsMarkNot ":" "::" ts || startsMark "=" ts

/-- Conditions with commas between them and perhaps one at the end. -/
def conditions (g : Grammar) : Reading (List Token) := separated "," endsConditions g.condition

def whereClause (g : Grammar) : Reading (List Token) :=
  given (startsWord "where") do
    let keyword ← word "where"
    let cs ← g.conditions
    return if cs.isEmpty then [] else keyword ++ cs

end EventSourcing.Declaration.Grammar
