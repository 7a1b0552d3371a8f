import EventSourcing.Declaration.Grammar.Bound

/-!
Types. Arguments in parentheses follow their path without colons. What starts with `dyn*` or
`builtin#` keeps its own tokens, and so does a first argument of a function that is `mut self`.
-/

namespace EventSourcing.Declaration.Grammar

open Reading Token

/-- What is built into the language. -/
def startsBuiltin : List Token → Bool
  | t :: rest => startsWord "builtin" [t] && startsMark "#" rest
  | [] => false

def builtin : Reading (List Token) :=
  sourceOf (inOrder [word "builtin", mark "#", name, anyGroup])

def abi : Reading (List Token) :=
  given (startsWord "extern") (inOrder [word "extern", given startsText (one startsText)])

/-- A name in front of the type of an argument. -/
def startsLabel : List Token → Bool
  | .word w :: rest =>
    (startsName [.word w] || w = "_" || w = "self") && startsMarkNot ":" "::" rest
  | _ => false

def startsMutSelf : List Token → Bool
  | .word "mut" :: .word "self" :: _ => true
  | _ => false

/-- An argument of a function type; dots stand for any number of further ones. -/
def functionInput (g : Grammar) : Reading (List Token) := do
  let attributes ← g.outerAttributes
  if ← next startsMutSelf then
    return attributes ++ (← sourceOf (inOrder [word "mut", word "self",
      given (startsMark ":") (inOrder [mark ":", g.type])]))
  let label ← given startsLabel (inOrder [anyWord, mark ":"])
  if ← next (startsMark "...") then return attributes ++ label ++ (← mark "...")
  return attributes ++ label ++ (← g.type)

def functionType (g : Grammar) : Reading (List Token) :=
  inOrder [optionalWord "unsafe", abi, word "fn", parenthesized (commas g.functionInput),
    g.simpleResult]

def startsFunctionType (ts : List Token) : Bool :=
  startsWord "fn" ts || startsWord "unsafe" ts || startsWord "extern" ts

/-- Arguments in parentheses behind a path, perhaps with further names behind these. -/
def applySteps (g : Grammar) (p : Path) : (steps : Nat) → Reading Path
  | 0 => refuse
  | steps + 1 => do
    if p.last.isBare && (← next startsInputs) then
      let applied := p.apply (← g.inputs)
      g.applySteps (applied.extend (← g.moreSegments false)) steps
    else return p

def typePath (g : Grammar) : Reading QualifiedPath := do
  let q ← g.qualifiedPath false
  return { q with path := ← g.applySteps q.path ((← get).length + 1) }

def hasInputs (p : Path) : Bool := startsBracket '(' p.last.arguments

/-- A path, perhaps called with a mark, or as the first of several bounds. -/
def pathType (g : Grammar) (plus : Bool) : Reading Phrase := do
  let binder ← g.optionalBinder
  if ← next startsFunctionType then return ⟨binder ++ (← g.functionType), .plain⟩
  let q ← g.typePath
  if q.isQualified then return ⟨q.tokens, .plain⟩
  if q.isPlain && (← next startsInvocation) then return ⟨q.tokens ++ (← invocation), .plain⟩
  let more ← if plus then g.moreBounds else pure []
  let form :=
    if more ≠ [] then Form.plain
    else if binder ≠ [] then .bound
    else if q.path.isName && !hasInputs q.path then .name
    else .path
  return ⟨binder ++ q.tokens ++ more, form⟩

/-- What stands between parentheses in a type: nothing, a bound, or types; and whether it can be the
first of several bounds. -/
def parenthesizedTypes (g : Grammar) : Reading Phrase := do
  if ← next (startsMark "?") then return ⟨← g.bound, .bound⟩
  if ← next startsLifetime then return ⟨← g.someBounds true, .plain⟩
  if ← next atEnd then return ⟨[], .plain⟩
  let first ← g (.type true)
  if ← next (startsMark ",") then
    return ⟨first.tokens ++ (← inOrder [mark ",", commas g.type]), .plain⟩
  return first

/-- More bounds may follow a relaxed one even if `plus` does not hold. -/
def parenthesizedType (g : Grammar) (plus : Bool) : Reading Phrase := do
  let _ ← one (startsBracket '(')
  let relaxed ← next (startsMark "?")
  let inside ← g.parenthesizedTypes
  let _ ← one (startsBracket ')')
  let tokens := bracket '(' :: inside.tokens ++ [bracket ')']
  if inside.form = .plain then return ⟨tokens, .plain⟩
  let more ← if plus || relaxed then g.moreBounds else pure []
  return ⟨tokens ++ more, if more = [] ∧ inside.form = .bound then .bound else .plain⟩

/-- A type that starts with the keyword of trait objects. -/
def objectType (g : Grammar) (plus : Bool) : Reading (List Token) :=
  orSource do
    let keyword ← word "dyn"
    let star ← optionalMark "*"
    let bs ← g.someBounds plus
    return if star.isEmpty then some (keyword ++ bs) else none

/-- An array with its size, or a slice. -/
def arrayType (g : Grammar) : Reading (List Token) :=
  bracketed (inOrder [g.type, given (startsMark ";") (inOrder [mark ";", g.expression])])

def pointerType (g : Grammar) : Reading (List Token) :=
  inOrder [mark "*", one (fun ts => startsWord "const" ts || startsWord "mut" ts), g.simpleType]

def referenceType (g : Grammar) : Reading (List Token) :=
  inOrder [mark "&", given startsLifetime lifetime, optionalWord "mut", g.simpleType]

def anyType (g : Grammar) (plus : Bool) : Reading Phrase := do
  let plain (r : Reading (List Token)) : Reading Phrase := do return ⟨← r, .plain⟩
  match ← get with
  | .symbol '(' _ :: _ => g.parenthesizedType plus
  | .symbol '[' _ :: _ => plain g.arrayType
  | .symbol '&' _ :: _ => plain g.referenceType
  | .symbol '*' _ :: _ => plain g.pointerType
  | .symbol '!' _ :: _ => plain (mark "!")
  | .word "_" :: _ => plain anyWord
  | .word "dyn" :: _ => plain (g.objectType plus)
  | .word "impl" :: _ => plain (inOrder [word "impl", g.someBounds plus])
  | .lifetime _ :: _ => plain (g.someBounds true)
  | ts => if startsBuiltin ts then plain builtin else g.pathType plus

end EventSourcing.Declaration.Grammar
