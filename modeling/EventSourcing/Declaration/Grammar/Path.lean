import EventSourcing.Declaration.Grammar.Attribute
import EventSourcing.Declaration.Layout

/-!
Paths and their arguments in angle brackets. Lifetimes come first among arguments. In an expression
the arguments of a name stand behind colons.
-/

namespace EventSourcing.Declaration

/-- One of a list of parameters or arguments in angle brackets. -/
structure Entry where
  tokens : List Token
  isLifetime : Bool
  /-- Whether a comma follows it in the source. -/
  comma : Bool
deriving DecidableEq, Repr

namespace Entry

def written (e : Entry) : List Token := if e.comma then e.tokens ++ Token.mark "," else e.tokens

/-- Lifetimes first. Every entry keeps its comma; a lifetime that has none and gets others behind it
is followed by a new one. -/
def arrange (es : List Entry) : List Token :=
  let lifetimes := es.filter isLifetime
  let others := es.filter fun e => !e.isLifetime
  let separator := if lifetimes.getLast?.all comma || others.isEmpty then [] else Token.mark ","
  lifetimes.flatMap written ++ separator ++ others.flatMap written

/-- The list in its brackets. -/
def enclose (es : List Entry) : List Token := Token.mark "<" ++ arrange es ++ Token.mark ">"

/-- Reads entries with commas between them and perhaps one at the end, up to a closing bracket. -/
def steppingList (entry : Reading (List Token × Bool)) : (steps : Nat) → Reading (List Entry)
  | 0 => Reading.refuse
  | steps + 1 => do
    if ← Reading.next (Token.startsMark ">") then return []
    let (tokens, isLifetime) ← entry
    if ← Reading.next (Token.startsMark ">") then return [⟨tokens, isLifetime, false⟩]
    let _ ← Reading.mark ","
    return ⟨tokens, isLifetime, true⟩ :: (← steppingList entry steps)

/-- A list in angle brackets. -/
def list (entry : Reading (List Token × Bool)) : Reading (List Entry) := do
  let _ ← Reading.mark "<"
  let es ← steppingList entry ((← get).length + 1)
  let _ ← Reading.mark ">"
  return es

end Entry

/-- A name of a path with its arguments, brackets included. -/
structure PathSegment where
  name : String
  arguments : List Token
deriving DecidableEq, Repr

namespace PathSegment

def tokens (s : PathSegment) : List Token := .word s.name :: s.arguments

/-- Whether there is nothing in the brackets, or no brackets at all. -/
def isBare (s : PathSegment) : Bool := s.arguments.all (Token.isOneOf [':', '<', '>'])

end PathSegment

/-- A path, absolute if it starts with two colons. Each of its names may have arguments. -/
structure Path where
  absolute : Bool
  modules : List PathSegment
  last : PathSegment
deriving DecidableEq, Repr

namespace Path

/-- A path of plain names. -/
def of (modules : List String) (name : String) : Path :=
  ⟨false, modules.map fun m => ⟨m, []⟩, ⟨name, []⟩⟩

/-- A path of a bare name. -/
def bare (name : String) : Path := of [] name

def tokens (p : Path) : List Token :=
  (if p.absolute then Token.mark "::" else [])
    ++ p.modules.flatMap (fun s => s.tokens ++ Token.mark "::") ++ p.last.tokens

def text (p : Path) : String := Layout.text p.tokens

/-- Whether it is one name of no other module. -/
def isName (p : Path) : Bool := !p.absolute && p.modules.isEmpty

/-- Whether no name has arguments. -/
def isPlain (p : Path) : Bool := (p.modules ++ [p.last]).all fun s => s.arguments.isEmpty

/-- The path with arguments for its last name. -/
def apply (p : Path) (arguments : List Token) : Path :=
  { p with last := { p.last with arguments } }

/-- The path with further names. -/
def extend (p : Path) (more : List PathSegment) : Path :=
  match more.getLast? with
  | some last => { p with modules := p.modules ++ p.last :: more.dropLast, last }
  | none => p

end Path

namespace Grammar

open Reading Token

/-- A literal, a name or a block. -/
def constant (g : Grammar) : Reading (List Token) := do
  if ← next startsLiteral then literal
  else if ← next startsName then name
  else g.block

def startsConstant (ts : List Token) : Bool := startsLiteral ts || startsBracket '\x7b' ts

/-- Where a bound can start. -/
def startsBound (ts : List Token) : Bool :=
  startsAnyWord ts && !startsWord "where" ts || startsLifetime ts || startsMark "::" ts
    || startsMark "?" ts || startsMark "~" ts || startsBracket '(' ts || startsBracket '[' ts

/-- Bounds with plus signs between them and perhaps one at the end. -/
def bounds (g : Grammar) : Reading (List Token) :=
  separated "+" (fun ts => !startsBound ts) g.bound

/-- A colon with bounds; without bounds, the colon is left out. -/
def optionalBounds (g : Grammar) : Reading (List Token) :=
  given (startsMark ":") do
    let colon ← mark ":"
    let bs ← g.bounds
    return if bs.isEmpty then [] else colon ++ bs

/-- What follows a type as an argument: only a name can have a value or bounds. -/
def argumentTail (g : Grammar) (form : Form) : Reading (List Token) := do
  if form ≠ .name then return []
  if ← next (startsMark "=") then
    inOrder [mark "=", do if ← next startsConstant then g.constant else g.type]
  else given (startsMark ":") (inOrder [mark ":", g.bounds])

/-- A lifetime, a constant, a type, or a name with its value or bounds; and whether it is a
lifetime. -/
def argument (g : Grammar) : Reading (List Token × Bool) := do
  match ← get with
  | .lifetime l :: rest =>
    if startsMark "+" rest then return (← g.type, false)
    else
      set rest
      return ([.lifetime l], true)
  | ts =>
    if startsConstant ts then return (← g.constant, false)
    else
      let t ← g (.type true)
      return (t.tokens ++ (← g.argumentTail t.form), false)

def arguments (g : Grammar) : Reading (List Token) := do
  return Entry.enclose (← Entry.list g.argument)

/-- Whether arguments follow a name: `colons` says whether these have to stand in front. -/
def startsArguments (colons : Bool) (ts : List Token) : Bool :=
  !colons && startsMarkNot "<" "<=" ts && !startsMark "<<=" ts
    || (behindMark "::" ts).any (startsMark "<")

/-- Words that never have arguments. -/
def startsBareWord (ts : List Token) : Bool :=
  ["super", "self", "crate", "try"].any (startsWord · ts)

def segment (g : Grammar) (colons : Bool) : Reading PathSegment := do
  match ← get with
  | .word w :: rest =>
    set rest
    if startsBareWord [.word w] then return ⟨w, []⟩
    else if w ≠ "Self" ∧ keywords.contains w then refuse
    else
      return ⟨w, ← given (startsArguments colons) (inOrder [optionalMark "::", g.arguments])⟩
  | _ => refuse

/-- Whether another name follows; colons in front of parentheses belong to these. -/
def startsNext (ts : List Token) : Bool :=
  (behindMark "::" ts).any fun rest => !startsBracket '(' rest

def steppingSegments (g : Grammar) (colons : Bool) : (steps : Nat) → Reading (List PathSegment)
  | 0 => refuse
  | steps + 1 => do
    if ← next startsNext then
      let _ ← mark "::"
      let s ← g.segment colons
      return s :: (← g.steppingSegments colons steps)
    return []

/-- Further names of a path. -/
def moreSegments (g : Grammar) (colons : Bool) : Reading (List PathSegment) := do
  g.steppingSegments colons ((← get).length + 1)

def path (g : Grammar) (colons : Bool) : Reading Path := do
  let lead ← optionalMark "::"
  let first ← g.segment colons
  return (⟨!lead.isEmpty, [], first⟩ : Path).extend (← g.moreSegments colons)

/-- A path behind what qualifies it: a type, perhaps with a trait, in angle brackets. -/
structure QualifiedPath where
  qualifier : List Token
  path : Path

namespace QualifiedPath

def tokens (q : QualifiedPath) : List Token := q.qualifier ++ q.path.tokens

def isQualified (q : QualifiedPath) : Bool := !q.qualifier.isEmpty

/-- Whether it can name what is called with a mark behind it. -/
def isPlain (q : QualifiedPath) : Bool := !q.isQualified && q.path.isPlain

end QualifiedPath

def qualifiedPath (g : Grammar) (colons : Bool) : Reading QualifiedPath := do
  if ← next (startsMark "<") then
    let qualifier ← inOrder [mark "<", g.type,
      given (startsWord "as") (inOrder [word "as", do return (← g.path false).tokens]),
      mark ">", mark "::"]
    let first ← g.segment colons
    return ⟨qualifier, (⟨false, [], first⟩ : Path).extend (← g.moreSegments colons)⟩
  else return ⟨[], ← g.path colons⟩

/-- What follows a plain path that is called with a mark: brackets with any tokens. -/
def invocation : Reading (List Token) := inOrder [mark "!", anyGroup]

/-- Whether such a call follows. -/
def startsInvocation (ts : List Token) : Bool := startsMarkNot "!" "!=" ts

end Grammar

end EventSourcing.Declaration
