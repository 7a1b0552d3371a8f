import EventSourcing.Declaration.Grammar.Path

/-!
Generic parameters. They are written with lifetimes first, and not at all if there are none.
-/

namespace EventSourcing.Declaration

/-- A generic parameter: a lifetime, a constant or a type. -/
structure GenericParam where
  attributes : List Token
  isConstant : Bool
  /-- A lifetime or a word. -/
  name : Token
  /-- What stands after the colon: bounds, or the type of a constant. -/
  bounds : List Token
  /-- What stands after the equals sign. -/
  default : List Token
  /-- Whether a comma follows in the declaration. -/
  comma : Bool
deriving DecidableEq, Repr

namespace GenericParam

def isLifetime (p : GenericParam) : Bool :=
  match p.name with
  | .lifetime _ => true
  | _ => false

def withoutDefault (p : GenericParam) : GenericParam := { p with default := [] }

/-- The parameter as it is declared; a colon without bounds is left out. -/
def declared (p : GenericParam) : Entry where
  tokens := p.attributes ++ (if p.isConstant then [.word "const"] else []) ++ p.name ::
    ((if p.bounds = [] then [] else Token.mark ":" ++ p.bounds)
      ++ if p.default = [] then [] else Token.mark "=" ++ p.default)
  isLifetime := p.isLifetime
  comma := p.comma

/-- The parameter's name, as it stands among the arguments of the type. -/
def argument (p : GenericParam) : Entry := ⟨[p.name], p.isLifetime, p.comma⟩

/-- Parameters in their brackets, if there are any. -/
def written (ps : List GenericParam) : List Token :=
  if ps.isEmpty then [] else Entry.enclose (ps.map declared)

end GenericParam

namespace Grammar

open Reading Token

/-- What stands after a mark, if it does. -/
def behind (m : String) (r : Reading (List Token)) : Reading (List Token) := do
  if ← next (startsMark m) then
    let _ ← mark m
    r
  else return []

/-- A parameter without the comma behind it. -/
def parameter (g : Grammar) : Reading GenericParam := do
  let attributes ← g.outerAttributes
  match ← get with
  | .lifetime l :: rest =>
    set rest
    return ⟨attributes, false, .lifetime l, ← behind ":" g.bounds, [], false⟩
  | .word "const" :: .word w :: rest =>
    if !startsName [.word w] then refuse
    set rest
    let _ ← mark ":"
    let type ← g.type
    return ⟨attributes, true, .word w, type, ← behind "=" g.constant, false⟩
  | .word w :: rest =>
    if w ≠ "_" && !startsName [.word w] then refuse
    set rest
    let bs ← behind ":" g.bounds
    return ⟨attributes, false, .word w, bs, ← behind "=" g.type, false⟩
  | _ => refuse

/-- Whether no more parameters follow. -/
def atEndOfParameters (ts : List Token) : Bool := ts.isEmpty || startsMark ">" ts

def steppingParameters (g : Grammar) : (steps : Nat) → Reading (List GenericParam)
  | 0 => refuse
  | steps + 1 => do
    if ← next atEndOfParameters then return []
    let p ← g.parameter
    if ← next atEndOfParameters then return [p]
    let _ ← mark ","
    return { p with comma := true } :: (← g.steppingParameters steps)

/-- Parameters with commas between them and perhaps one at the end. -/
def parameters (g : Grammar) : Reading (List GenericParam) := do
  g.steppingParameters ((← get).length + 1)

/-- Parameters in angle brackets. -/
def generics (g : Grammar) : Reading (List Token) :=
  given (startsMark "<") do
    let _ ← mark "<"
    let ps ← g.parameters
    let _ ← mark ">"
    return GenericParam.written ps

/-- Whether what follows an angle bracket can only be parameters, or rather is parameters than a
qualified path: `keyword` stands in front. -/
def prefersGenerics (keyword : String) : List Token → Bool
  | .word w :: rest => w = keyword && (behindMark "<" rest).any startsParameter
  | _ => false
where
  startsParameter (ts : List Token) : Bool :=
    startsMark ">" ts || startsMark "#" ts || startsWord "const" ts
      || (startsLifetime ts || startsName ts) && endsParameter ts.tail
  endsParameter (ts : List Token) : Bool :=
    startsMark ">" ts || startsMark "," ts || startsMarkNot ":" "::" ts || startsMark "=" ts

end Grammar

end EventSourcing.Declaration
