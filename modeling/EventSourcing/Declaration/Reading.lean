import EventSourcing.Declaration.Token.Number

/-!
Reading of tokens. A `Reading` takes tokens from the front and gives what it read, or refuses. Most
readings give tokens again: those of the written form, in which every mark is joined as a mark and
what is left to others to understand keeps its own tokens.
-/

namespace EventSourcing.Declaration

abbrev Reading (α : Type) := StateT (List Token) Option α

/-! ## What comes next -/

namespace Token

/-- Words that are no names. -/
def keywords : List String :=
  ["_", "abstract", "as", "async", "await", "become", "box", "break", "const", "continue", "crate",
   "do", "dyn", "else", "enum", "extern", "false", "final", "fn", "for", "if", "impl", "in", "let",
   "loop", "macro", "match", "mod", "move", "mut", "override", "priv", "pub", "ref", "return",
   "Self", "self", "static", "struct", "super", "trait", "true", "try", "type", "typeof", "unsafe",
   "unsized", "use", "virtual", "where", "while", "yield"]

/-- What follows a mark; a longer mark may start with it. -/
def behindSymbols : List Char → List Token → Option (List Token)
  | [], ts => some ts
  | [c], symbol d _ :: ts => if c = d then some ts else none
  | c :: cs, symbol d true :: ts => if c = d then behindSymbols cs ts else none
  | _, _ => none

def behindMark (m : String) (ts : List Token) : Option (List Token) := behindSymbols m.toList ts

def startsMark (m : String) (ts : List Token) : Bool := (behindMark m ts).isSome

/-- The mark, and not the other one that starts with it. -/
def startsMarkNot (m longer : String) (ts : List Token) : Bool :=
  startsMark m ts && !startsMark longer ts

def startsWord (w : String) : List Token → Bool
  | word v :: _ => v = w
  | _ => false

def startsAnyWord : List Token → Bool
  | word _ :: _ => true
  | _ => false

def startsName : List Token → Bool
  | word w :: _ => !keywords.contains w
  | _ => false

def startsLifetime : List Token → Bool
  | lifetime _ :: _ => true
  | _ => false

def startsText : List Token → Bool
  | text _ _ :: _ => true
  | _ => false

def startsBracket (c : Char) : List Token → Bool
  | symbol d _ :: _ => c = d
  | _ => false

def startsGroup : List Token → Bool
  | t :: _ => t.opens
  | [] => false

/-- The end of a group or of all tokens. -/
def atEnd : List Token → Bool
  | t :: _ => t.closes
  | [] => true

/-- A number can have a sign. -/
def isNumber (source : String) : Bool := source.toList.head?.any Char.isDigit

def literal? : List Token → Option (List Token × List Token)
  | symbol '-' _ :: literal s :: rest =>
    if isNumber s then some ([literal ("-" ++ s)], rest) else none
  | literal s :: rest => some ([literal s], rest)
  | text v s :: rest => some ([text v s], rest)
  | word w :: rest => if w = "true" ∨ w = "false" then some ([word w], rest) else none
  | _ => none

def startsLiteral (ts : List Token) : Bool := (literal? ts).isSome

/-- What follows the first token, or the group that it opens. -/
def behindTree : List Token → List Token
  | t :: rest => if t.opens then (group 0 rest).2 else rest
  | [] => []

end Token

/-! ## Readings -/

namespace Reading

variable {α : Type}

/-- Whether what comes next looks like this. -/
def next (p : List Token → Bool) : Reading Bool := do return p (← get)

def refuse : Reading α := fun _ => none

/-- One token, as it is. -/
def one (p : List Token → Bool) : Reading (List Token) := fun ts =>
  match ts with
  | t :: rest => if p ts then some ([t], rest) else none
  | [] => none

def word (w : String) : Reading (List Token) := one (Token.startsWord w)

def anyWord : Reading (List Token) := one Token.startsAnyWord

/-- A word that is no keyword. -/
def name : Reading (List Token) := one Token.startsName

def lifetime : Reading (List Token) := one Token.startsLifetime

def mark (m : String) : Reading (List Token) := fun ts =>
  (Token.behindMark m ts).map fun rest => (Token.mark m, rest)

def literal : Reading (List Token) := fun ts => Token.literal? ts

/-- Brackets of a kind around what is read. -/
def enclosed (opener closer : Char) (inside : Reading (List Token)) : Reading (List Token) := do
  let _ ← one (Token.startsBracket opener)
  let ts ← inside
  let _ ← one (Token.startsBracket closer)
  return Token.bracket opener :: ts ++ [Token.bracket closer]

def parenthesized : Reading (List Token) → Reading (List Token) := enclosed '(' ')'

def bracketed : Reading (List Token) → Reading (List Token) := enclosed '[' ']'

def braced : Reading (List Token) → Reading (List Token) := enclosed '\x7b' '\x7d'

/-- Brackets of any kind with what stands between them, as it is. -/
def anyGroup : Reading (List Token) := fun ts =>
  match ts with
  | t :: rest =>
    if t.opens then
      let (inside, after) := Token.group 0 rest
      some (t :: inside, after)
    else none
  | [] => none

/-- One reading after the other. -/
def inOrder : List (Reading (List Token)) → Reading (List Token)
  | [] => return []
  | r :: rs => do return (← r) ++ (← inOrder rs)

/-- Reads only if what comes next looks like this. -/
def given (p : List Token → Bool) (r : Reading (List Token)) : Reading (List Token) := do
  if ← next p then r else return []

def optionalWord (w : String) : Reading (List Token) := given (Token.startsWord w) (word w)

def optionalMark (m : String) : Reading (List Token) := given (Token.startsMark m) (mark m)

/-- Reads again and again until what comes next looks like an end. -/
def steppingUntil (stop : List Token → Bool) (r : Reading (List Token)) :
    (steps : Nat) → Reading (List Token)
  | 0 => refuse
  | steps + 1 => do
    if ← next stop then return []
    return (← r) ++ (← steppingUntil stop r steps)

def manyUntil (stop : List Token → Bool) (r : Reading (List Token)) : Reading (List Token) := do
  steppingUntil stop r ((← get).length + 1)

def manyWhile (go : List Token → Bool) (r : Reading (List Token)) : Reading (List Token) :=
  manyUntil (fun ts => !go ts) r

def steppingSeparated (separator : String) (stop : List Token → Bool) (r : Reading (List Token)) :
    (steps : Nat) → Reading (List Token)
  | 0 => refuse
  | steps + 1 => do
    if ← next stop then return []
    let first ← r
    if ← next (Token.startsMark separator) then
      let between ← mark separator
      return first ++ between ++ (← steppingSeparated separator stop r steps)
    return first

/-- Any number of parts with a separator between them and perhaps one at the end. -/
def separated (separator : String) (stop : List Token → Bool) (r : Reading (List Token)) :
    Reading (List Token) := do
  steppingSeparated separator stop r ((← get).length + 1)

/-- A list with commas up to the end of a group. -/
def commas (r : Reading (List Token)) : Reading (List Token) := separated "," Token.atEnd r

/-- What is read, and the tokens as they stood there. -/
def withSource (r : Reading α) : Reading (α × List Token) := do
  let before ← get
  let a ← r
  return (a, before.take (before.length - (← get).length))

/-- What is read, where it has a written form; otherwise the tokens as they stood there. -/
def orSource (r : Reading (Option (List Token))) : Reading (List Token) := do
  let (written, source) ← withSource r
  return written.getD source

/-- The tokens as they stood there. -/
def sourceOf (r : Reading α) : Reading (List Token) := do return (← withSource r).2

/-- What is read if nothing is left behind it. -/
def whole (r : Reading α) (ts : List Token) : Option α :=
  match r ts with
  | some (a, []) => some a
  | _ => none

end Reading

end EventSourcing.Declaration
