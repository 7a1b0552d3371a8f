import EventSourcing.Declaration.Grammar.Pattern
import EventSourcing.Declaration.Grammar.Type

/-!
Expressions. Operators and operands are written as they are read, so that their precedence does not
matter here. A field of a tuple is written by the value of its number.
-/

namespace EventSourcing.Declaration.Grammar

open Reading Token

/-- Where the value of a jump can start. -/
def startsExpression (ts : List Token) : Bool :=
  startsAnyWord ts && !startsWord "as" ts || startsGroup ts || startsLiteral ts
    || startsMarkNot "!" "!=" ts || startsMarkNot "-" "-=" ts && !startsMark "->" ts
    || startsMarkNot "*" "*=" ts || startsMarkNot "|" "|=" ts || startsMarkNot "&" "&=" ts
    || startsMark ".." ts || startsMarkNot "<" "<=" ts && !startsMark "<<=" ts
    || startsMark "::" ts || startsLifetime ts || startsMark "#" ts

/-- Whether a word comes next, and then something else. -/
def startsWordThen (w : String) (p : List Token → Bool) : List Token → Bool
  | t :: rest => startsWord w [t] && p rest
  | [] => false

def startsBrace (ts : List Token) : Bool := startsBracket '\x7b' ts

/-! ## Operators -/

/-- Operators between operands; a longer one comes before those that it starts with. -/
def operators : List String :=
  ["<<=", ">>=", "+=", "-=", "*=", "/=", "%=", "^=", "&=", "|=", "&&", "||", "<<", ">>", "==",
   "<=", "!=", ">=", "+", "-", "*", "/", "%", "^", "&", "|", "<", ">"]

def assignments : List String :=
  ["<<=", ">>=", "+=", "-=", "*=", "/=", "%=", "^=", "&=", "|=", "="]

/-- The operator that comes next. The arrow of a match arm is none. -/
def operator? (ts : List Token) : Option String :=
  match operators.find? (startsMark · ts) with
  | some o => some o
  | none => if startsMarkNot "=" "=>" ts then some "=" else none

/-- Whether a range has no end here. -/
def endsRange (structs : Bool) (ts : List Token) : Bool :=
  atEnd ts || startsMark "," ts || startsMark ";" ts || startsMarkNot "." ".." ts
    || startsMark "?" ts || !structs && startsBrace ts || startsMark "=" ts || startsMark "+" ts
    || startsMark "/" ts || startsMark "%" ts || startsMark "^" ts || startsMark ">" ts
    || startsMark "<=" ts || startsMark "!=" ts || startsMark "-=" ts || startsMark "*=" ts
    || startsMark "&=" ts || startsMark "|=" ts || startsMark "<<=" ts || startsWord "as" ts

/-- The dots of a range and the end of it, if there is one. -/
def rangeFrom (g : Grammar) (structs : Bool) : Reading (List Token) := do
  if ← next (startsMark "..=") then inOrder [mark "..=", g.tokens (.operand structs)]
  else inOrder [mark "..",
    given (fun ts => !endsRange structs ts) (g.tokens (.operand structs))]

def operatingSteps (g : Grammar) (structs : Bool) (left : Phrase) : (steps : Nat) → Reading Phrase
  | 0 => refuse
  | steps + 1 => do
    let ts ← get
    match operator? ts with
    | some o =>
      let form := if left.form = .source then Form.source else .plain
      if assignments.contains o then
        let right ← inOrder [mark o, g.tokens (.expression structs)]
        return ⟨left.tokens ++ right, form⟩
      let right ← inOrder [mark o, g.tokens (.operand structs)]
      g.operatingSteps structs ⟨left.tokens ++ right, form⟩ steps
    | none =>
      if startsMark ".." ts then
        let range ← g.rangeFrom structs
        g.operatingSteps structs ⟨left.tokens ++ range, .plain⟩ steps
      else if startsWord "as" ts then
        let cast ← inOrder [word "as", g.simpleType]
        let form := if left.form = .source then Form.source else .plain
        g.operatingSteps structs ⟨left.tokens ++ cast, form⟩ steps
      else return left

/-- Goes on behind a first operand. -/
def operating (g : Grammar) (structs : Bool) (left : Phrase) : Reading Phrase := do
  g.operatingSteps structs left ((← get).length + 1)

def anyExpression (g : Grammar) (structs : Bool) : Reading Phrase := do
  g.operating structs (← g (.operand structs))

/-! ## What follows an operand at once -/

/-- The fields that a number with a point names: between its digits the point is a mark. A point at
the end belongs to what follows. -/
def indices? (source : String) : Option (List Token) := do
  let parts := source.toList.splitOn '.'
  let numbers ← (parts.filter (· ≠ [])).mapM indexValue
  let written := numbers.map fun n => Token.literal (toString n)
  let dotted := written.intersperse (.symbol '.' false)
  return if parts.getLast? = some [] then dotted ++ Token.mark "." else dotted

/-- What follows the point behind an operand. -/
def selector (g : Grammar) : Reading (List Token) := do
  match ← get with
  | .literal s :: rest =>
    match indices? s with
    | some written =>
      set rest
      if s.toList.getLast? ≠ some '.' then return written
      else if ← next startsLiteral then return written ++ (← index)
      else return written ++ (← named)
    | none => refuse
  | _ => named
where
  named : Reading (List Token) :=
    inOrder [one (fun ts => startsName ts || startsWord "await" ts),
      given (startsMark "::") (inOrder [mark "::", g.arguments])]

/-- A field, a method, a call, a place in a list, or a question mark. -/
def trailer? (g : Grammar) (ts : List Token) : Option (Reading (List Token)) :=
  if startsBracket '(' ts then some (parenthesized (commas g.expression))
  else if startsBracket '[' ts then some (bracketed g.expression)
  else if startsMarkNot "." ".." ts then some (inOrder [mark ".", g.selector])
  else if startsMark "?" ts then some (mark "?")
  else none

def trailingSteps (g : Grammar) (e : Phrase) : (steps : Nat) → Reading Phrase
  | 0 => refuse
  | steps + 1 => do
    match g.trailer? (← get) with
    | some r => g.trailingSteps ⟨e.tokens ++ (← r), .plain⟩ steps
    | none => return e

def trailing (g : Grammar) (e : Phrase) : Reading Phrase := do
  g.trailingSteps e ((← get).length + 1)

/-! ## Expressions that end in a block -/

/-- What ends in a block, and ends a statement therefore. -/
def startsBlockLike (ts : List Token) : Bool :=
  startsWord "if" ts || startsWord "while" ts || startsWord "for" ts && !prefersGenerics "for" ts
    || startsWord "loop" ts || startsWord "match" ts || startsWordThen "try" startsBrace ts
    || startsWord "unsafe" ts || startsWordThen "const" startsBrace ts || startsBrace ts
    || startsLifetime ts

def conditional (g : Grammar) : Reading (List Token) :=
  inOrder [clause, manyWhile startsElseIf (inOrder [word "else", clause]),
    given (startsWord "else") (inOrder [word "else", g.block])]
where
  clause : Reading (List Token) := inOrder [word "if", g.head, g.block]
  startsElseIf (ts : List Token) : Bool := startsWordThen "else" (startsWord "if") ts

def arm (g : Grammar) : Reading (List Token) :=
  inOrder [g.outerAttributes, g.alternatives,
    given (startsWord "if") (inOrder [word "if", g.expression]), mark "=>", g.tokens .early,
    optionalMark ","]

def choice (g : Grammar) : Reading (List Token) :=
  inOrder [word "match", g.head, braced (inOrder [g.innerAttributes, manyUntil atEnd g.arm])]

def blockLike (g : Grammar) : Reading (List Token) := do
  let label ← given startsLifetime (inOrder [lifetime, mark ":"])
  match ← get with
  | .word "if" :: _ => g.conditional
  | .word "match" :: _ => g.choice
  | .word "while" :: _ => return label ++ (← inOrder [anyWord, g.head, g.block])
  | .word "for" :: _ =>
    return label ++ (← inOrder [anyWord, g.alternatives, word "in", g.head, g.block])
  | .word _ :: _ => return label ++ (← inOrder [anyWord, g.block])
  | _ => return label ++ (← g.block)

/-! ## Operands -/

/-- An argument of a closure, perhaps with its type. -/
def closureInput (g : Grammar) : Reading (List Token) := do
  let attributes ← g.outerAttributes
  let p ← g .pattern
  if ← next (startsMark ":") then
    return attributes ++ p.tokens ++ (← inOrder [mark ":", g.type])
  return (p.attributed attributes).tokens

def closure (g : Grammar) (structs : Bool) : Reading (List Token) :=
  inOrder [g.optionalBinder, optionalWord "const", optionalWord "static", optionalWord "async",
    optionalWord "move", mark "|", separated "," (startsMark "|") g.closureInput, mark "|", body]
where
  body : Reading (List Token) := do
    if ← next (startsMark "->") then inOrder [mark "->", g.type, g.block]
    else g.tokens (.expression structs)

def startsClosure (ts : List Token) : Bool :=
  startsMark "|" ts || startsWord "move" ts || prefersGenerics "for" ts || startsWord "static" ts
    || startsWordThen "const" (fun rest => !startsBrace rest) ts
    || startsWordThen "async" (fun rest => startsMark "|" rest || startsWord "move" rest) ts

def fieldValue (g : Grammar) : Reading (List Token) := do
  if ← next (startsMark "..") then
    inOrder [mark "..", given (fun ts => !atEnd ts) g.expression]
  else
    inOrder [g.outerAttributes, member,
      given (startsMark ":") (inOrder [mark ":", g.expression])]

/-- A path, alone, called with a mark, or with fields. -/
def pathExpression (g : Grammar) (structs : Bool) : Reading Phrase := do
  let q ← g.qualifiedPath true
  if q.isPlain && (← next startsInvocation) then
    let form ← if ← next (startsBrace ·.tail) then pure Form.block else pure .plain
    return ⟨q.tokens ++ (← invocation), form⟩
  if structs && (← next startsBrace) then
    return ⟨q.tokens ++ (← braced (commas g.fieldValue)), .plain⟩
  return ⟨q.tokens, .plain⟩

def startsPathExpression (ts : List Token) : Bool :=
  startsPlain ts || startsMark "::" ts || startsMark "<" ts
    || startsWordThen "try" (fun rest => startsMark "!" rest || startsMark "::" rest) ts

/-- Items of a list, or one of them and how often it is repeated. -/
def listExpression (g : Grammar) : Reading (List Token) :=
  bracketed (inOrder [commas g.expression,
    given (startsMark ";") (inOrder [mark ";", g.expression])])

def jump (g : Grammar) (structs : Bool) : Reading (List Token) := do
  match ← get with
  | .word "break" :: _ =>
    inOrder [anyWord, given startsLifetime lifetime,
      given (fun ts => startsExpression ts && (structs || !startsBrace ts))
        (g.tokens (.expression structs))]
  | .word "continue" :: _ => inOrder [anyWord, given startsLifetime lifetime]
  | _ => inOrder [anyWord, given startsExpression g.expression]

def startsJump (ts : List Token) : Bool :=
  ["break", "continue", "return", "yield"].any (startsWord · ts)

def startsAsyncBlock : List Token → Bool
  | .word "async" :: .word "move" :: rest => startsBrace rest
  | .word "async" :: rest => startsBrace rest
  | _ => false

/-- What an operand is without its signs, its attributes and what follows it. -/
def atom (g : Grammar) (structs : Bool) : Reading Phrase := do
  let plain (r : Reading (List Token)) : Reading Phrase := do return ⟨← r, .plain⟩
  let ts ← get
  if startsLiteral ts then plain literal
  else if startsAsyncBlock ts then plain (inOrder [anyWord, optionalWord "move", g.block])
  else if startsClosure ts then plain (g.closure structs)
  else if startsBuiltin ts then return ⟨← builtin, .source⟩
  else if startsPathExpression ts then g.pathExpression structs
  else if startsBracket '(' ts then plain (parenthesized (commas g.expression))
  else if startsBracket '[' ts then plain g.listExpression
  else if startsJump ts then plain (g.jump structs)
  else if startsWord "become" ts then
    return ⟨← sourceOf (inOrder [anyWord, g.expression]), .source⟩
  else if startsWord "let" ts then
    plain (inOrder [anyWord, g.alternatives, mark "=", g.tokens (.expression structs)])
  else if startsMark ".." ts then plain (g.rangeFrom structs)
  else if startsWord "_" ts then plain anyWord
  else plain g.blockLike

/-- What stands between an ampersand and its operand. -/
def borrow : Reading (List Token) := do
  match ← get with
  | .word "raw" :: .word "mut" :: _ => inOrder [anyWord, anyWord]
  | .word "raw" :: .word "const" :: _ => inOrder [anyWord, anyWord]
  | _ => optionalWord "mut"

def startsSign (ts : List Token) : Bool :=
  startsMark "*" ts || startsMark "!" ts || startsMark "-" ts

def anyOperand (g : Grammar) (structs : Bool) : Reading Phrase := do
  let (attributes, source) ← withSource g.outerAttributes
  let ts ← get
  if startsMark "&" ts then
    let signed ← inOrder [mark "&", borrow, g.tokens (.operand structs)]
    return ⟨attributes ++ signed, .plain⟩
  else if startsSign ts then
    let signed ← inOrder [sign, g.tokens (.operand structs)]
    return ⟨attributes ++ signed, .plain⟩
  else
    let e ← g.trailing (← g.atom structs)
    return if e.form = .source then ⟨source ++ e.tokens, .source⟩
      else ⟨attributes ++ e.tokens, e.form⟩
where
  sign : Reading (List Token) := do
    if ← next (startsMark "*") then mark "*" else if ← next (startsMark "!") then mark "!"
    else mark "-"

/-- An expression that ends behind a block, unless a point or a question mark follows. -/
def earlyExpression (g : Grammar) : Reading Phrase := do
  let attributes ← g.outerAttributes
  if ← next startsBlockLike then
    let e : Phrase := ⟨attributes ++ (← g.blockLike), .block⟩
    if ← next (fun ts => startsMarkNot "." ".." ts || startsMark "?" ts) then
      g.operating true (← g.trailing e)
    else return e
  else g.operating true ((← g (.operand true)).attributed attributes)

end EventSourcing.Declaration.Grammar
