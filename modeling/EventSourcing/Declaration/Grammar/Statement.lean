import EventSourcing.Declaration.Grammar.Expression

/-!
Statements. Items, variables and calls in braces are told from expressions by their first tokens
behind the attributes.
-/

namespace EventSourcing.Declaration.Grammar

open Reading Token

/-- A variable, perhaps with its type, its value and a block for values that do not match. -/
def variableStatement (g : Grammar) : Reading (List Token) :=
  inOrder [word "let", g.pattern, given (startsMark ":") (inOrder [mark ":", g.type]),
    given (startsMark "=") (inOrder [mark "=", g.expression,
      given (startsWord "else") (inOrder [word "else", g.block])]),
    mark ";"]

/-- What follows a plain path and its mark, if both stand here. -/
def behindCall (ts : List Token) : Option (List Token) := (behindPlainPath ts).bind (behindMark "!")

/-- A call in braces is a statement unless a point or a question mark follows. -/
def startsBracedCall (ts : List Token) : Bool :=
  (behindCall ts).any fun rest =>
    let after := behindTree rest
    startsBrace rest && !(startsMarkNot "." ".." after || startsMark "?" after)

/-- A call that defines a name. -/
def startsDefiningCall (ts : List Token) : Bool :=
  (behindCall ts).any fun rest => startsName rest || startsWord "try" rest

/-- What a function can start with behind the word `async`. -/
def startsFunctionWord (ts : List Token) : Bool :=
  ["unsafe", "extern", "fn"].any (startsWord · ts)

def startsItem (ts : List Token) : Bool :=
  ["pub", "extern", "use", "fn", "mod", "type", "struct", "enum", "trait", "impl", "macro"].any
      (startsWord · ts)
    || startsWordThen "crate" (fun rest => !startsMark "::" rest) ts
    || startsWordThen "static" (fun rest => startsWord "mut" rest || startsName rest) ts
    || startsWordThen "const" startsConstantItem ts
    || startsWordThen "unsafe" (fun rest => !startsBrace rest) ts
    || startsWordThen "async" startsFunctionWord ts
    || startsWordThen "union" startsName ts
    || startsWordThen "auto" (startsWord "trait") ts
    || startsWordThen "default" (fun rest => startsWord "unsafe" rest || startsWord "impl" rest) ts
    || startsDefiningCall ts
where
  startsConstantItem (ts : List Token) : Bool :=
    !(startsBrace ts || startsWord "static" ts || startsWord "move" ts || startsMark "|" ts
      || startsWordThen "async" (fun rest => !startsFunctionWord rest) ts)

def statement (g : Grammar) : Reading (List Token) := do
  let ts ← get
  let ahead := behindAttributes ts.length ts
  if startsMark ";" ts then mark ";"
  else if startsBracedCall ahead then
    inOrder [g.outerAttributes, plainPath, invocation, optionalMark ";"]
  else if startsWord "let" ahead then inOrder [g.outerAttributes, g.variableStatement]
  else if startsItem ahead then g.tokens (.item .module)
  else
    let attributes ← g.outerAttributes
    let e ← g .early
    return (e.attributed attributes).tokens ++ (← ending e)
where
  /-- Only what ends in braces needs no mark behind it, and what stands last. -/
  ending (e : Phrase) : Reading (List Token) := do
    if ← next (startsMark ";") then mark ";"
    else if e.form = .block || (← next atEnd) then return []
    else refuse

def anyBlock (g : Grammar) : Reading Phrase := do
  return ⟨← braced (inOrder [g.innerAttributes, manyUntil atEnd g.statement]), .plain⟩

end EventSourcing.Declaration.Grammar
