import EventSourcing.Declaration.Grammar.Rule

/-!
Attributes. The value behind an equals sign is an expression; arguments in brackets keep their own
tokens.
-/

namespace EventSourcing.Declaration.Grammar

open Reading Token

/-- Words that may be part of a path of plain names. -/
def startsPlain (ts : List Token) : Bool :=
  startsName ts || ["super", "self", "Self", "crate"].any (startsWord · ts)

/-- A path of plain names. -/
def plainPath : Reading (List Token) := do
  let first ← inOrder [optionalMark "::", one startsPlain]
  return first ++ (← manyWhile (startsMark "::") (inOrder [mark "::", one startsPlain]))

/-- Whether a plain path stands here, and what follows it. -/
def behindPlainPath (ts : List Token) : Option (List Token) := (plainPath ts).map Prod.snd

/-- A literal that stands alone is no expression, so that it keeps its sign. -/
def attributeValue (g : Grammar) : Reading (List Token) := fun ts =>
  match literal? ts with
  | some (l, rest) => if atEnd rest then some (l, rest) else g.expression ts
  | none => g.expression ts

/-- What stands between the brackets of an attribute. -/
def attributeBody (g : Grammar) : Reading (List Token) := do
  let path ← if ← next (startsWord "unsafe") then anyWord else plainPath
  if ← next startsGroup then return path ++ (← anyGroup)
  return path ++ (← given (startsMark "=") (inOrder [mark "=", g.attributeValue]))

def outerAttributes (g : Grammar) : Reading (List Token) :=
  manyWhile (startsMark "#") (inOrder [mark "#", bracketed g.attributeBody])

def startsInnerAttribute : List Token → Bool
  | t :: rest => startsMark "#" [t] && startsMark "!" rest
  | [] => false

/-- Attributes that belong to what they stand in. -/
def innerAttributes (g : Grammar) : Reading (List Token) :=
  manyWhile startsInnerAttribute (inOrder [mark "#", mark "!", bracketed g.attributeBody])

/-- What follows all attributes. -/
def behindAttributes : (steps : Nat) → List Token → List Token
  | steps + 1, .symbol '#' _ :: .symbol '[' _ :: rest => behindAttributes steps (group 0 rest).2
  | _, ts => ts

end EventSourcing.Declaration.Grammar
