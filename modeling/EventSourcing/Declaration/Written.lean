import EventSourcing.Declaration.Grammar.Item

/-!
The written form of types, conditions, parameters, paths and attributes. Lists in angle brackets
have their lifetimes first, what is empty is left out, and a mark stands as one mark. What is no
phrase of the grammar keeps its tokens.
-/

namespace EventSourcing.Declaration.Written

/-- What a rule reads, from a grammar for what is nested in it. -/
def production (g : Grammar) : Grammar
  | .type plus => g.anyType plus
  | .bound => g.anyBound
  | .expression structs => g.anyExpression structs
  | .early => g.earlyExpression
  | .operand structs => g.anyOperand structs
  | .pattern => g.anyPattern
  | .block => g.anyBlock
  | .item scope => g.anyItem scope

/-- The grammar for phrases that are nested less deep than the steps. -/
def nested : (steps : Nat) → Rule → List Token → Option (Phrase × List Token)
  | 0, _, _ => none
  | steps + 1, rule, ts => production (fun rule ts => nested steps rule ts) rule ts

/-- A phrase is nested in fewer others than four for each of its tokens. -/
def grammarFor (ts : List Token) : Grammar := nested (4 * ts.length + 8)

/-- What is read from all tokens, or these. -/
def orTokens (ts : List Token) (read : Grammar → Reading (List Token)) : List Token :=
  ((read (grammarFor ts)).whole ts).getD ts

def ofType (ts : List Token) : List Token := orTokens ts Grammar.type

/-- What stands behind the word `where`. -/
def ofConditions (ts : List Token) : List Token := orTokens ts Grammar.conditions

def ofAttribute (ts : List Token) : List Token := orTokens ts Grammar.attributeBody

/-- Generic parameters with commas between them. -/
def ofParameters (ts : List Token) : Option (List GenericParam) :=
  (grammarFor ts).parameters.whole ts

/-- A path at the beginning, and the rest. -/
def ofPath (ts : List Token) : Option (Path × List Token) := (grammarFor ts).path false ts

end EventSourcing.Declaration.Written
