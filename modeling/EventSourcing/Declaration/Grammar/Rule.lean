import EventSourcing.Declaration.Reading

/-!
The rules of the grammar that refer to each other. What is read by one of them is a phrase: its
written form, and what a reader of more has to know about it. The modules beside this one read the
parts of the language from a `Grammar`, that is from all these rules; none of them is recursive.
-/

namespace EventSourcing.Declaration

inductive Form where
  | plain
  /-- A type that is one name, perhaps with arguments in angle brackets. -/
  | name
  /-- A type that is a path otherwise. -/
  | path
  /-- A type that is one bound without a keyword. -/
  | bound
  /-- An expression that ends in braces, and that ends a statement therefore. -/
  | block
  /-- An expression or pattern that keeps its own tokens, and that can be given no attributes. -/
  | source
deriving DecidableEq, Repr

structure Phrase where
  tokens : List Token
  form : Form
deriving Repr

/-- The phrase with attributes, which it loses if it keeps its own tokens. -/
def Phrase.attributed (p : Phrase) (attributes : List Token) : Phrase :=
  if p.form = .source then p else ⟨attributes ++ p.tokens, p.form⟩

/-- What an item stands in. -/
inductive Scope where
  | module
  | trait
  | implementation
  | foreign
deriving DecidableEq, Repr

inductive Rule where
  /-- A type; if `plus` holds, more bounds may follow a first one. -/
  | type (plus : Bool)
  | bound
  /-- An expression; if `structs` holds, it may have fields in braces behind a path. -/
  | expression (structs : Bool)
  /-- An expression that ends behind a block, as in a statement or a match arm. -/
  | early
  /-- An expression without operators behind it. -/
  | operand (structs : Bool)
  /-- A pattern without alternatives. -/
  | pattern
  /-- Statements in braces. -/
  | block
  | item (scope : Scope)
deriving DecidableEq, Repr

abbrev Grammar := Rule → Reading Phrase

namespace Grammar

/-- The tokens of what a rule reads. -/
def tokens (g : Grammar) (r : Rule) : Reading (List Token) := do return (← g r).tokens

def type (g : Grammar) : Reading (List Token) := g.tokens (.type true)

/-- A type that ends before a plus sign. -/
def simpleType (g : Grammar) : Reading (List Token) := g.tokens (.type false)

def bound (g : Grammar) : Reading (List Token) := g.tokens .bound

def expression (g : Grammar) : Reading (List Token) := g.tokens (.expression true)

/-- An expression in front of a block. -/
def head (g : Grammar) : Reading (List Token) := g.tokens (.expression false)

def pattern (g : Grammar) : Reading (List Token) := g.tokens .pattern

def block (g : Grammar) : Reading (List Token) := g.tokens .block

end Grammar

end EventSourcing.Declaration
