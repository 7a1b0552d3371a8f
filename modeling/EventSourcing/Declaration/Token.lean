/-!
Tokens of Rust source text. Brackets are symbols like all others; `group` splits behind the bracket
that closes a group.
-/

namespace EventSourcing.Declaration

inductive Token where
  /-- A word: a name or a keyword. A raw name keeps its mark. -/
  | word (s : String)
  | lifetime (s : String)
  /-- A string literal: its value and how it is written. -/
  | text (value source : String)
  | literal (source : String)
  /-- A bracket or a punctuation mark; one that is `joined` is part of a mark with the next. -/
  | symbol (c : Char) (joined : Bool)
deriving DecidableEq, Repr

namespace Token

def source : Token → String
  | word s => s
  | lifetime s => s
  | text _ s => s
  | literal s => s
  | symbol c _ => c.toString

def openers : List Char := ['(', '[', '\x7b']

def closers : List Char := [')', ']', '\x7d']

def isOneOf (cs : List Char) : Token → Bool
  | symbol c _ => cs.contains c
  | _ => false

def opens : Token → Bool := isOneOf openers

def closes : Token → Bool := isOneOf closers

/-- A bracket. -/
def bracket (c : Char) : Token := symbol c false

/-- The symbols of a mark: all but the last are joined to the next. -/
def symbols : List Char → List Token
  | [] => []
  | [c] => [symbol c false]
  | c :: cs => symbol c true :: symbols cs

def mark (m : String) : List Token := symbols m.toList

/-- Splits behind the bracket that closes a group, the tokens behind its opening bracket given. -/
def group : (depth : Nat) → List Token → List Token × List Token
  | _, [] => ([], [])
  | depth, t :: rest =>
    if t.closes then
      match depth with
      | 0 => ([t], rest)
      | outer + 1 =>
        let (inside, after) := group outer rest
        (t :: inside, after)
    else
      let (inside, after) := group (if t.opens then depth + 1 else depth) rest
      (t :: inside, after)

end Token

end EventSourcing.Declaration
