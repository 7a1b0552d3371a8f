import EventSourcing.Declaration.Token
import EventSourcing.Text.Blank

/-!
The text of tokens. First they stand apart by one blank, unless a symbol is joined to the next or
the blank would be just inside of round or square brackets. Then white space is taken out, but not
between double quotes, whether or not these enclose a literal.
-/

namespace EventSourcing.Declaration.Layout

open EventSourcing.Text

/-- Whether a blank stands between two tokens. -/
def isApart : Token → Token → Bool
  | .symbol _ true, _ => false
  | .symbol '(' _, _ => false
  | .symbol '[' _, _ => false
  | _, .symbol ')' _ => false
  | _, .symbol ']' _ => false
  | _, _ => true

def spaced : List Token → List Char
  | [] => []
  | [t] => t.source.toList
  | t :: u :: rest => t.source.toList ++ (if isApart t u then [' '] else []) ++ spaced (u :: rest)

/-- Where a reader of the text stands: outside of quotes, between them, or behind a backslash. -/
inductive Place where
  | outside
  | quoted
  | escaped

def Place.next : Place → Char → Place
  | outside, c => if c = '\x22' then quoted else outside
  | quoted, c => if c = '\x22' then outside else if c = '\\' then escaped else quoted
  | escaped, _ => quoted

/-- Takes out the white space outside of quotes. -/
def squeeze : Place → List Char → List Char
  | _, [] => []
  | .outside, c :: rest =>
    if isBlank c then squeeze .outside rest else c :: squeeze (Place.next .outside c) rest
  | place, c :: rest => c :: squeeze (place.next c) rest

def chars (ts : List Token) : List Char := squeeze .outside (spaced ts)

def text (ts : List Token) : String := String.ofList (chars ts)

/-- The text between a first and a last character. -/
def inside (ts : List Token) : String := String.ofList (chars ts).tail.dropLast

end EventSourcing.Declaration.Layout
