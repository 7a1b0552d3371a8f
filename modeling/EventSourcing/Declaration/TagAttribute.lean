import EventSourcing.Declaration.Token

/-!
The argument of a declaration attribute: empty, or one pair `type = "tag"`, which gives the tag.
The whole list of pairs is read first, so a mistake in its form, however late, is reported before
a repeated or an empty tag.
-/

namespace EventSourcing.Declaration

inductive TagError where
  | unknownKey
  | expectedEquals
  | expectedText
  | endOfInput
  | expectedComma
  | duplicateKey
  | emptyTag
deriving DecidableEq, Repr

namespace TagError

def message : TagError → String
  | unknownKey => "unknown key in attribute; expected 'type'"
  | expectedEquals => "expected `=`"
  | expectedText => "expected string literal"
  | endOfInput => "unexpected end of input, expected string literal"
  | expectedComma => "expected `,`"
  | duplicateKey => "duplicate key 'type' in attribute"
  | emptyTag => "type tag must not be empty"

end TagError

namespace TagAttribute

/-- The values of a list of pairs, with commas between them and perhaps one at the end. -/
def readPairs : List Token → Except TagError (List String)
  | [] => .ok []
  | .word "type" :: more =>
    match more with
    | .symbol '=' _ :: more =>
      match more with
      | .text value _ :: more =>
        match more with
        | [] => .ok [value]
        | .symbol ',' _ :: more => (readPairs more).map (value :: ·)
        | _ :: _ => .error .expectedComma
      | [] => .error .endOfInput
      | _ :: _ => .error .expectedText
    | _ => .error .expectedEquals
  | _ :: _ => .error .unknownKey

/-- The tag that the values of the pairs give. -/
def tagOf : List String → Except TagError (Option String)
  | [] => .ok none
  | tag :: more =>
    if tag = "" then .error .emptyTag
    else
      match more with
      | [] => .ok (some tag)
      | _ :: _ => .error .duplicateKey

def read (ts : List Token) : Except TagError (Option String) := do tagOf (← readPairs ts)

end TagAttribute

end EventSourcing.Declaration
