import EventSourcing.Declaration.Token.Number

/-!
Scanning of Rust source text. `Token.scan` splits a text into tokens and drops white space and plain
comments; a doc comment is an attribute.
-/

namespace EventSourcing.Declaration.Token

open EventSourcing.Text

/-- Where a reader of the inside of a quoted literal stands. -/
inductive Escape where
  | none
  | started
  /-- In a two digit code; the first digit, once read. -/
  | byte (digits : List Char)
  /-- In a code in braces, with the digits read so far. -/
  | point (digits : List Char)
  /-- After an escaped end of line, before the next text. -/
  | lineEnd

/-- What is skipped after an escaped end of line. -/
def isIndent (c : Char) : Bool := c = ' ' || c = '\t' || c = '\n' || c = '\r'

/-- The value of the inside of a quoted literal: escapes are resolved, and an end of line is one
character however it is written. -/
def unescape : Escape → List Char → List Char
  | _, [] => []
  | .none, '\r' :: '\n' :: rest => '\n' :: unescape .none rest
  | .none, c :: rest => if c = '\\' then unescape .started rest else c :: unescape .none rest
  | .started, c :: rest =>
    if c = 'x' then unescape (.byte []) rest
    else if c = 'u' then unescape (.point []) rest
    else if c = '\n' ∨ c = '\r' then unescape .lineEnd rest
    else
      (if c = 'n' then '\n' else if c = 't' then '\t' else if c = 'r' then '\r'
        else if c = '0' then '\x00' else c) :: unescape .none rest
  | .byte ds, c :: rest =>
    if ds = [] then unescape (.byte [c]) rest
    else Char.ofNat (hexValue (ds ++ [c])) :: unescape .none rest
  | .point ds, c :: rest =>
    if c = '\x7d' then Char.ofNat (hexValue ds) :: unescape .none rest
    else unescape (.point (ds ++ [c])) rest
  | .lineEnd, c :: rest =>
    if isIndent c then unescape .lineEnd rest
    else if c = '\\' then unescape .started rest
    else c :: unescape .none rest

/-- Splits after the closing quote `q` that no backslash escapes. -/
def closeQuote (q : Char) : List Char → List Char × List Char
  | [] => ([], [])
  | '\\' :: c :: rest =>
    let (inside, after) := closeQuote q rest
    ('\\' :: c :: inside, after)
  | c :: rest =>
    if c = q then ([], rest)
    else
      let (inside, after) := closeQuote q rest
      (c :: inside, after)

/-- Splits after a closing quote followed by `hashes` marks. -/
def closeRaw (hashes : Nat) : List Char → List Char × List Char
  | [] => ([], [])
  | c :: rest =>
    if c = '\x22' ∧ rest.take hashes = List.replicate hashes '#' then ([], rest.drop hashes)
    else
      let (inside, after) := closeRaw hashes rest
      (c :: inside, after)

/-- Splits the inside of a block comment, which may hold others, from what follows it. -/
def closeComment : (depth : Nat) → List Char → List Char × List Char
  | _, [] => ([], [])
  | depth, '*' :: '/' :: rest =>
    match depth with
    | 0 => ([], rest)
    | outer + 1 =>
      let (inside, after) := closeComment outer rest
      ('*' :: '/' :: inside, after)
  | depth, '/' :: '*' :: rest =>
    let (inside, after) := closeComment (depth + 1) rest
    ('/' :: '*' :: inside, after)
  | depth, c :: rest =>
    let (inside, after) := closeComment depth rest
    (c :: inside, after)

/-- Splits at the end of the line; a line that ends in two characters loses both. -/
def closeLine : List Char → List Char × List Char
  | [] => ([], [])
  | '\x0d' :: '\n' :: rest => ([], rest)
  | c :: rest =>
    if c = '\n' then ([], rest)
    else
      let (inside, after) := closeLine rest
      (c :: inside, after)

/-- The text of a doc comment as it stands in a literal. An apostrophe stays; a null in front of a
digit below eight has two digits. -/
def docChars : List Char → List Char
  | [] => []
  | c :: rest =>
    let octalNext := rest.head?.any fun d => '0' ≤ d && d ≤ '7'
    (if c = '\x00' ∧ octalNext then ['\\', 'x', '0', '0'] else quotedChar c) ++ docChars rest

/-- The attribute that a doc comment is; an inner one belongs to what it stands in. -/
def docAttribute (inner : Bool) (comment : List Char) : List Token :=
  let source := String.ofList ('\x22' :: docChars comment ++ ['\x22'])
  (if inner then mark "#" ++ mark "!" else mark "#")
    ++ bracket '[' :: word "doc" :: mark "="
    ++ [text (String.ofList comment) source, bracket ']']

/-- A comment behind its first two characters, the second of which is `kind`: the tokens that it
stands for, and the rest. It is a doc comment if `kind` stands there once more, but not twice. -/
def comment (kind : Char) (rest : List Char) : List Token × List Char :=
  let close := if kind = '/' then closeLine else closeComment 0
  let (inside, after) := close rest
  match inside with
  | '!' :: doc => (docAttribute true doc, after)
  | c :: doc =>
    if c = kind ∧ (rest.drop 1).head? ≠ some kind then (docAttribute false doc, after)
    else ([], after)
  | [] => ([], after)

/-- A literal of these characters, with the suffix that follows it. -/
def suffixed (cs after : List Char) : Token × List Char :=
  (literal (String.ofList (cs ++ after.takeWhile isWordPart)), after.dropWhile isWordPart)

/-- A string literal of this value, with its suffix. -/
def suffixedText (value cs after : List Char) : Token × List Char :=
  (text (String.ofList value) (String.ofList (cs ++ after.takeWhile isWordPart)),
    after.dropWhile isWordPart)

/-- A literal in double quotes that starts with `lead`; only one without a lead is a string. -/
def quoted (lead rest : List Char) : Token × List Char :=
  let (inside, after) := closeQuote '\x22' rest
  let source := lead ++ '\x22' :: inside ++ ['\x22']
  if lead = [] then suffixedText (unescape .none inside) source after else suffixed source after

/-- A raw literal that starts with `lead`; only one with `r` is a string. -/
def raw (lead rest : List Char) : Token × List Char :=
  let hashes := rest.takeWhile (· = '#')
  let (inside, after) := closeRaw hashes.length (rest.drop (hashes.length + 1))
  let source := lead ++ hashes ++ '\x22' :: inside ++ '\x22' :: hashes
  if lead = ['r'] then suffixedText inside source after else suffixed source after

/-- Whether what follows a lead is a raw literal. -/
def opensRaw (rest : List Char) : Bool := (rest.dropWhile (· = '#')).head? = some '\x22'

/-- A literal of one character, behind its first apostrophe. -/
def character? (lead rest : List Char) : Option (Token × List Char) :=
  match rest with
  | '\\' :: _ =>
    let (inside, after) := closeQuote '\x27' rest
    some (suffixed (lead ++ '\x27' :: inside ++ ['\x27']) after)
  | c :: '\x27' :: after => some (suffixed (lead ++ ['\x27', c, '\x27']) after)
  | _ => none

/-- The name after an apostrophe; a raw name has its mark. -/
def lifetimeNamed (rest : List Char) : Token × List Char :=
  match rest with
  | 'r' :: '#' :: c :: after =>
    if isWordStart c then
      (lifetime (String.ofList ('\x27' :: 'r' :: '#' :: c :: after.takeWhile isWordPart)),
        after.dropWhile isWordPart)
    else (lifetime "'r", '#' :: c :: after)
  | _ => (lifetime (String.ofList ('\x27' :: rest.takeWhile isWordPart)), rest.dropWhile isWordPart)

/-- A word, or a literal that starts with letters. -/
def wordOrMarked (cs : List Char) : Token × List Char :=
  let (w, rest) := spanOf isWordPart cs
  let plain := (word (String.ofList w), rest)
  if (w = ['r'] ∨ w = ['b', 'r'] ∨ w = ['c', 'r']) ∧ opensRaw rest then raw w rest
  else
    match rest with
    | '#' :: after =>
      if w = ['r'] ∧ after.head?.any isWordStart then
        (word (String.ofList ('r' :: '#' :: after.takeWhile isWordPart)),
          after.dropWhile isWordPart)
      else plain
    | '\x27' :: after => if w = ['b'] then (character? w after).getD plain else plain
    | '\x22' :: after => if w = ['b'] ∨ w = ['c'] then quoted w after else plain
    | _ => plain

def punctuation : List Char :=
  ['~', '!', '@', '#', '$', '%', '^', '&', '*', '-', '=', '+', '|', ';', ':', ',', '<', '.', '>',
   '/', '?', '\x27']

/-- Whether punctuation follows at once; the start of a comment is none. -/
def joins : List Char → Bool
  | '/' :: '/' :: _ => false
  | '/' :: '*' :: _ => false
  | c :: _ => punctuation.contains c
  | [] => false

/-- The token that starts with `c`, and the rest. -/
def next (c : Char) (rest : List Char) : Token × List Char :=
  if c = '\x22' then quoted [] rest
  else if c = '\x27' then (character? [] rest).getD (lifetimeNamed rest)
  else if c.isDigit then
    let (ds, after) := number (c :: rest)
    (literal (String.ofList ds), after)
  else if isWordStart c then wordOrMarked (c :: rest)
  else (symbol c (punctuation.contains c && joins rest), rest)

/-- Where a text could not be read, it may hold this in place of a token. -/
def placeholder : List Char := "(/*ERROR*/)".toList

/-- Every step takes at least one character, so as many steps as characters are enough. -/
def scanSteps : Nat → List Char → List Token
  | 0, _ => []
  | _, [] => []
  | steps + 1, '/' :: '/' :: rest =>
    let (ts, after) := comment '/' rest
    ts ++ scanSteps steps after
  | steps + 1, '/' :: '*' :: rest =>
    let (ts, after) := comment '*' rest
    ts ++ scanSteps steps after
  | steps + 1, c :: rest =>
    if isGap c then scanSteps steps rest
    else if placeholder.isPrefixOf (c :: rest) then
      literal (String.ofList placeholder)
        :: scanSteps steps ((c :: rest).drop placeholder.length)
    else
      let (t, after) := next c rest
      t :: scanSteps steps after

/-- A byte order mark in front does not count. -/
def scan (s : String) : List Token :=
  let cs := match s.toList with
    | '\ufeff' :: rest => rest
    | cs => cs
  scanSteps cs.length cs

end EventSourcing.Declaration.Token
