import EventSourcing.Json

/-!
Failures to write JSON. A message may end in the place of the failure, a line and a column; line
zero stands for no place.
-/

namespace EventSourcing.Json

/-- What stands before and behind the last occurrence of a text. -/
def splitLast (mark : List Char) : List Char → Option (List Char × List Char)
  | [] => none
  | c :: rest =>
    match splitLast mark rest with
    | some (before, behind) => some (c :: before, behind)
    | none => if mark.isPrefixOf (c :: rest) then some ([], (c :: rest).drop mark.length) else none

/-- A number without a sign that fits into a word. -/
def wordValue (cs : List Char) : Option Nat :=
  if cs ≠ [] ∧ cs.all Char.isDigit ∧ Decimal.valueOf cs < UInt64.size then
    some (Decimal.valueOf cs)
  else none

/-- A message, and the line and the column at its end. -/
def splitPlace (message : String) : Option (String × Nat × Nat) := do
  let (before, place) ← splitLast " at line ".toList message.toList
  let line := place.takeWhile Char.isDigit
  let rest := place.dropWhile Char.isDigit
  let separator := " column ".toList
  if !separator.isPrefixOf rest then none
  else
    return (String.ofList before, ← wordValue line, ← wordValue (rest.drop separator.length))

/-- The text of a failure with this message. -/
def failureText (message : String) : String :=
  match splitPlace message with
  | none => message
  | some (front, line, column) =>
    if line = 0 then front
    else front ++ " at line " ++ toString line ++ " column " ++ toString column

end EventSourcing.Json
