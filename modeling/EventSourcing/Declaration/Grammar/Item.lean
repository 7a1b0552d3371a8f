import EventSourcing.Declaration.Grammar.Statement

/-!
Items: functions, types, modules and what else stands in a module, a trait or an implementation.
What the language only reserves, such as a type without a definition, has no written form of its own
and keeps its tokens, attributes included.
-/

namespace EventSourcing.Declaration.Grammar

open Reading Token

/-- The written form of an item, or nothing if it keeps its tokens. -/
abbrev ItemReading := Reading (Option (List Token))

/-- An item that has a written form if `ok` holds. -/
def writtenIf (ok : Bool) (r : Reading (List Token)) : ItemReading := do
  let ts ← r
  return if ok then some ts else none

def written (r : Reading (List Token)) : ItemReading := writtenIf true r

/-! ## Parts of items -/

/-- Where an item is visible from. -/
def visibility : Reading (List Token) :=
  given (startsWord "pub") (inOrder [anyWord, given startsScope anyGroup])
where
  startsScope : List Token → Bool
    | .symbol '(' _ :: .word w :: rest =>
      w = "in" || ["crate", "self", "super"].contains w && startsBracket ')' rest
    | _ => false

def result (g : Grammar) : Reading (List Token) :=
  given (startsMark "->") (inOrder [mark "->", g.type])

def startsReceiver : List Token → Bool
  | .word "self" :: rest => !startsMark "::" rest
  | .word "mut" :: .word "self" :: _ => true
  | .symbol '&' _ :: .lifetime _ :: rest => startsSelf rest
  | .symbol '&' _ :: rest => startsSelf rest
  | _ => false
where
  startsSelf : List Token → Bool
    | .word "mut" :: .word "self" :: rest => !startsMark "::" rest
    | .word "self" :: rest => !startsMark "::" rest
    | _ => false

/-- The value that a method belongs to, perhaps with its type. -/
def receiver (g : Grammar) : Reading (List Token) := do
  if ← next (startsMark "&") then
    inOrder [mark "&", given startsLifetime lifetime, optionalWord "mut", anyWord]
  else
    inOrder [optionalWord "mut", anyWord, given (startsMark ":") (inOrder [mark ":", g.type])]

/-- A type with arguments in place of a whole argument. -/
def startsBareType (ts : List Token) : Bool := startsName ts && startsMark "<" ts.tail

/-- An argument of a function. One that is only a type gets a name that binds nothing. -/
def functionArgument (g : Grammar) : Reading (List Token) := do
  let attributes ← g.outerAttributes
  let ts ← get
  let argument ←
    if startsMark "..." ts then mark "..."
    else if startsReceiver ts then g.receiver
    else if startsBareType ts then do
      let type ← g.type
      pure (.word "_" :: Token.mark ":" ++ type)
    else
      inOrder [g.pattern, mark ":", do if ← next (startsMark "...") then mark "..." else g.type]
  return attributes ++ argument

/-- What stands in front of the name of a function. A `safe` function has no written form. -/
def qualifiers : Reading (List Token × Bool) := do
  let front ← inOrder [optionalWord "const", optionalWord "async", optionalWord "unsafe"]
  let safe ← given (startsWordThen "safe" startsFunctionWord) anyWord
  return (front ++ safe ++ (← abi), !safe.isEmpty)

/-- A function without its body, and whether it is `safe`. -/
def signature (g : Grammar) : Reading (List Token × Bool) := do
  let (front, safe) ← qualifiers
  let head ← inOrder [word "fn", name, g.generics, parenthesized (commas g.functionArgument),
    g.result, g.whereClause]
  return (front ++ head, safe)

def startsSignature (ts : List Token) : Bool :=
  match qualifiers ts with
  | some (_, rest) => startsWord "fn" rest && startsName rest.tail
  | none => false

def field (g : Grammar) : Reading (List Token) := do
  let front ← inOrder [g.outerAttributes, visibility]
  if ← next (startsWord "_") then
    let label ← inOrder [anyWord, mark ":"]
    if ← next startsBareFields then return front ++ label ++ (← inOrder [anyWord, anyGroup])
    return front ++ label ++ (← g.type)
  return front ++ (← inOrder [name, mark ":", g.type])
where
  startsBareFields (ts : List Token) : Bool :=
    startsWord "struct" ts || startsWordThen "union" startsBrace ts

def namedFields (g : Grammar) : Reading (List Token) := braced (commas g.field)

def tupleFields (g : Grammar) : Reading (List Token) :=
  parenthesized (commas (inOrder [g.outerAttributes, visibility, g.type]))

/-- A variant of an enumeration; where it is visible from is not written. -/
def variant (g : Grammar) : Reading (List Token) := do
  let attributes ← g.outerAttributes
  let _ ← visibility
  return attributes ++ (← inOrder [name, given startsBrace g.namedFields,
    given (startsBracket '(') g.tupleFields,
    given (startsMark "=") (inOrder [mark "=", g.expression])])

/-- Items of a scope in braces, behind the attributes that belong to the whole. -/
def members (g : Grammar) (scope : Scope) : Reading (List Token) :=
  braced (inOrder [g.innerAttributes, manyUntil atEnd (g.tokens (.item scope))])

/-- A name called with a mark, as an item. -/
def calledItem : Reading (List Token) := do
  let call ← inOrder [plainPath, mark "!",
    given (fun ts => startsName ts || startsWord "try" ts) anyWord]
  if ← next startsBrace then return call ++ (← anyGroup)
  return call ++ (← inOrder [anyGroup, mark ";"])

def startsCalledItem (ts : List Token) : Bool := startsPlain ts || startsMark "::" ts

/-! ## Kinds of items -/

/-- A constant that may have parameters and conditions, which have no written form. -/
def constantItem (g : Grammar) (needsValue : Bool) : ItemReading := do
  let front ← inOrder [word "const",
    one (fun ts => startsName ts || startsWord "_" ts)]
  let simple := !(← next (startsMark "<"))
  let _ ← g.generics
  let type ← inOrder [mark ":", g.type]
  let hasValue ← next (startsMark "=")
  let value ← given (startsMark "=") (inOrder [mark "=", g.expression])
  let bare := !(← next (startsWord "where"))
  let _ ← g.whereClause
  writtenIf (simple && bare && (hasValue || !needsValue))
    (do return front ++ type ++ value ++ (← mark ";"))

/-- Where the conditions of a type stand. -/
inductive ConditionPlace where
  | beforeDefinition
  | afterDefinition
  | anywhere
deriving DecidableEq

/-- The parts of a type alias, of which some may be missing. -/
structure AliasParts where
  head : List Token
  /-- Whether there is a colon, even without bounds. -/
  bounded : Bool
  bounds : List Token
  definition : List Token
  conditions : List Token

def aliasParts (g : Grammar) (place : ConditionPlace) : Reading AliasParts := do
  let head ← inOrder [word "type", name, g.generics]
  let bounded ← next (startsMark ":")
  let bs ← g.optionalBounds
  let before ← if place = .afterDefinition then pure [] else g.whereClause
  let definition ← given (startsMark "=") (inOrder [mark "=", g.type])
  let after ← if place = .beforeDefinition then pure [] else g.whereClause
  let _ ← mark ";"
  return ⟨head, bounded, bs, definition, before ++ after⟩

/-- A type with its definition, which is the only written form. -/
def typeItem (g : Grammar) (place : ConditionPlace) : ItemReading := do
  let p ← g.aliasParts place
  if p.bounded || p.definition.isEmpty then return none
  let rest := if place = .beforeDefinition then p.conditions ++ p.definition
    else p.definition ++ p.conditions
  return some (p.head ++ rest ++ Token.mark ";")

/-- A type of a trait, perhaps with bounds and a default. -/
def traitType (g : Grammar) : ItemReading := do
  let p ← g.aliasParts .afterDefinition
  return some (p.head ++ p.bounds ++ p.definition ++ p.conditions ++ Token.mark ";")

/-- A type of another language, without a definition. -/
def foreignType (g : Grammar) : ItemReading := do
  let p ← g.aliasParts .anywhere
  if p.bounded || !p.definition.isEmpty then return none
  return some (p.head ++ p.conditions ++ Token.mark ";")

/-- A variable of the module, with its type and its value. -/
def staticItem (g : Grammar) : ItemReading := do
  let front ← inOrder [word "static", optionalWord "mut", name]
  let typed ← next (startsMark ":")
  let type ← given (startsMark ":") (inOrder [mark ":", g.type])
  let valued ← next (startsMark "=")
  let value ← given (startsMark "=") (inOrder [mark "=", g.expression])
  writtenIf (typed && valued) (do return front ++ type ++ value ++ (← mark ";"))

/-- A variable of another language. One that is marked as safe or unsafe, or has a value, has no
written form. -/
def foreignStatic (g : Grammar) : ItemReading := do
  let marked ← next fun ts => startsWord "unsafe" ts || startsWord "safe" ts
  let front ← inOrder [if marked then anyWord else pure [], word "static", optionalWord "mut", name,
    mark ":", g.type]
  let valued ← next (startsMark "=")
  let value ← given (startsMark "=") (inOrder [mark "=", g.expression])
  writtenIf (!marked && !valued) (do return front ++ value ++ (← mark ";"))

/-- A function with its body; without one it keeps its tokens. -/
def functionItem (g : Grammar) : ItemReading := do
  let (head, _) ← g.signature
  if ← next (startsMark ";") then writtenIf false (mark ";")
  else written (do return head ++ (← g.block))

/-- A function of a trait, with or without a body. -/
def traitFunction (g : Grammar) : ItemReading := do
  let (head, _) ← g.signature
  written (do return head ++ (← if ← next (startsMark ";") then mark ";" else g.block))

/-- A function of another language, without a body. -/
def foreignFunction (g : Grammar) : ItemReading := do
  let (head, safe) ← g.signature
  if ← next startsBrace then writtenIf false g.block
  else writtenIf (!safe) (do return head ++ (← mark ";"))

/-- A crate by its name. -/
def crateItem : ItemReading :=
  written (inOrder [word "extern", word "crate", anyWord,
    given (startsWord "as") (inOrder [anyWord, anyWord]), mark ";"])

def foreignItems (g : Grammar) : ItemReading :=
  written (inOrder [optionalWord "unsafe", abi, g.members .foreign])

/-- Whether a path in a group starts with colons, after a brace or a comma. -/
def hasInnerRoot : List Token → Bool
  | t :: rest => t.isOneOf ['\x7b', ','] && startsMark "::" rest || hasInnerRoot rest
  | [] => false

/-- Imported names. A group in which a path starts with colons has no written form. -/
def useItem : ItemReading := do
  let names ← manyUntil (startsMark ";") do
    if ← next (startsMark "::") then mark "::"
    else
      let ts ← one fun _ => true
      return ts.map fun
        | .symbol c _ => .symbol c false
        | t => t
  writtenIf (!hasInnerRoot names) (do return names ++ (← mark ";"))

def moduleItem (g : Grammar) : ItemReading :=
  written (inOrder [optionalWord "unsafe", word "mod", name,
    do if ← next (startsMark ";") then mark ";" else g.members .module])

def structItem (g : Grammar) : ItemReading := do
  let front ← inOrder [word "struct", name, g.generics]
  if ← next (startsBracket '(') then
    written (do return front ++ (← inOrder [g.tupleFields, g.whereClause, mark ";"]))
  else
    let conditions ← g.whereClause
    written (do return front ++ conditions
      ++ (← if ← next (startsMark ";") then mark ";" else g.namedFields))

def enumItem (g : Grammar) : ItemReading :=
  written (inOrder [word "enum", name, g.generics, g.whereClause, braced (commas g.variant)])

def unionItem (g : Grammar) : ItemReading :=
  written (inOrder [word "union", name, g.generics, g.whereClause, g.namedFields])

/-- A trait, or a name for bounds. -/
def traitItem (g : Grammar) : ItemReading := do
  let front ← inOrder [optionalWord "unsafe", optionalWord "auto", word "trait", name, g.generics]
  if ← next (startsMark "=") then
    written (do return front ++ (← inOrder [mark "=", g.bounds, g.whereClause, mark ";"]))
  else
    written (do return front ++ (← inOrder [g.optionalBounds, g.whereClause, g.members .trait]))

def startsConstMark : List Token → Bool
  | t :: rest => startsWord "const" [t] || startsMark "?" [t] && startsWord "const" rest
  | [] => false

/-- Methods of a type, perhaps as those of a trait. An implementation that is constant, that has a
visibility, or whose trait is no path has no written form. -/
def implementationItem (g : Grammar) (visible : Bool) : ItemReading := do
  let front ← inOrder [optionalWord "default", optionalWord "unsafe"]
  let hasGenerics ← next (prefersGenerics "impl")
  let keyword ← word "impl"
  let parameters ← if hasGenerics then g.generics else pure []
  let constant ← next startsConstMark
  let _ ← if constant then inOrder [optionalMark "?", word "const"] else pure []
  let negative ← next fun ts => startsMark "!" ts && !startsBrace ts.tail
  let (first, source) ← withSource do
    let polarity ← if negative then mark "!" else pure []
    return (polarity, ← g (.type true))
  let (polarity, type) := first
  let isFor ← next (startsWord "for")
  let target ← if isFor then do
      let more ← inOrder [anyWord, g.type]
      pure (polarity ++ type.tokens ++ more)
    else pure (if negative then source else type.tokens)
  let rest ← inOrder [g.whereClause, g.members .implementation]
  let isTrait := type.form = .name || type.form = .path
  return if visible || constant || isFor && !isTrait then none
    else some (front ++ keyword ++ parameters ++ target ++ rest)

/-- A definition by patterns of tokens, which keeps its tokens. -/
def definedCall : ItemReading :=
  writtenIf false (inOrder [word "macro", name, given (startsBracket '(') anyGroup, anyGroup])

/-! ## Items of a scope -/

def startsUnsafe (w : String) (ts : List Token) : Bool :=
  startsWord w ts || startsWordThen "unsafe" (startsWord w) ts

/-- An item behind its attributes; the visibility belongs to its written form. -/
def moduleMember (g : Grammar) : ItemReading := do
  let front ← visibility
  let ts ← get
  let kind : ItemReading :=
    if startsSignature ts then g.functionItem
    else if startsWordThen "extern" (startsWord "crate") ts then crateItem
    else if startsUnsafe "extern" ts then g.foreignItems
    else if startsWord "use" ts then useItem
    else if startsWord "static" ts then g.staticItem
    else if startsWord "const" ts then g.constantItem true
    else if startsUnsafe "mod" ts then g.moduleItem
    else if startsWord "type" ts then g.typeItem .beforeDefinition
    else if startsWord "struct" ts then g.structItem
    else if startsWord "enum" ts then g.enumItem
    else if startsWordThen "union" startsName ts then g.unionItem
    else if startsUnsafe "trait" ts || startsAutoTrait ts
        || startsWordThen "unsafe" startsAutoTrait ts
    then g.traitItem
    else if startsUnsafe "impl" ts || startsWordThen "default" (fun rest => !startsMark "!" rest) ts
    then g.implementationItem !front.isEmpty
    else if startsWord "macro" ts then definedCall
    else if front.isEmpty && startsCalledItem ts then written calledItem
    else refuse
  return (← kind).map (front ++ ·)
where
  startsAutoTrait (ts : List Token) : Bool := startsWordThen "auto" (startsWord "trait") ts

/-- An item of a trait. With a visibility or as a default it has no written form. -/
def traitMember (g : Grammar) : ItemReading := do
  let front ← inOrder [visibility, optionalWord "default"]
  let ts ← get
  let kind : ItemReading :=
    if startsSignature ts then g.traitFunction
    else if startsWord "const" ts then g.constantItem false
    else if startsWord "type" ts then g.traitType
    else if front.isEmpty && startsCalledItem ts then written calledItem
    else refuse
  let w ← kind
  return if front.isEmpty then w else none

def implementationMember (g : Grammar) : ItemReading := do
  let front ← inOrder [visibility,
    given (startsWordThen "default" fun rest => !startsMark "!" rest) anyWord]
  let ts ← get
  let kind : ItemReading :=
    if startsSignature ts then g.functionItem
    else if startsWord "const" ts then g.constantItem true
    else if startsWord "type" ts then g.typeItem .afterDefinition
    else if front.isEmpty && startsCalledItem ts then written calledItem
    else refuse
  return (← kind).map (front ++ ·)

def foreignMember (g : Grammar) : ItemReading := do
  let front ← visibility
  let ts ← get
  let kind : ItemReading :=
    if startsSignature ts then g.foreignFunction
    else if startsUnsafe "static" ts || startsWordThen "safe" (startsWord "static") ts
    then g.foreignStatic
    else if startsWord "type" ts then g.foreignType
    else if front.isEmpty && startsCalledItem ts then written calledItem
    else refuse
  return (← kind).map (front ++ ·)

def anyItem (g : Grammar) (scope : Scope) : Reading Phrase := do
  let tokens ← orSource do
    let attributes ← g.outerAttributes
    let member ← match scope with
      | .module => g.moduleMember
      | .trait => g.traitMember
      | .implementation => g.implementationMember
      | .foreign => g.foreignMember
    return member.map (attributes ++ ·)
  return ⟨tokens, .plain⟩

end EventSourcing.Declaration.Grammar
