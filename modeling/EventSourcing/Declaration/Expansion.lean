import EventSourcing.Declaration.Item
import EventSourcing.Declaration.TagAttribute

/-!
What the attributes for aggregates, events and commands make of an item. The item keeps everything
but its derived traits, and an aggregate gets its base as first field; beside the item stand the
traits that are implemented for it. Mistakes in the attribute come before mistakes in the item.
-/

namespace EventSourcing.Declaration

inductive Role where
  | aggregate
  | event
  | command
deriving DecidableEq, Repr

inductive ExpansionError where
  | attribute (e : TagError)
  | onlyStruct
  | genericStruct
  | onlyNamedFields
  | onlyStructOrEnum (role : Role)
deriving DecidableEq, Repr

def Role.name : Role → String
  | .aggregate => "aggregate"
  | .event => "event"
  | .command => "command"

def ExpansionError.message : ExpansionError → String
  | .attribute e => e.message
  | .onlyStruct => "#[aggregate] only on struct"
  | .genericStruct => "#[aggregate] does not support generic structs"
  | .onlyNamedFields => "only supports named-field struct"
  | .onlyStructOrEnum role => "#[" ++ role.name ++ "] only on struct or enum"

/-- An implementation of a trait for a type with its parameters, which have no defaults there;
`conditions` are those of a where clause. -/
structure Implementation where
  trait : String
  generics : List GenericParam
  target : String
  conditions : List Token
  members : List String
deriving DecidableEq, Repr

/-- The type that the trait is implemented for, with its arguments. -/
def Implementation.self (i : Implementation) : String :=
  if i.generics.isEmpty then i.target
  else Layout.text (.word i.target :: Entry.enclose (i.generics.map GenericParam.argument))

structure Expansion where
  item : Item
  tag : String
  implementations : List Implementation
deriving DecidableEq, Repr

/-- Fields that an item has to have, by name and type. -/
abbrev RequiredFields := List (String × List Token)

namespace RequiredFields

def isRequired (required : RequiredFields) (f : Field) : Bool :=
  required.any fun r => f.name = some r.1

/-- The declared field of this name, or a new one. -/
def fieldFor (fields : List Field) (r : String × List Token) : Field :=
  (fields.find? fun f => f.name = some r.1).getD ⟨some r.1, r.2, [], []⟩

/-- The required fields first, then the others in their order. -/
def ensure (required : RequiredFields) (fields : List Field) : List Field :=
  required.map (fieldFor fields) ++ fields.filter fun f => !required.isRequired f

end RequiredFields

namespace Expansion

/-- An absolute path. -/
def pathTokens (names : List String) : List Token :=
  names.flatMap fun n => Token.mark "::" ++ [.word n]

def baseField : RequiredFields :=
  [("base", pathTokens ["cqrs_domain", "aggregate", "AggregateBase"])]

/-- The traits that an item of a role derives. -/
def derived : Role → List Path
  | .aggregate => [.bare "Debug", .bare "Default"]
  | .event => [.bare "Debug", .bare "Clone", .bare "PartialEq", .of ["serde"] "Serialize",
      .of ["serde"] "Deserialize"]
  | .command => [.bare "Debug"]

def withDerived (role : Role) (item : Item) : Item :=
  { item with attributes := Derive.merge item.attributes (derived role) }

/-- The traits of a role with their members; only aggregates are never generic. -/
def implemented (role : Role) (item : Item) : List Implementation :=
  match role with
  | .aggregate => [
      ⟨"::cqrs_domain::aggregate::AggregateState", [], item.name, [],
        ["aggregate_type", "base", "base_mut", "as_any", "into_any"]⟩,
      ⟨"::cqrs_domain::aggregate::Aggregate", [], item.name, [], ["TYPE", "new"]⟩]
  | .event => [
      ⟨"::cqrs_domain::message::Event", item.generics.map GenericParam.withoutDefault, item.name,
        item.conditions, ["TYPE"]⟩]
  | .command => [
      ⟨"::cqrs_domain::message::Command", item.generics.map GenericParam.withoutDefault,
        item.name, item.conditions, ["NAME"]⟩]

/-- The item as it is declared in the end, before its derived traits are merged. -/
def reshape (role : Role) (item : Item) : Except ExpansionError Item :=
  match role, item.body with
  | .aggregate, .struct fields =>
    if item.generics.isEmpty then
      match fields with
      | .named fs => .ok { item with body := .struct (.named (baseField.ensure fs)) }
      | _ => .error .onlyNamedFields
    else .error .genericStruct
  | .aggregate, _ => .error .onlyStruct
  | role, .other _ => .error (.onlyStructOrEnum role)
  | _, _ => .ok item

def expand (role : Role) (argument : List Token) (item : Item) :
    Except ExpansionError Expansion :=
  match TagAttribute.read argument with
  | .error e => .error (.attribute e)
  | .ok tag =>
    match reshape role item with
    | .error e => .error e
    | .ok shaped =>
      .ok ⟨withDerived role shaped, tag.getD item.name, implemented role item⟩

end Expansion

end EventSourcing.Declaration
