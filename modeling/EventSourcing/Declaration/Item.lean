import EventSourcing.Declaration.Derive

/-!
Items: declarations of structs and enums with their attributes, generic parameters and fields.
Other kinds of items are known by their kind only. Types, bounds and conditions are kept in their
written form.
-/

namespace EventSourcing.Declaration

structure Field where
  /-- Fields of tuples have no name. -/
  name : Option String
  type : List Token
  visibility : List Token
  attributes : List Attribute
deriving DecidableEq, Repr

inductive Fields where
  | named (fields : List Field)
  | tuple (fields : List Field)
  | unit
deriving DecidableEq, Repr

def Fields.toList : Fields → List Field
  | named fs => fs
  | tuple fs => fs
  | unit => []

structure Variant where
  name : String
  fields : Fields
  attributes : List Attribute
  /-- The value that stands after an equals sign. -/
  discriminant : Option (List Token)
deriving DecidableEq, Repr

inductive Body where
  | struct (fields : Fields)
  | enum (variants : List Variant)
  | other (kind : String)
deriving DecidableEq, Repr

structure Item where
  name : String
  visibility : List Token
  attributes : List Attribute
  generics : List GenericParam
  /-- What stands after the word `where`. -/
  conditions : List Token
  body : Body
deriving DecidableEq, Repr

namespace Item

def kind (item : Item) : String :=
  match item.body with
  | .struct _ => "struct"
  | .enum _ => "enum"
  | .other k => k

end Item

end EventSourcing.Declaration
