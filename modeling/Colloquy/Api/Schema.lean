import Colloquy.Dictionary
import Colloquy.Json.Value

/-!
# Schemas

What is said about the JSON values of a type: which members an object has, of what kind their values
are, and which of them must be there. A `Schema` describes the value of a member, a `Definition` the
objects of a type; the values are written in the vocabulary of JSON Schema.
-/

set_option autoImplicit false

namespace Colloquy.Api

/-- A kind of JSON values. -/
inductive Kind
  | string
  | boolean
  | integer
  | array
  | object
  deriving DecidableEq, Repr, Inhabited

/-- The name of a kind. -/
def Kind.name : Kind → String
  | string => "string"
  | boolean => "boolean"
  | integer => "integer"
  | array => "array"
  | object => "object"

/-- What is said about a value. -/
inductive Schema
  /-- It is as the definition of a name says. -/
  | reference (name : String)
  /-- It is of a kind, perhaps in a format, or perhaps null. -/
  | kind (kind : Kind) (orNull : Bool) (format : Option String)
  /-- It is a list of such values, or perhaps null. -/
  | list (orNull : Bool) (items : Schema)
  /-- It is an object of any members, whose values are such values. -/
  | dictionary (values : Schema)
  deriving DecidableEq, Repr, Inhabited

/-- A member of an object. -/
structure Property where
  name : String
  description : Option String
  /-- What is said about its value. -/
  schema : Schema
  isRequired : Bool
  deriving DecidableEq, Repr, Inhabited

/-- Examples of a value. -/
inductive Examples
  | none
  | one (value : Json.Value)
  | some (values : List Json.Value)
  deriving Inhabited

/-- What is said about the objects of a type. -/
structure Definition where
  name : String
  description : Option String
  properties : List Property
  examples : Examples
  deriving Inhabited

/-- Where in a document the definition of a name stands. -/
def referenceTo (name : String) : String :=
  "#/components/schemas/" ++ name

open Json (Value)

/-- The member of a name, if there is a text for it. -/
def textMember (name : String) (text : Option String) : List (String × Value) :=
  match text with
  | .some text => [(name, .text text)]
  | .none => []

namespace Schema

/-- The kind of a value, to which null may belong. -/
def kindMember (kind : Kind) (orNull : Bool) : String × Value :=
  ("type", if orNull then .list [.text kind.name, .text "null"] else .text kind.name)

/-- The members of a schema as a JSON object, with a description of the value. -/
def members (description : Option String) : Schema → List (String × Value)
  | .reference name => ("$ref", .text (referenceTo name)) :: textMember "description" description
  | .kind k orNull format =>
    kindMember k orNull :: textMember "format" format ++ textMember "description" description
  | .list orNull items =>
    [kindMember .array orNull, ("items", .object (items.members none))] ++
      textMember "description" description
  | .dictionary values =>
    kindMember .object false :: textMember "description" description ++
      [ ("additionalProperties", .object (values.members none))
      , ("propertyNames", .object [kindMember .string false]) ]

end Schema

/-- The members of examples as a part of a JSON object. -/
def Examples.members : Examples → List (String × Value)
  | none => []
  | one e => [("example", e)]
  | some es => [("examples", .list es)]

/-- A definition as a JSON value: the members are listed in the order of their names. -/
def Definition.toJson (d : Definition) : Value :=
  .object <|
    [Schema.kindMember .object false] ++ textMember "description" d.description ++
      [ ("required", .list ((d.properties.filter (·.isRequired)).map fun p => .text p.name))
      , ("properties", .object
          (lastByName
            (d.properties.map fun p => (p.name, .object (p.schema.members p.description))))) ] ++
      d.examples.members

end Colloquy.Api
