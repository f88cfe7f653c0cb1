import Colloquy.Dictionary
import Colloquy.Json.Value

/-!
# Shapes

A shape says which JSON texts a type of this library is read from and written to. A `Shape` is
data: the reader (`Colloquy.Shape.Reader`), the writer (`Colloquy.Shape.Writer`) and the reader of
layered settings (`Colloquy.Settings.Layered`) are functions on it, so what holds of one of them is
shown by one induction for all the types at once. `Shape.Carrier` is the type of the values of a
shape, and `Encoded` ties a structure to the shape that it is written in.
-/

set_option autoImplicit false

namespace Colloquy

mutual

/-- The form of the values of a type. -/
inductive Shape
  /-- A text; `expected` is what messages call it. -/
  | text (expected : String)
  | flag
  /-- A natural number of sixteen bits. -/
  | short
  /-- A natural number of sixty-four bits. -/
  | word
  | number
  | value
  | optional (inner : Shape)
  | list (item : Shape)
  | dictionary (item : Shape)
  /-- An object with fixed names, or the list of its fields in order. Where it is `lenient`,
  every field that is left out is blank. -/
  | record (name : String) (lenient : Bool) (fields : Fields)

/-- The fields of a record, in their order. -/
inductive Fields
  | nil
  /-- A field in front of others. -/
  | cons (name : String) (shape : Shape) (rest : Fields)

end

mutual

/-- The values of a shape. -/
@[reducible] def Shape.Carrier : Shape → Type
  | .text _ => String
  | .flag => Bool
  | .short => UInt16
  | .word => UInt64
  | .number => Json.Number
  | .value => Json.Value
  | .optional inner => Option inner.Carrier
  | .list item => List item.Carrier
  | .dictionary item => Dictionary item.Carrier
  | .record _ _ fields => fields.Carrier

/-- The values of the fields of a record, one after the other. -/
@[reducible] def Fields.Carrier : Fields → Type
  | .nil => Unit
  | .cons _ shape rest => shape.Carrier × rest.Carrier

end

mutual

/-- The value of a field that is left out of a lenient record. -/
def Shape.blank : (shape : Shape) → shape.Carrier
  | .text _ => ""
  | .flag => false
  | .short => 0
  | .word => 0
  | .number => .integer 0
  | .value => .null
  | .optional _ => none
  | .list _ => []
  | .dictionary _ => Dictionary.empty
  | .record _ _ fields => fields.blank

/-- The values of the fields of a record of which all are left out. -/
def Fields.blank : (fields : Fields) → fields.Carrier
  | .nil => ()
  | .cons _ shape rest => (shape.blank, rest.blank)

end

/-- The number of the fields of a record. -/
def Fields.count : Fields → Nat
  | .nil => 0
  | .cons _ _ rest => rest.count + 1

/-- The text shape of a plain text. -/
abbrev Shape.string : Shape := .text "a string"

/-- A type whose values are written in a shape. -/
class Encoded (α : Type) where
  shape : Shape
  /-- The value of the shape that stands for a value of the type. -/
  pack : α → shape.Carrier
  /-- The value of the type that a value of the shape stands for. -/
  unpack : shape.Carrier → α
  /-- Nothing is lost in the shape. -/
  unpack_pack : ∀ a, unpack (pack a) = a

end Colloquy
