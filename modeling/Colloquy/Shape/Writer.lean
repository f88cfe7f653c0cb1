import Colloquy.Shape

/-!
# Writing values of a shape

The JSON value of a value of a shape. Records are written with all their fields in their order,
also where a field holds nothing; dictionaries in the order of their names.
-/

set_option autoImplicit false

namespace Colloquy

mutual

/-- The JSON value of a value of a shape. -/
def Shape.toJson : (shape : Shape) → shape.Carrier → Json.Value
  | .text _, t => .text t
  | .flag, b => .bool b
  | .short, n => .number (.integer n.toNat)
  | .word, n => .number (.integer n.toNat)
  | .number, n => .number n
  | .value, v => v
  | .optional _, none => .null
  | .optional inner, some x => inner.toJson x
  | .list item, xs => .list (xs.map item.toJson)
  | .dictionary item, d => .object (d.entries.map fun (name, x) => (name, item.toJson x))
  | .record _ _ fields, x => .object (fields.toMembers x)

/-- The members that the fields of a record are written as. -/
def Fields.toMembers : (fields : Fields) → fields.Carrier → List (String × Json.Value)
  | .nil, _ => []
  | .cons name shape rest, (x, xs) => (name, shape.toJson x) :: rest.toMembers xs

end

namespace Encoded

/-- The JSON value of a value. -/
def toJson {α : Type} [Encoded α] (a : α) : Json.Value :=
  (shape α).toJson (pack a)

/-- The compact JSON text of a value. -/
def encode {α : Type} [Encoded α] (a : α) : String :=
  (toJson a).render

end Encoded

end Colloquy
