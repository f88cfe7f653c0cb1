import Colloquy.Shape.Writer

/-!
# Responses

What the service answers: a status, the two headers that a client may rely on, and a body.
-/

set_option autoImplicit false

namespace Colloquy.Http

/-- An answer of the service. -/
structure Response where
  status : Nat
  /-- The media type of the body. -/
  contentType : Option String
  /-- The methods that the path is served with. -/
  allow : Option String
  body : String
  deriving DecidableEq, Repr, Inhabited

namespace Response

/-- An answer whose body is a JSON text. -/
def ofText (status : Nat) (body : String) : Response :=
  { status, contentType := some "application/json", allow := none, body }

/-- An answer whose body is the JSON text of a value. -/
def json {α : Type} [Encoded α] (status : Nat) (body : α) : Response :=
  ofText status (Encoded.encode body)

/-- An answer without a body. -/
def bare (status : Nat) : Response :=
  { status, contentType := none, allow := none, body := "" }

end Response

end Colloquy.Http
