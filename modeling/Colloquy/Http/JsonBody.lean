import Colloquy.Http.MediaType
import Colloquy.Http.Request
import Colloquy.Shape.Reader

/-!
# JSON bodies

The value that the body of a request is. The headers must say that it is a JSON text, it must not
be too long, and its first value must be of the wanted form; what follows that value is ignored.
-/

set_option autoImplicit false

namespace Colloquy.Http

/-- Why the body of a request is not the value that is wanted. -/
inductive BodyFlaw
  /-- The headers do not say that it is a JSON text. -/
  | otherMediaType
  | tooLong
  | unreadable (error : Json.Error)
  deriving DecidableEq, Repr, Inhabited

/-- The wording of a flaw. -/
def BodyFlaw.message : BodyFlaw → String
  | otherMediaType => "Expected request with `Content-Type: application/json`"
  | tooLong => "Failed to buffer the request body: length limit exceeded"
  | unreadable error =>
    (if error.cause.isData then "Failed to deserialize the JSON body into the target type: "
      else "Failed to parse the request body as JSON: ") ++ error.messageWithPath

/-- The number of bytes of the longest body that is read. -/
def bodyLimit : Nat :=
  2 * 1024 * 1024

namespace Request

/-- Whether the headers say that the body is a JSON text. -/
def announcesJson (r : Request) : Bool :=
  ((r.text? "content-type").bind MediaType.parse?).any MediaType.isJson

/-- The value that the body is. -/
def readJson (α : Type) [Encoded α] (r : Request) : Except BodyFlaw α :=
  if !r.announcesJson then .error .otherMediaType
  else if bodyLimit < r.body.length then .error .tooLong
  else (Encoded.decodeFirst r.body).mapError .unreadable

end Request

end Colloquy.Http
