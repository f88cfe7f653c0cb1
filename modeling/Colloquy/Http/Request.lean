import Colloquy.Text.Utf8

/-!
# Requests

What a client asks: a method, a target, headers and a body. The values of headers are bytes. A
value can be read as a text if all of its bytes are visible characters of ASCII, blanks or tabs; of
several headers of one name the first counts.
-/

set_option autoImplicit false

namespace Colloquy.Http

/-- What a client asks. -/
structure Request where
  method : String
  /-- The target, as it stands on the request line. -/
  target : String
  /-- The headers, in the order in which they were sent. -/
  headers : List (String × Bytes)
  body : Bytes
  deriving DecidableEq, Repr, Inhabited

namespace Request

/-- The value of the first header of a name, which is given in lower case. -/
def header? (r : Request) (name : String) : Option Bytes :=
  (r.headers.find? fun h => h.1.toLower == name).map (·.2)

/-- Whether a byte may stand in a header that is read as a text. -/
def isReadable (b : UInt8) : Bool :=
  (0x20 ≤ b && b < 0x7f) || b = 0x09

/-- The text of a header value. -/
def readable? (value : Bytes) : Option String :=
  if value.all isReadable then some (String.ofList (value.map fun b => Char.ofNat b.toNat))
  else none

/-- The text of the first header of a name. -/
def text? (r : Request) (name : String) : Option String :=
  (r.header? name).bind readable?

/-- What stands in a target behind the scheme and the authority, if there are any. -/
def withoutAuthority : List Char → List Char
  | '/' :: rest => '/' :: rest
  | target =>
    match target.dropWhile (· ≠ ':') with
    | ':' :: '/' :: '/' :: rest => rest.dropWhile fun c => c ≠ '/' && c ≠ '?' && c ≠ '#'
    | _ => target

/-- The path of the target: what stands in front of the query and the fragment. -/
def path (r : Request) : String :=
  match (withoutAuthority r.target.toList).takeWhile fun c => c ≠ '?' && c ≠ '#' with
  | [] => "/"
  | path => String.ofList path

end Request

end Colloquy.Http
