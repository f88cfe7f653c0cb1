import Colloquy.Text.Utf8

/-!
# Credentials

What a caller shows to identify itself: a key or a token. An `Authorization` header begins with the
word that says which; a header that begins otherwise shows nothing. The word is followed by one
blank, and all that comes behind it belongs to the key or the token, also when it is empty.
-/

set_option autoImplicit false

namespace Colloquy

/-- What a caller shows to identify itself. -/
structure Credentials where
  key : Option String
  token : Option String
  deriving DecidableEq, Repr, Inhabited

namespace Credentials

/-- Nothing is shown. -/
def none : Credentials :=
  ⟨Option.none, Option.none⟩

/-- Whether nothing is shown. -/
def isEmpty (c : Credentials) : Bool :=
  c.key.isNone && c.token.isNone

/-- A text behind another one that it begins with. -/
def behind? (front text : String) : Option String :=
  if front.toList.isPrefixOf text.toList then
    some (String.ofList (text.toList.drop front.toList.length))
  else Option.none

/-- What an `Authorization` header shows. -/
def ofAuthorization (header : String) : Credentials :=
  match behind? "ApiKey " header with
  | some key => ⟨some key, Option.none⟩
  | Option.none =>
    match behind? "Bearer " header with
    | some token => ⟨Option.none, some token⟩
    | Option.none => none

/-- What an `X-API-Key` header shows. -/
def ofKeyHeader (header : String) : Credentials :=
  ⟨some header, Option.none⟩

end Credentials

end Colloquy
