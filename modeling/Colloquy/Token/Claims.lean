import Colloquy.Shape.Reader
import Colloquy.Shape.Writer

/-!
# Claims

What a token says: about whom, by whom, for whom, and from when to when. Times are seconds since
the start of 1970. A payload is read twice. The first reading delivers the claims. The second one
looks at the member `nbf`, which this service does not use but which may come only once and is
entered no further than to see its kind; what is left inside a list or an object then stands where
the next member should.
-/

set_option autoImplicit false

namespace Colloquy.Token

open Json

/-- The content of a token. -/
structure Claims where
  subject : String
  username : String
  expiry : UInt64
  issuedAt : UInt64
  issuer : String
  audience : String
  deriving DecidableEq, Repr, Inhabited

namespace Claims

/-- The members of a payload but the last. -/
def fields (last : Fields) : Fields :=
  .cons "sub" .string <| .cons "preferred_username" .string <| .cons "exp" .word <|
    .cons "iat" .word <| .cons "iss" .string last

/-- All members of a payload. -/
def allFields : Fields :=
  fields (.cons "aud" .string .nil)

/-- How claims are read and written. -/
instance : Encoded Claims where
  shape := .record "Claims" false allFields
  pack c := (c.subject, c.username, c.expiry, c.issuedAt, c.issuer, c.audience, ())
  unpack := fun (subject, username, expiry, issuedAt, issuer, audience, ()) =>
    ⟨subject, username, expiry, issuedAt, issuer, audience⟩
  unpack_pack _ := rfl

/-- The member that the second reading looks at. -/
def startMember : String :=
  "nbf"

/-- Looks at a value of any kind: a text, a number or a literal is read, as far as it can be, and
a list or an object is left behind its opening bracket. -/
def glance : Reader Unit := atValue fun bound b rest h =>
  have give (left : Bytes) (hl : left.length ≤ rest.length) : Scanned Unit bound :=
    ⟨(), left, Nat.lt_of_le_of_lt hl h⟩
  if b = Ascii.openBracket then .ok (give (leaveList rest) (length_leaveList_le rest))
  else if b = Ascii.openBrace then .ok (give (leaveObject rest) (length_leaveObject_le rest))
  else
    match readValueWith none (b :: rest) with
    | .ok x => .ok ((x.weaken h).map fun _ => ())
    | .error e =>
      if e.cause = .invalidCodePoint then skipString bound rest h
      else .ok (give (rest.drop (rest.length - e.left)) (by simp))

/-- What a name does in the second reading, beside the members that have been read. -/
def enterAgain (depth : Nat) (state : Bool × allFields.Slots) (name : String) :
    Admission (Bool × allFields.Slots) :=
  if name = startMember then
    if state.1 then .refused (.duplicateField name)
    else .admitted fun s => (glance s).map (·.map fun _ => (true, state.2))
  else
    match allFields.enter depth name state.2 with
    | .refused cause => .refused cause
    | .admitted value => .admitted fun s => (value s).map (·.map fun slots => (state.1, slots))

/-- The second reading of a payload that has been read once. A list has one item more than it
wants. -/
def readAgain : Reader Unit := atValue fun bound b rest h =>
  if b = Ascii.openBrace then
    (readMembers (enterAgain (depthLimit - 1)) bound true (false, allFields.noSlots) rest h).map
      (·.map fun _ => ())
  else
    ((fields .nil).readList false (recordLength "ClaimsForValidation" 5) (depthLimit - 1) 0 bound
      rest h).map (·.map fun _ => ())

/-- The claims of a payload. -/
def read (payload : Bytes) : Except Json.Error Claims := do
  let claims ← Encoded.decode payload
  Json.decode readAgain payload
  return claims

end Claims

end Colloquy.Token
