import Colloquy.Shape.Writer

/-!
# Identities

Who a caller is. Where callers need not identify themselves they are all the same anonymous user.
-/

set_option autoImplicit false

namespace Colloquy

/-- A user of the service. -/
structure Identity where
  userId : String
  username : String
  deriving DecidableEq, Repr, Inhabited

/-- How an identity is read and written. -/
instance : Encoded Identity where
  shape := .record "Identity" false (.cons "user_id" .string <| .cons "username" .string .nil)
  pack i := (i.userId, i.username, ())
  unpack := fun (userId, username, ()) => ⟨userId, username⟩
  unpack_pack _ := rfl

/-- The user that every caller is while callers need not identify themselves. -/
def Identity.anonymous : Identity :=
  ⟨"00000000-0000-0000-0000-000000000000", "anonymous"⟩

/-- What a caller is told about itself. -/
structure Caller where
  userId : String
  username : String
  deriving DecidableEq, Repr, Inhabited

/-- How a caller is read and written. -/
instance : Encoded Caller where
  shape := .record "AuthorizationResponse" false
    (.cons "user_id" .string <| .cons "username" .string .nil)
  pack c := (c.userId, c.username, ())
  unpack := fun (userId, username, ()) => ⟨userId, username⟩
  unpack_pack _ := rfl

/-- What a user is told about itself. -/
def Identity.toCaller (i : Identity) : Caller :=
  ⟨i.userId, i.username⟩

end Colloquy
