import Colloquy.Auth.Credentials
import Colloquy.Service.Fault
import Colloquy.Settings
import Colloquy.Token.Signer

/-!
# Authenticators

How the user behind a request is found. An `Authenticator` is any function from credentials to
users. The ones of this library take callers as anonymous, or know them by a key, by a token, or by
either. Where both are possible, a key that is shown decides alone; a credential that is not taken
is not replaced by another one.
-/

set_option autoImplicit false

namespace Colloquy

/-- Why a caller is not known. -/
inductive AuthFailure
  /-- A key is wanted and none is shown. -/
  | noKey
  | unknownKey
  /-- A token is wanted and none is shown. -/
  | noToken
  | refusedToken (refusal : Token.Refusal)
  | nothingShown
  /-- What is shown is not taken here. -/
  | notTaken
  /-- The users cannot be looked up. -/
  | lookupFailed (fault : Fault)
  deriving DecidableEq, Repr, Inhabited

/-- The wording of a failure. -/
def AuthFailure.message : AuthFailure → String
  | noKey => "No API key provided"
  | unknownKey => "Invalid API key"
  | noToken => "No JWT token provided"
  | refusedToken refusal => "Invalid JWT token: " ++ refusal.message
  | nothingShown => "No auth header found"
  | notTaken => "No supported authentication method for the provided credentials"
  | lookupFailed fault => fault.message

/-- The fault of a caller who is not known. -/
def Fault.ofAuthFailure : AuthFailure → Fault
  | .lookupFailed fault => fault
  | failure => unauthenticated failure.message

/-- Keys and the users that they stand for; of entries of one key the last counts. -/
abbrev KeyRing := List (String × Identity)

namespace KeyRing

/-- The user that a key stands for. -/
def find? (keys : KeyRing) (key : String) : Option Identity :=
  List.lookup key keys.reverse

/-- The keys of a service in development. -/
def development : KeyRing :=
  [("dev-api-key", ⟨"123e4567-e89b-12d3-a456-426614174000", "user1"⟩)]

/-- The keys that are set. -/
def ofSettings (settings : AuthSettings) : KeyRing :=
  settings.keys.map fun entry => (entry.key, ⟨entry.userId, entry.username⟩)

/-- The user behind a key, if one is shown. -/
def authenticate (keys : KeyRing) (c : Credentials) : Except AuthFailure Identity :=
  match c.key with
  | none => .error .noKey
  | some key =>
    match keys.find? key with
    | none => .error .unknownKey
    | some identity => .ok identity

end KeyRing

namespace Token.Signer

/-- The user that claims are about. -/
def identityOf (claims : Claims) : Identity :=
  ⟨claims.subject, claims.username⟩

/-- The user behind a token, if one is shown. -/
def authenticate (signer : Signer) (now : UInt64) (c : Credentials) :
    Except AuthFailure Identity :=
  match c.token with
  | none => .error .noToken
  | some token =>
    match signer.verify now (Utf8.encode token) with
    | .error refusal => .error (.refusedToken refusal)
    | .ok claims => .ok (identityOf claims)

/-- The signer that is set. -/
def ofSettings (settings : AuthSettings) : Signer :=
  ⟨settings.tokenSecret, settings.tokenIssuer, settings.tokenAudience⟩

end Token.Signer

/-- How the user behind a request is found. -/
structure Authenticator where
  /-- The name of the way to find users. -/
  name : String
  /-- The user behind some credentials at the time `now`. -/
  authenticate : (now : UInt64) → Credentials → Except AuthFailure Identity

namespace Authenticator

/-- Every caller is the anonymous user. -/
def anonymous : Authenticator where
  name := "Noop"
  authenticate _ _ := .ok Identity.anonymous

/-- By a key. -/
def keys (ring : KeyRing) : Authenticator where
  name := "ApiKey"
  authenticate _ c := ring.authenticate c

/-- By a token. -/
def tokens (signer : Token.Signer) : Authenticator where
  name := "JWT"
  authenticate now c := signer.authenticate now c

/-- By a key or a token, as far as either is set up. -/
def either (ring : Option KeyRing) (signer : Option Token.Signer) : Authenticator where
  name := "Combined"
  authenticate now c :=
    if c.isEmpty then .error .nothingShown
    else
      match ring, c.key, signer, c.token with
      | some ring, some _, _, _ => ring.authenticate c
      | _, _, some signer, some _ => signer.authenticate now c
      | _, _, _, _ => .error .notTaken

/-- The way to find users of a service in development. -/
def development : Authenticator :=
  either (some KeyRing.development) (some Token.Signer.development)

/-- The way to find users that is set: keys if there are any, tokens if there is a secret. -/
def ofSettings (settings : AuthSettings) : Authenticator :=
  if settings.enabled then
    either
      (if settings.keys.isEmpty then none else some (KeyRing.ofSettings settings))
      (if settings.tokenSecret = "" then none else some (Token.Signer.ofSettings settings))
  else anonymous

end Authenticator

end Colloquy
