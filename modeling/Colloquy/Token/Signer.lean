import Colloquy.Auth.Identity
import Colloquy.Text.Quoted
import Colloquy.Token.Base64Url
import Colloquy.Token.Claims
import Colloquy.Token.Header
import Colloquy.Token.Sha256

/-!
# Tokens

A token is three texts in base64, with points between them: a header, the claims, and a keyed hash
of what stands in front of it. A `Signer` issues tokens and accepts those that were issued with its
own secret, by its own issuer, for its own audience, and that have not expired for more than a
minute. The time is an argument.
-/

set_option autoImplicit false

namespace Colloquy.Token

/-- Why a token is not accepted. -/
inductive Refusal
  /-- It does not consist of three parts. -/
  | malformed
  /-- A part of it is not base64. -/
  | base64 (flaw : Base64Url.Flaw)
  /-- The header or the claims cannot be read. -/
  | json (error : Json.Error)
  /-- It is signed in another way. -/
  | otherAlgorithm
  /-- It is signed with another secret. -/
  | wrongSignature
  | expired
  /-- It was issued by someone else. -/
  | otherIssuer
  | otherAudience
  deriving DecidableEq, Repr, Inhabited

/-- The wording of a refusal. -/
def Refusal.message : Refusal → String
  | malformed => "InvalidToken"
  | base64 flaw => "Base64 error: " ++ flaw.message
  | json error => "JSON error: " ++ error.message
  | otherAlgorithm => "InvalidAlgorithm"
  | wrongSignature => "InvalidSignature"
  | expired => "ExpiredSignature"
  | otherIssuer => "InvalidIssuer"
  | otherAudience => "InvalidAudience"

/-- Who issues and accepts tokens. -/
structure Signer where
  /-- The secret that tokens are signed with. -/
  secret : String
  issuer : String
  audience : String
  deriving DecidableEq, Repr, Inhabited

/-- For how many seconds a token is accepted after it has expired. -/
def leeway : Nat := 60

/-- What stands in front of the last point of a text, and what stands behind it. -/
def splitAtLastPoint (s : Bytes) : Option (Bytes × Bytes) :=
  let behind := s.reverse.takeWhile (· ≠ Ascii.point)
  match s.reverse.dropWhile (· ≠ Ascii.point) with
  | [] => none
  | _ :: front => some (front.reverse, behind.reverse)

namespace Signer

/-- The signer of a service in development. -/
def development : Signer :=
  ⟨"dev-secret-change-in-production-min-32-chars", "parley", "parley-api"⟩

/-- What may be shown of a signer, which is all but the secret. -/
def describe (signer : Signer) : String :=
  "JwtAuth \x7b issuer: " ++ Quoted.quote signer.issuer ++ ", audience: " ++
    Quoted.quote signer.audience ++ " \x7d"

/-- The signature of some bytes, in base64. -/
def signature (signer : Signer) (message : Bytes) : Bytes :=
  Base64Url.encode (Sha256.hmac (Utf8.encode signer.secret) message)

/-- The claims of a token about a user that is issued at `now` and expires after
`expirySeconds`, or at the end of time if that comes first. -/
def claims (signer : Signer) (now : UInt64) (identity : Identity) (expirySeconds : UInt64) :
    Claims where
  subject := identity.userId
  username := identity.username
  expiry := UInt64.ofNat (min (now.toNat + expirySeconds.toNat) (Nat.pow 2 64 - 1))
  issuedAt := now
  issuer := signer.issuer
  audience := signer.audience

/-- The part of a token that is signed. -/
def signedPart (claims : Claims) : Bytes :=
  Base64Url.encode (Utf8.encode ownHeader) ++ Ascii.point ::
    Base64Url.encode (Utf8.encode (Encoded.encode claims))

/-- The token of some claims. -/
def sign (signer : Signer) (claims : Claims) : Bytes :=
  signedPart claims ++ Ascii.point :: signer.signature (signedPart claims)

/-- Issues a token about a user. -/
def issue (signer : Signer) (now : UInt64) (identity : Identity) (expirySeconds : UInt64) :
    Bytes :=
  signer.sign (signer.claims now identity expirySeconds)

/-- Checks the time, the issuer and the audience of some claims, in this order. -/
def checkClaims (signer : Signer) (now : UInt64) (claims : Claims) : Except Refusal Claims :=
  if claims.expiry.toNat < now.toNat - leeway then .error .expired
  else if claims.issuer ≠ signer.issuer then .error .otherIssuer
  else if claims.audience ≠ signer.audience then .error .otherAudience
  else .ok claims

/-- The bytes of a part of a token. -/
def decodePart (part : Bytes) : Except Refusal Bytes :=
  (Base64Url.decode part).mapError .base64

/-- The claims of a token that is accepted at `now`. -/
def verify (signer : Signer) (now : UInt64) (token : Bytes) : Except Refusal Claims :=
  match splitAtLastPoint token with
  | none => .error .malformed
  | some (message, signature) =>
    match splitAtLastPoint message with
    | none => .error .malformed
    | some (header, payload) => do
      let header ← decodePart header
      let algorithm ← (Json.decode readHeader header).mapError .json
      if algorithm ≠ ownAlgorithm then .error .otherAlgorithm
      else
        let signature ← decodePart signature
        if signature ≠ Sha256.hmac (Utf8.encode signer.secret) message then .error .wrongSignature
        else
          let payload ← decodePart payload
          let claims ← (Claims.read payload).mapError .json
          signer.checkClaims now claims

end Signer

end Colloquy.Token
