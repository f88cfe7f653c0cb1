import Colloquy.Proofs.Token.IssuedToken
import Mathlib.Algebra.Group.Nat.Defs

/-!
# Who accepts an issued token

A token that one signer has issued is shown to another one with the same secret. It is accepted
exactly until a minute after its expiry, by a signer of the same issuer and for the same audience,
and nothing of what it says is lost on the way: `Signer.accepts_issued_iff`. The expiry is the time
of the issue and the seconds that were asked for, or the last moment that sixty-four bits can tell
(`expiry_claims`).
-/

set_option autoImplicit false

namespace Colloquy.Token

namespace Signer

/-- What is signed depends on the secret of the signer only. -/
theorem sign_eq_of_secret_eq {sender receiver : Signer} (h : sender.secret = receiver.secret)
    (claims : Claims) : sender.sign claims = receiver.sign claims := by
  unfold sign signature
  rw [h]

/-- Claims pass the checks of time, issuer and audience as they are. -/
theorem checkClaims_eq_ok_iff {signer : Signer} {now : UInt64} {claims passed : Claims} :
    signer.checkClaims now claims = .ok passed ↔
      (now.toNat ≤ claims.expiry.toNat + leeway ∧ claims.issuer = signer.issuer ∧
        claims.audience = signer.audience) ∧ passed = claims := by
  unfold checkClaims
  by_cases hexpired : claims.expiry.toNat < now.toNat - leeway
  · rw [if_pos hexpired]
    refine iff_of_false nofun ?_
    rintro ⟨⟨hnow, _⟩, _⟩
    omega
  · have hnow : now.toNat ≤ claims.expiry.toNat + leeway := by omega
    rw [if_neg hexpired]
    by_cases hissuer : claims.issuer = signer.issuer
    · by_cases haudience : claims.audience = signer.audience
      · rw [if_neg (Decidable.not_not.2 hissuer), if_neg (Decidable.not_not.2 haudience)]
        constructor
        · intro hpassed
          exact ⟨⟨hnow, hissuer, haudience⟩, (Except.ok.inj hpassed).symm⟩
        · rintro ⟨_, rfl⟩
          rfl
      · rw [if_neg (Decidable.not_not.2 hissuer), if_pos haudience]
        exact iff_of_false nofun fun h => haudience h.1.2.2
    · rw [if_pos hissuer]
      exact iff_of_false nofun fun h => hissuer h.1.2.1

/-- The expiry of an issued token, which does not go beyond the last moment. -/
theorem expiry_claims (signer : Signer) (issuedAt : UInt64) (identity : Identity)
    (expirySeconds : UInt64) :
    (signer.claims issuedAt identity expirySeconds).expiry.toNat =
      min (issuedAt.toNat + expirySeconds.toNat) (2 ^ 64 - 1) := by
  have hlast : 2 ^ 64 - 1 < 2 ^ 64 := by decide
  have hfits : min (issuedAt.toNat + expirySeconds.toNat) (2 ^ 64 - 1) < 2 ^ 64 :=
    Nat.lt_of_le_of_lt (Nat.min_le_right _ _) hlast
  exact UInt64.toNat_ofNat_of_lt' hfits

/-- The claims of an issued token, part by part. -/
theorem eq_claims_iff {signer : Signer} {issuedAt expirySeconds : UInt64} {identity : Identity}
    {claims : Claims} :
    claims = signer.claims issuedAt identity expirySeconds ↔
      claims.subject = identity.userId ∧ claims.username = identity.username ∧
      claims.issuer = signer.issuer ∧ claims.audience = signer.audience ∧
      claims.issuedAt = issuedAt ∧
      claims.expiry.toNat = min (issuedAt.toNat + expirySeconds.toNat) (2 ^ 64 - 1) := by
  have hexpiry := signer.expiry_claims issuedAt identity expirySeconds
  constructor
  · rintro rfl
    exact ⟨rfl, rfl, rfl, rfl, rfl, hexpiry⟩
  · obtain ⟨subject, username, expiry, start, issuer, audience⟩ := claims
    rintro ⟨hsubject, husername, hissuer, haudience, hstart, hequal⟩
    have hsame : expiry = (signer.claims issuedAt identity expirySeconds).expiry :=
      UInt64.toNat_inj.1 (hequal.trans hexpiry.symm)
    simp only at hsubject husername hissuer haudience hstart
    rw [hsubject, husername, hissuer, haudience, hstart, hsame]
    rfl

/-- The user of a token that is shown is the one that its claims are about. -/
theorem authenticate_eq_ok_iff {signer : Signer} {now : UInt64} {key : Option String}
    {text : String} {identity : Identity} :
    (Authenticator.tokens signer).authenticate now ⟨key, some text⟩ = .ok identity ↔
      ∃ claims, signer.verify now (Utf8.encode text) = .ok claims ∧
        identityOf claims = identity := by
  show signer.authenticate now ⟨key, some text⟩ = .ok identity ↔ _
  unfold authenticate
  cases hverify : signer.verify now (Utf8.encode text) with
  | error refusal => exact iff_of_false (by simp [hverify]) (by simp)
  | ok claims => simp [hverify]

/-- A token that was issued is accepted by a signer with the same secret exactly if it expired no
more than a minute ago and the signers agree on the issuer and the audience. The claims that are
read from it are exactly those that it was issued with, so the user that it is shown for is the one
that it was issued for. -/
theorem accepts_issued_iff (secret issuer audience issuer' audience' : String)
    (identity : Identity) (issuedAt expirySeconds now : UInt64) :
    let sender : Signer := ⟨secret, issuer, audience⟩
    let receiver : Signer := ⟨secret, issuer', audience'⟩
    let token := sender.issue issuedAt identity expirySeconds
    let expiry := min (issuedAt.toNat + expirySeconds.toNat) (2 ^ 64 - 1)
    let accepted := now.toNat ≤ expiry + 60 ∧ issuer = issuer' ∧ audience = audience'
    ((∃ claims, receiver.verify now token = .ok claims) ↔ accepted) ∧
      (∀ claims, receiver.verify now token = .ok claims ↔
        accepted ∧ claims.subject = identity.userId ∧ claims.username = identity.username ∧
          claims.issuer = issuer ∧ claims.audience = audience ∧ claims.issuedAt = issuedAt ∧
          claims.expiry.toNat = expiry) ∧
      ∃ text, Utf8.encode text = token ∧ ∀ key user,
        (Authenticator.tokens receiver).authenticate now ⟨key, some text⟩ = .ok user ↔
          accepted ∧ user = identity := by
  intro sender receiver token expiry accepted
  have hclaims (claims : Claims) : receiver.verify now token = .ok claims ↔
      accepted ∧ claims = sender.claims issuedAt identity expirySeconds := by
    have htoken : token = receiver.sign (sender.claims issuedAt identity expirySeconds) :=
      sign_eq_of_secret_eq rfl _
    rw [htoken, verify_sign, checkClaims_eq_ok_iff, expiry_claims]
    rfl
  have hexists : (∃ claims, receiver.verify now token = .ok claims) ↔ accepted := by
    constructor
    · rintro ⟨claims, hverify⟩
      exact ((hclaims claims).1 hverify).1
    · intro haccepted
      exact ⟨_, (hclaims _).2 ⟨haccepted, rfl⟩⟩
  refine ⟨hexists, ?_, ?_⟩
  · intro claims
    rw [hclaims, eq_claims_iff]
  · obtain ⟨text, htext⟩ := sender.exists_text (sender.claims issuedAt identity expirySeconds)
    refine ⟨text, htext, ?_⟩
    intro key user
    rw [authenticate_eq_ok_iff, htext]
    constructor
    · rintro ⟨claims, hverify, rfl⟩
      obtain ⟨haccepted, rfl⟩ := (hclaims claims).1 hverify
      exact ⟨haccepted, rfl⟩
    · rintro ⟨haccepted, rfl⟩
      exact ⟨_, (hclaims _).2 ⟨haccepted, rfl⟩, rfl⟩

end Signer

end Colloquy.Token
