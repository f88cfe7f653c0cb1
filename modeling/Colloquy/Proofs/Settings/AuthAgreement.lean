import Colloquy.Proofs.Auth.Admission
import Colloquy.Proofs.Token.IssuedToken
import Colloquy.Settings.Check

/-!
# The check of settings and the callers that they admit

Settings that want callers to identify themselves are checked for a way to do so, and that check
agrees with the authenticator of the settings: the check fails for want of a way exactly where the
authenticator refuses everyone (`Settings.check_agrees`). Where it does not, every key that is set
and, while there is a secret, every token that was issued with it is taken.
-/

set_option autoImplicit false

namespace Colloquy

/-- There is no way for callers to identify themselves, although they have to. -/
structure AuthSettings.Closed (settings : AuthSettings) : Prop where
  enabled : settings.enabled = true
  keys : settings.keys = []
  tokenSecret : settings.tokenSecret = ""

/-- With a port and a level, settings want a way exactly where there is none. -/
theorem Settings.check_eq_noAuthMethod_iff {settings : Settings} (hport : settings.server.port ≠ 0)
    (hlevel : Blank.isBlankText settings.logging.level = false) :
    settings.check = .error .noAuthMethod ↔ settings.auth.Closed := by
  have hlevel : ¬Blank.isBlankText settings.logging.level = true := by simp [hlevel]
  unfold Settings.check
  rw [if_neg hport, if_neg hlevel]
  constructor
  · intro h
    split at h
    · next hclosed =>
      simp only [Bool.and_eq_true, List.isEmpty_iff, decide_eq_true_eq] at hclosed
      exact ⟨hclosed.1.1, hclosed.1.2, hclosed.2⟩
    · split at h
      · exact nomatch h
      · exact nomatch h
  · intro hclosed
    simp [hclosed.enabled, hclosed.keys, hclosed.tokenSecret]

namespace Authenticator

variable {settings : AuthSettings}

/-- Without a way nobody is known. -/
theorem refuses_of_closed (h : settings.Closed) (now : UInt64) (c : Credentials) :
    ∃ failure, (ofSettings settings).authenticate now c = .error failure := by
  have hnothing : ofSettings settings = either none none := by
    unfold ofSettings
    simp [h.enabled, h.keys, h.tokenSecret]
  rw [hnothing]
  by_cases hempty : c.isEmpty = true
  · exact ⟨.nothingShown, if_pos hempty⟩
  · exact ⟨.notTaken, if_neg hempty⟩

/-- While callers need not identify themselves everyone is the anonymous user. -/
theorem authenticate_of_disabled (h : settings.enabled = false) (now : UInt64) (c : Credentials) :
    (ofSettings settings).authenticate now c = .ok Identity.anonymous := by
  have hanonymous : ofSettings settings = anonymous := by
    unfold ofSettings
    simp [h]
  rw [hanonymous]
  rfl

/-- A key that is set is that of the user of its last entry, whatever token is shown beside it. -/
theorem authenticate_entry (henabled : settings.enabled = true) {entry : KeySettings}
    (hentry : entry ∈ settings.keys) (now : UInt64) (token : Option String) :
    ∃ before last behind, settings.keys = before ++ last :: behind ∧ last.key = entry.key ∧
      (∀ other ∈ behind, other.key ≠ entry.key) ∧
      (ofSettings settings).authenticate now ⟨some entry.key, token⟩ =
        .ok ⟨last.userId, last.username⟩ := by
  have hkeys : ¬settings.keys.isEmpty = true := by
    intro hempty
    rw [List.isEmpty_iff.1 hempty] at hentry
    exact nomatch hentry
  have hring : (ofSettings settings).authenticate now ⟨some entry.key, token⟩ =
      (KeyRing.ofSettings settings).authenticate ⟨some entry.key, token⟩ := by
    unfold ofSettings
    rw [if_pos henabled, if_neg hkeys]
    rfl
  cases hfind : (KeyRing.ofSettings settings).find? entry.key with
  | none =>
    have hmem : (entry.key, (⟨entry.userId, entry.username⟩ : Identity)) ∈
        (KeyRing.ofSettings settings).reverse :=
      List.mem_reverse.2 (List.mem_map.2 ⟨entry, hentry, rfl⟩)
    have hnone := List.lookup_eq_none_iff.1 hfind _ hmem
    simp at hnone
  | some identity =>
    obtain ⟨before, last, behind, hsplit, hlast, hbehind, rfl⟩ :=
      KeyRing.find?_ofSettings_iff.1 hfind
    refine ⟨before, last, behind, hsplit, hlast, hbehind, ?_⟩
    rw [hring]
    unfold KeyRing.authenticate
    simp only [hfind]

/-- A token that was issued with the secret that is set is that of its user, until a minute after
its expiry. -/
theorem authenticate_issued (henabled : settings.enabled = true)
    (hsecret : settings.tokenSecret ≠ "") (identity : Identity)
    {issuedAt now expirySeconds : UInt64}
    (hnow : now.toNat ≤ issuedAt.toNat + expirySeconds.toNat + Token.leeway) :
    ∃ token, Utf8.encode token =
        (Token.Signer.ofSettings settings).issue issuedAt identity expirySeconds ∧
      (ofSettings settings).authenticate now ⟨none, some token⟩ = .ok identity := by
  let signer := Token.Signer.ofSettings settings
  obtain ⟨token, htoken⟩ := signer.exists_text (signer.claims issuedAt identity expirySeconds)
  refine ⟨token, htoken, ?_⟩
  have hauthenticate := authenticate_token henabled now token
  rw [if_neg hsecret, htoken] at hauthenticate
  have hverify := signer.verify_issue identity hnow
  unfold Token.Signer.issue at hverify
  rw [hverify] at hauthenticate
  exact hauthenticate

/-- Where there is a way, somebody is known. -/
theorem admits_of_not_closed (h : ¬settings.Closed) (now : UInt64) :
    ∃ c identity, (ofSettings settings).authenticate now c = .ok identity := by
  cases henabled : settings.enabled with
  | false => exact ⟨.none, _, authenticate_of_disabled henabled now .none⟩
  | true =>
    cases hkeys : settings.keys with
    | cons entry keys =>
      have hentry : entry ∈ settings.keys := hkeys ▸ List.mem_cons_self
      obtain ⟨_, last, _, _, _, _, hok⟩ := authenticate_entry henabled hentry now none
      exact ⟨_, _, hok⟩
    | nil =>
      have hsecret : settings.tokenSecret ≠ "" := fun hsecret => h ⟨henabled, hkeys, hsecret⟩
      have hnow : now.toNat ≤ now.toNat + (0 : UInt64).toNat + Token.leeway :=
        Nat.le_trans (Nat.le_add_right _ _) (Nat.le_add_right _ _)
      obtain ⟨token, _, hok⟩ := authenticate_issued henabled hsecret Identity.anonymous hnow
      exact ⟨_, _, hok⟩

end Authenticator

/-- With a port and a level, settings are refused for want of a way to identify callers exactly if
they refuse everyone, and settings that are accepted admit somebody. Unless they are refused for
that, everyone is the anonymous user while callers need not identify themselves; else every key that
is set is taken as that of the user of its last entry, and, while there is a secret, so is a token
that was issued with it for its user, whatever issuer and audience are set. -/
theorem Settings.check_agrees (settings : Settings) (hport : settings.server.port ≠ 0)
    (hlevel : Blank.isBlankText settings.logging.level = false) (now : UInt64) :
    let auth := settings.auth
    let authenticate := (Authenticator.ofSettings auth).authenticate now
    (settings.check = .error .noAuthMethod ↔ ∀ c, ∃ failure, authenticate c = .error failure) ∧
    (settings.check = .ok () → ∃ c identity, authenticate c = .ok identity) ∧
    (auth.enabled = false → ∀ c, authenticate c = .ok Identity.anonymous) ∧
    (auth.enabled = true →
      (∀ entry ∈ auth.keys, ∀ token, ∃ before last behind,
        auth.keys = before ++ last :: behind ∧ last.key = entry.key ∧
        (∀ other ∈ behind, other.key ≠ entry.key) ∧
        authenticate ⟨some entry.key, token⟩ = .ok ⟨last.userId, last.username⟩) ∧
      (auth.tokenSecret ≠ "" → ∀ identity issuedAt expirySeconds,
        now.toNat ≤ issuedAt.toNat + expirySeconds.toNat + Token.leeway →
        ∃ token, Utf8.encode token =
            Token.Signer.issue ⟨auth.tokenSecret, auth.tokenIssuer, auth.tokenAudience⟩ issuedAt
              identity expirySeconds ∧
          authenticate ⟨none, some token⟩ = .ok identity)) := by
  intro auth authenticate
  have hcheck := Settings.check_eq_noAuthMethod_iff hport hlevel
  refine ⟨?_, ?_, ?_, ?_⟩
  · rw [hcheck]
    constructor
    · intro hclosed c
      exact Authenticator.refuses_of_closed hclosed now c
    · intro hrefused
      by_contra hclosed
      obtain ⟨c, identity, hok⟩ := Authenticator.admits_of_not_closed hclosed now
      obtain ⟨failure, herror⟩ := hrefused c
      exact nomatch hok.symm.trans herror
  · intro haccepted
    refine Authenticator.admits_of_not_closed (fun hclosed => ?_) now
    exact nomatch haccepted.symm.trans (hcheck.2 hclosed)
  · intro hdisabled c
    exact Authenticator.authenticate_of_disabled hdisabled now c
  · intro henabled
    constructor
    · intro entry hentry token
      exact Authenticator.authenticate_entry henabled hentry now token
    · intro hsecret identity issuedAt expirySeconds hnow
      exact Authenticator.authenticate_issued henabled hsecret identity hnow

/-- Settings with a secret, and without a key, an issuer and an audience. -/
theorem Settings.check_agrees_secret_alone :
    let auth : AuthSettings :=
      { enabled := true, keys := [], tokenSecret := "s", tokenIssuer := "", tokenAudience := "" }
    let settings : Settings := { Settings.development with auth }
    settings.server.port ≠ 0 ∧ Blank.isBlankText settings.logging.level = false ∧
      settings.check = .ok () ∧
      ∃ token, Utf8.encode token = Token.Signer.issue ⟨"s", "", ""⟩ 7 ⟨"u1", "alice"⟩ 0 ∧
        (Authenticator.ofSettings auth).authenticate 67 ⟨none, some token⟩ =
          .ok ⟨"u1", "alice"⟩ := by
  intro auth settings
  have hport : settings.server.port ≠ 0 := by decide
  have hlevel : Blank.isBlankText settings.logging.level = false := by decide
  obtain ⟨_, _, _, henabled⟩ := settings.check_agrees hport hlevel 67
  exact ⟨hport, hlevel, by decide,
    (henabled rfl).2 (by decide) ⟨"u1", "alice"⟩ 7 0 (by decide)⟩

end Colloquy
