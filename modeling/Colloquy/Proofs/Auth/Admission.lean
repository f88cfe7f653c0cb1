import Colloquy.Auth.Authenticator
import Colloquy.Proofs.Auth.Showing

/-!
# Who is admitted

`AuthSettings.Admits` says whom settings take for which user: the holder of a key that is set for
the user of its last entry, and, while there is a secret, the bearer of a good token for the user
that the token names. The authenticator of the settings finds exactly these users
(`authenticate_eq_ok_iff`), and whomever it refuses is told that they are not authenticated
(`ofAuthFailure_of_refused`).
-/

set_option autoImplicit false

namespace Colloquy

/-- What is shown is taken as that of a user. -/
inductive AuthSettings.Admits (settings : AuthSettings) (now : UInt64) : Shown → Identity → Prop
  /-- Of several entries of one key the last counts. -/
  | key {text : String} {before behind : List KeySettings} {entry : KeySettings}
    (hkeys : settings.keys = before ++ entry :: behind) (hentry : entry.key = text)
    (hlast : ∀ other ∈ behind, other.key ≠ text) :
    Admits settings now (.key text) ⟨entry.userId, entry.username⟩
  | token {text : String} {claims : Token.Claims} (hsecret : settings.tokenSecret ≠ "")
    (hverify : (Token.Signer.ofSettings settings).verify now (Utf8.encode text) = .ok claims) :
    Admits settings now (.token text) ⟨claims.subject, claims.username⟩

namespace KeyRing

/-- The user of a key is the one of its last entry. -/
theorem find?_eq_some_iff {keys : KeyRing} {key : String} {identity : Identity} :
    keys.find? key = some identity ↔
      ∃ before behind, keys = before ++ (key, identity) :: behind ∧
        ∀ entry ∈ behind, entry.1 ≠ key := by
  unfold find?
  rw [List.lookup_eq_some_iff]
  constructor
  · rintro ⟨front, back, hkeys, hfront⟩
    refine ⟨back.reverse, front.reverse, ?_, ?_⟩
    · rw [← List.reverse_reverse keys, hkeys]
      simp
    · intro entry hentry
      exact (bne_iff_ne.1 (hfront entry (List.mem_reverse.1 hentry))).symm
  · rintro ⟨before, behind, rfl, hbehind⟩
    refine ⟨behind.reverse, before.reverse, by simp, ?_⟩
    intro entry hentry
    exact bne_iff_ne.2 (hbehind entry (List.mem_reverse.1 hentry)).symm

/-- The user of a key that is set is the one of its last entry. -/
theorem find?_ofSettings_iff {settings : AuthSettings} {key : String} {identity : Identity} :
    (ofSettings settings).find? key = some identity ↔
      ∃ before entry behind, settings.keys = before ++ entry :: behind ∧ entry.key = key ∧
        (∀ other ∈ behind, other.key ≠ key) ∧ identity = ⟨entry.userId, entry.username⟩ := by
  rw [find?_eq_some_iff]
  unfold ofSettings
  constructor
  · rintro ⟨front, back, hkeys, hback⟩
    obtain ⟨before, rest, heq, _, hrest⟩ := List.map_eq_append_iff.1 hkeys
    obtain ⟨entry, behind, rfl, hentry, rfl⟩ := List.map_eq_cons_iff.1 hrest
    obtain ⟨hkey, hidentity⟩ := Prod.mk.inj hentry
    refine ⟨before, entry, behind, heq, hkey, ?_, hidentity.symm⟩
    intro other hother
    exact hback _ (List.mem_map_of_mem hother)
  · rintro ⟨before, entry, behind, heq, rfl, hlast, rfl⟩
    refine ⟨_, _, by rw [heq, List.map_append, List.map_cons], ?_⟩
    intro other hother
    obtain ⟨setting, hsetting, rfl⟩ := List.mem_map.1 hother
    exact hlast setting hsetting

end KeyRing

namespace Authenticator

variable {settings : AuthSettings} (henabled : settings.enabled = true)

include henabled

/-- A key is looked up among the keys that are listed, if any is. -/
theorem authenticate_key (now : UInt64) (text : String) :
    (ofSettings settings).authenticate now (Shown.key text).credentials =
      if settings.keys.isEmpty then .error .notTaken
      else match (KeyRing.ofSettings settings).find? text with
        | none => .error .unknownKey
        | some identity => .ok identity := by
  unfold ofSettings
  rw [if_pos henabled]
  by_cases hkeys : settings.keys.isEmpty = true
  · rw [if_pos hkeys, if_pos hkeys]
    split <;> rfl
  · rw [if_neg hkeys, if_neg hkeys]
    rfl

/-- A token is verified with the secret, if there is one. -/
theorem authenticate_token (now : UInt64) (text : String) :
    (ofSettings settings).authenticate now (Shown.token text).credentials =
      if settings.tokenSecret = "" then .error .notTaken
      else match (Token.Signer.ofSettings settings).verify now (Utf8.encode text) with
        | .error refusal => .error (.refusedToken refusal)
        | .ok claims => .ok ⟨claims.subject, claims.username⟩ := by
  unfold ofSettings
  rw [if_pos henabled]
  by_cases hsecret : settings.tokenSecret = ""
  · rw [if_pos hsecret, if_pos hsecret]
    split <;> rfl
  · rw [if_neg hsecret, if_neg hsecret]
    split <;> rfl

/-- A request that shows nothing is refused. -/
theorem authenticate_nothing (now : UInt64) :
    (ofSettings settings).authenticate now Shown.nothing.credentials = .error .nothingShown := by
  unfold ofSettings
  rw [if_pos henabled]
  rfl

/-- The users that are found are those that the settings admit. -/
theorem authenticate_eq_ok_iff {now : UInt64} {shown : Shown} {identity : Identity} :
    (ofSettings settings).authenticate now shown.credentials = .ok identity ↔
      settings.Admits now shown identity := by
  cases shown with
  | key text =>
    rw [authenticate_key henabled]
    constructor
    · intro h
      split at h
      · exact nomatch h
      · split at h
        · exact nomatch h
        · next user hfind =>
          obtain rfl := Except.ok.inj h
          obtain ⟨before, entry, behind, hkeys, hentry, hlast, rfl⟩ :=
            KeyRing.find?_ofSettings_iff.1 hfind
          exact .key hkeys hentry hlast
    · intro h
      cases h with
      | key hkeys hentry hlast =>
        have hsome : ¬settings.keys.isEmpty = true := by simp [hkeys]
        rw [if_neg hsome, KeyRing.find?_ofSettings_iff.2 ⟨_, _, _, hkeys, hentry, hlast, rfl⟩]
  | token text =>
    rw [authenticate_token henabled]
    constructor
    · intro h
      split at h
      · exact nomatch h
      · next hsecret =>
        split at h
        · exact nomatch h
        · next claims hverify =>
          obtain rfl := Except.ok.inj h
          exact .token hsecret hverify
    · intro h
      cases h with
      | token hsecret hverify => rw [if_neg hsecret, hverify]
  | nothing =>
    rw [authenticate_nothing henabled]
    constructor
    · exact nofun
    · exact nofun

/-- Whoever is refused is told why, as a caller who is not known. -/
theorem ofAuthFailure_of_refused {now : UInt64} {shown : Shown} {failure : AuthFailure}
    (h : (ofSettings settings).authenticate now shown.credentials = .error failure) :
    Fault.ofAuthFailure failure = .unauthenticated failure.message := by
  cases shown with
  | key text =>
    rw [authenticate_key henabled] at h
    split at h
    · obtain rfl := Except.error.inj h
      rfl
    · split at h
      · obtain rfl := Except.error.inj h
        rfl
      · exact nomatch h
  | token text =>
    rw [authenticate_token henabled] at h
    split at h
    · obtain rfl := Except.error.inj h
      rfl
    · split at h
      · obtain rfl := Except.error.inj h
        rfl
      · exact nomatch h
  | nothing =>
    rw [authenticate_nothing henabled] at h
    obtain rfl := Except.error.inj h
    rfl

end Authenticator

end Colloquy
