import Colloquy.Proofs.Service.Guarding
import Colloquy.Settings.Check

/-!
# Blank credentials

What becomes of callers who show nothing at all, or a key or a token without any text. They are not
known by what they show unless an entry of the settings has the empty key: no token is empty, but a
key is compared with those of the entries whatever they are (`AuthSettings.admits_blank_iff`). So a
service that wants its callers to identify themselves answers all of them with 401 if no entry has
the empty key, and only then (`Service.refuses_blank_iff`).
-/

set_option autoImplicit false

namespace Colloquy

/-- What is shown has no text. -/
inductive Shown.IsBlank : Shown → Prop
  | key : IsBlank (.key "")
  | token : IsBlank (.token "")
  | nothing : IsBlank .nothing

/-- The empty text is no token. -/
theorem Token.Signer.verify_empty (signer : Token.Signer) (now : UInt64) :
    signer.verify now (Utf8.encode "") = .error .malformed := by
  have hempty : Utf8.encode "" = [] := rfl
  rw [hempty]
  rfl

namespace AuthSettings

variable {settings : AuthSettings}

/-- Of the entries of a key that is set there is a last one. -/
theorem exists_admits_key {key : String} (h : ∃ entry ∈ settings.keys, entry.key = key)
    (now : UInt64) : ∃ identity, settings.Admits now (.key key) identity := by
  have hlast (entries : List KeySettings) (h : ∃ entry ∈ entries, entry.key = key) :
      ∃ before entry behind, entries = before ++ entry :: behind ∧ entry.key = key ∧
        ∀ other ∈ behind, other.key ≠ key := by
    induction entries with
    | nil => simp at h
    | cons first entries ih =>
      by_cases hlater : ∃ entry ∈ entries, entry.key = key
      · obtain ⟨before, entry, behind, rfl, hentry⟩ := ih hlater
        exact ⟨first :: before, entry, behind, rfl, hentry⟩
      · have hfirst : first.key = key := by
          obtain ⟨entry, hentry, hkey⟩ := h
          rcases List.mem_cons.1 hentry with rfl | hmem
          · exact hkey
          · exact absurd ⟨entry, hmem, hkey⟩ hlater
        exact ⟨[], first, entries, rfl, hfirst, fun other hother hkey =>
          hlater ⟨other, hother, hkey⟩⟩
  obtain ⟨before, entry, behind, hkeys, hentry, hbehind⟩ := hlast settings.keys h
  exact ⟨_, .key hkeys hentry hbehind⟩

/-- What is shown without any text is taken as that of a user only if it is the empty key and that
key is set. -/
theorem admits_blank_iff {now : UInt64} {shown : Shown} (hblank : shown.IsBlank) :
    (∃ identity, settings.Admits now shown identity) ↔
      shown = .key "" ∧ ∃ entry ∈ settings.keys, entry.key = "" := by
  constructor
  · rintro ⟨identity, hadmits⟩
    cases hadmits with
    | @key text before behind entry hkeys hentry _ =>
      cases hblank
      exact ⟨rfl, entry, by simp [hkeys], hentry⟩
    | token _ hverify =>
      cases hblank
      rw [Token.Signer.verify_empty] at hverify
      exact nomatch hverify
  · rintro ⟨rfl, hentry⟩
    exact exists_admits_key hentry now

end AuthSettings

namespace Service

variable {γ σ : Type}

/-- A request is refused as one of an unknown caller: it is answered with 401, the language model is
not called, and nothing that is remembered changes. -/
structure RefusesCaller (s : Service γ) (model : LanguageModel σ) (a : Arrival)
    (w : Situation γ σ) : Prop where
  caller : ∃ failure, (s.turn model a w).1.caller = .error failure
  calls : (s.turn model a w).1.calls = []
  status : (s.turn model a w).1.response.status = 401
  unchanged : (s.turn model a w).2 = w

section Guarded

variable (scheme : Scheme γ) (takesFeedback : Bool) (model : LanguageModel σ)
  {settings : AuthSettings} (henabled : settings.enabled = true) {route : GuardedRoute}
  {a : Arrival} (hpath : a.request.path = (Route.guarded route).path) {shown : Shown}
  (hshows : a.request.Shows shown) (w : Situation γ σ)

include henabled hshows

/-- A caller whom the settings admit is served as the user that they admit it as. -/
theorem turn_of_admitted {identity : Identity} (hadmits : settings.Admits a.now shown identity) :
    let s : Service γ := ⟨scheme, Authenticator.ofSettings settings, takesFeedback⟩
    s.turn model a w = (s.forUser identity).turn model a w := by
  intro s
  refine s.turn_forUser model ?_ w
  rw [Http.Request.credentials_of_shows hshows]
  exact (Authenticator.authenticate_eq_ok_iff henabled).2 hadmits

include hpath

/-- A caller whom the settings do not admit is refused on a guarded route. -/
theorem refusesCaller_of_not_admitted
    (hnone : ¬∃ identity, settings.Admits a.now shown identity) :
    RefusesCaller ⟨scheme, Authenticator.ofSettings settings, takesFeedback⟩ model a w := by
  cases hresult : (Authenticator.ofSettings settings).authenticate a.now shown.credentials with
  | ok identity =>
    exact absurd ⟨identity, (Authenticator.authenticate_eq_ok_iff henabled).1 hresult⟩ hnone
  | error failure =>
    have hrefused : (Authenticator.ofSettings settings).authenticate a.now a.request.credentials =
        .error failure := by
      rw [Http.Request.credentials_of_shows hshows, hresult]
    have hturn := turn_of_unknown ⟨scheme, Authenticator.ofSettings settings, takesFeedback⟩ model
      hpath hrefused w
    rw [Route.dress_eq, Authenticator.ofAuthFailure_of_refused henabled hresult] at hturn
    constructor
    · exact ⟨failure, by rw [hturn]⟩
    · rw [hturn]
    · rw [hturn]
      rfl
    · rw [hturn]

end Guarded

/-- A request to be told who is asking, which shows the empty key. -/
def emptyKeyRequest : Http.Request where
  method := "POST"
  target := "/authorized"
  headers := [("x-api-key", [])]
  body := []

/-- The request asks for the route of callers. -/
theorem path_emptyKeyRequest : emptyKeyRequest.path = (Route.guarded .authorized).path := by
  decide

/-- The request shows the empty key. -/
theorem shows_emptyKeyRequest : emptyKeyRequest.Shows (.key "") := by
  have hnone : emptyKeyRequest.text? "authorization" = none := by decide +kernel
  have hkey : emptyKeyRequest.text? "x-api-key" = some "" := by decide +kernel
  exact .keyHeader (Http.Request.text?_eq_none_iff.1 hnone) (Http.Request.text?_eq_some_iff.1 hkey)

/-- The user of the empty key is told who it is. -/
theorem response_emptyKeyRequest (scheme : Scheme γ) (takesFeedback : Bool)
    (model : LanguageModel σ) {settings : AuthSettings} (henabled : settings.enabled = true)
    {identity : Identity} (hadmits : settings.Admits 0 (.key "") identity) (w : Situation γ σ) :
    let s : Service γ := ⟨scheme, Authenticator.ofSettings settings, takesFeedback⟩
    (s.turn model ⟨0, emptyKeyRequest⟩ w).1.response = .json 200 identity.toCaller := by
  intro s
  have hturn := turn_of_admitted scheme takesFeedback model henabled (a := ⟨0, emptyKeyRequest⟩)
    shows_emptyKeyRequest w hadmits
  have hstart : (s.forUser identity).start 0 emptyKeyRequest w.memory =
      (s.forUser identity).serve .authorized identity emptyKeyRequest w.memory :=
    (s.forUser identity).start_guarded w.memory path_emptyKeyRequest (by decide) (by decide) rfl
  have hresult : ((s.forUser identity).start 0 emptyKeyRequest w.memory).result =
      .answered (.json 200 identity.toCaller) := by
    rw [hstart]
    rfl
  rw [hturn, (s.forUser identity).turn_of_answered model hresult]

/-- While callers must identify themselves, a request to a guarded route that shows nothing, an
empty key or an empty token is refused, unless it shows the empty key and that is set. Then it is
served as the user of the last entry of that key. So all such requests are answered with 401 if no
entry has the empty key, and else one is not. -/
theorem refuses_blank_iff (scheme : Scheme γ) (takesFeedback : Bool) (model : LanguageModel σ)
    (w : Situation γ σ) {settings : Settings} (henabled : settings.auth.enabled = true) :
    let s : Service γ := ⟨scheme, Authenticator.ofSettings settings.auth, takesFeedback⟩
    (∀ (route : GuardedRoute) (a : Arrival) (shown : Shown),
      a.request.path = (Route.guarded route).path → a.request.Shows shown → shown.IsBlank →
        (s.RefusesCaller model a w ↔
          ¬(shown = .key "" ∧ ∃ entry ∈ settings.auth.keys, entry.key = "")) ∧
        ∀ before entry behind, shown = .key "" →
          settings.auth.keys = before ++ entry :: behind → entry.key = "" →
          (∀ other ∈ behind, other.key ≠ "") →
          s.turn model a w = (s.forUser ⟨entry.userId, entry.username⟩).turn model a w) ∧
    ((∀ (route : GuardedRoute) (a : Arrival) (shown : Shown),
      a.request.path = (Route.guarded route).path → a.request.Shows shown → shown.IsBlank →
        (s.turn model a w).1.response.status = 401) ↔
      ∀ entry ∈ settings.auth.keys, entry.key ≠ "") := by
  intro s
  have hrefuses {route : GuardedRoute} {a : Arrival} {shown : Shown}
      (hpath : a.request.path = (Route.guarded route).path) (hshows : a.request.Shows shown)
      (hblank : shown.IsBlank)
      (hnone : ¬(shown = .key "" ∧ ∃ entry ∈ settings.auth.keys, entry.key = "")) :
      s.RefusesCaller model a w := by
    refine refusesCaller_of_not_admitted scheme takesFeedback model henabled hpath hshows w ?_
    rwa [AuthSettings.admits_blank_iff hblank]
  refine ⟨fun route a shown hpath hshows hblank => ⟨⟨?_, hrefuses hpath hshows hblank⟩, ?_⟩, ?_⟩
  · intro hrefused hset
    obtain ⟨identity, hadmits⟩ : ∃ identity, settings.auth.Admits a.now shown identity :=
      (AuthSettings.admits_blank_iff hblank).2 hset
    have hknown : (s.turn model a w).1.caller = .ok identity := by
      show s.authenticator.authenticate a.now a.request.credentials = .ok identity
      rw [Http.Request.credentials_of_shows hshows]
      exact (Authenticator.authenticate_eq_ok_iff henabled).2 hadmits
    obtain ⟨failure, hfailure⟩ := hrefused.caller
    exact nomatch hfailure.symm.trans hknown
  · rintro before entry behind rfl hkeys hentry hlast
    exact turn_of_admitted scheme takesFeedback model henabled hshows w (.key hkeys hentry hlast)
  · constructor
    -- Were there an entry of the empty key, one request would be answered with its user.
    · intro hall entry hentry hempty
      obtain ⟨identity, hadmits⟩ :=
        AuthSettings.exists_admits_key ⟨entry, hentry, hempty⟩ 0
      have hresponse :=
        response_emptyKeyRequest scheme takesFeedback model henabled hadmits w
      have hstatus := hall .authorized ⟨0, emptyKeyRequest⟩ (.key "") path_emptyKeyRequest
        shows_emptyKeyRequest .key
      have hserved : (Http.Response.json 200 identity.toCaller).status = 200 := rfl
      rw [hresponse, hserved] at hstatus
      exact absurd hstatus (by decide)
    · intro hkeys route a shown hpath hshows hblank
      refine (hrefuses hpath hshows hblank ?_).status
      rintro ⟨_, entry, hentry, hempty⟩
      exact hkeys entry hentry hempty

/-- A service with one key, which is not empty, refuses the empty one. -/
theorem refuses_blank_one_key :
    let settings : Settings :=
      { Settings.development with
        auth :=
          { enabled := true, keys := [⟨"k1", "u1", "alice"⟩]
            tokenSecret := "", tokenIssuer := "", tokenAudience := "" } }
    let s : Service Entropy := .ofSettings settings
    let w : Situation Entropy Unit := .initial 1 5 ⟨fun _ => Vector.replicate 16 0, 0⟩ ()
    settings.auth.enabled = true ∧ s.RefusesCaller .echo ⟨0, emptyKeyRequest⟩ w := by
  intro settings s w
  have henabled : settings.auth.enabled = true := rfl
  obtain ⟨hblank, _⟩ :=
    refuses_blank_iff Scheme.uuid settings.feedback.enabled .echo w henabled
  obtain ⟨hrefuses, _⟩ := hblank .authorized ⟨0, emptyKeyRequest⟩ (.key "") path_emptyKeyRequest
    shows_emptyKeyRequest .key
  refine ⟨rfl, hrefuses.2 ?_⟩
  rintro ⟨_, entry, hentry, hempty⟩
  obtain rfl := List.mem_singleton.1 hentry
  exact absurd hempty (by decide)

/-- Settings with an entry whose key is left out pass their check, and the empty key is served. -/
theorem serves_empty_key :
    let settings : Settings :=
      { Settings.development with
        auth :=
          { enabled := true, keys := [⟨"", "u1", "alice"⟩]
            tokenSecret := "", tokenIssuer := "", tokenAudience := "" } }
    let w : Situation Entropy Unit := .initial 1 5 ⟨fun _ => Vector.replicate 16 0, 0⟩ ()
    settings.check = .ok () ∧ settings.auth.enabled = true ∧
      emptyKeyRequest.path = (Route.guarded .authorized).path ∧ emptyKeyRequest.Shows (.key "") ∧
      ((Service.ofSettings settings).turn .echo ⟨0, emptyKeyRequest⟩ w).1.response =
        .json 200 (Caller.mk "u1" "alice") := by
  intro settings w
  have hkeys : settings.auth.keys = [] ++ ⟨"", "u1", "alice"⟩ :: [] := rfl
  have hadmits : settings.auth.Admits 0 (.key "") ⟨"u1", "alice"⟩ := .key hkeys rfl (by simp)
  exact ⟨by decide +kernel, rfl, path_emptyKeyRequest, shows_emptyKeyRequest,
    response_emptyKeyRequest Scheme.uuid settings.feedback.enabled .echo rfl hadmits w⟩

end Service

end Colloquy
