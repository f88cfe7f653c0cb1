import Colloquy.Proofs.Auth.Admission
import Colloquy.Proofs.Service.Run

/-!
# Guarded routes

A guarded route is served to the callers that the settings admit, by what they show
(`Service.guards_by_settings`). The request of a caller who is admitted as some user goes on as it
would if the service took everyone for that user (`Service.forUser`). Any other caller is answered
with 401, whatever the method and the body of the request, and nothing that is remembered changes.
-/

set_option autoImplicit false

namespace Colloquy

/-- An answer of a route keeps its body unless the route is read with `HEAD`. -/
theorem Route.dress_eq (route : Route) (method : String) (response : Http.Response) :
    route.dress method response =
      { response with
        allow := if route.serves method then response.allow else some route.methods
        body := if route.isRead ∧ method = "HEAD" then "" else response.body } := by
  unfold dress
  by_cases hread : route.isRead = true
  · by_cases hmethod : method = "HEAD"
    · subst hmethod
      have hserves : route.serves "HEAD" = true := by
        unfold serves
        rw [if_pos hread]
        rfl
      simp [hserves, hread]
    · cases hserves : route.serves method <;> simp [hread, hmethod]
  · have hhead (h : route.serves method = true) : method ≠ "HEAD" := by
      unfold serves at h
      rw [if_neg hread, decide_eq_true_eq] at h
      rw [h]
      decide
    cases hserves : route.serves method with
    | false => simp [hread]
    | true => simp [hread, hhead hserves]

namespace Service

variable {γ σ : Type} (s : Service γ) (model : LanguageModel σ)

/-- The service that takes every caller for one user. -/
def forUser (identity : Identity) : Service γ :=
  { s with authenticator := { s.authenticator with authenticate := fun _ _ => .ok identity } }

/-- The request of a known caller goes on as it would if every caller were that user. -/
theorem start_forUser {now : UInt64} {request : Http.Request} {identity : Identity}
    (h : s.authenticator.authenticate now request.credentials = .ok identity) (m : Memory γ) :
    s.start now request m = (s.forUser identity).start now request m := by
  unfold start
  cases Route.ofPath? request.path with
  | none => rfl
  | some route =>
    cases route with
    | unguarded r => rfl
    | guarded r =>
      simp only [startRoute, h, forUser]
      rfl

/-- A turn of a known caller is the turn of a service that knows only this caller. -/
theorem turn_forUser {a : Arrival} {identity : Identity}
    (h : s.authenticator.authenticate a.now a.request.credentials = .ok identity)
    (w : Situation γ σ) : s.turn model a w = (s.forUser identity).turn model a w := by
  unfold turn handle
  rw [s.start_forUser h, h]
  rfl

/-- The request of a caller who is not known is answered with what was wrong. -/
theorem turn_of_unknown {a : Arrival} {route : GuardedRoute} {failure : AuthFailure}
    (hpath : a.request.path = (Route.guarded route).path)
    (h : s.authenticator.authenticate a.now a.request.credentials = .error failure)
    (w : Situation γ σ) :
    s.turn model a w =
      ( { caller := .error failure
          calls := []
          response := (Route.guarded route).dress a.request.method
            (Fault.ofAuthFailure failure).response }
      , w ) := by
  have hstart : s.start a.now a.request w.memory =
      { result := .answered ((Route.guarded route).dress a.request.method
          (Fault.ofAuthFailure failure).response)
        memory := w.memory, events := [.callerRefused a.request.path failure] } := by
    unfold start
    rw [hpath, Route.ofPath?_path]
    simp only [startRoute, h, hpath]
    rfl
  rw [s.turn_of_answered model (congrArg Outcome.result hstart), hstart, h]

end Service

namespace Service

variable {γ σ : Type} (scheme : Scheme γ) (takesFeedback : Bool) (model : LanguageModel σ)

/-- What a request shows of its caller decides whether and for which user a guarded route is
served. Where the settings ask for nothing, that is the anonymous user. Else it is the user that the
settings admit the caller as; any other caller is answered with 401, whatever the method and the
body, and the report is left out only where the route is read with `HEAD`. -/
theorem guards_by_settings (settings : AuthSettings) (route : GuardedRoute) (a : Arrival)
    (w : Situation γ σ) (hpath : a.request.path = (Route.guarded route).path) :
    let s : Service γ := ⟨scheme, Authenticator.ofSettings settings, takesFeedback⟩
    ∃ shown, a.request.Shows shown ∧ (∀ other, a.request.Shows other → other = shown) ∧
      (settings.enabled = false →
        s.turn model a w = (s.forUser Identity.anonymous).turn model a w) ∧
      (settings.enabled = true →
        (∀ identity, settings.Admits a.now shown identity →
          s.turn model a w = (s.forUser identity).turn model a w) ∧
        ((∀ identity, ¬settings.Admits a.now shown identity) →
          ∃ failure : AuthFailure, s.turn model a w =
            ( { caller := .error failure
                calls := []
                response :=
                  { status := 401
                    contentType := some "application/json"
                    allow :=
                      if (Route.guarded route).serves a.request.method then none
                      else some (Route.guarded route).methods
                    body :=
                      if route = .feedbackStatus ∧ a.request.method = "HEAD" then ""
                      else Encoded.encode
                        (UnauthorizedReport.mk ("Unauthorized: " ++ failure.message)) } }
            , w ))) := by
  intro s
  obtain ⟨shown, hshown⟩ := a.request.exists_shows
  have hcredentials := Http.Request.credentials_of_shows hshown
  refine ⟨shown, hshown, fun other hother => hother.unique hshown, ?_, ?_⟩
  · intro hdisabled
    refine s.turn_forUser model ?_ w
    have hanonymous : s.authenticator = Authenticator.anonymous := by
      have : ¬settings.enabled = true := by simp [hdisabled]
      exact if_neg this
    rw [hanonymous]
    rfl
  · intro henabled
    constructor
    · intro identity hadmits
      refine s.turn_forUser model ?_ w
      rw [hcredentials]
      exact (Authenticator.authenticate_eq_ok_iff henabled).2 hadmits
    · intro hnone
      cases hresult : s.authenticator.authenticate a.now shown.credentials with
      | ok identity =>
        exact absurd ((Authenticator.authenticate_eq_ok_iff henabled).1 hresult) (hnone identity)
      | error failure =>
        refine ⟨failure, ?_⟩
        have hread : (Route.guarded route).isRead = true ↔ route = .feedbackStatus := by
          cases route <;> decide
        rw [s.turn_of_unknown model hpath (hcredentials ▸ hresult) w, Route.dress_eq,
          Authenticator.ofAuthFailure_of_refused henabled hresult]
        simp only [hread]
        rfl

/-- A key that is set twice is taken as that of the last user, and what stands in the other header
does not matter. -/
theorem guards_by_last_key :
    let settings : AuthSettings :=
      { enabled := true
        keys := [⟨"k1", "u1", "alice"⟩, ⟨"k2", "u2", "bob"⟩, ⟨"k1", "u3", "carol"⟩]
        tokenSecret := "", tokenIssuer := "", tokenAudience := "" }
    let s : Service Entropy := ⟨Scheme.uuid, Authenticator.ofSettings settings, true⟩
    let a : Arrival :=
      ⟨0,
        { method := "POST", target := "/authorized", body := []
          headers :=
            [("x-api-key", Utf8.encode "k2"), ("Authorization", Utf8.encode "ApiKey k1")] }⟩
    let w : Situation Entropy Unit := .initial 1 5 ⟨fun _ => Vector.replicate 16 0, 0⟩ ()
    a.request.path = (Route.guarded .authorized).path ∧ a.request.Shows (.key "k1") ∧
      settings.Admits 0 (.key "k1") ⟨"u3", "carol"⟩ ∧
      (s.turn .echo a w).1.response = .json 200 (Caller.mk "u3" "carol") := by
  intro settings s a w
  have hpath : a.request.path = (Route.guarded .authorized).path := by decide
  have htext : a.request.text? "authorization" = some ("ApiKey " ++ "k1") := by decide +kernel
  have hshows : a.request.Shows (.key "k1") :=
    .authorizedKey (Http.Request.text?_eq_some_iff.1 htext)
  have hkeys : settings.keys =
    [⟨"k1", "u1", "alice"⟩, ⟨"k2", "u2", "bob"⟩] ++ ⟨"k1", "u3", "carol"⟩ :: [] := rfl
  have hadmits : settings.Admits 0 (.key "k1") ⟨"u3", "carol"⟩ := .key hkeys rfl (by simp)
  obtain ⟨shown, _, hunique, _, henabled⟩ :=
    guards_by_settings Scheme.uuid true .echo settings .authorized a w hpath
  obtain rfl := hunique _ hshows
  have hturn := (henabled rfl).1 _ hadmits
  refine ⟨hpath, hshows, hadmits, ?_⟩
  rw [hturn]
  decide +kernel

/-- Not every answer to `HEAD` is without the report: where `HEAD` is not served it is there. -/
theorem reports_to_refused_head :
    let settings : AuthSettings :=
      { enabled := true, keys := [⟨"k1", "u1", "alice"⟩]
        tokenSecret := "", tokenIssuer := "", tokenAudience := "" }
    let s : Service Entropy := ⟨Scheme.uuid, Authenticator.ofSettings settings, true⟩
    let a : Arrival := ⟨0, { method := "HEAD", target := "/v1/query", headers := [], body := [] }⟩
    let w : Situation Entropy Unit := .initial 1 5 ⟨fun _ => Vector.replicate 16 0, 0⟩ ()
    a.request.path = (Route.guarded .query).path ∧ a.request.method = "HEAD" ∧
      a.request.Shows .nothing ∧ (∀ identity, ¬settings.Admits 0 .nothing identity) ∧
      (s.turn .echo a w).1.response.status = 401 ∧
      (s.turn .echo a w).1.response.body =
        "\x7b\"detail\":\"Unauthorized: No auth header found\"\x7d" := by
  intro settings s a w
  have hpath : a.request.path = (Route.guarded .query).path := by decide
  have hnone (name text : String) : ¬a.request.ShowsText name text := by
    rintro ⟨⟨before, header, behind, heq, _⟩, _⟩
    exact absurd heq (by simp [a])
  have hrefused : s.authenticator.authenticate a.now a.request.credentials =
    .error .nothingShown := rfl
  refine ⟨hpath, rfl, .nothing (hnone _) (hnone _), nofun, ?_, ?_⟩
  · rw [s.turn_of_unknown .echo hpath hrefused, Route.dress_eq]
    rfl
  · have hunread : ¬((Route.guarded .query).isRead = true ∧ a.request.method = "HEAD") := by decide
    have hreport : Encoded.encode (UnauthorizedReport.mk "Unauthorized: No auth header found") =
      "\x7b\"detail\":\"Unauthorized: No auth header found\"\x7d" := by decide
    rw [s.turn_of_unknown .echo hpath hrefused, Route.dress_eq]
    simp only [if_neg hunread]
    exact hreport

end Service

end Colloquy
