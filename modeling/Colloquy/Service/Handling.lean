import Colloquy.Api.Document
import Colloquy.Report.Status
import Colloquy.Service.FeedbackTaking
import Colloquy.Service.Querying
import Colloquy.Service.Route

/-!
# Handling requests

What the service answers to a request. The path decides first, then the caller, then the method. A
request is either answered at once or waits for the language model; `Service.handle` is both steps
with a language model between them.
-/

set_option autoImplicit false

namespace Colloquy

/-- How far a request has come. -/
inductive Progress
  | answered (response : Http.Response)
  /-- It is with the language model. -/
  | asking (pending : PendingQuery)
  deriving DecidableEq, Repr, Inhabited

/-- The request with its answer, if there is one yet, put through a function. -/
def Progress.dress (f : Http.Response → Http.Response) : Progress → Progress
  | answered response => answered (f response)
  | asking pending => asking pending

/-- The answer that tells a result. -/
def Http.Response.ofResult {α : Type} [Encoded α] : Except Fault α → Http.Response
  | .ok value => .json 200 value
  | .error fault => fault.response

namespace Http.Request

/-- The credentials of a request: an `Authorization` header decides if it can be read as a text,
and else an `X-API-Key` header. -/
def credentials (r : Request) : Credentials :=
  match r.text? "authorization" with
  | some header => .ofAuthorization header
  | none =>
    match r.text? "x-api-key" with
    | some key => .ofKeyHeader key
    | none => .none

end Http.Request

namespace OpenRoute

/-- What is answered to everyone. -/
def serve : OpenRoute → Http.Response
  | readiness => .json 200 Health.healthy
  | liveness => .json 200 (Liveness.mk true)
  | document => .ofText 200 Api.document.render

end OpenRoute

namespace Service

variable {γ : Type}

/-- What is answered to a known caller. -/
def serve (s : Service γ) (route : GuardedRoute) (identity : Identity) (request : Http.Request)
    (m : Memory γ) : Outcome γ Progress :=
  match route with
  | .query =>
    (s.beginQuery identity request m).map fun begun => match begun with
      | .ok pending => .asking pending
      | .error fault => .answered fault.response
  | .feedback =>
    let (result, events) := s.takeFeedback identity request
    { result := .answered (.ofResult result), memory := m, events }
  | .feedbackStatus =>
    { result := .answered (.json 200 (FeatureStatus.feedback s.takesFeedback))
      memory := m, events := [] }
  | .authorized =>
    { result := .answered (.json 200 identity.toCaller)
      memory := m, events := [.callerAsked identity.userId] }

/-- The first step of a request to a route, at the time `now`. -/
def startRoute (s : Service γ) (now : UInt64) (route : Route) (request : Http.Request)
    (m : Memory γ) : Outcome γ Progress :=
  match route with
  | .unguarded r =>
    { result := .answered (if route.serves request.method then r.serve else .bare 405)
      memory := m, events := [] }
  | .guarded r =>
    match s.authenticator.authenticate now request.credentials with
    | .error failure =>
      { result := .answered (Fault.ofAuthFailure failure).response
        memory := m, events := [.callerRefused request.path failure] }
    | .ok identity =>
      if route.serves request.method then s.serve r identity request m
      else { result := .answered (.bare 405), memory := m, events := [] }

/-- The first step of a request, at the time `now`. -/
def start (s : Service γ) (now : UInt64) (request : Http.Request) (m : Memory γ) :
    Outcome γ Progress :=
  match Route.ofPath? request.path with
  | none => { result := .answered (.bare 404), memory := m, events := [] }
  | some route =>
    (s.startRoute now route request m).map (Progress.dress (route.dress request.method))

/-- The answer to a request, at the time `now`. -/
def handle {σ : Type} (s : Service γ) (model : LanguageModel σ) (now : UInt64)
    (request : Http.Request) (m : Memory γ) (state : σ) : Outcome γ Http.Response × σ :=
  let started := s.start now request m
  match started.result with
  | .answered response => (started.map fun _ => response, state)
  | .asking pending =>
    let (delivered, state) := model.answer pending.prompt state
    (((pending.finish delivered started.memory).map .ofResult).after started.events, state)

end Service

end Colloquy
