import Colloquy.Http.Response

/-!
# Routes

What is served under which path. Some routes are served to everyone, the others only to callers who
are known. A route is served with one method; those that are read are also served with `HEAD`,
which delivers the same answer without its body.
-/

set_option autoImplicit false

namespace Colloquy

/-- What is served to everyone. -/
inductive OpenRoute
  /-- Whether the service can take requests. -/
  | readiness
  | liveness
  | document
  deriving DecidableEq, Repr, Inhabited

/-- What is served to callers who are known. -/
inductive GuardedRoute
  | query
  | feedback
  | feedbackStatus
  | authorized
  deriving DecidableEq, Repr, Inhabited

/-- What is served. -/
inductive Route
  | unguarded (route : OpenRoute)
  | guarded (route : GuardedRoute)
  deriving DecidableEq, Repr, Inhabited

namespace Route

/-- The path of a route. -/
def path : Route → String
  | unguarded .readiness => "/readiness"
  | unguarded .liveness => "/liveness"
  | unguarded .document => "/openapi.json"
  | guarded .query => "/v1/query"
  | guarded .feedback => "/v1/feedback"
  | guarded .feedbackStatus => "/v1/feedback/status"
  | guarded .authorized => "/authorized"

/-- All routes. -/
def all : List Route :=
  [ unguarded .readiness, unguarded .liveness, unguarded .document
  , guarded .query, guarded .feedback, guarded .feedbackStatus, guarded .authorized ]

/-- The route of a path, which must be written exactly as it is. -/
def ofPath? (path : String) : Option Route :=
  all.find? fun route => route.path == path

/-- Whether a route is read; the others are written to. -/
def isRead : Route → Bool
  | unguarded _ | guarded .feedbackStatus => true
  | guarded .query | guarded .feedback | guarded .authorized => false

/-- Whether a route is served with a method. -/
def serves (route : Route) (method : String) : Bool :=
  if route.isRead then method = "GET" || method = "HEAD" else method = "POST"

/-- The methods that a route is served with. -/
def methods (route : Route) : String :=
  if route.isRead then "GET,HEAD" else "POST"

/-- An answer of a route as it leaves the service: one to a method that the route is not served with
names the methods that it is, and one to `HEAD` has no body. -/
def dress (route : Route) (method : String) (response : Http.Response) : Http.Response :=
  if !route.serves method then { response with allow := some route.methods }
  else if method = "HEAD" then { response with body := "" }
  else response

end Route

end Colloquy
