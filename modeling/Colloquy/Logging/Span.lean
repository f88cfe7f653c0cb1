import Colloquy.Http.Request
import Colloquy.Service.Event

/-!
# Spans

A stretch of work in which events arise. Every request is handled within a span of its own, so a
filter can ask for the events of some requests.
-/

set_option autoImplicit false

namespace Colloquy.Logging

/-- A stretch of work. -/
structure Span where
  name : String
  level : Level
  /-- The part of the service that begins it. -/
  origin : String
  fields : List (String × String)
  deriving DecidableEq, Repr, Inhabited

/-- The span in which a request is handled. -/
def Span.ofRequest (r : Http.Request) : Span where
  name := "request"
  level := .debug
  origin := "tower_http::trace::make_span"
  fields := [("method", r.method), ("uri", r.target), ("version", "HTTP/1.1")]

end Colloquy.Logging
