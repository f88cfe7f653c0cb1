import Colloquy.Logging.Filter
import Colloquy.Settings

/-!
# Loggers

How events are logged: which ones, in which form, and where to. A logger is set up once for a
process. Its filter is the one of the environment if that can be read, and else the one of the
settings.
-/

set_option autoImplicit false

namespace Colloquy.Logging

/-- How events are logged. -/
structure Logger where
  filter : Filter
  /-- Whether every event is written as a JSON object. -/
  isStructured : Bool
  /-- The directory of the log files and what their names begin with; without it events go to the
  standard output. -/
  files : Option (String × String)
  deriving DecidableEq, Repr, Inhabited

/-- An event as it is logged. -/
inductive Entry
  /-- As a JSON object with the details of the event, its wording among them. -/
  | structured (level : Level) (origin : String) (details : List (String × Json.Value))
  /-- As a line of text, coloured or not. -/
  | plain (level : Level) (origin : String) (isColoured : Bool)
  deriving Inhabited

namespace Logger

/-- The logger of settings, where `directives` are those of the environment. -/
def ofSettings (settings : LoggingSettings) (directives : Option String) : Logger where
  filter := (directives.bind Filter.ofText?).getD (.ofReadable settings.level)
  isStructured := settings.structured
  files := settings.directory.map fun directory => (directory, settings.fileStem)

/-- Sets up the logger of a process, which must not have one. -/
def setUp (present : Option Logger) (settings : LoggingSettings) (directives : Option String) :
    Except Fault Logger :=
  match present with
  | some _ =>
    .error (.internal
      ("Failed to set tracing subscriber: " ++
        "a global default trace dispatcher has already been set"))
  | none => .ok (ofSettings settings directives)

/-- The name of the log file of a day. -/
def fileName (stem date : String) : String :=
  if stem = "" then date else stem ++ "." ++ date

/-- An event that arises in a span as it is logged, if it is. -/
def record? (l : Logger) (s : Span) (e : Event) : Option Entry :=
  if !l.filter.logs s e then none
  else if l.isStructured then
    some (.structured e.level e.origin
      (("message", .text e.message) :: e.details.map fun (name, d) => (name, d.toJson)))
  else some (.plain e.level e.origin l.files.isNone)

end Logger

end Colloquy.Logging
