import Colloquy.Http.Response
import Colloquy.Json.Failure
import Colloquy.Payload.Violation
import Colloquy.Report.Failure

/-!
# Faults

Why the service does not do what was asked. `Fault.message` is the wording for the log, and
`Fault.response` is the answer that the client gets: the status of its kind, and a body that
carries the texts of the fault unchanged.
-/

set_option autoImplicit false

namespace Colloquy

/-- Why the service does not do what was asked. -/
inductive Fault
  | rejected (violation : Violation)
  | unauthenticated (reason : String)
  /-- The caller is not allowed what was asked for. -/
  | forbidden (reason : String)
  /-- The question does not fit the language model. -/
  | promptTooLong (reason : String)
  | backend (response cause : String)
  | settings (reason : String)
  /-- A value could not be read or written. -/
  | serialization (reason : String)
  | internal (reason : String)
  deriving DecidableEq, Repr, Inhabited

namespace Fault

/-- The fault of a text that cannot be read. -/
def ofJsonError (error : Json.Error) : Fault :=
  serialization error.message

/-- The wording of a fault. -/
def message : Fault → String
  | rejected violation => "Payload validation failed: " ++ violation.message
  | unauthenticated reason => "Unauthorized: " ++ reason
  | forbidden reason => "Forbidden: " ++ reason
  | promptTooLong reason => "Prompt is too long: " ++ reason
  | backend response cause => response ++ ": " ++ cause
  | settings reason => "Configuration error: " ++ reason
  | serialization reason => "Serialization error: " ++ reason
  | internal reason => "Internal error: " ++ reason

/-- The status code of a fault. -/
def status : Fault → Nat
  | rejected _ => 422
  | unauthenticated _ => 401
  | forbidden _ => 403
  | promptTooLong _ => 413
  | backend .. | settings _ | serialization _ | internal _ => 500

/-- The answer that the client gets. -/
def response (fault : Fault) : Http.Response :=
  match fault with
  | rejected violation =>
    .json fault.status
      (FailureReport.make "Invalid request payload" violation.message
        [("field", violation.field), ("code", violation.code)])
  | unauthenticated reason =>
    .json fault.status (UnauthorizedReport.mk ("Unauthorized: " ++ reason))
  | forbidden reason => .json fault.status (ForbiddenReport.mk reason)
  | promptTooLong reason => .json fault.status (LengthReport.make reason)
  | backend response cause => .json fault.status (FailureReport.make response cause [])
  | settings _ | serialization _ | internal _ =>
    .json fault.status (FailureReport.make "Internal server error" fault.message [])

end Fault

end Colloquy
