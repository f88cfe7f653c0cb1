import Colloquy.Shape.Writer

/-!
# Reports of failure

The bodies of the answers that report a failure. Most carry named details, among them what the
client is told and the cause; a caller who is not known or not allowed gets one plain text.
-/

set_option autoImplicit false

namespace Colloquy

/-- The details of a failure. -/
abbrev Details := Dictionary String

/-- A failure, with its details. -/
structure FailureReport where
  detail : Details
  deriving DecidableEq

/-- How the report of a failure is read and written. -/
instance : Encoded FailureReport where
  shape := .record "ErrorResponse" false (.cons "detail" (.dictionary .string) .nil)
  pack r := (r.detail, ())
  unpack := fun (detail, ()) => ⟨detail⟩
  unpack_pack _ := rfl

/-- A failure of which the client is told `response`, because of `cause`, with more details. -/
def FailureReport.make (response cause : String) (more : List (String × String)) :
    FailureReport :=
  ⟨Dictionary.ofList ([("response", response), ("cause", cause)] ++ more)⟩

/-- A question that is too long for the language model. -/
structure LengthReport where
  detail : Details
  deriving DecidableEq

/-- How the report of a prompt that is too long is read and written. -/
instance : Encoded LengthReport where
  shape := .record "PromptTooLongResponse" false (.cons "detail" (.dictionary .string) .nil)
  pack r := (r.detail, ())
  unpack := fun (detail, ()) => ⟨detail⟩
  unpack_pack _ := rfl

/-- The report of a question that is too long. -/
def LengthReport.make (cause : String) : LengthReport :=
  ⟨(FailureReport.make "Prompt is too long" cause []).detail⟩

/-- A caller who is not known. -/
structure UnauthorizedReport where
  detail : String
  deriving DecidableEq, Repr

/-- How the report to an unknown caller is read and written. -/
instance : Encoded UnauthorizedReport where
  shape := .record "UnauthorizedResponse" false (.cons "detail" .string .nil)
  pack r := (r.detail, ())
  unpack := fun (detail, ()) => ⟨detail⟩
  unpack_pack _ := rfl

/-- A caller who is not allowed what was asked for. -/
structure ForbiddenReport where
  detail : String
  deriving DecidableEq, Repr

/-- How the report to a caller who may not do this is read and written. -/
instance : Encoded ForbiddenReport where
  shape := .record "ForbiddenResponse" false (.cons "detail" .string .nil)
  pack r := (r.detail, ())
  unpack := fun (detail, ()) => ⟨detail⟩
  unpack_pack _ := rfl

end Colloquy
