import Colloquy.Payload.Violation
import Colloquy.Shape.Writer

/-!
# Attachments

What a client sends along with a question: logs, configurations and the like. Attachments arrive
as JSON values and are checked twice. First every one must be an object with three texts; only
when all of them are, the types of each must be accepted ones. Both checks report the attachment
of the lowest index that fails.
-/

set_option autoImplicit false

namespace Colloquy

/-- A text that belongs to a question. -/
structure Attachment where
  /-- What the text is, such as a log. -/
  kind : String
  /-- The media type of the text. -/
  contentType : String
  content : String
  deriving DecidableEq, Repr, Inhabited

namespace Attachment

/-- The kinds that are accepted. -/
def kinds : List String :=
  ["alert", "api object", "configuration", "error message", "event", "log", "stack trace"]

/-- The media types that are accepted. -/
def contentTypes : List String :=
  ["text/plain", "application/json", "application/yaml", "application/xml"]

/-- How an attachment is read and written. -/
instance : Encoded Attachment where
  shape := .record "Attachment" false
    (.cons "attachment_type" .string <| .cons "content_type" .string <|
      .cons "content" .string .nil)
  pack a := (a.kind, a.contentType, a.content, ())
  unpack | (kind, contentType, content, ()) => ⟨kind, contentType, content⟩
  unpack_pack _ := rfl

/-- The text of a member of an attachment. -/
def textOf (index : Nat) (members : Json.Value) (name : String) : Except Violation String :=
  match (members.member? name).bind Json.Value.text? with
  | some text => .ok text
  | none => .error (.malformedAttachment index name)

/-- The attachment that a JSON value is; `index` is its place in the request. -/
def ofJson (index : Nat) (value : Json.Value) : Except Violation Attachment :=
  match value with
  | .object _ => do
    let kind ← textOf index value "attachment_type"
    let contentType ← textOf index value "content_type"
    let content ← textOf index value "content"
    return ⟨kind, contentType, content⟩
  | _ => .error (.malformedAttachment index "attachment")

/-- The attachments of a request. -/
def allOfJson (values : List Json.Value) : Except Violation (List Attachment) :=
  values.zipIdx.mapM fun (value, index) => ofJson index value

/-- The type of an attachment that is not accepted, if there is one. -/
def unsupported? (index : Nat) (a : Attachment) : Option Violation :=
  if !kinds.contains a.kind then some (.unsupportedAttachment index "attachment_type" a.kind)
  else if !contentTypes.contains a.contentType then
    some (.unsupportedAttachment index "content_type" a.contentType)
  else none

/-- Checks that every attachment is of accepted types. -/
def checkTypes (attachments : List Attachment) : Except Violation Unit :=
  match attachments.zipIdx.findSome? fun (a, index) => unsupported? index a with
  | some violation => .error violation
  | none => .ok ()

end Attachment

end Colloquy
