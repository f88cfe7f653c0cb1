import Colloquy.Auth.Authenticator
import Colloquy.Payload.Feedback
import Colloquy.Service.Fault

/-!
# Events

What the service tells about its work. An event says what has happened; its level, its wording, the
part of the service that it comes from and its details are functions of that.
-/

set_option autoImplicit false

namespace Colloquy

/-- How much an event matters. -/
inductive Level
  | error
  | warn
  | info
  | debug
  | trace
  deriving DecidableEq, Repr, Inhabited

namespace Level

/-- The name of a level. -/
def name : Level → String
  | error => "ERROR"
  | warn => "WARN"
  | info => "INFO"
  | debug => "DEBUG"
  | trace => "TRACE"

/-- How many of the levels matter at least as much. -/
def rank : Level → Nat
  | error => 1
  | warn => 2
  | info => 3
  | debug => 4
  | trace => 5

end Level

/-- A detail of an event. -/
inductive Detail
  | text (value : String)
  | flag (value : Bool)
  | count (value : Nat)
  deriving DecidableEq, Repr, Inhabited

namespace Detail

/-- A detail as a text. -/
def toText : Detail → String
  | text value => value
  | flag value => if value then "true" else "false"
  | count value => toString value

/-- A detail as a JSON value. -/
def toJson : Detail → Json.Value
  | text value => .text value
  | flag value => .bool value
  | count value => .number (.integer value)

end Detail

/-- What the service tells about its work. -/
inductive Event
  /-- The caller who asked for a path is not known. -/
  | callerRefused (path : String) (failure : AuthFailure)
  /-- A caller asked who it is. -/
  | callerAsked (userId : String)
  /-- A query is about to be checked. -/
  | checkingQuery (attachments : Nat) (hasConversation : Bool)
  | queryRejected (userId : String) (violation : Violation)
  /-- A query is about to be answered. -/
  | answeringQuery (userId : String) (conversation : ConversationId)
  /-- Feedback is about to be checked. -/
  | checkingFeedback (sentiment : Option Json.Number) (hasText : Bool)
  | feedbackRejected (userId : String) (violation : Violation)
  | feedbackTaken (userId : String) (feedback : Feedback)
  | conversationForgotten (key : String)
  deriving DecidableEq, Repr, Inhabited

namespace Event

/-- How much an event matters. -/
def level : Event → Level
  | callerRefused .. | queryRejected .. | feedbackRejected .. => .warn
  | feedbackTaken .. => .info
  | callerAsked _ | checkingQuery .. | answeringQuery .. | checkingFeedback ..
  | conversationForgotten _ => .debug

/-- The part of the service that an event comes from. -/
def origin : Event → String
  | callerRefused .. => "parley::security::middleware"
  | callerAsked _ => "parley::api::handlers::auth_handler"
  | checkingQuery .. | checkingFeedback .. => "parley::security::validation"
  | queryRejected .. | answeringQuery .. => "parley::api::handlers::query_handler"
  | feedbackRejected .. | feedbackTaken .. => "parley::api::handlers::feedback_handler"
  | conversationForgotten _ => "parley::services::cache"

/-- The wording of an event. -/
def message : Event → String
  | callerRefused _ failure => "Authentication failed: " ++ (Fault.ofAuthFailure failure).message
  | callerAsked _ => "Authorization check"
  | checkingQuery .. => "Validating query request"
  | queryRejected _ violation => "Rejected query request: " ++ violation.message
  | answeringQuery .. => "Processing query"
  | checkingFeedback .. => "Validating feedback request"
  | feedbackRejected _ violation => "Rejected feedback request: " ++ violation.message
  | feedbackTaken .. => "Feedback received"
  | conversationForgotten _ => "Evicted least recently used conversation"

/-- The text of something that may be missing. -/
def optionText : Option String → String
  | some text => "Some(" ++ text ++ ")"
  | none => "None"

/-- The details of an event. -/
def details : Event → List (String × Detail)
  | callerRefused path _ => [("path", .text path)]
  | callerAsked userId => [("user_id", .text userId)]
  | checkingQuery attachments hasConversation =>
    [("has_conversation_id", .flag hasConversation), ("attachments", .count attachments)]
  | queryRejected userId _ => [("user_id", .text userId)]
  | answeringQuery userId conversation =>
    [("user_id", .text userId), ("conversation_id", .text conversation.text)]
  | checkingFeedback sentiment hasText =>
    [ ("sentiment", .text (optionText (sentiment.map fun n => "Number(" ++ n.text ++ ")")))
    , ("has_user_feedback", .flag hasText) ]
  | feedbackRejected userId _ => [("user_id", .text userId)]
  | feedbackTaken userId feedback =>
    [ ("user_id", .text userId)
    , ("conversation_id", .text feedback.conversationId.text)
    , ("sentiment", .text (optionText (feedback.sentiment.map fun s => toString s.value)))
    , ("has_user_feedback", .flag feedback.userFeedback.isSome) ]
  | conversationForgotten key => [("key", .text key)]

end Event

end Colloquy
