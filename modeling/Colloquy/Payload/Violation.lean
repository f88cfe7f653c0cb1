/-!
# Violations

The rules that a payload can break. A violation names the rule, the field that breaks it and what
was found there; `Violation.message` is its wording, `Violation.code` and `Violation.field` are
what a client can rely on.
-/

set_option autoImplicit false

namespace Colloquy

/-- A rule that a payload breaks. -/
inductive Violation
  /-- A required field is not there. -/
  | missingField (field : String)
  /-- Of the provider and the model only one is named. -/
  | unpaired (missing present : String)
  /-- An attachment is no object, or a field of it is no text. -/
  | malformedAttachment (index : Nat) (field : String)
  /-- An attachment is of a type that is not accepted. -/
  | unsupportedAttachment (index : Nat) (field value : String)
  /-- A conversation id is not well formed. -/
  | malformedConversationId (value : String)
  /-- A sentiment is neither of the two votes. -/
  | invalidSentiment (value : String)
  /-- Feedback holds neither a vote nor a text. -/
  | noFeedbackSignal
  /-- The body of a request could not be read. -/
  | unreadableBody (reason : String)
  deriving DecidableEq, Repr, Inhabited

namespace Violation

/-- The field that breaks the rule. -/
def field : Violation → String
  | missingField field => field
  | unpaired missing _ => missing
  | malformedAttachment .. => "attachments"
  | unsupportedAttachment _ field _ => field
  | malformedConversationId _ => "conversation_id"
  | invalidSentiment _ => "sentiment"
  | noFeedbackSignal => "user_feedback"
  | unreadableBody _ => "body"

/-- The stable name of the rule. -/
def code : Violation → String
  | missingField _ => "missing_field"
  | unpaired .. => "provider_model_mismatch"
  | malformedAttachment .. => "malformed_attachment"
  | unsupportedAttachment .. => "unsupported_attachment"
  | malformedConversationId _ => "malformed_conversation_id"
  | invalidSentiment _ => "invalid_sentiment"
  | noFeedbackSignal => "missing_feedback_signal"
  | unreadableBody _ => "invalid_body"

/-- The wording of a violation. -/
def message : Violation → String
  | missingField field => "Required field '" ++ field ++ "' is missing"
  | unpaired missing present =>
    "LLM " ++ missing ++ " must be specified when the " ++ present ++ " is specified."
  | malformedAttachment index field =>
    "Attachment at index " ++ toString index ++ " has a missing or malformed '" ++ field ++ "'"
  | unsupportedAttachment index field value =>
    "Attachment at index " ++ toString index ++ " has unsupported " ++ field ++ " '" ++ value ++ "'"
  | malformedConversationId value => "Improper conversation ID " ++ value
  | invalidSentiment value => "Improper value " ++ value ++ ", needs to be -1 or 1"
  | noFeedbackSignal => "Either 'sentiment' or 'user_feedback' must be set"
  | unreadableBody reason => "Invalid request body: " ++ reason

end Violation

end Colloquy
