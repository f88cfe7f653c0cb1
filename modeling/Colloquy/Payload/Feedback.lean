import Colloquy.Conversation.Id
import Colloquy.Payload.Query

/-!
# Feedback

What a user thinks of an answer: a vote, a text, or both. A vote arrives as any JSON number, so
that one that is no vote can be reported like any other broken rule. The order of the rules: the
conversation id is there and well formed; the question and the answer are there; the vote is one
of the two; a vote or a text is there, where the empty text counts as one.
-/

set_option autoImplicit false

namespace Colloquy

/-- A vote on an answer. -/
inductive Sentiment
  | positive
  | negative
  deriving DecidableEq, Repr, Inhabited

namespace Sentiment

/-- The number that stands for a vote. -/
def value : Sentiment → Int
  | positive => 1
  | negative => -1

/-- The vote that a number stands for. -/
def ofInt (value : Int) : Except Violation Sentiment :=
  if value = 1 then .ok positive
  else if value = -1 then .ok negative
  else .error (.invalidSentiment (toString value))

/-- The vote that a JSON number stands for: only the integers 1 and -1 do, written as such. -/
def ofNumber (number : Json.Number) : Except Violation Sentiment :=
  match number.toInt64? with
  | some value => ofInt value
  | none => .error (.invalidSentiment number.text)

/-- A vote as a JSON number. -/
def toNumber (s : Sentiment) : Json.Number :=
  .integer s.value

end Sentiment

/-- Feedback as it arrives. -/
structure FeedbackDraft where
  /-- The conversation that the answer was given in. -/
  conversationId : Option String
  userQuestion : Option String
  llmResponse : Option String
  sentiment : Option Json.Number
  userFeedback : Option String
  deriving DecidableEq, Repr, Inhabited

/-- How unchecked feedback is read and written. -/
instance : Encoded FeedbackDraft where
  shape := .record "FeedbackRequestPayload" true
    (.cons "conversation_id" (.optional .string) <| .cons "user_question" (.optional .string) <|
      .cons "llm_response" (.optional .string) <| .cons "sentiment" (.optional .number) <|
      .cons "user_feedback" (.optional .string) .nil)
  pack d := (d.conversationId, d.userQuestion, d.llmResponse, d.sentiment, d.userFeedback, ())
  unpack := fun (conversationId, userQuestion, llmResponse, sentiment, userFeedback, ()) =>
    ⟨conversationId, userQuestion, llmResponse, sentiment, userFeedback⟩
  unpack_pack _ := rfl

/-- Feedback that has been checked. -/
structure Feedback where
  /-- The conversation that the answer was given in. -/
  conversationId : ConversationId
  userQuestion : String
  llmResponse : String
  sentiment : Option Sentiment
  userFeedback : Option String
  deriving DecidableEq, Repr, Inhabited

namespace Feedback

/-- The checked feedback that a draft is. -/
def ofDraft {γ : Type} (scheme : Scheme γ) (draft : FeedbackDraft) :
    Except Violation Feedback := do
  let conversationId ← requireText "conversation_id" draft.conversationId
  let conversationId ← ConversationId.parse scheme conversationId
  let userQuestion ← requireText "user_question" draft.userQuestion
  let llmResponse ← requireText "llm_response" draft.llmResponse
  let sentiment ← match draft.sentiment with
    | none => .ok none
    | some number => (Sentiment.ofNumber number).map some
  if sentiment.isNone && draft.userFeedback.isNone then .error .noFeedbackSignal
  else return ⟨conversationId, userQuestion, llmResponse, sentiment, draft.userFeedback⟩

/-- The JSON value of checked feedback. -/
def toJson (f : Feedback) : Json.Value :=
  .object
    [ ("conversation_id", .text f.conversationId.text)
    , ("user_question", .text f.userQuestion)
    , ("llm_response", .text f.llmResponse)
    , ("sentiment", match f.sentiment with
        | some s => .number s.toNumber
        | none => .null)
    , ("user_feedback", match f.userFeedback with
        | some text => .text text
        | none => .null) ]

end Feedback

end Colloquy
