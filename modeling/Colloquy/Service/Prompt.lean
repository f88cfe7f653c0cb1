import Colloquy.Payload.Answer
import Colloquy.Payload.Query
import Colloquy.Service.Fault

/-!
# Prompts

What the language model is asked: a checked query together with the history of its conversation.
The model itself is no part of the service. It is a function that may keep a state of its own, so
that what it delivers may depend on all that it was asked before.
-/

set_option autoImplicit false

namespace Colloquy

/-- What the language model is asked. -/
structure Prompt where
  conversationId : ConversationId
  query : String
  /-- The provider of the language model. -/
  provider : Option String
  model : Option String
  attachments : List Attachment
  /-- What was said in the conversation before. -/
  history : Option String
  deriving DecidableEq, Repr, Inhabited

/-- The prompt of a query in a conversation with a history. -/
def Query.toPrompt (q : Query) (conversationId : ConversationId) (history : Option String) :
    Prompt where
  conversationId
  query := q.query
  provider := q.provider
  model := q.model
  attachments := q.attachments.getD []
  history

/-- A language model with states `σ`. -/
structure LanguageModel (σ : Type) where
  /-- What it delivers for a prompt, and its next state. -/
  answer : Prompt → σ → Except Fault Summary × σ

end Colloquy
