import Colloquy.Conversation.Uuid
import Colloquy.Payload.Violation

/-!
# Conversation ids

A conversation is known by an id, a text whose form is the business of a `Scheme`: which texts are
well formed, and how a fresh id is made. An id that a client supplies is kept as it was written.
Fresh ids are drawn from a source that is passed along, so a run of the service is a function of
the source that it starts with.
-/

set_option autoImplicit false

namespace Colloquy

/-- The id of a conversation. -/
structure ConversationId where
  /-- The id as it was written. -/
  text : String
  deriving DecidableEq, Repr, Inhabited

/-- The form of conversation ids; `γ` is the source that fresh ones are drawn from. -/
structure Scheme (γ : Type) where
  /-- Whether a text is a well-formed id. -/
  accepts : String → Bool
  generate : γ → String × γ

namespace ConversationId

/-- The id that a text is, if it is well formed. -/
def parse {γ : Type} (scheme : Scheme γ) (value : String) : Except Violation ConversationId :=
  if scheme.accepts value then .ok ⟨value⟩ else .error (.malformedConversationId value)

/-- The id of the conversation that a request belongs to: the supplied one if there is one, and a
fresh one else. Only the second case draws from the source. -/
def resolve {γ : Type} (scheme : Scheme γ) (source : γ) :
    (supplied : Option String) → Except Violation ConversationId × γ
  | some value => (parse scheme value, source)
  | none =>
    let (fresh, source) := scheme.generate source
    (.ok ⟨fresh⟩, source)

end ConversationId

/-- A source of random bytes: the draws to come, one after the other. -/
structure Entropy where
  draw : Nat → Uuid.Octets
  /-- The number of draws so far. -/
  drawn : Nat

/-- Ids that are UUIDs: all four forms are accepted, fresh ones are random. -/
def Scheme.uuid : Scheme Entropy where
  accepts := Uuid.isWellFormed
  generate source :=
    (Uuid.text (Uuid.random (source.draw source.drawn)), { source with drawn := source.drawn + 1 })

end Colloquy
