import Colloquy.Conversation.Cache
import Colloquy.Service.Event

/-!
# The service

What a service is set up with, what it remembers between requests, and what a piece of its work
delivers. What it remembers is passed along as a value, so a run of the service is a function of the
requests and of the memory that it starts with.
-/

set_option autoImplicit false

namespace Colloquy

/-- What a service is set up with; `γ` is the source that fresh ids are drawn from. -/
structure Service (γ : Type) where
  scheme : Scheme γ
  authenticator : Authenticator
  takesFeedback : Bool

/-- What a service remembers between requests. -/
structure Memory (γ : Type) where
  /-- The source that fresh ids are drawn from. -/
  source : γ
  cache : Cache

/-- What a piece of work delivers. -/
structure Outcome (γ α : Type) where
  result : α
  memory : Memory γ
  /-- What was told about the work, in order. -/
  events : List Event

namespace Outcome

/-- The outcome with another result. -/
def map {γ α β : Type} (f : α → β) (o : Outcome γ α) : Outcome γ β :=
  ⟨f o.result, o.memory, o.events⟩

/-- The outcome of work that comes after some events. -/
def after {γ α : Type} (events : List Event) (o : Outcome γ α) : Outcome γ α :=
  { o with events := events ++ o.events }

end Outcome

namespace Service

/-- The service that is set up by settings. -/
def ofSettings (settings : Settings) : Service Entropy where
  scheme := Scheme.uuid
  authenticator := Authenticator.ofSettings settings.auth
  takesFeedback := settings.feedback.enabled

/-- What may be shown of the checks of a service. -/
def describeChecks : String :=
  "PayloadValidator \x7b session_ids: \"Arc<dyn SessionIdScheme>\" \x7d"

/-- What may be shown of a service. -/
def describe {γ : Type} (s : Service γ) : String :=
  "AppState \x7b validator: " ++ describeChecks ++
    ", summarizer: \"Arc<dyn Summarizer>\", cache: \"Arc<dyn ConversationCache>\"" ++
    ", authenticator: " ++ Quoted.quote s.authenticator.name ++
    ", feedback_enabled: " ++ (if s.takesFeedback then "true" else "false") ++ " \x7d"

end Service

namespace Memory

/-- The memory of a service that is set up by settings and has not worked yet. -/
def ofSettings (settings : Settings) (source : Entropy) : Memory Entropy where
  source
  cache := Cache.empty settings.cache.maxEntries.toNat settings.cache.maxHistoryBytes.toNat

end Memory

end Colloquy
