import Colloquy.Http.JsonBody
import Colloquy.Service
import Colloquy.Service.Prompt

/-!
# Answering queries

A query is worked on in two steps, with the language model between them. The first step checks the
request, finds the conversation that it belongs to and loads its history. The second step writes
the exchange behind the history that is there by then, which may have grown in between. A query
that is refused, or that the language model fails on, leaves every history as it was.
-/

set_option autoImplicit false

namespace Colloquy

/-- A query that is with the language model. -/
structure PendingQuery where
  /-- The key that the conversation is remembered under. -/
  key : String
  /-- What the language model is asked. -/
  prompt : Prompt
  deriving DecidableEq, Repr, Inhabited

namespace Service

/-- The checked query of a request. Attachments of types that are not accepted are found here too,
but are not told about. -/
def readQuery (identity : Identity) (request : Http.Request) :
    Except Violation Query × List Event :=
  match request.readJson QueryDraft with
  | .error flaw => (.error (.unreadableBody flaw.message), [])
  | .ok draft =>
    let checking :=
      Event.checkingQuery ((draft.attachments.getD []).length) draft.conversationId.isSome
    match Query.ofDraft draft with
    | .error violation => (.error violation, [checking, .queryRejected identity.userId violation])
    | .ok query =>
      match Attachment.checkTypes (query.attachments.getD []) with
      | .error violation => (.error violation, [checking])
      | .ok () => (.ok query, [checking])

/-- The first step of a checked query: finds its conversation and loads the history. -/
def load {γ : Type} (s : Service γ) (identity : Identity) (query : Query) (m : Memory γ) :
    Outcome γ (Except Fault PendingQuery) :=
  match ConversationId.resolve s.scheme m.source query.conversationId with
  | (.error violation, source) =>
    { result := .error (.rejected violation), memory := { m with source }, events := [] }
  | (.ok conversationId, source) =>
    let key := conversationId.cacheKey identity.userId
    let (history, cache) := m.cache.get key
    { result := .ok ⟨key, query.toPrompt conversationId history⟩
      memory := { source, cache }
      events := [.answeringQuery identity.userId conversationId] }

/-- The first step of a request that is a query. -/
def beginQuery {γ : Type} (s : Service γ) (identity : Identity) (request : Http.Request)
    (m : Memory γ) : Outcome γ (Except Fault PendingQuery) :=
  match readQuery identity request with
  | (.error violation, events) => { result := .error (.rejected violation), memory := m, events }
  | (.ok query, events) => (s.load identity query m).after events

end Service

namespace PendingQuery

/-- The second step: what the language model delivered is remembered and becomes the answer. -/
def finish {γ : Type} (p : PendingQuery) (delivered : Except Fault Summary) (m : Memory γ) :
    Outcome γ (Except Fault Answer) :=
  match delivered with
  | .error fault => { result := .error fault, memory := m, events := [] }
  | .ok summary =>
    let (cache, forgotten) :=
      m.cache.write p.key (History.exchange p.prompt.query summary.response)
    { result := .ok (Answer.ofSummary p.prompt.conversationId summary)
      memory := { m with cache }
      events := forgotten.map .conversationForgotten }

end PendingQuery

end Colloquy
