import Colloquy.Payload.Attachment
import Colloquy.Shape.Reader

/-!
# Queries

A question as it arrives, in which everything may be missing, and a question that has been
checked. The rules are checked in a fixed order and the first broken one is reported: the question
is there; every attachment has its three texts; provider and model are named together or not at
all, where an empty name counts as none.
-/

set_option autoImplicit false

namespace Colloquy

/-- A question as it arrives. -/
structure QueryDraft where
  query : Option String
  /-- The conversation that it belongs to. -/
  conversationId : Option String
  /-- The provider of the language model. -/
  provider : Option String
  model : Option String
  /-- The attachments, as they arrive. -/
  attachments : Option (List Json.Value)
  deriving Inhabited

/-- How an unchecked query is read and written. -/
instance : Encoded QueryDraft where
  shape := .record "QueryRequestPayload" true
    (.cons "query" (.optional .string) <| .cons "conversation_id" (.optional .string) <|
      .cons "provider" (.optional .string) <| .cons "model" (.optional .string) <|
      .cons "attachments" (.optional (.list .value)) .nil)
  pack d := (d.query, d.conversationId, d.provider, d.model, d.attachments, ())
  unpack := fun (query, conversationId, provider, model, attachments, ()) =>
    ⟨query, conversationId, provider, model, attachments⟩
  unpack_pack _ := rfl

/-- A question that has been checked. -/
structure Query where
  query : String
  /-- The conversation that it belongs to; a new one if there is none. -/
  conversationId : Option String
  /-- The provider of the language model. -/
  provider : Option String
  model : Option String
  attachments : Option (List Attachment)
  deriving DecidableEq, Repr, Inhabited

/-- How a checked query is read and written. -/
instance : Encoded Query where
  shape := .record "QueryRequest" false
    (.cons "query" .string <| .cons "conversation_id" (.optional .string) <|
      .cons "provider" (.optional .string) <| .cons "model" (.optional .string) <|
      .cons "attachments" (.optional (.list (Encoded.shape Attachment))) .nil)
  pack q := (q.query, q.conversationId, q.provider, q.model,
    q.attachments.map (·.map Encoded.pack), ())
  unpack := fun (query, conversationId, provider, model, attachments, ()) =>
    ⟨query, conversationId, provider, model, attachments.map (·.map Encoded.unpack)⟩
  unpack_pack q := by
    obtain ⟨_, _, _, _, attachments⟩ := q
    cases attachments <;> simp [Function.comp_def, Encoded.unpack_pack]

/-- The text of a field that is required. -/
def requireText (field : String) : Option String → Except Violation String
  | some text => .ok text
  | none => .error (.missingField field)

namespace Query

/-- Whether something is named: neither nothing nor the empty text. -/
def isNamed (name : Option String) : Bool :=
  match name with
  | some text => text ≠ ""
  | none => false

/-- Checks that provider and model are named together or not at all. -/
def checkPairing (provider model : Option String) : Except Violation Unit :=
  match isNamed provider, isNamed model with
  | false, true => .error (.unpaired "provider" "model")
  | true, false => .error (.unpaired "model" "provider")
  | _, _ => .ok ()

/-- The checked question that a draft is. -/
def ofDraft (draft : QueryDraft) : Except Violation Query := do
  let query ← requireText "query" draft.query
  let attachments ← match draft.attachments with
    | none => .ok none
    | some values => (Attachment.allOfJson values).map some
  checkPairing draft.provider draft.model
  return ⟨query, draft.conversationId, draft.provider, draft.model, attachments⟩

end Query

end Colloquy
