import Colloquy.Conversation.Id
import Colloquy.Shape.Writer

/-!
# Answers

What the language model delivers for a question, and what the client gets of it: the answer with
one reference for every passage that supports it, in the order of the passages. Passages of one
document yield as many references.
-/

set_option autoImplicit false

namespace Colloquy

/-- A passage of a document that supports an answer. -/
structure Passage where
  text : String
  url : String
  title : String
  deriving DecidableEq, Repr, Inhabited

/-- How a passage is read and written. -/
instance : Encoded Passage where
  shape := .record "RagChunk" false
    (.cons "text" .string <| .cons "doc_url" .string <| .cons "doc_title" .string .nil)
  pack p := (p.text, p.url, p.title, ())
  unpack := fun (text, url, title, ()) => ⟨text, url, title⟩
  unpack_pack _ := rfl

/-- What the language model delivers for a question. -/
structure Summary where
  response : String
  /-- The passages that support it, in the order in which they were found. -/
  passages : List Passage
  /-- Whether the history of the conversation was cut to fit. -/
  historyTruncated : Bool
  deriving DecidableEq, Repr, Inhabited

/-- How the summary of a language model is read and written. -/
instance : Encoded Summary where
  shape := .record "SummarizerResult" false
    (.cons "response" .string <| .cons "rag_chunks" (.list (Encoded.shape Passage)) <|
      .cons "history_truncated" .flag .nil)
  pack s := (s.response, s.passages.map Encoded.pack, s.historyTruncated, ())
  unpack := fun (response, passages, historyTruncated, ()) =>
    ⟨response, passages.map Encoded.unpack, historyTruncated⟩
  unpack_pack s := by simp [Function.comp_def, Encoded.unpack_pack]

/-- A document that an answer refers to. -/
structure Reference where
  url : String
  title : String
  deriving DecidableEq, Repr, Inhabited

/-- How a reference to a document is read and written. -/
instance : Encoded Reference where
  shape := .record "ReferencedDocument" false
    (.cons "docs_url" .string <| .cons "title" .string .nil)
  pack r := (r.url, r.title, ())
  unpack := fun (url, title, ()) => ⟨url, title⟩
  unpack_pack _ := rfl

/-- The document of a passage. -/
def Passage.reference (p : Passage) : Reference :=
  ⟨p.url, p.title⟩

/-- The answer to a question. -/
structure Answer where
  conversationId : ConversationId
  response : String
  /-- The documents that it refers to. -/
  references : List Reference
  /-- Whether the history of the conversation was cut to fit. -/
  truncated : Bool
  deriving DecidableEq, Repr, Inhabited

/-- How an answer is read and written. -/
instance : Encoded Answer where
  shape := .record "QueryResponse" false
    (.cons "conversation_id" .string <| .cons "response" .string <|
      .cons "referenced_documents" (.list (Encoded.shape Reference)) <|
      .cons "truncated" .flag .nil)
  pack a := (a.conversationId.text, a.response, a.references.map Encoded.pack, a.truncated, ())
  unpack := fun (conversationId, response, references, truncated, ()) =>
    ⟨⟨conversationId⟩, response, references.map Encoded.unpack, truncated⟩
  unpack_pack a := by simp [Function.comp_def, Encoded.unpack_pack]

/-- The answer that a summary becomes. -/
def Answer.ofSummary (conversationId : ConversationId) (summary : Summary) : Answer :=
  ⟨conversationId, summary.response, summary.passages.map Passage.reference,
    summary.historyTruncated⟩

end Colloquy
