import Colloquy.Proofs.Service.FeedbackRules
import Colloquy.Proofs.Service.QueryRules
import Colloquy.Proofs.Shape.RecordText

/-!
# The kinds of bodies

What the text is of a query or of feedback that is accepted. Both arrive as drafts, of which every
field may be missing. So the text is an object whose members have the values of the checked fields,
or the list of these values in the order of the fields; no other text is decoded
(`accepted_bodies`). A list names no field: the question of `["q"]` is the value of no member
(`accepts_listed_question`).
-/

set_option autoImplicit false

namespace Colloquy

open Json

/-! ## What is decoded -/

namespace Encoded

variable {α : Type} [Encoded α] {body : Bytes}

/-- A value is decoded if its shape is read from the whole text. -/
theorem exists_of_decode {a : α} (h : decode body = .ok a) :
    ∃ x, Json.decode ((shape α).reader depthLimit) body = .ok x ∧ unpack x = a := by
  obtain ⟨rest, hread, hblank⟩ := decode_eq_ok_iff.1 h
  obtain ⟨x, _, hx, hunpack⟩ := Reads.of_map hread
  exact ⟨x, decode_eq_ok_iff.2 ⟨rest, ⟨_, hx⟩, hblank⟩, hunpack⟩

/-- A text that is decoded to a draft is an object or a list of what is written of the draft. -/
theorem isObjectOf_or_isListOf (hdraft : (shape α).isDraft = true)
    (hpack : ∀ x : (shape α).Carrier, pack (unpack x : α) = x) {a : α}
    (h : decode body = .ok a) :
    ∃ entries, toJson a = .object entries ∧ (IsObjectOf body entries ∨ IsListOf body entries) := by
  obtain ⟨x, hx, rfl⟩ := exists_of_decode h
  rw [toJson, hpack]
  exact Shape.isObjectOf_or_isListOf hdraft hx

/-- A text that begins neither an object nor a list is not decoded to a draft. -/
theorem decode_eq_error (hdraft : (shape α).isDraft = true)
    (hbrace : ∀ inside, skipBlank body ≠ Ascii.openBrace :: inside)
    (hbracket : ∀ inside, skipBlank body ≠ Ascii.openBracket :: inside) :
    ∃ error, (decode body : Except Json.Error α) = .error error := by
  obtain ⟨error, herror⟩ := Shape.decode_eq_error hdraft hbrace hbracket
  cases hdecode : (decode body : Except Json.Error α) with
  | error other => exact ⟨other, rfl⟩
  | ok a =>
    obtain ⟨x, hx, _⟩ := exists_of_decode hdecode
    exact absurd (herror.symm.trans hx) nofun

end Encoded

/-! ## The values of checked fields -/

/-- The value of what may be missing. -/
def Json.Value.orNull {α : Type} (write : α → Value) : Option α → Value
  | some x => write x
  | none => null

/-- What may be missing is written as null where it is. -/
theorem Shape.toJson_optional {inner : Shape} (x : Option inner.Carrier) :
    (Shape.optional inner).toJson x = .orNull inner.toJson x := by
  cases x <;> simp only [Shape.toJson, Json.Value.orNull]

/-- An unchecked query is written with all its members, null where one is missing. -/
theorem QueryDraft.toJson_eq (draft : QueryDraft) :
    Encoded.toJson draft = .object
      [ ("query", .orNull .text draft.query)
      , ("conversation_id", .orNull .text draft.conversationId)
      , ("provider", .orNull .text draft.provider)
      , ("model", .orNull .text draft.model)
      , ("attachments", .orNull .list draft.attachments) ] := by
  simp only [Encoded.toJson, Encoded.shape, Encoded.pack, Shape.toJson, Fields.toMembers,
    Shape.toJson_optional, List.map_id']

/-- Unchecked feedback is written with all its members, null where one is missing. -/
theorem FeedbackDraft.toJson_eq (draft : FeedbackDraft) :
    Encoded.toJson draft = .object
      [ ("conversation_id", .orNull .text draft.conversationId)
      , ("user_question", .orNull .text draft.userQuestion)
      , ("llm_response", .orNull .text draft.llmResponse)
      , ("sentiment", .orNull .number draft.sentiment)
      , ("user_feedback", .orNull .text draft.userFeedback) ] := by
  simp only [Encoded.toJson, Encoded.shape, Encoded.pack, Shape.toJson, Fields.toMembers,
    Shape.toJson_optional]

/-- The attachments of a query are those that a value lists. -/
inductive Query.HasAttachments (query : Query) : Value → Prop
  | none (h : query.attachments = none) : HasAttachments query .null
  | some {values : List Value} {attachments : List Attachment}
      (h : query.attachments = some attachments)
      (hread : List.Forall₂ Attachment.IsReadAs values attachments) :
      HasAttachments query (.list values)

/-- The values of the fields of a query, in their order. -/
def Query.entries (query : Query) (attachments : Value) : List (String × Value) :=
  [ ("query", .text query.query)
  , ("conversation_id", .orNull .text query.conversationId)
  , ("provider", .orNull .text query.provider)
  , ("model", .orNull .text query.model)
  , ("attachments", attachments) ]

/-- The values of the fields of feedback, in their order. -/
def Feedback.entries (feedback : Feedback) : List (String × Value) :=
  [ ("conversation_id", .text feedback.conversationId.text)
  , ("user_question", .text feedback.userQuestion)
  , ("llm_response", .text feedback.llmResponse)
  , ("sentiment", .orNull (fun vote => .number vote.toNumber) feedback.sentiment)
  , ("user_feedback", .orNull .text feedback.userFeedback) ]

/-- The fields of a query that passes its checks have the values that were sent. -/
theorem Query.toJson_draft {draft : QueryDraft} {query : Query}
    (h : Query.ofDraft draft = .ok query) :
    ∃ attachments, query.HasAttachments attachments ∧
      Encoded.toJson draft = .object (query.entries attachments) := by
  rw [QueryRule.ofDraft_eq] at h
  obtain ⟨question, hquestion, h⟩ := bind_eq_ok_iff.1 h
  obtain ⟨attachments, hall, h⟩ := bind_eq_ok_iff.1 h
  obtain ⟨_, _, h⟩ := bind_eq_ok_iff.1 h
  obtain rfl := Except.ok.inj h
  have hread : List.Forall₂ Attachment.IsReadAs (draft.attachments.getD []) attachments := by
    rcases Attachment.allOfJson_cases (draft.attachments.getD []) with
      ⟨others, hok, hread⟩ | ⟨_, _, _, _, _, _, herror⟩
    · obtain rfl := Except.ok.inj (hok.symm.trans hall)
      exact hread
    · exact absurd (herror.symm.trans hall) nofun
  -- The attachments are told by the values that were sent: more may be in them than is kept.
  refine ⟨.orNull .list draft.attachments, ?_, ?_⟩
  · cases hvalues : draft.attachments with
    | none => exact .none rfl
    | some values =>
      rw [hvalues] at hread
      exact .some rfl hread
  · have hsome : draft.query = some question := by
      cases hquery : draft.query with
      | none =>
        rw [hquery] at hquestion
        exact nomatch hquestion
      | some other =>
        rw [hquery] at hquestion
        exact congrArg some (Except.ok.inj hquestion)
    rw [draft.toJson_eq, hsome]
    rfl

/-- The fields of feedback that passes its checks have the values that were sent. -/
theorem Feedback.toJson_draft {γ : Type} {scheme : Scheme γ} {draft : FeedbackDraft}
    {feedback : Feedback} (h : Feedback.ofDraft scheme draft = .ok feedback) :
    Encoded.toJson draft = .object feedback.entries := by
  have hchecked : Checked (FeedbackRule.Broken scheme (.ok draft)) FeedbackRule.all.tail
      (FeedbackRule.IsReadAs draft) (Feedback.ofDraft scheme draft) :=
    FeedbackRule.ofDraft_checked draft
  rw [h] at hchecked
  cases hchecked with
  | passed _ hread =>
    have hvote : Json.Value.orNull .number (feedback.sentiment.map Sentiment.toNumber) =
        .orNull (fun vote => .number vote.toNumber) feedback.sentiment := by
      cases feedback.sentiment <;> rfl
    rw [draft.toJson_eq, hread.conversationId, hread.userQuestion, hread.llmResponse,
      hread.sentiment, hread.userFeedback, hvote]
    rfl

/-! ## Bodies that are accepted -/

/-- The text of a query or of feedback that is accepted is an object in which the names of the
fields have the values of the checked fields, or the list of these values in the order of the
fields. A text that begins neither an object nor a list is not decoded. -/
theorem accepted_bodies {γ : Type} (scheme : Scheme γ) (body : Bytes) :
    (∀ draft query, Encoded.decode body = .ok draft → Query.ofDraft draft = .ok query →
      ∃ attachments, query.HasAttachments attachments ∧
        (IsObjectOf body (query.entries attachments) ∨
          IsListOf body (query.entries attachments))) ∧
    (∀ draft feedback, Encoded.decode body = .ok draft →
      Feedback.ofDraft scheme draft = .ok feedback →
        IsObjectOf body feedback.entries ∨ IsListOf body feedback.entries) ∧
    ((∀ inside, skipBlank body ≠ Ascii.openBrace :: inside) →
      (∀ inside, skipBlank body ≠ Ascii.openBracket :: inside) →
        (∃ error, (Encoded.decode body : Except Json.Error QueryDraft) = .error error) ∧
        ∃ error, (Encoded.decode body : Except Json.Error FeedbackDraft) = .error error) := by
  have hquery : (Encoded.shape QueryDraft).isDraft = true := by decide
  have hfeedback : (Encoded.shape FeedbackDraft).isDraft = true := by decide
  refine ⟨?_, ?_, ?_⟩
  · intro draft query hdecode hchecked
    obtain ⟨attachments, hattachments, hdraft⟩ := Query.toJson_draft hchecked
    obtain ⟨entries, hentries, hbody⟩ :=
      Encoded.isObjectOf_or_isListOf hquery (fun _ => rfl) hdecode
    obtain rfl := Json.Value.object.inj (hentries.symm.trans hdraft)
    exact ⟨attachments, hattachments, hbody⟩
  · intro draft feedback hdecode hchecked
    obtain ⟨entries, hentries, hbody⟩ :=
      Encoded.isObjectOf_or_isListOf hfeedback (fun _ => rfl) hdecode
    obtain rfl := Json.Value.object.inj (hentries.symm.trans (Feedback.toJson_draft hchecked))
    exact hbody
  · intro hbrace hbracket
    exact ⟨Encoded.decode_eq_error hquery hbrace hbracket,
      Encoded.decode_eq_error hfeedback hbrace hbracket⟩

/-- An object that is accepted both as a query and as feedback, each of which passes over the
members of the other, and the literal `null`, which is neither. -/
theorem accepted_bodies_shared_object :
    let id := "123e4567-e89b-12d3-a456-426614174000"
    let body := Utf8.encode ("\x7b\"query\":\"q\",\"conversation_id\":\"" ++ id ++
      "\",\"user_question\":\"u\",\"llm_response\":\"r\",\"sentiment\":-1\x7d")
    let other := Utf8.encode "null"
    (∃ draft query, Encoded.decode body = .ok draft ∧ Query.ofDraft draft = .ok query ∧
      ∃ attachments, query.HasAttachments attachments ∧
        (IsObjectOf body (query.entries attachments) ∨
          IsListOf body (query.entries attachments))) ∧
    (∃ draft feedback, Encoded.decode body = .ok draft ∧
      Feedback.ofDraft Scheme.uuid draft = .ok feedback ∧
        (IsObjectOf body feedback.entries ∨ IsListOf body feedback.entries)) ∧
    (∀ inside, skipBlank other ≠ Ascii.openBrace :: inside) ∧
    (∀ inside, skipBlank other ≠ Ascii.openBracket :: inside) ∧
    (∃ error, (Encoded.decode other : Except Json.Error QueryDraft) = .error error) ∧
    ∃ error, (Encoded.decode other : Except Json.Error FeedbackDraft) = .error error := by
  intro id body other
  have hquery : ((Encoded.decode body : Except Json.Error QueryDraft).toOption.bind fun draft =>
      (Query.ofDraft draft).toOption.map fun query => query.query) = some "q" := by
    decide +kernel
  obtain ⟨draft, hdraft, hchecked⟩ := Option.bind_eq_some_iff.1 hquery
  obtain ⟨query, hquery, _⟩ := Option.map_eq_some_iff.1 hchecked
  have hdraft : Encoded.decode body = .ok draft := toOption_eq_some_iff.1 hdraft
  have hquery : Query.ofDraft draft = .ok query := toOption_eq_some_iff.1 hquery
  have hsent : Encoded.decode body =
      .ok (⟨some id, some "u", some "r", some (.integer (-1)), none⟩ : FeedbackDraft) := by
    decide +kernel
  have hfeedback : Feedback.ofDraft Scheme.uuid
      ⟨some id, some "u", some "r", some (.integer (-1)), none⟩ =
      .ok ⟨⟨id⟩, "u", "r", some .negative, none⟩ := by
    decide +kernel
  have hblank : skipBlank other = 0x6e :: nullTail := by decide
  have hbrace (inside : Bytes) : skipBlank other ≠ Ascii.openBrace :: inside := by
    rw [hblank]
    exact fun h => absurd (List.cons.inj h).1 (by decide)
  have hbracket (inside : Bytes) : skipBlank other ≠ Ascii.openBracket :: inside := by
    rw [hblank]
    exact fun h => absurd (List.cons.inj h).1 (by decide)
  obtain ⟨hqueries, hfeedbacks, _⟩ := accepted_bodies Scheme.uuid body
  obtain ⟨_, _, hothers⟩ := accepted_bodies Scheme.uuid other
  exact ⟨⟨draft, query, hdraft, hquery, hqueries draft query hdraft hquery⟩,
    ⟨_, _, hsent, hfeedback, hfeedbacks _ _ hsent hfeedback⟩, hbrace, hbracket,
    hothers hbrace hbracket⟩

/-- The question of a list is accepted, though a list is no object and has no member. -/
theorem accepts_listed_question :
    let body := Utf8.encode "[\"q\"]"
    (∃ draft query, Encoded.decode body = .ok draft ∧ Query.ofDraft draft = .ok query ∧
      query.query = "q") ∧ ∀ members, ¬IsObject body members := by
  intro body
  have hquery : ((Encoded.decode body : Except Json.Error QueryDraft).toOption.bind fun draft =>
      (Query.ofDraft draft).toOption.map fun query => query.query) = some "q" := by
    decide +kernel
  obtain ⟨draft, hdraft, hchecked⟩ := Option.bind_eq_some_iff.1 hquery
  obtain ⟨query, hquery, hquestion⟩ := Option.map_eq_some_iff.1 hchecked
  refine ⟨⟨draft, query, toOption_eq_some_iff.1 hdraft, toOption_eq_some_iff.1 hquery,
    hquestion⟩, ?_⟩
  rintro members ⟨inside, _, hopens, _⟩
  have hblank : skipBlank body = Ascii.openBracket :: Utf8.encode "\"q\"]" := by decide
  exact absurd (List.cons.inj (hblank.symm.trans hopens)).1 (by decide)

end Colloquy
