import Colloquy.Proofs.Payload.Attachments
import Colloquy.Service.Querying

/-!
# The rules of queries

What a query must be like to go to the language model, rule by rule. `QueryRule.Broken` says for
each of them when it is broken and what is reported then, whatever the other rules say. The service
reports the first one that is broken in the order of `QueryRule.all`: `readQuery_cases` says so for
the rules that the text of the query decides alone.
-/

set_option autoImplicit false

namespace Colloquy

/-- The rules of queries. -/
inductive QueryRule
  /-- The body is the JSON text of a query. -/
  | body
  | question
  | attachments
  /-- Provider and model are named together or not at all. -/
  | pairing
  /-- The attachments are of accepted types. -/
  | attachmentTypes
  /-- The id of the conversation is well formed, if there is one. -/
  | conversation
  deriving DecidableEq

namespace QueryRule

/-- The rules in the order in which they are checked. -/
def all : List QueryRule :=
  [body, question, attachments, pairing, attachmentTypes, conversation]

/-- The stable name of a rule. -/
def code : QueryRule → String
  | body => "invalid_body"
  | question => "missing_field"
  | attachments => "malformed_attachment"
  | pairing => "provider_model_mismatch"
  | attachmentTypes => "unsupported_attachment"
  | conversation => "malformed_conversation_id"

/-- Something is named: it is neither missing nor the empty text. -/
def Named (name : Option String) : Prop :=
  ∃ text, name = some text ∧ text ≠ ""

/-- What breaks a rule, and how it is reported. -/
inductive Broken {γ : Type} (scheme : Scheme γ) (request : Http.Request) :
    QueryRule → Violation → Prop
  | body {flaw : Http.BodyFlaw} (hbody : request.readJson QueryDraft = .error flaw) :
    Broken scheme request body (.unreadableBody flaw.message)
  | question {draft : QueryDraft} (hbody : request.readJson QueryDraft = .ok draft)
      (hquery : draft.query = none) : Broken scheme request question (.missingField "query")
  /-- An attachment is malformed; the first one is reported, with what is wrong first in it. -/
  | attachments {draft : QueryDraft} {index k : Nat} {value : Json.Value} {part : String}
      (hbody : request.readJson QueryDraft = .ok draft)
      (hvalue : IsFirst (fun value => ∃ part, Attachment.WrongPart value part)
        (draft.attachments.getD []) index value)
      (hpart : IsFirst (Attachment.WrongPart value) Attachment.parts k part) :
    Broken scheme request attachments (.malformedAttachment index part)
  /-- The model is named but not the provider. -/
  | provider {draft : QueryDraft} (hbody : request.readJson QueryDraft = .ok draft)
      (hprovider : ¬Named draft.provider) (hmodel : Named draft.model) :
    Broken scheme request pairing (.unpaired "provider" "model")
  /-- The provider is named but not the model. -/
  | model {draft : QueryDraft} (hbody : request.readJson QueryDraft = .ok draft)
      (hprovider : Named draft.provider) (hmodel : ¬Named draft.model) :
    Broken scheme request pairing (.unpaired "model" "provider")
  /-- An attachment is not accepted; the first one is reported, with the first of its types that
  is not listed. -/
  | attachmentTypes {draft : QueryDraft} {index k : Nat} {value : Json.Value}
      {type : String × List String} {text : String}
      (hbody : request.readJson QueryDraft = .ok draft)
      (hvalue : IsFirst (fun value => ∃ type ∈ Attachment.types, Attachment.Unlisted value type)
        (draft.attachments.getD []) index value)
      (htype : IsFirst (Attachment.Unlisted value) Attachment.types k type)
      (htext : value.member? type.1 = some (.text text)) :
    Broken scheme request attachmentTypes (.unsupportedAttachment index type.1 text)
  /-- The id of the conversation is not well formed. -/
  | conversation {draft : QueryDraft} {text : String}
      (hbody : request.readJson QueryDraft = .ok draft) (hid : draft.conversationId = some text)
      (hscheme : scheme.accepts text = false) :
    Broken scheme request conversation (.malformedConversationId text)

variable {γ : Type} {scheme : Scheme γ} {request : Http.Request}

/-- Whatever breaks a rule is reported under its name. -/
theorem Broken.code_eq {rule : QueryRule} {v : Violation} (h : Broken scheme request rule v) :
    v.code = rule.code := by
  cases h <;> rfl

/-- A rule is broken in one way. -/
theorem Broken.unique {rule : QueryRule} {v v' : Violation} (h : Broken scheme request rule v)
    (h' : Broken scheme request rule v') : v = v' := by
  cases h with
  | body hbody =>
    cases h' with
    | body hbody' =>
      obtain rfl := Except.error.inj (hbody.symm.trans hbody')
      rfl
  | question hbody hquery =>
    cases h' with
    | question hbody' hquery' => rfl
  | attachments hbody hvalue hpart =>
    cases h' with
    | attachments hbody' hvalue' hpart' =>
      obtain rfl := Except.ok.inj (hbody.symm.trans hbody')
      obtain ⟨rfl, rfl⟩ := hvalue.unique hvalue'
      obtain ⟨rfl, rfl⟩ := hpart.unique hpart'
      rfl
  | provider hbody hprovider hmodel =>
    cases h' with
    | provider hbody' hprovider' hmodel' => rfl
    | model hbody' hprovider' hmodel' =>
      obtain rfl := Except.ok.inj (hbody.symm.trans hbody')
      exact absurd hprovider' hprovider
  | model hbody hprovider hmodel =>
    cases h' with
    | provider hbody' hprovider' hmodel' =>
      obtain rfl := Except.ok.inj (hbody.symm.trans hbody')
      exact absurd hprovider hprovider'
    | model hbody' hprovider' hmodel' => rfl
  | attachmentTypes hbody hvalue htype htext =>
    cases h' with
    | attachmentTypes hbody' hvalue' htype' htext' =>
      obtain rfl := Except.ok.inj (hbody.symm.trans hbody')
      obtain ⟨rfl, rfl⟩ := hvalue.unique hvalue'
      obtain ⟨rfl, rfl⟩ := htype.unique htype'
      obtain rfl := Json.Value.text.inj (Option.some.inj (htext.symm.trans htext'))
      rfl
  | conversation hbody hid hscheme =>
    cases h' with
    | conversation hbody' hid' hscheme' =>
      obtain rfl := Except.ok.inj (hbody.symm.trans hbody')
      obtain rfl := Option.some.inj (hid.symm.trans hid')
      rfl

/-! ## Rules that are kept -/

section Kept

variable {draft : QueryDraft} (hbody : request.readJson QueryDraft = .ok draft)

include hbody

/-- A body that is read breaks no rule. -/
theorem not_broken_body : ¬∃ v, Broken scheme request body v := by
  rintro ⟨v, hbroken⟩
  cases hbroken with
  | body hbody' => exact nomatch hbody.symm.trans hbody'

/-- A question that is there breaks no rule. -/
theorem not_broken_question {query : String} (hquery : draft.query = some query) :
    ¬∃ v, Broken scheme request question v := by
  rintro ⟨v, hbroken⟩
  cases hbroken with
  | question hbody' hnone =>
    obtain rfl := Except.ok.inj (hbody.symm.trans hbody')
    exact nomatch hquery.symm.trans hnone

/-- Values that are attachments break no rule. -/
theorem not_broken_attachments {attachments : List Attachment}
    (hread : List.Forall₂ Attachment.IsReadAs (draft.attachments.getD []) attachments) :
    ¬∃ v, Broken scheme request QueryRule.attachments v := by
  rintro ⟨v, hbroken⟩
  cases hbroken with
  | attachments hbody' hvalue _ =>
    obtain rfl := Except.ok.inj (hbody.symm.trans hbody')
    obtain ⟨hget, ⟨part, hwrong⟩, _⟩ := hvalue.spec
    obtain ⟨a, hread⟩ := Attachment.exists_isReadAs hread _ (List.mem_of_getElem? hget)
    exact hread.not_wrongPart part hwrong

/-- A provider and a model that are named together, or not at all, break no rule. -/
theorem not_broken_pairing (hpaired : Named draft.provider ↔ Named draft.model) :
    ¬∃ v, Broken scheme request pairing v := by
  rintro ⟨v, hbroken⟩
  cases hbroken with
  | provider hbody' hprovider hmodel =>
    obtain rfl := Except.ok.inj (hbody.symm.trans hbody')
    exact hprovider (hpaired.2 hmodel)
  | model hbody' hprovider hmodel =>
    obtain rfl := Except.ok.inj (hbody.symm.trans hbody')
    exact hmodel (hpaired.1 hprovider)

/-- Attachments of accepted types break no rule. -/
theorem not_broken_attachmentTypes (hlisted : ∀ value ∈ draft.attachments.getD [],
    ∀ type ∈ Attachment.types, ¬Attachment.Unlisted value type) :
    ¬∃ v, Broken scheme request attachmentTypes v := by
  rintro ⟨v, hbroken⟩
  cases hbroken with
  | attachmentTypes hbody' hvalue _ _ =>
    obtain rfl := Except.ok.inj (hbody.symm.trans hbody')
    obtain ⟨hget, ⟨type, htype, hunlisted⟩, _⟩ := hvalue.spec
    exact hlisted _ (List.mem_of_getElem? hget) type htype hunlisted

/-- An id that is well formed, if there is one, breaks no rule. -/
theorem not_broken_conversation
    (hid : ∀ text, draft.conversationId = some text → scheme.accepts text = true) :
    ¬∃ v, Broken scheme request conversation v := by
  rintro ⟨v, hbroken⟩
  cases hbroken with
  | conversation hbody' hid' hrefused =>
    obtain rfl := Except.ok.inj (hbody.symm.trans hbody')
    rw [hid _ hid'] at hrefused
    exact absurd hrefused (by decide)

end Kept

/-! ## The first rule that is broken -/

/-- A violation is how the first rule that is broken is reported. -/
def FirstBroken (scheme : Scheme γ) (request : Http.Request) (v : Violation) : Prop :=
  ∃ index rule, IsFirst (fun rule => ∃ v, Broken scheme request rule v) all index rule ∧
    Broken scheme request rule v

/-- Only one violation is. -/
theorem FirstBroken.unique {v v' : Violation} (h : FirstBroken scheme request v)
    (h' : FirstBroken scheme request v') : v = v' := by
  obtain ⟨i, rule, hfirst, hbroken⟩ := h
  obtain ⟨j, rule', hfirst', hbroken'⟩ := h'
  obtain ⟨_, rfl⟩ := hfirst.unique hfirst'
  exact hbroken.unique hbroken'

/-- The query that a draft is once it is checked. -/
structure IsReadAs (draft : QueryDraft) (checked : Query) : Prop where
  query : draft.query = some checked.query
  /-- The id of the conversation is kept. -/
  conversationId : checked.conversationId = draft.conversationId
  provider : checked.provider = draft.provider
  model : checked.model = draft.model
  attachments : List.Forall₂ Attachment.IsReadAs (draft.attachments.getD [])
    (checked.attachments.getD [])

/-- The checks of a draft in their order. -/
theorem ofDraft_eq (draft : QueryDraft) :
    Query.ofDraft draft = (requireText "query" draft.query).bind fun query =>
      (Attachment.allOfJson (draft.attachments.getD [])).bind fun attachments =>
        (Query.checkPairing draft.provider draft.model).bind fun _ =>
          .ok ⟨query, draft.conversationId, draft.provider, draft.model,
            draft.attachments.map fun _ => attachments⟩ := by
  unfold Query.ofDraft
  cases draft.query with
  | none => rfl
  | some query =>
    cases draft.attachments with
    | none => rfl
    | some values =>
      cases hall : Attachment.allOfJson values with
      | error violation => simp [hall]; rfl
      | ok attachments => simp [hall]; rfl

/-- Whether something is named. -/
theorem isNamed_iff (name : Option String) : Query.isNamed name = true ↔ Named name := by
  unfold Query.isNamed Named
  cases name with
  | none => simp
  | some text => simp

/-- Provider and model are named together or not at all, or the one that is not is reported. -/
theorem checkPairing_cases (scheme : Scheme γ) {draft : QueryDraft}
    (hbody : request.readJson QueryDraft = .ok draft) :
    (Query.checkPairing draft.provider draft.model = .ok () ∧
        (Named draft.provider ↔ Named draft.model)) ∨
      ∃ v, Query.checkPairing draft.provider draft.model = .error v ∧
        Broken scheme request pairing v := by
  have hprovider := isNamed_iff draft.provider
  have hmodel := isNamed_iff draft.model
  unfold Query.checkPairing
  cases hp : Query.isNamed draft.provider with
  | false =>
    have hprovider : ¬Named draft.provider := by simp [← hprovider, hp]
    cases hm : Query.isNamed draft.model with
    | false =>
      have hmodel : ¬Named draft.model := by simp [← hmodel, hm]
      exact Or.inl ⟨rfl, iff_of_false hprovider hmodel⟩
    | true => exact Or.inr ⟨_, rfl, .provider hbody hprovider (hmodel.1 hm)⟩
  | true =>
    cases hm : Query.isNamed draft.model with
    | false =>
      have hmodel : ¬Named draft.model := by simp [← hmodel, hm]
      exact Or.inr ⟨_, rfl, .model hbody (hprovider.1 hp) hmodel⟩
    | true => exact Or.inl ⟨rfl, iff_of_true (hprovider.1 hp) (hmodel.1 hm)⟩

/-- A draft is reported with the first rule that is broken, or it becomes a query, which may only be
of attachments that are not accepted and in a conversation with a malformed id. -/
theorem ofDraft_cases (scheme : Scheme γ) {draft : QueryDraft}
    (hbody : request.readJson QueryDraft = .ok draft) :
    (∃ v, Query.ofDraft draft = .error v ∧ FirstBroken scheme request v) ∨
      ∃ checked, Query.ofDraft draft = .ok checked ∧ IsReadAs draft checked ∧
        (¬∃ v, Broken scheme request question v) ∧
        (¬∃ v, Broken scheme request QueryRule.attachments v) ∧
        ¬∃ v, Broken scheme request pairing v := by
  have hkeptBody : ¬∃ v, Broken scheme request body v := not_broken_body hbody
  rw [ofDraft_eq]
  cases hquery : draft.query with
  | none =>
    have hbroken : Broken scheme request question _ := .question hbody hquery
    exact Or.inl ⟨_, rfl, 1, question, .there hkeptBody (.here ⟨_, hbroken⟩), hbroken⟩
  | some query =>
    have hkeptQuestion : ¬∃ v, Broken scheme request question v := not_broken_question hbody hquery
    rcases Attachment.allOfJson_cases (draft.attachments.getD []) with
      ⟨attachments, hok, hread⟩ | ⟨index, value, k, part, hvalue, hpart, herror⟩
    · have hkeptAttachments : ¬∃ v, Broken scheme request QueryRule.attachments v :=
        not_broken_attachments hbody hread
      rw [hok]
      rcases checkPairing_cases scheme hbody with ⟨hok, hpaired⟩ | ⟨v, herror, hbroken⟩
      · rw [hok]
        have hattachments : List.Forall₂ Attachment.IsReadAs (draft.attachments.getD [])
            ((draft.attachments.map fun _ => attachments).getD []) := by
          cases hvalues : draft.attachments with
          | none => exact .nil
          | some values =>
            rw [hvalues] at hread
            exact hread
        exact Or.inr ⟨_, rfl, ⟨hquery, rfl, rfl, rfl, hattachments⟩, hkeptQuestion,
          hkeptAttachments, not_broken_pairing hbody hpaired⟩
      · rw [herror]
        exact Or.inl ⟨v, rfl, 3, pairing,
          .there hkeptBody (.there hkeptQuestion (.there hkeptAttachments (.here ⟨v, hbroken⟩))),
          hbroken⟩
    · rw [herror]
      have hbroken : Broken scheme request QueryRule.attachments _ :=
        .attachments hbody hvalue hpart
      exact Or.inl ⟨_, rfl, 2, QueryRule.attachments,
        .there hkeptBody (.there hkeptQuestion (.here ⟨_, hbroken⟩)), hbroken⟩

/-- A query is reported with the first rule that is broken, or it is read and breaks none of the
rules that its text alone decides. -/
theorem readQuery_cases (scheme : Scheme γ) (identity : Identity) (request : Http.Request) :
    (∃ v, (Service.readQuery identity request).1 = .error v ∧ FirstBroken scheme request v) ∨
      ∃ draft checked, request.readJson QueryDraft = .ok draft ∧ IsReadAs draft checked ∧
        (Service.readQuery identity request).1 = .ok checked ∧
        ∀ rule ≠ conversation, ¬∃ v, Broken scheme request rule v := by
  unfold Service.readQuery
  cases hbody : request.readJson QueryDraft with
  | error flaw =>
    exact Or.inl ⟨_, rfl, 0, body, .here ⟨_, .body hbody⟩, .body hbody⟩
  | ok draft =>
    have hkeptBody : ¬∃ v, Broken scheme request body v := not_broken_body hbody
    rcases ofDraft_cases scheme hbody with
      ⟨v, herror, hfirst⟩ | ⟨checked, hok, hread, hkeptQuestion, hkeptAttachments, hkeptPairing⟩
    · simp only [herror]
      exact Or.inl ⟨v, rfl, hfirst⟩
    · simp only [hok]
      rcases Attachment.checkTypes_cases hread.attachments with
        ⟨hok, hlisted⟩ | ⟨index, value, k, type, text, hvalue, htype, htext, herror⟩
      · simp only [hok]
        refine Or.inr ⟨draft, checked, rfl, hread, rfl, fun rule hrule => ?_⟩
        cases rule with
        | body => exact hkeptBody
        | question => exact hkeptQuestion
        | attachments => exact hkeptAttachments
        | pairing => exact hkeptPairing
        | attachmentTypes => exact not_broken_attachmentTypes hbody hlisted
        | conversation => exact absurd rfl hrule
      · simp only [herror]
        have hbroken : Broken scheme request attachmentTypes _ :=
          .attachmentTypes hbody hvalue htype htext
        exact Or.inl ⟨_, rfl, 4, attachmentTypes,
          .there hkeptBody (.there hkeptQuestion (.there hkeptAttachments
            (.there hkeptPairing (.here ⟨_, hbroken⟩)))), hbroken⟩

end QueryRule

end Colloquy
