import Colloquy.Proofs.Payload.Attachments
import Colloquy.Service.FeedbackTaking

/-!
# The rules of feedback

What feedback must be like to be taken, rule by rule. `FeedbackRule.Broken` says for each of them
when it is broken and what is reported then, whatever the other rules say. The checks of a request
are chained one by one (`Checked.bind`), so that the service reports the first rule that is broken
in the order of `FeedbackRule.all`, or keeps what was sent: `readFeedback_checked`.
-/

set_option autoImplicit false

namespace Colloquy

/-! ## Checks that are chained -/

section Checked

variable {ρ α β : Type} (Broken : ρ → Violation → Prop)

/-- The result of checking some rules in their order: the report of the first one that is broken,
or something good if none is. -/
inductive Checked (rules : List ρ) (Good : α → Prop) : Except Violation α → Prop
  | refused {index : Nat} {rule : ρ} {v : Violation}
      (hfirst : IsFirst (fun rule => ∃ v, Broken rule v) rules index rule)
      (hbroken : Broken rule v) : Checked rules Good (.error v)
  | passed {a : α} (hkept : ∀ rule ∈ rules, ∀ v, ¬Broken rule v) (hgood : Good a) :
    Checked rules Good (.ok a)

variable {Broken} {rule : ρ} {rules : List ρ} {Good : α → Prop} {Good' : β → Prop}

/-- One rule that is broken. -/
theorem Checked.refusedBy {v : Violation} (hbroken : Broken rule v) :
    Checked Broken [rule] Good (.error v) :=
  .refused (.here ⟨v, hbroken⟩) hbroken

/-- One rule that is kept. -/
theorem Checked.passedBy {a : α} (hkept : ∀ v, ¬Broken rule v) (hgood : Good a) :
    Checked Broken [rule] Good (.ok a) :=
  .passed (List.forall_mem_singleton.2 hkept) hgood

/-- Whatever follows from being good is true of what passes. -/
theorem Checked.mono {Good'' : α → Prop} {result : Except Violation α}
    (h : Checked Broken rules Good result) (hgood : ∀ a, Good a → Good'' a) :
    Checked Broken rules Good'' result := by
  cases h with
  | refused hfirst hbroken => exact .refused hfirst hbroken
  | passed hkept ha => exact .passed hkept (hgood _ ha)

/-- The check of a rule, and then those of others with what it delivers. -/
theorem Checked.bind {result : Except Violation α} {next : α → Except Violation β}
    (h : Checked Broken [rule] Good result)
    (hnext : ∀ a, Good a → Checked Broken rules Good' (next a)) :
    Checked Broken (rule :: rules) Good' (result.bind next) := by
  cases h with
  | refused hfirst hbroken =>
    cases hfirst with
    | here hrule => exact .refused (.here hrule) hbroken
    | there _ hnone => cases hnone
  | @passed a hkept hgood =>
    have hrule : ∀ v, ¬Broken rule v := hkept rule (List.mem_singleton_self rule)
    have hchecked : Checked Broken rules Good' (next a) := hnext a hgood
    show Checked Broken (rule :: rules) Good' (next a)
    generalize next a = result at hchecked
    cases hchecked with
    | refused hfirst hbroken => exact .refused (.there (not_exists.2 hrule) hfirst) hbroken
    | passed hrest hgood' => exact .passed (List.forall_mem_cons.2 ⟨hrule, hrest⟩) hgood'

end Checked

/-! ## The rules -/

/-- The rules of feedback. -/
inductive FeedbackRule
  /-- The body is the JSON text of feedback. -/
  | body
  /-- The conversation is named. -/
  | conversation
  /-- The id of the conversation is well formed. -/
  | wellFormed
  | question
  | answer
  /-- A number for the vote is one of the two votes. -/
  | vote
  /-- There is a vote or a text, which may be empty. -/
  | signal
  deriving DecidableEq

namespace FeedbackRule

/-- The rules in the order in which they are checked. -/
def all : List FeedbackRule :=
  [body, conversation, wellFormed, question, answer, vote, signal]

/-- The list of rules is complete. -/
theorem mem_all (rule : FeedbackRule) : rule ∈ all := by
  cases rule <;> decide

/-- The stable name of a rule. -/
def code : FeedbackRule → String
  | body => "invalid_body"
  | conversation | question | answer => "missing_field"
  | wellFormed => "malformed_conversation_id"
  | vote => "invalid_sentiment"
  | signal => "missing_feedback_signal"

/-- What breaks a rule, given what the body is read as, and how it is reported. -/
inductive Broken {γ : Type} (scheme : Scheme γ) :
    (sent : Except Http.BodyFlaw FeedbackDraft) → FeedbackRule → Violation → Prop
  | body {flaw : Http.BodyFlaw} : Broken scheme (.error flaw) body (.unreadableBody flaw.message)
  | conversation {draft : FeedbackDraft} (hid : draft.conversationId = none) :
    Broken scheme (.ok draft) conversation (.missingField "conversation_id")
  | wellFormed {draft : FeedbackDraft} {text : String} (hid : draft.conversationId = some text)
      (hscheme : scheme.accepts text = false) :
    Broken scheme (.ok draft) wellFormed (.malformedConversationId text)
  | question {draft : FeedbackDraft} (hquestion : draft.userQuestion = none) :
    Broken scheme (.ok draft) question (.missingField "user_question")
  | answer {draft : FeedbackDraft} (hanswer : draft.llmResponse = none) :
    Broken scheme (.ok draft) answer (.missingField "llm_response")
  /-- The number is not one of the integers 1 and -1. -/
  | vote {draft : FeedbackDraft} {number : Json.Number} (hvote : draft.sentiment = some number)
      (hpositive : number ≠ .integer 1) (hnegative : number ≠ .integer (-1)) :
    Broken scheme (.ok draft) vote (.invalidSentiment number.text)
  | signal {draft : FeedbackDraft} (hvote : draft.sentiment = none)
      (htext : draft.userFeedback = none) : Broken scheme (.ok draft) signal .noFeedbackSignal

/-- The feedback that a draft is once it is checked: what was sent, unchanged. -/
structure IsReadAs (draft : FeedbackDraft) (checked : Feedback) : Prop where
  conversationId : draft.conversationId = some checked.conversationId.text
  userQuestion : draft.userQuestion = some checked.userQuestion
  llmResponse : draft.llmResponse = some checked.llmResponse
  /-- The vote stands for the number that was sent, if there is one. -/
  sentiment : draft.sentiment = checked.sentiment.map Sentiment.toNumber
  userFeedback : draft.userFeedback = checked.userFeedback

variable {γ : Type} {scheme : Scheme γ}

/-- Whatever breaks a rule is reported under its name. -/
theorem Broken.code_eq {sent : Except Http.BodyFlaw FeedbackDraft} {rule : FeedbackRule}
    {v : Violation} (h : Broken scheme sent rule v) : v.code = rule.code := by
  cases h <;> rfl

/-- A rule is broken in one way. -/
theorem Broken.unique {sent : Except Http.BodyFlaw FeedbackDraft} {rule : FeedbackRule}
    {v v' : Violation} (h : Broken scheme sent rule v) (h' : Broken scheme sent rule v') :
    v = v' := by
  cases h with
  | wellFormed hid _ =>
    cases h' with
    | wellFormed hid' _ =>
      obtain rfl := Option.some.inj (hid.symm.trans hid')
      rfl
  | vote hvote _ _ =>
    cases h' with
    | vote hvote' _ _ =>
      obtain rfl := Option.some.inj (hvote.symm.trans hvote')
      rfl
  | _ => cases h'; rfl

/-- A first rule that is broken is reported in one way. -/
theorem Broken.unique_of_first {sent : Except Http.BodyFlaw FeedbackDraft} {i j : Nat}
    {rule rule' : FeedbackRule} {v v' : Violation}
    (hfirst : IsFirst (fun rule => ∃ v, Broken scheme sent rule v) all i rule)
    (hfirst' : IsFirst (fun rule => ∃ v, Broken scheme sent rule v) all j rule')
    (h : Broken scheme sent rule v) (h' : Broken scheme sent rule' v') : rule = rule' ∧ v = v' := by
  obtain ⟨_, rfl⟩ := hfirst.unique hfirst'
  exact ⟨rfl, h.unique h'⟩

/-! ## The checks -/

/-- The check of a text that must be there. -/
theorem requireText_checked {draft : FeedbackDraft} {rule : FeedbackRule} {field : String}
    {value : Option String}
    (hbroken : value = none → Broken scheme (.ok draft) rule (.missingField field))
    (hnone : ∀ v, Broken scheme (.ok draft) rule v → value = none) :
    Checked (Broken scheme (.ok draft)) [rule] (fun text => value = some text)
      (requireText field value) := by
  cases value with
  | none => exact .refusedBy (hbroken rfl)
  | some text => exact .passedBy (fun v hv => nomatch hnone v hv) rfl

/-- The check of the form of an id. -/
theorem parse_checked {draft : FeedbackDraft} {text : String}
    (hid : draft.conversationId = some text) :
    Checked (Broken scheme (.ok draft)) [wellFormed] (fun id => draft.conversationId = some id.text)
      (ConversationId.parse scheme text) := by
  unfold ConversationId.parse
  cases hscheme : scheme.accepts text with
  | false => exact .refusedBy (.wellFormed hid hscheme)
  | true =>
    refine .passedBy ?_ hid
    intro v hbroken
    cases hbroken with
    | wellFormed hid' hrefused =>
      obtain rfl := Option.some.inj (hid.symm.trans hid')
      exact nomatch hscheme.symm.trans hrefused

/-- A number stands for a vote, or it is reported as it was written. -/
theorem ofNumber_cases (number : Json.Number) :
    (∃ vote, Sentiment.ofNumber number = .ok vote ∧ number = vote.toNumber) ∨
      Sentiment.ofNumber number = .error (.invalidSentiment number.text) ∧
        number ≠ .integer 1 ∧ number ≠ .integer (-1) := by
  cases number with
  | real value => exact Or.inr ⟨rfl, nofun, nofun⟩
  | integer value =>
    by_cases hpositive : value = 1
    · subst hpositive
      exact Or.inl ⟨.positive, rfl, rfl⟩
    · by_cases hnegative : value = -1
      · subst hnegative
        exact Or.inl ⟨.negative, rfl, rfl⟩
      · right
        refine ⟨?_, by simpa using hpositive, by simpa using hnegative⟩
        unfold Sentiment.ofNumber Json.Number.toInt64?
        by_cases hbound : value < 0x8000000000000000
        · simp [hbound, Sentiment.ofInt, hpositive, hnegative, Json.Number.text]
        · simp [hbound]

/-- The vote of a draft, if it has one. -/
def readVote (draft : FeedbackDraft) : Except Violation (Option Sentiment) :=
  match draft.sentiment with
  | none => .ok none
  | some number => (Sentiment.ofNumber number).map some

/-- The check of the vote. -/
theorem readVote_checked (draft : FeedbackDraft) :
    Checked (Broken scheme (.ok draft)) [vote]
      (fun vote => draft.sentiment = vote.map Sentiment.toNumber) (readVote draft) := by
  unfold readVote
  cases hvote : draft.sentiment with
  | none =>
    refine .passedBy ?_ rfl
    intro v hbroken
    cases hbroken with
    | vote hsome _ _ => exact nomatch hvote.symm.trans hsome
  | some number =>
    rcases ofNumber_cases number with ⟨vote, hok, hnumber⟩ | ⟨herror, hpositive, hnegative⟩
    · simp only [hok]
      refine .passedBy ?_ (congrArg some hnumber)
      intro v hbroken
      cases hbroken with
      | vote hsome hpositive hnegative =>
        obtain rfl := Option.some.inj (hvote.symm.trans hsome)
        cases vote with
        | positive => exact hpositive hnumber
        | negative => exact hnegative hnumber
    · simp only [herror]
      exact .refusedBy (.vote hvote hpositive hnegative)

/-- What is left to check once the parts of the feedback are known. -/
def checkSignal (draft : FeedbackDraft) (checked : Feedback) : Except Violation Feedback :=
  if checked.sentiment.isNone && draft.userFeedback.isNone then .error .noFeedbackSignal
  else .ok checked

/-- The check that there is a vote or a text. -/
theorem checkSignal_checked {draft : FeedbackDraft} {checked : Feedback}
    (hread : IsReadAs draft checked) :
    Checked (Broken scheme (.ok draft)) [signal] (IsReadAs draft) (checkSignal draft checked) := by
  have hvote : draft.sentiment = none ↔ checked.sentiment = none := by
    rw [hread.sentiment]
    exact Option.map_eq_none_iff
  unfold checkSignal
  split
  · next hnone =>
    simp only [Bool.and_eq_true, Option.isNone_iff_eq_none] at hnone
    exact .refusedBy (.signal (hvote.2 hnone.1) hnone.2)
  · next hsome =>
    refine .passedBy ?_ hread
    intro v hbroken
    cases hbroken with
    | signal hnone htext => exact hsome (by simp [hvote.1 hnone, htext])

/-- The checks of a draft in their order. -/
theorem ofDraft_eq (draft : FeedbackDraft) : Feedback.ofDraft scheme draft =
    (requireText "conversation_id" draft.conversationId).bind fun text =>
      (ConversationId.parse scheme text).bind fun id =>
        (requireText "user_question" draft.userQuestion).bind fun question =>
          (requireText "llm_response" draft.llmResponse).bind fun answer =>
            (readVote draft).bind fun vote =>
              checkSignal draft ⟨id, question, answer, vote, draft.userFeedback⟩ := by
  unfold Feedback.ofDraft readVote
  cases draft.sentiment with
  | none => rfl
  | some number =>
    cases hvote : Sentiment.ofNumber number <;> simp only [hvote] <;> rfl

/-- A draft is reported with the first rule that is broken, or what was sent is kept. -/
theorem ofDraft_checked (draft : FeedbackDraft) :
    Checked (Broken scheme (.ok draft)) all.tail (IsReadAs draft)
      (Feedback.ofDraft scheme draft) := by
  rw [ofDraft_eq]
  refine .bind (requireText_checked .conversation fun v h => by cases h; assumption) ?_
  intro text hid
  refine .bind (parse_checked hid) ?_
  intro id hid
  refine .bind (requireText_checked .question fun v h => by cases h; assumption) ?_
  intro question hquestion
  refine .bind (requireText_checked .answer fun v h => by cases h; assumption) ?_
  intro answer hanswer
  refine .bind (readVote_checked draft) ?_
  intro vote hvote
  exact checkSignal_checked ⟨hid, hquestion, hanswer, hvote, rfl⟩

/-- The check of the body, and then those of what it is read as. -/
theorem readFeedback_eq (scheme : Scheme γ) (identity : Identity) (request : Http.Request) :
    (Service.readFeedback scheme identity request).1 =
      ((request.readJson FeedbackDraft).mapError fun flaw =>
        .unreadableBody flaw.message).bind (Feedback.ofDraft scheme) := by
  unfold Service.readFeedback
  cases request.readJson FeedbackDraft with
  | error flaw => rfl
  | ok draft =>
    show _ = Feedback.ofDraft scheme draft
    cases hchecked : Feedback.ofDraft scheme draft <;> simp only [hchecked]

/-- The check of the body. -/
theorem body_checked (sent : Except Http.BodyFlaw FeedbackDraft) :
    Checked (Broken scheme sent) [body] (fun draft => sent = .ok draft)
      (sent.mapError fun flaw => .unreadableBody flaw.message) := by
  cases sent with
  | error flaw => exact .refusedBy .body
  | ok draft => exact .passedBy (fun v hbroken => nomatch hbroken) rfl

/-- A request is reported with the first rule that is broken, or what was sent is kept. -/
theorem readFeedback_checked (scheme : Scheme γ) (identity : Identity) (request : Http.Request) :
    Checked (Broken scheme (request.readJson FeedbackDraft)) all
      (fun checked => ∃ draft, request.readJson FeedbackDraft = .ok draft ∧ IsReadAs draft checked)
      (Service.readFeedback scheme identity request).1 := by
  rw [readFeedback_eq]
  refine .bind (body_checked _) ?_
  intro draft hsent
  rw [hsent]
  exact (ofDraft_checked draft).mono fun checked hread => ⟨draft, rfl, hread⟩

end FeedbackRule

end Colloquy
