import Colloquy.Proofs.Service.FeedbackVerdict
import Colloquy.Proofs.Service.QueryVerdict

/-!
# What is told of rejected payloads

The warnings that a payload of a known caller is rejected. Whether there is one depends on the rule
that is broken first: `QueryRule.told` and `FeedbackRule.told` list the rules for which there is.
These are the ones that are checked between two reports, and so the others are rejected in silence:
a body that cannot be read, and of queries also attachments of types that are not accepted and an id
that is not well formed. `Service.warnings_of_rejection` says so for every request; a payload that
breaks no rule gives no warning at all.
-/

set_option autoImplicit false

namespace Colloquy

namespace Event

/-- The events among others that warn. -/
def warnings (events : List Event) : List Event :=
  events.filter fun e => e.level = .warn

/-- The warnings of events are those of the first ones and of the others. -/
theorem warnings_append (events others : List Event) :
    warnings (events ++ others) = warnings events ++ warnings others :=
  List.filter_append ..

/-- An event as it is told: its wording and its details. -/
def line (e : Event) : String × List (String × Detail) :=
  (e.message, e.details)

end Event

namespace IsFirst

variable {α : Type} {P : α → Prop} {l : List α} {i : Nat} {a : α}

/-- The first of a list that has a property is in the list. -/
theorem mem (h : IsFirst P l i a) : a ∈ l :=
  List.mem_of_getElem? h.spec.1

/-- What follows a list does not matter to the first element in it. -/
theorem append (h : IsFirst P l i a) (others : List α) : IsFirst P (l ++ others) i a := by
  induction h with
  | here h => exact .here h
  | there hb _ ih => exact .there hb ih

end IsFirst

/-! ## Rules that are told about -/

section Told

variable {ρ : Type} (Broken : ρ → Violation → Prop) (rules told : List ρ)
  (warning : Violation → Event)

/-- The events of a check of some rules: one warning of the first rule that is broken if it is among
those that are told about, and none if all of these are kept. -/
inductive Told (events : List Event) : Prop
  | rejected {index : Nat} {rule : ρ} {v : Violation}
    (hfirst : IsFirst (fun rule => ∃ v, Broken rule v) rules index rule) (hbroken : Broken rule v)
    (htold : rule ∈ told) (hevents : Event.warnings events = [warning v])
  | quiet (hkept : ∀ rule ∈ told, ∀ v, ¬Broken rule v) (hevents : Event.warnings events = [])

variable {Broken rules told warning} {events : List Event}

/-- The warnings of the rule that is broken first. -/
theorem Told.warnings_of_first [DecidableEq ρ] (h : Told Broken rules told warning events)
    (hunique : ∀ rule v v', Broken rule v → Broken rule v' → v = v') {index : Nat} {rule : ρ}
    {v : Violation} (hfirst : IsFirst (fun rule => ∃ v, Broken rule v) rules index rule)
    (hbroken : Broken rule v) :
    Event.warnings events = if rule ∈ told then [warning v] else [] := by
  cases h with
  | @rejected _ _ v' hfirst' hbroken' htold hevents =>
    obtain ⟨_, rfl⟩ := hfirst'.unique hfirst
    obtain rfl := hunique _ _ _ hbroken' hbroken
    rw [if_pos htold, hevents]
  | quiet hkept hevents =>
    have htold : rule ∉ told := fun htold => hkept rule htold v hbroken
    rw [if_neg htold, hevents]

/-- There are no warnings if no rule is broken. -/
theorem Told.warnings_of_kept (h : Told Broken rules told warning events)
    (hkept : ∀ rule v, ¬Broken rule v) : Event.warnings events = [] := by
  cases h with
  | rejected _ hbroken _ _ => exact absurd hbroken (hkept _ _)
  | quiet _ hevents => exact hevents

/-- What is told is told by the warnings alone. -/
theorem Told.congr (h : Told Broken rules told warning events) {others : List Event}
    (heq : Event.warnings others = Event.warnings events) :
    Told Broken rules told warning others := by
  cases h with
  | rejected hfirst hbroken htold hevents =>
    exact .rejected hfirst hbroken htold (heq.trans hevents)
  | quiet hkept hevents => exact .quiet hkept (heq.trans hevents)

end Told

/-! ## Queries -/

namespace QueryRule

/-- The rules that a query is told to be rejected by. -/
def told : List QueryRule :=
  [question, attachments, pairing]

variable {γ : Type} {scheme : Scheme γ} {request : Http.Request} {draft : QueryDraft}

/-- A draft is reported with the first of the rules that are told about, or it is a query. -/
theorem ofDraft_checked (hbody : request.readJson QueryDraft = .ok draft) :
    Checked (Broken scheme request) told (fun _ => True) (Query.ofDraft draft) := by
  rw [ofDraft_eq]
  have hquestion : Checked (Broken scheme request) [question] (fun _ => True)
      (requireText "query" draft.query) := by
    cases hquery : draft.query with
    | none => exact .refusedBy (.question hbody hquery)
    | some query =>
      exact .passedBy (fun v hv => not_broken_question hbody hquery ⟨v, hv⟩) trivial
  have hattachments : Checked (Broken scheme request) [QueryRule.attachments] (fun _ => True)
      (Attachment.allOfJson (draft.attachments.getD [])) := by
    rcases Attachment.allOfJson_cases (draft.attachments.getD []) with
      ⟨attachments, hok, hread⟩ | ⟨index, value, k, part, hvalue, hpart, herror⟩
    · rw [hok]
      exact .passedBy (fun v hv => not_broken_attachments hbody hread ⟨v, hv⟩) trivial
    · rw [herror]
      exact .refusedBy (.attachments hbody hvalue hpart)
  have hpairing : Checked (Broken scheme request) [pairing] (fun _ => True)
      (Query.checkPairing draft.provider draft.model) := by
    rcases checkPairing_cases scheme hbody with ⟨hok, hpaired⟩ | ⟨v, herror, hbroken⟩
    · rw [hok]
      exact .passedBy (fun v hv => not_broken_pairing hbody hpaired ⟨v, hv⟩) trivial
    · rw [herror]
      exact .refusedBy hbroken
  -- The three checks in their order, and behind them nothing that is told about.
  exact .bind hquestion fun _ _ => .bind hattachments fun _ _ => .bind hpairing fun _ _ =>
    .passed (fun rule hrule => absurd hrule List.not_mem_nil) trivial

/-- What is told while a query is read. -/
theorem readQuery_told (scheme : Scheme γ) (identity : Identity) (request : Http.Request) :
    Told (Broken scheme request) all told (.queryRejected identity.userId)
      (Service.readQuery identity request).2 := by
  unfold Service.readQuery
  cases hbody : request.readJson QueryDraft with
  | error flaw =>
    refine .quiet ?_ rfl
    intro rule hrule v hbroken
    cases hbroken with
    | body _ => exact absurd hrule (by decide)
    | question hbody' _ | attachments hbody' _ _ | provider hbody' _ _ | model hbody' _ _
    | attachmentTypes hbody' _ _ _ | conversation hbody' _ _ =>
      exact nomatch hbody.symm.trans hbody'
  | ok draft =>
    have hchecked : Checked (Broken scheme request) told (fun _ => True) (Query.ofDraft draft) :=
      ofDraft_checked hbody
    cases hresult : Query.ofDraft draft with
    | error v =>
      rw [hresult] at hchecked
      cases hchecked with
      | refused hfirst hbroken =>
        simp only [hresult]
        exact .rejected (.there (not_broken_body hbody) (hfirst.append _)) hbroken hfirst.mem rfl
    | ok checked =>
      rw [hresult] at hchecked
      cases hchecked with
      | passed hkept _ =>
        simp only [hresult]
        -- The check of the types gives its report, but no event.
        refine .quiet hkept ?_
        cases Attachment.checkTypes (checked.attachments.getD []) <;> rfl

end QueryRule

/-! ## Feedback -/

namespace FeedbackRule

/-- The rules that feedback is told to be rejected by: all but the one of the body. -/
def told : List FeedbackRule :=
  all.tail

variable {γ : Type}

/-- What is told while feedback is read. -/
theorem readFeedback_told (scheme : Scheme γ) (identity : Identity) (request : Http.Request) :
    Told (Broken scheme (request.readJson FeedbackDraft)) all told
      (.feedbackRejected identity.userId) (Service.readFeedback scheme identity request).2 := by
  unfold Service.readFeedback
  cases hbody : request.readJson FeedbackDraft with
  | error flaw =>
    refine .quiet ?_ rfl
    intro rule hrule v hbroken
    cases hbroken with
    | body => exact absurd hrule (by decide)
  | ok draft =>
    have hbodyKept : ¬∃ v, Broken scheme (.ok draft) body v := by
      rintro ⟨v, hbroken⟩
      cases hbroken
    have hchecked : Checked (Broken scheme (.ok draft)) all.tail (IsReadAs draft)
        (Feedback.ofDraft scheme draft) := ofDraft_checked draft
    cases hresult : Feedback.ofDraft scheme draft with
    | error v =>
      rw [hresult] at hchecked
      cases hchecked with
      | refused hfirst hbroken =>
        simp only [hresult]
        exact .rejected (.there hbodyKept hfirst) hbroken hfirst.mem rfl
    | ok checked =>
      rw [hresult] at hchecked
      cases hchecked with
      | passed hkept _ =>
        simp only [hresult]
        exact .quiet hkept rfl

end FeedbackRule

/-! ## Requests -/

/-- What comes of an answer of the language model is no warning. -/
theorem PendingQuery.warnings_finish {γ : Type} (p : PendingQuery)
    (delivered : Except Fault Summary) (m : Memory γ) :
    Event.warnings (p.finish delivered m).events = [] := by
  cases delivered with
  | error fault => rfl
  | ok summary =>
    refine List.filter_eq_nil_iff.2 fun e he => ?_
    obtain ⟨key, _, rfl⟩ := List.mem_map.1 he
    simp [Event.level]

namespace Service

variable {γ σ : Type} (s : Service γ) (model : LanguageModel σ)

/-- Loading a history warns of nothing. -/
theorem warnings_load (identity : Identity) (query : Query) (m : Memory γ) :
    Event.warnings (s.load identity query m).events = [] := by
  unfold load
  split <;> rfl

/-- A request warns of nothing more once it is with the language model. -/
theorem warnings_handle (now : UInt64) (request : Http.Request) (m : Memory γ) (state : σ) :
    Event.warnings (s.handle model now request m state).1.events =
      Event.warnings (s.start now request m).events := by
  unfold handle
  rcases s.start now request m with ⟨progress, memory, events⟩
  cases progress with
  | answered response => rfl
  | asking pending =>
    have hfinish := pending.warnings_finish (model.answer pending.prompt state).1 memory
    show Event.warnings (events ++ (pending.finish _ memory).events) = Event.warnings events
    rw [Event.warnings_append, hfinish, List.append_nil]

/-- All warnings about a query are given while it is read. -/
theorem warnings_beginQuery (identity : Identity) (request : Http.Request) (m : Memory γ) :
    Event.warnings (s.beginQuery identity request m).events =
      Event.warnings (readQuery identity request).2 := by
  unfold beginQuery
  rcases readQuery identity request with ⟨result, events⟩
  cases result with
  | error violation => rfl
  | ok query =>
    show Event.warnings (events ++ (s.load identity query m).events) = Event.warnings events
    rw [Event.warnings_append, warnings_load, List.append_nil]

section Rejection

variable {a : Arrival} {w : Situation γ σ} {identity : Identity}
  (hmethod : a.request.method = "POST")
  (hidentity : s.authenticator.authenticate a.now a.request.credentials = .ok identity)

include hmethod hidentity

/-- What is told of a query of a known caller. -/
theorem query_told (hpath : a.request.path = "/v1/query") :
    Told (QueryRule.Broken s.scheme a.request) QueryRule.all QueryRule.told
      (.queryRejected identity.userId)
      (s.handle model a.now a.request w.memory w.state).1.events := by
  refine (QueryRule.readQuery_told s.scheme identity a.request).congr ?_
  rw [warnings_handle, s.start_query w.memory hpath hmethod hidentity]
  exact s.warnings_beginQuery identity a.request w.memory

/-- A query of a known caller is answered with a report of the rule that is broken first, and the
language model is not called. -/
theorem response_of_rejected_query (hpath : a.request.path = "/v1/query") {index : Nat}
    {rule : QueryRule} {v : Violation}
    (hfirst : IsFirst (fun rule => ∃ v, QueryRule.Broken s.scheme a.request rule v) QueryRule.all
      index rule) (hbroken : QueryRule.Broken s.scheme a.request rule v) :
    v.IsReported rule.code (s.turn model a w).1.response ∧ (s.turn model a w).1.calls = [] := by
  rcases s.turn_query_cases model hpath hmethod hidentity (w := w) with
    ⟨v', hfirst', hturn⟩ | ⟨_, _, _, _, _, _, _, _, _, hkept⟩
  · obtain rfl := hfirst'.unique ⟨index, rule, hfirst, hbroken⟩
    rw [hturn, ← hbroken.code_eq]
    exact ⟨Fault.isReported_response v', rfl⟩
  · exact absurd ⟨v, hbroken⟩ (hkept rule)

/-- What is told of feedback of a known caller, while feedback is taken. -/
theorem feedback_told (hpath : a.request.path = "/v1/feedback") (htakes : s.takesFeedback = true) :
    Told (FeedbackRule.Broken s.scheme (a.request.readJson FeedbackDraft)) FeedbackRule.all
      FeedbackRule.told (.feedbackRejected identity.userId)
      (s.handle model a.now a.request w.memory w.state).1.events := by
  refine (FeedbackRule.readFeedback_told s.scheme identity a.request).congr ?_
  have hserves : (Route.guarded .feedback).serves a.request.method = true := by
    rw [hmethod]
    decide
  have hhead : a.request.method ≠ "HEAD" := by
    rw [hmethod]
    decide
  rw [warnings_handle, s.start_guarded w.memory hpath hserves hhead hidentity]
  show Event.warnings (s.takeFeedback identity a.request).2 = _
  unfold takeFeedback
  rw [if_pos htakes]
  rcases readFeedback s.scheme identity a.request with ⟨result, events⟩
  cases result <;> rfl

/-- Feedback of a known caller is answered with a report of the rule that is broken first. -/
theorem response_of_rejected_feedback (hpath : a.request.path = "/v1/feedback")
    (htakes : s.takesFeedback = true) {index : Nat} {rule : FeedbackRule} {v : Violation}
    (hfirst : IsFirst
      (fun rule => ∃ v, FeedbackRule.Broken s.scheme (a.request.readJson FeedbackDraft) rule v)
      FeedbackRule.all index rule)
    (hbroken : FeedbackRule.Broken s.scheme (a.request.readJson FeedbackDraft) rule v) :
    v.IsReported rule.code (s.turn model a w).1.response := by
  have hchecked := FeedbackRule.readFeedback_checked s.scheme identity a.request
  rw [s.response_of_feedback model hpath w hmethod hidentity]
  cases hread : (readFeedback s.scheme identity a.request).1 with
  | error v' =>
    rw [hread] at hchecked
    cases hchecked with
    | refused hfirst' hbroken' =>
      obtain ⟨rfl, rfl⟩ := FeedbackRule.Broken.unique_of_first hfirst' hfirst hbroken' hbroken
      rw [s.takeFeedback_of_read htakes hread, ← hbroken.code_eq]
      exact Fault.isReported_response v'
  | ok checked =>
    rw [hread] at hchecked
    cases hchecked with
    | passed hkept _ => exact absurd hbroken (hkept rule rule.mem_all v)

end Rejection

/-- The warnings about a request, as they are told. -/
def warnings (a : Arrival) (w : Situation γ σ) : List (String × List (String × Detail)) :=
  (Event.warnings (s.handle model a.now a.request w.memory w.state).1.events).map Event.line

/-- A query or feedback of a known caller, while feedback is taken, that breaks a rule is answered
with a report of the rule that is broken first, and the language model is not called. There is one
warning then, which names the user and words the violation that the answer reports, if that rule is
one that is told about, and none if it is not. There is no warning about a payload that breaks no
rule. -/
theorem warnings_of_rejection (a : Arrival) (w : Situation γ σ) (identity : Identity)
    (hmethod : a.request.method = "POST")
    (hidentity : s.authenticator.authenticate a.now a.request.credentials = .ok identity) :
    (a.request.path = "/v1/query" →
      (∀ index rule v,
        IsFirst (fun rule => ∃ v, QueryRule.Broken s.scheme a.request rule v) QueryRule.all
          index rule →
        QueryRule.Broken s.scheme a.request rule v →
          v.IsReported rule.code (s.turn model a w).1.response ∧
            (s.turn model a w).1.calls = [] ∧
            s.warnings model a w =
              if rule ∈ [.question, .attachments, .pairing] then
                [("Rejected query request: " ++ v.message, [("user_id", .text identity.userId)])]
              else []) ∧
      ((∀ rule v, ¬QueryRule.Broken s.scheme a.request rule v) → s.warnings model a w = [])) ∧
    (a.request.path = "/v1/feedback" → s.takesFeedback = true →
      let sent := a.request.readJson FeedbackDraft
      (∀ index rule v,
        IsFirst (fun rule => ∃ v, FeedbackRule.Broken s.scheme sent rule v) FeedbackRule.all
          index rule →
        FeedbackRule.Broken s.scheme sent rule v →
          v.IsReported rule.code (s.turn model a w).1.response ∧
            (s.turn model a w).1.calls = [] ∧
            s.warnings model a w =
              if rule = .body then []
              else
                [("Rejected feedback request: " ++ v.message,
                  [("user_id", .text identity.userId)])]) ∧
      ((∀ rule v, ¬FeedbackRule.Broken s.scheme sent rule v) → s.warnings model a w = [])) := by
  constructor
  · intro hpath
    have htold := s.query_told model hmethod hidentity hpath (w := w)
    constructor
    · intro index rule v hfirst hbroken
      obtain ⟨hresponse, hcalls⟩ :=
        s.response_of_rejected_query model hmethod hidentity hpath hfirst hbroken (w := w)
      refine ⟨hresponse, hcalls, ?_⟩
      unfold warnings
      rw [htold.warnings_of_first (fun _ _ _ h h' => h.unique h') hfirst hbroken]
      cases rule <;> rfl
    · intro hkept
      unfold warnings
      rw [htold.warnings_of_kept hkept]
      rfl
  · intro hpath htakes sent
    have htold := s.feedback_told model hmethod hidentity hpath htakes (w := w)
    constructor
    · intro index rule v hfirst hbroken
      refine ⟨s.response_of_rejected_feedback model hmethod hidentity hpath htakes hfirst hbroken,
        (s.turn_of_feedback_path model hpath w).1, ?_⟩
      unfold warnings
      rw [htold.warnings_of_first (fun _ _ _ h h' => h.unique h') hfirst hbroken]
      cases rule <;> rfl
    · intro hkept
      unfold warnings
      rw [htold.warnings_of_kept hkept]
      rfl

/-- Feedback that names no conversation is told to be rejected. -/
theorem warnings_of_missing_conversation :
    let s : Service Entropy := ⟨Scheme.uuid, Authenticator.anonymous, true⟩
    let a : Arrival :=
      ⟨0,
        { method := "POST", target := "/v1/feedback"
          headers := [("content-type", Utf8.encode "application/json")]
          body := Utf8.encode "\x7b\x7d" }⟩
    let w : Situation Entropy Unit := .initial 1 5 ⟨fun _ => Vector.replicate 16 0, 0⟩ ()
    a.request.method = "POST" ∧
      s.authenticator.authenticate a.now a.request.credentials = .ok Identity.anonymous ∧
      a.request.path = "/v1/feedback" ∧ s.takesFeedback = true ∧
      s.warnings .echo a w =
        [("Rejected feedback request: Required field 'conversation_id' is missing",
          [("user_id", .text Identity.anonymous.userId)])] := by
  intro s a w
  have hpath : a.request.path = "/v1/feedback" := by decide +kernel
  have hidentity : s.authenticator.authenticate a.now a.request.credentials =
    .ok Identity.anonymous := rfl
  have hsent : a.request.readJson FeedbackDraft = .ok ⟨none, none, none, none, none⟩ := by
    decide +kernel
  have hbroken : FeedbackRule.Broken s.scheme (a.request.readJson FeedbackDraft) .conversation
      (.missingField "conversation_id") := by
    rw [hsent]
    exact .conversation rfl
  have hfirst : IsFirst
      (fun rule => ∃ v, FeedbackRule.Broken s.scheme (a.request.readJson FeedbackDraft) rule v)
      FeedbackRule.all 1 .conversation := by
    refine .there ?_ (.here ⟨_, hbroken⟩)
    rw [hsent]
    rintro ⟨v, hnone⟩
    cases hnone
  obtain ⟨_, hfeedback⟩ := s.warnings_of_rejection .echo a w Identity.anonymous rfl hidentity
  obtain ⟨hrejected, _⟩ := hfeedback hpath rfl
  have hmessage : "Rejected feedback request: " ++
      (Violation.missingField "conversation_id").message =
    "Rejected feedback request: Required field 'conversation_id' is missing" := by decide
  obtain ⟨_, _, hwarnings⟩ := hrejected 1 .conversation _ hfirst hbroken
  rw [hmessage, if_neg (by decide)] at hwarnings
  exact ⟨rfl, hidentity, hpath, rfl, hwarnings⟩

/-- A query is rejected for the id of its conversation, and there is no warning. -/
theorem silent_malformed_conversation :
    let s : Service Entropy := ⟨Scheme.uuid, Authenticator.anonymous, true⟩
    let a : Arrival :=
      ⟨0, .query [] "\x7b\"query\":\"q\",\"conversation_id\":\"x\"\x7d"⟩
    let w : Situation Entropy Unit := .initial 1 5 ⟨fun _ => Vector.replicate 16 0, 0⟩ ()
    a.request.path = "/v1/query" ∧ a.request.method = "POST" ∧
      s.authenticator.authenticate a.now a.request.credentials = .ok Identity.anonymous ∧
      (s.turn .echo a w).1.calls = [] ∧
      (∃ report : FailureReport, (s.turn .echo a w).1.response.Tells 422 report ∧
        report.detail.entries =
          [("cause", "Improper conversation ID x"), ("code", "malformed_conversation_id"),
            ("field", "conversation_id"), ("response", "Invalid request payload")]) ∧
      s.warnings .echo a w = [] := by
  intro s a w
  have hpath : a.request.path = "/v1/query" := by decide +kernel
  have hidentity : s.authenticator.authenticate a.now a.request.credentials =
    .ok Identity.anonymous := rfl
  have hread : (readQuery Identity.anonymous a.request).1 =
      .ok ⟨"q", some "x", none, none, none⟩ := by
    decide +kernel
  have hresolve : ConversationId.resolve s.scheme w.memory.source (some "x") =
      (.error (.malformedConversationId "x"), w.memory.source) := by
    have hrefused : s.scheme.accepts "x" = false := by decide +kernel
    rcases ConversationId.resolve_cases s.scheme w.memory.source (some "x") with
      ⟨text, htext, _, hresolve⟩ | ⟨_, _, _, haccepts, _⟩
    · obtain rfl := Option.some.inj htext
      exact hresolve
    · exact absurd (haccepts "x" rfl) (by simp [hrefused])
  have hmessage : (Violation.malformedConversationId "x").message =
    "Improper conversation ID x" := by decide
  have hturn := s.turn_of_unresolved .echo hpath rfl hidentity hread hresolve (w := w)
  refine ⟨hpath, rfl, hidentity, ?_, ?_, by decide +kernel⟩
  · rw [hturn]
  · rw [hturn, ← hmessage]
    exact Fault.isReported_response (.malformedConversationId "x")

end Service

end Colloquy
