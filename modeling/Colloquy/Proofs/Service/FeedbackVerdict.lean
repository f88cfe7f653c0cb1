import Colloquy.Proofs.Service.Effects
import Colloquy.Proofs.Service.FeedbackRules

/-!
# The verdict on feedback

While feedback is not taken, a known caller is answered with 403, whatever the headers and the body
are. Else the answer reports the first rule that is broken, in the order of `FeedbackRule.all`, or
it is the receipt if none is (`Service.feedback_verdict`). Feedback changes nothing that is
remembered.
-/

set_option autoImplicit false

namespace Colloquy

namespace Service

variable {γ σ : Type} (s : Service γ) (model : LanguageModel σ)

section Feedback

variable {a : Arrival} (hpath : a.request.path = "/v1/feedback") (w : Situation γ σ)

include hpath

/-- Whoever sends feedback, however, leaves all that is remembered. -/
theorem turn_of_feedback_path :
    (s.turn model a w).1.calls = [] ∧ (s.turn model a w).2 = w := by
  have hother : ¬(a.request.path = "/v1/query" ∧ a.request.method = "POST" ∧
      ∃ identity, s.authenticator.authenticate a.now a.request.credentials = .ok identity) := by
    rintro ⟨hquery, _⟩
    rw [hpath] at hquery
    exact absurd hquery (by decide)
  obtain ⟨hcalls, hkept, _⟩ := s.turn_of_no_query model hother w
  exact ⟨hcalls, hkept⟩

/-- Feedback of a known caller is answered with what comes of taking it. -/
theorem response_of_feedback {identity : Identity} (hmethod : a.request.method = "POST")
    (hidentity : s.authenticator.authenticate a.now a.request.credentials = .ok identity) :
    (s.turn model a w).1.response = .ofResult (s.takeFeedback identity a.request).1 := by
  have hroute : a.request.path = (Route.guarded .feedback).path := hpath
  have hserves : (Route.guarded .feedback).serves a.request.method = true := by
    rw [hmethod]
    decide
  have hhead : a.request.method ≠ "HEAD" := by
    rw [hmethod]
    decide
  have hstart := s.start_guarded w.memory hroute hserves hhead hidentity
  have hresult : (s.start a.now a.request w.memory).result =
      .answered (.ofResult (s.takeFeedback identity a.request).1) := by
    rw [hstart]
    rfl
  rw [s.turn_of_answered model hresult]

end Feedback

/-- What comes of taking feedback is what its check says. -/
theorem takeFeedback_of_read {identity : Identity} {request : Http.Request}
    {result : Except Violation Feedback} (htakes : s.takesFeedback = true)
    (hread : (readFeedback s.scheme identity request).1 = result) :
    (s.takeFeedback identity request).1 =
      (result.map fun _ => FeedbackReceipt.received).mapError .rejected := by
  subst hread
  unfold takeFeedback
  rw [if_pos htakes]
  rcases readFeedback s.scheme identity request with ⟨checked, events⟩
  cases checked <;> rfl

/-- While feedback is not taken, feedback of a known caller is answered with 403. Else it is
answered with a report of the first rule that is broken; it is answered with success exactly if none
is, and then what was sent has been kept by the checks. No feedback calls the language model or
changes anything that is remembered, whoever sends it. -/
theorem feedback_verdict (a : Arrival) (w : Situation γ σ)
    (hpath : a.request.path = "/v1/feedback") :
    (s.turn model a w).1.calls = [] ∧ (s.turn model a w).2 = w ∧
    ∀ identity, a.request.method = "POST" →
      s.authenticator.authenticate a.now a.request.credentials = .ok identity →
      let response := (s.turn model a w).1.response
      let sent := a.request.readJson FeedbackDraft
      (s.takesFeedback = false →
        response.Tells 403 (ForbiddenReport.mk "Feedback is disabled")) ∧
      (s.takesFeedback = true →
        (∀ index rule v,
          IsFirst (fun rule => ∃ v, FeedbackRule.Broken s.scheme sent rule v) FeedbackRule.all
            index rule →
          FeedbackRule.Broken s.scheme sent rule v → v.IsReported rule.code response) ∧
        (response.status = 200 ↔ ∀ rule v, ¬FeedbackRule.Broken s.scheme sent rule v) ∧
        (response.status = 200 →
          response.Tells 200 (FeedbackReceipt.mk "feedback received") ∧
          ∃ draft checked, sent = .ok draft ∧ Feedback.ofDraft s.scheme draft = .ok checked ∧
            FeedbackRule.IsReadAs draft checked)) := by
  obtain ⟨hcalls, hkept⟩ := s.turn_of_feedback_path model hpath w
  refine ⟨hcalls, hkept, ?_⟩
  intro identity hmethod hidentity response sent
  have hresponse : response = .ofResult (s.takeFeedback identity a.request).1 :=
    s.response_of_feedback model hpath w hmethod hidentity
  constructor
  · intro hdisabled
    rw [hresponse]
    unfold takeFeedback
    rw [hdisabled]
    exact Http.Response.tells_json (alwaysTwoWay_of_shape _ (by decide) (by decide)) 403 _
  · intro htakes
    obtain ⟨result, hread⟩ : ∃ result, (readFeedback s.scheme identity a.request).1 = result :=
      ⟨_, rfl⟩
    have hchecked := FeedbackRule.readFeedback_checked s.scheme identity a.request
    rw [hread] at hchecked
    rw [s.takeFeedback_of_read htakes hread] at hresponse
    cases hchecked with
    | refused hfirst hbroken =>
      have hfailure : response.status ≠ 200 := by
        rw [hresponse]
        exact status_response_ne (.rejected _)
      refine ⟨?_, ?_, fun hstatus => absurd hstatus hfailure⟩
      · intro index rule v hfirst' hbroken'
        obtain ⟨rfl, rfl⟩ := FeedbackRule.Broken.unique_of_first hfirst hfirst' hbroken hbroken'
        rw [hresponse, ← hbroken.code_eq]
        exact Fault.isReported_response _
      · exact iff_of_false hfailure fun hnone => hnone _ _ hbroken
    | passed hkept hgood =>
      obtain ⟨draft, hsent, hreads⟩ := hgood
      have hnone : ∀ rule v, ¬FeedbackRule.Broken s.scheme sent rule v :=
        fun rule => hkept rule rule.mem_all
      have hreceipt : response.Tells 200 FeedbackReceipt.received := hresponse ▸
        Http.Response.tells_json (alwaysTwoWay_of_shape _ (by decide) (by decide)) 200 _
      refine ⟨fun _ rule v _ hbroken => absurd hbroken (hnone rule v), ?_, fun _ => ⟨hreceipt, ?_⟩⟩
      · exact iff_of_true (hresponse ▸ rfl) hnone
      · refine ⟨draft, _, hsent, ?_, hreads⟩
        rw [FeedbackRule.readFeedback_eq, hsent] at hread
        exact hread

/-- Feedback with a malformed id, without a question and with a number that is no vote is answered
with the id. -/
theorem feedback_verdict_malformed_id :
    let s : Service Entropy := ⟨Scheme.uuid, Authenticator.anonymous, true⟩
    let a : Arrival :=
      ⟨0,
        { method := "POST", target := "/v1/feedback"
          headers := [("content-type", Utf8.encode "application/json")]
          body := Utf8.encode "\x7b\"sentiment\":2,\"conversation_id\":\"x\"\x7d" }⟩
    let w : Situation Entropy Unit := .initial 1 5 ⟨fun _ => Vector.replicate 16 0, 0⟩ ()
    a.request.path = "/v1/feedback" ∧ a.request.method = "POST" ∧
      s.authenticator.authenticate a.now a.request.credentials = .ok Identity.anonymous ∧
      (s.turn .echo a w).2 = w ∧
      ∃ report : FailureReport, (s.turn .echo a w).1.response.Tells 422 report ∧
        report.detail.entries =
          [("cause", "Improper conversation ID x"), ("code", "malformed_conversation_id"),
            ("field", "conversation_id"), ("response", "Invalid request payload")] := by
  intro s a w
  have hpath : a.request.path = "/v1/feedback" := by decide +kernel
  have hmethod : a.request.method = "POST" := rfl
  have hidentity : s.authenticator.authenticate a.now a.request.credentials =
    .ok Identity.anonymous := rfl
  have hsent : a.request.readJson FeedbackDraft =
      .ok ⟨some "x", none, none, some (.integer 2), none⟩ := by
    decide +kernel
  have hrefused : s.scheme.accepts "x" = false := by decide +kernel
  have hbroken : FeedbackRule.Broken s.scheme (a.request.readJson FeedbackDraft) .wellFormed
      (.malformedConversationId "x") := by
    rw [hsent]
    exact .wellFormed rfl hrefused
  have hfirst : IsFirst
      (fun rule => ∃ v, FeedbackRule.Broken s.scheme (a.request.readJson FeedbackDraft) rule v)
      FeedbackRule.all 2 .wellFormed := by
    refine .there ?_ (.there ?_ (.here ⟨_, hbroken⟩))
    · rw [hsent]
      rintro ⟨v, hnone⟩
      cases hnone
    · rw [hsent]
      rintro ⟨v, hnone⟩
      cases hnone with
      | conversation hid => exact nomatch hid
  obtain ⟨_, hkept, hverdict⟩ := s.feedback_verdict .echo a w hpath
  obtain ⟨_, htakes⟩ := hverdict Identity.anonymous hmethod hidentity
  have hmessage : (Violation.malformedConversationId "x").message =
    "Improper conversation ID x" := by decide
  obtain ⟨report, htells, hentries⟩ := (htakes rfl).1 2 .wellFormed _ hfirst hbroken
  rw [hmessage] at hentries
  exact ⟨hpath, hmethod, hidentity, hkept, report, htells, hentries⟩

end Service

end Colloquy
