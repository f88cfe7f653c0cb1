import Colloquy.Http.JsonBody
import Colloquy.Report.Status
import Colloquy.Service

/-!
# Taking feedback

Feedback is checked and told about; it is not kept. While feedback is not taken, nothing of a
request is looked at.
-/

set_option autoImplicit false

namespace Colloquy.Service

/-- The checked feedback of a request. -/
def readFeedback {γ : Type} (scheme : Scheme γ) (identity : Identity) (request : Http.Request) :
    Except Violation Feedback × List Event :=
  match request.readJson FeedbackDraft with
  | .error flaw => (.error (.unreadableBody flaw.message), [])
  | .ok draft =>
    let checking := Event.checkingFeedback draft.sentiment draft.userFeedback.isSome
    match Feedback.ofDraft scheme draft with
    | .error violation =>
      (.error violation, [checking, .feedbackRejected identity.userId violation])
    | .ok feedback => (.ok feedback, [checking, .feedbackTaken identity.userId feedback])

/-- Takes the feedback of a request. -/
def takeFeedback {γ : Type} (s : Service γ) (identity : Identity) (request : Http.Request) :
    Except Fault FeedbackReceipt × List Event :=
  if s.takesFeedback then
    match readFeedback s.scheme identity request with
    | (.error violation, events) => (.error (.rejected violation), events)
    | (.ok _, events) => (.ok FeedbackReceipt.received, events)
  else (.error (.forbidden "Feedback is disabled"), [])

end Colloquy.Service
