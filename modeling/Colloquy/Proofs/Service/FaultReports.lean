import Colloquy.Proofs.Service.Run
import Colloquy.Proofs.Shape.TwoWay

/-!
# What clients are told

What a client makes of an answer that it has read, whatever the service made it of. A value is told
by the status and by a body that is read as that value (`Http.Response.Tells`), a violation by the
details of the report that is read (`Violation.IsReported`).

The answer to a fault has the status of its kind, and its body, read as the report of that status,
has the texts of the fault in it unchanged, whatever they are (`Fault.IsTold`). So has the answer to
a query that the language model fails on (`Service.faults_are_told`).
-/

set_option autoImplicit false

namespace Colloquy

/-- What a client is told by an answer: it has a status, and its body is the JSON text of a value,
which is read from it. -/
structure Http.Response.Tells {α : Type} [Encoded α] (response : Http.Response) (status : Nat)
    (value : α) : Prop where
  status_eq : response.status = status
  contentType_eq : response.contentType = some "application/json"
  /-- No methods are named, as the one that was used is served. -/
  allow_eq : response.allow = none
  body_eq : response.body = Encoded.encode value
  decode_body : Encoded.decode (Utf8.encode response.body) = .ok value

/-- An answer that is made of a value tells the value, if it is of a type that is read back. -/
theorem Http.Response.tells_json {α : Type} [Encoded α] (htype : AlwaysTwoWay α) (status : Nat)
    (value : α) : (Http.Response.json status value).Tells status value :=
  ⟨rfl, rfl, rfl, rfl, htype.decode_encode value trivial⟩

/-- The answer with an id and what the language model has delivered, with one reference to every
passage. -/
def Summary.toldUnder (summary : Summary) (id : ConversationId) : Answer where
  conversationId := id
  response := summary.response
  references := summary.passages.map fun p => ⟨p.url, p.title⟩
  truncated := summary.historyTruncated

/-- What is delivered is told with the id of the conversation. -/
theorem Summary.tells_ofSummary (summary : Summary) (id : ConversationId) :
    (Http.Response.json 200 (Answer.ofSummary id summary)).Tells 200 (summary.toldUnder id) :=
  Http.Response.tells_json (alwaysTwoWay_of_shape Answer (by decide) (by decide)) 200 _

/-- A violation of the rule with a code is reported: a client is told the wording of the violation,
the code and the field. -/
def Violation.IsReported (v : Violation) (code : String) (response : Http.Response) : Prop :=
  ∃ report : FailureReport, response.Tells 422 report ∧ report.detail.entries =
    [("cause", v.message), ("code", code), ("field", v.field),
      ("response", "Invalid request payload")]

namespace FailureReport

variable (response cause : String)

/-- The details of a failure, in the order of their names. -/
theorem entries_make : (make response cause []).detail.entries =
    [("cause", cause), ("response", response)] := by
  have hnames : ["cause", "response"].Pairwise (· < ·) := by decide
  exact lastByName_of_perm (.swap _ _ _) (isSorted_of_names hnames)

/-- The details of a failure of a payload, in the order of their names. -/
theorem entries_make_violation (field code : String) :
    (make response cause [("field", field), ("code", code)]).detail.entries =
      [("cause", cause), ("code", code), ("field", field), ("response", response)] := by
  -- The first entry goes to the end, and the two in front of it change places.
  have hlast : ([("response", response)] ++
      [("cause", cause), ("field", field), ("code", code)]).Perm
      ([("cause", cause), ("field", field), ("code", code)] ++ [("response", response)]) :=
    List.perm_append_comm
  have hnames : ["cause", "code", "field", "response"].Pairwise (· < ·) := by decide
  exact lastByName_of_perm (hlast.trans ((List.Perm.swap _ _ _).cons _)) (isSorted_of_names hnames)

end FailureReport

namespace Fault

/-- What a body tells of a fault: read as the report of its status, it has just these texts. -/
def IsTold (fault : Fault) (body : Bytes) : Prop :=
  match fault with
  | rejected v => ∃ report : FailureReport, Encoded.decode body = .ok report ∧
      report.detail.entries = [("cause", v.message), ("code", v.code), ("field", v.field),
        ("response", "Invalid request payload")]
  | unauthenticated _ => Encoded.decode body = .ok (UnauthorizedReport.mk fault.message)
  | forbidden reason => Encoded.decode body = .ok (ForbiddenReport.mk reason)
  | promptTooLong reason => ∃ report : LengthReport, Encoded.decode body = .ok report ∧
      report.detail.entries = [("cause", reason), ("response", "Prompt is too long")]
  | backend response cause => ∃ report : FailureReport, Encoded.decode body = .ok report ∧
      report.detail.entries = [("cause", cause), ("response", response)]
  | settings _ | serialization _ | internal _ =>
    ∃ report : FailureReport, Encoded.decode body = .ok report ∧
      report.detail.entries = [("cause", fault.message), ("response", "Internal server error")]

/-- The text for a caller who is not known is worded as the fault is for the log. -/
theorem response_unauthenticated (reason : String) : (unauthenticated reason).response =
    .json 401 (UnauthorizedReport.mk (unauthenticated reason).message) :=
  rfl

/-- Reports of failure are read back from what is written of them. -/
theorem decode_failureReport (report : FailureReport) :
    Encoded.decode (Utf8.encode (Encoded.encode report)) = .ok report :=
  (alwaysTwoWay_of_shape _ (by decide) (by decide)).decode_encode report trivial

/-- The body of the answer to a fault tells of it. -/
theorem isTold_response (fault : Fault) : fault.IsTold (Utf8.encode fault.response.body) := by
  cases fault with
  | rejected v => exact ⟨_, decode_failureReport _, FailureReport.entries_make_violation _ _ _ _⟩
  | unauthenticated reason =>
    rw [response_unauthenticated]
    exact (alwaysTwoWay_of_shape UnauthorizedReport (by decide) (by decide)).decode_encode _ trivial
  | forbidden reason =>
    exact (alwaysTwoWay_of_shape ForbiddenReport (by decide) (by decide)).decode_encode _ trivial
  | promptTooLong reason =>
    refine ⟨LengthReport.make reason, ?_, FailureReport.entries_make _ _⟩
    exact (alwaysTwoWay_of_shape LengthReport (by decide) (by decide)).decode_encode _ trivial
  | backend response cause => exact ⟨_, decode_failureReport _, FailureReport.entries_make _ _⟩
  | settings reason => exact ⟨_, decode_failureReport _, FailureReport.entries_make _ _⟩
  | serialization reason => exact ⟨_, decode_failureReport _, FailureReport.entries_make _ _⟩
  | internal reason => exact ⟨_, decode_failureReport _, FailureReport.entries_make _ _⟩

/-- The answer to a fault has the status of its kind and is a JSON text. -/
theorem status_response (fault : Fault) :
    fault.response.status = fault.status ∧
      fault.response.contentType = some "application/json" := by
  cases fault <;> exact ⟨rfl, rfl⟩

/-- A fault is answered: with the status of its kind, and with a JSON text that tells of it. -/
def IsAnswered (fault : Fault) (response : Http.Response) : Prop :=
  response.status = fault.status ∧ response.contentType = some "application/json" ∧
    fault.IsTold (Utf8.encode response.body)

/-- The answer to a fault is one. -/
theorem isAnswered_response (fault : Fault) : fault.IsAnswered fault.response :=
  ⟨fault.status_response.1, fault.status_response.2, fault.isTold_response⟩

/-- The answer to a payload that is rejected reports the violation. -/
theorem isReported_response (v : Violation) : v.IsReported v.code (rejected v).response :=
  ⟨_, Http.Response.tells_json (alwaysTwoWay_of_shape _ (by decide) (by decide)) 422 _,
    FailureReport.entries_make_violation _ _ _ _⟩

end Fault

namespace Service

variable {γ σ : Type} (s : Service γ) (model : LanguageModel σ)

/-- A query that the language model fails on is answered with its fault. -/
theorem response_of_failed_call {a : Arrival} {w : Situation γ σ} {call : Call} {fault : Fault}
    (hcall : call ∈ (s.turn model a w).1.calls) (hfault : call.delivered = .error fault) :
    (model.answer call.prompt w.state).1 = .error fault ∧
      (s.turn model a w).1.response = fault.response := by
  rcases s.turn_cases model a w with
    ⟨hnone, _⟩ | ⟨identity, query, id, source, delivered, _, _, _, hcalls, hasked, hends⟩
  · rw [hnone] at hcall
    exact absurd hcall List.not_mem_nil
  · rw [hcalls, List.mem_singleton] at hcall
    subst hcall
    obtain rfl : delivered = .error fault := hfault
    refine ⟨congrArg Prod.fst hasked, ?_⟩
    rcases hends with ⟨summary, hsummary, _⟩ | ⟨other, hother, hresponse, _⟩
    · exact absurd hsummary (by simp)
    · rw [hresponse, Except.error.inj hother]

/-- Every fault is answered with the status of its kind and with a JSON text that has its texts in
it. So is every fault that the language model delivers for a query. -/
theorem faults_are_told :
    (∀ fault : Fault, fault.response.status = fault.status ∧
      fault.response.contentType = some "application/json" ∧
      fault.IsTold (Utf8.encode fault.response.body)) ∧
    ∀ (a : Arrival) (w : Situation γ σ) (call : Call) (fault : Fault),
      call ∈ (s.turn model a w).1.calls → call.delivered = .error fault →
        (model.answer call.prompt w.state).1 = .error fault ∧
        (s.turn model a w).1.response.status = fault.status ∧
        (s.turn model a w).1.response.contentType = some "application/json" ∧
        fault.IsTold (Utf8.encode (s.turn model a w).1.response.body) := by
  refine ⟨Fault.isAnswered_response, fun a w call fault hcall hfault => ?_⟩
  obtain ⟨hdelivered, hresponse⟩ := s.response_of_failed_call model hcall hfault
  rw [hresponse]
  exact ⟨hdelivered, fault.isAnswered_response⟩

/-- A language model that fails with a quotation mark, a line end and a letter beyond ASCII in the
texts of its fault: all of them are told. -/
theorem faults_are_told_quoted_backend :
    let fault : Fault := .backend "No \"answer\"" "é\n"
    let model : LanguageModel Unit := ⟨fun _ state => (.error fault, state)⟩
    let s : Service Entropy := ⟨Scheme.uuid, .anonymous, true⟩
    let w : Situation Entropy Unit := .initial 1 1024 ⟨fun _ => Vector.replicate 16 0, 0⟩ ()
    let t := (s.turn model ⟨0, .query [] "[\"a\"]"⟩ w).1
    ∃ call ∈ t.calls, call.delivered = .error fault ∧ t.response.status = 500 ∧
      ∃ report : FailureReport, Encoded.decode (Utf8.encode t.response.body) = .ok report ∧
        report.detail.entries = [("cause", "é\n"), ("response", "No \"answer\"")] := by
  intro fault model s w t
  have hcalls : t.calls.map (·.delivered) = [.error fault] := by decide +kernel
  have hmem : .error fault ∈ t.calls.map (·.delivered) := by
    rw [hcalls]
    exact List.mem_singleton_self _
  obtain ⟨call, hcall, hfault⟩ := List.mem_map.1 hmem
  obtain ⟨_, hstatus, _, htold⟩ := (s.faults_are_told model).2 _ w call fault hcall hfault
  exact ⟨call, hcall, hfault, hstatus, htold⟩

end Service

end Colloquy
