import Colloquy.Proofs.Service.FaultReports
import Colloquy.Proofs.Service.QueryRules

/-!
# The verdict on a query

A query of a known caller is answered with the first rule that is broken, in the order of
`QueryRule.all`, and then nothing that is remembered changes. If no rule is broken it goes to the
language model, once, as it was sent, and what the model delivers decides the answer
(`Service.query_verdict`). What is answered is said by what a client reads from it.
-/

set_option autoImplicit false

namespace Colloquy

/-- An id is the supplied one, if that is well formed, or a fresh one if there is none. -/
theorem ConversationId.resolve_cases {γ : Type} (scheme : Scheme γ) (source : γ)
    (supplied : Option String) :
    (∃ text, supplied = some text ∧ scheme.accepts text = false ∧
        resolve scheme source supplied = (.error (.malformedConversationId text), source)) ∨
      ∃ id next, resolve scheme source supplied = (.ok id, next) ∧
        (∀ text, supplied = some text → scheme.accepts text = true) ∧
        ((supplied = some id.text ∧ next = source) ∨
          (supplied = none ∧ scheme.generate source = (id.text, next))) := by
  cases supplied with
  | none => exact Or.inr ⟨⟨(scheme.generate source).1⟩, _, rfl, by simp, Or.inr ⟨rfl, rfl⟩⟩
  | some text =>
    cases haccepts : scheme.accepts text with
    | false =>
      have hparse : parse scheme text = .error (.malformedConversationId text) := by
        unfold parse
        rw [haccepts]
        rfl
      exact Or.inl ⟨text, rfl, haccepts, by rw [resolve, hparse]⟩
    | true =>
      have hparse : parse scheme text = .ok ⟨text⟩ := by
        unfold parse
        rw [haccepts]
        rfl
      refine Or.inr ⟨⟨text⟩, source, by rw [resolve, hparse], fun other hother => ?_,
        Or.inl ⟨rfl, rfl⟩⟩
      obtain rfl := Option.some.inj hother
      exact haccepts

namespace Service

variable {γ σ : Type} (s : Service γ) (model : LanguageModel σ)

section Query

variable {a : Arrival} {w : Situation γ σ} {identity : Identity}
  (hpath : a.request.path = "/v1/query") (hmethod : a.request.method = "POST")
  (hidentity : s.authenticator.authenticate a.now a.request.credentials = .ok identity)

include hpath hmethod hidentity

/-- A query of a known caller is answered with the first rule that is broken, or it breaks none and
goes to the language model. -/
theorem turn_query_cases :
    (∃ v, QueryRule.FirstBroken s.scheme a.request v ∧
        s.turn model a w =
          ( { caller := .ok identity, calls := [], response := (Fault.rejected v).response }
          , w )) ∨
      ∃ draft checked id source,
        a.request.readJson QueryDraft = .ok draft ∧ QueryRule.IsReadAs draft checked ∧
        (readQuery identity a.request).1 = .ok checked ∧
        ConversationId.resolve s.scheme w.memory.source checked.conversationId = (.ok id, source) ∧
        ((draft.conversationId = some id.text ∧ source = w.memory.source) ∨
          (draft.conversationId = none ∧
            s.scheme.generate w.memory.source = (id.text, source))) ∧
        ∀ rule, ¬∃ v, QueryRule.Broken s.scheme a.request rule v := by
  rcases QueryRule.readQuery_cases s.scheme identity a.request with
    ⟨v, hread, hfirst⟩ | ⟨draft, checked, hbody, hchecked, hread, hkept⟩
  · exact Or.inl ⟨v, hfirst, s.turn_of_refused model hpath hmethod hidentity hread⟩
  · rcases ConversationId.resolve_cases s.scheme w.memory.source checked.conversationId with
      ⟨text, hid, haccepts, hresolve⟩ | ⟨id, source, hresolve, haccepts, hid⟩
    · rw [hchecked.conversationId] at hid
      have hbroken : QueryRule.Broken s.scheme a.request .conversation _ :=
        .conversation hbody hid haccepts
      refine Or.inl ⟨.malformedConversationId text, ⟨5, .conversation, ?_, hbroken⟩,
        s.turn_of_unresolved model hpath hmethod hidentity hread hresolve⟩
      exact .there (hkept _ (by decide)) (.there (hkept _ (by decide))
        (.there (hkept _ (by decide)) (.there (hkept _ (by decide))
          (.there (hkept _ (by decide)) (.here ⟨_, hbroken⟩)))))
    · rw [hchecked.conversationId] at hid haccepts
      refine Or.inr ⟨draft, checked, id, source, hbody, hchecked, hread, hresolve, hid, ?_⟩
      intro rule
      by_cases hrule : rule = .conversation
      · subst hrule
        exact QueryRule.not_broken_conversation hbody haccepts
      · exact hkept rule hrule

end Query

end Service

end Colloquy
