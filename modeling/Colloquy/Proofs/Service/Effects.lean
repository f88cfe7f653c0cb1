import Colloquy.Proofs.Conversation.Recency
import Colloquy.Proofs.Service.Guarding
import Colloquy.Proofs.Service.QueryVerdict

/-!
# What requests change

Nothing that is remembered changes by a request, unless it is a query that the service accepts: one
of a known caller that breaks no rule (`turn_of_not_accepts`). Such a query calls the language model
once, and draws a fresh id if it brings none (`turn_of_accepts`). If the call fails no history
changes; if it succeeds one exchange is written behind one history. `Service.effects_of_request`
sums up what follows of any request from what can be seen of its answer.
-/

set_option autoImplicit false

namespace Colloquy

/-- A request is a query of a known caller and breaks no rule. -/
structure Service.Accepts {γ : Type} (s : Service γ) (a : Arrival) (identity : Identity)
    (draft : QueryDraft) : Prop where
  path : a.request.path = "/v1/query"
  method : a.request.method = "POST"
  caller : s.authenticator.authenticate a.now a.request.credentials = .ok identity
  body : a.request.readJson QueryDraft = .ok draft
  /-- No rule is broken. -/
  kept : ∀ rule v, ¬QueryRule.Broken s.scheme a.request rule v

namespace Service

variable {γ σ : Type} (s : Service γ) (model : LanguageModel σ)

/-- Unless it is a query of a known caller, a request leaves all that is remembered. -/
theorem turn_of_no_query {a : Arrival}
    (h : ¬(a.request.path = "/v1/query" ∧ a.request.method = "POST" ∧
      ∃ identity, s.authenticator.authenticate a.now a.request.credentials = .ok identity))
    (w : Situation γ σ) :
    (s.turn model a w).1.calls = [] ∧ (s.turn model a w).2 = w ∧
      (a.request.path = "/v1/query" → a.request.method = "POST" →
        (s.turn model a w).1.response.status ≠ 200) := by
  rcases s.start_cases a.now a.request w.memory with
    ⟨identity, hidentity, hpath, hmethod, _⟩ | ⟨response, hresult, hmemory⟩
  · exact absurd ⟨hpath, hmethod, identity, hidentity⟩ h
  · refine ⟨?_, ?_, ?_⟩
    · rw [s.turn_of_answered model hresult]
    · rw [s.turn_of_answered model hresult, hmemory]
    · intro hpath hmethod
      cases hcaller : s.authenticator.authenticate a.now a.request.credentials with
      | ok identity => exact absurd ⟨hpath, hmethod, identity, hcaller⟩ h
      | error failure =>
        have hroute : a.request.path = (Route.guarded .query).path := hpath
        rw [s.turn_of_unknown model hroute hcaller, Route.dress_eq]
        exact status_response_ne _

/-- Unless it is accepted, a request leaves all that is remembered. -/
theorem turn_of_not_accepts {a : Arrival} (h : ¬∃ identity draft, s.Accepts a identity draft)
    (w : Situation γ σ) :
    (s.turn model a w).1.calls = [] ∧ (s.turn model a w).2 = w ∧
      (a.request.path = "/v1/query" → a.request.method = "POST" →
        (s.turn model a w).1.response.status ≠ 200) := by
  by_cases hquery : a.request.path = "/v1/query" ∧ a.request.method = "POST" ∧
    ∃ identity, s.authenticator.authenticate a.now a.request.credentials = .ok identity
  · obtain ⟨hpath, hmethod, identity, hidentity⟩ := hquery
    rcases s.turn_query_cases model hpath hmethod hidentity (w := w) with
      ⟨v, _, hturn⟩ | ⟨draft, _, _, _, hbody, _, _, _, _, hkept⟩
    · rw [hturn]
      exact ⟨rfl, rfl, fun _ _ => status_response_ne _⟩
    · have haccepts : s.Accepts a identity draft :=
        ⟨hpath, hmethod, hidentity, hbody, fun rule v hv => hkept rule ⟨v, hv⟩⟩
      exact absurd ⟨identity, draft, haccepts⟩ h
  · exact s.turn_of_no_query model hquery w

/-- A query that is accepted calls the language model once, in the conversation of its id or of a
fresh one. What is delivered decides the answer and whether an exchange is written. -/
theorem turn_of_accepts {a : Arrival} {identity : Identity} {draft : QueryDraft}
    (h : s.Accepts a identity draft) (w : Situation γ σ) :
    ∃ call, (s.turn model a w).1.calls = [call] ∧ (s.turn model a w).1.caller = .ok identity ∧
      draft.query = some call.prompt.query ∧
      let id := call.prompt.conversationId
      let key := id.cacheKey identity.userId
      ((draft.conversationId = some id.text ∧
          (s.turn model a w).2.memory.source = w.memory.source) ∨
        (draft.conversationId = none ∧ s.scheme.generate w.memory.source =
          (id.text, (s.turn model a w).2.memory.source))) ∧
      call.prompt.history = w.memory.cache.peek? key ∧
      ((∃ summary, call.delivered = .ok summary ∧
          (s.turn model a w).1.response = .json 200 (Answer.ofSummary id summary) ∧
          (s.turn model a w).2.memory.cache = ((w.memory.cache.get key).2.write key
            (History.exchange call.prompt.query summary.response)).1) ∨
        ∃ fault, call.delivered = .error fault ∧
          (s.turn model a w).1.response = fault.response ∧
          (s.turn model a w).2.memory.cache = (w.memory.cache.get key).2) := by
  rcases s.turn_query_cases model h.path h.method h.caller (w := w) with
    ⟨v, ⟨_, rule, _, hbroken⟩, _⟩ |
      ⟨draft', checked, id, source, hbody, hchecked, hread, hresolve, hid, _⟩
  · exact absurd hbroken (h.kept rule v)
  · obtain rfl := Except.ok.inj (hbody.symm.trans h.body)
    rw [s.turn_of_resolved model h.path h.method h.caller hread hresolve]
    rcases hasked : model.answer (checked.toPrompt id
      (w.memory.cache.peek? (id.cacheKey identity.userId))) w.state with ⟨delivered, state⟩
    refine ⟨⟨checked.toPrompt id (w.memory.cache.peek? (id.cacheKey identity.userId)), delivered⟩,
      rfl, rfl, hchecked.query, ?_⟩
    cases delivered with
    | ok summary => exact ⟨hid, rfl, Or.inl ⟨summary, rfl, rfl, rfl⟩⟩
    | error fault => exact ⟨hid, rfl, Or.inr ⟨fault, rfl, rfl, rfl⟩⟩

/-- Without success no history changes. -/
theorem histories_of_failure {a : Arrival} {w : Situation γ σ}
    (hstatus : (s.turn model a w).1.response.status ≠ 200) :
    (s.turn model a w).2.memory.cache.keys = w.memory.cache.keys ∧
      ∀ key, (s.turn model a w).2.memory.cache.peek? key = w.memory.cache.peek? key := by
  rcases s.turn_cases model a w with
    ⟨_, _, hcache⟩ | ⟨identity, query, id, source, delivered, _, _, _, _, _, hends⟩
  · rw [hcache]
    exact ⟨rfl, fun _ => rfl⟩
  · rcases hends with ⟨summary, _, hresponse, _⟩ | ⟨fault, _, _, hcache⟩
    · exact absurd (congrArg Http.Response.status hresponse) hstatus
    · rw [hcache]
      exact ⟨Cache.keys_get _ _, Cache.peek?_get _ _⟩

/-- Without a call of the language model the cache is left altogether, clock and marks included. -/
theorem cache_of_no_call {a : Arrival} {w : Situation γ σ}
    (hcalls : (s.turn model a w).1.calls = []) :
    (s.turn model a w).2.memory.cache = w.memory.cache := by
  rcases s.turn_cases model a w with
    ⟨_, _, hcache⟩ | ⟨_, _, _, _, _, _, _, _, hcall, _⟩
  · exact hcache
  · exact nomatch hcalls.symm.trans hcall

/-- The language model is called once for a query that is accepted, and for nothing else. -/
theorem calls_cases (a : Arrival) (w : Situation γ σ) :
    ((∃ identity draft, s.Accepts a identity draft) ∧
        ∃ call, (s.turn model a w).1.calls = [call]) ∨
      (¬∃ identity draft, s.Accepts a identity draft) ∧ (s.turn model a w).1.calls = [] := by
  by_cases h : ∃ identity draft, s.Accepts a identity draft
  · obtain ⟨identity, draft, haccepts⟩ := h
    obtain ⟨call, hcalls, _⟩ := s.turn_of_accepts model haccepts w
    exact Or.inl ⟨⟨identity, draft, haccepts⟩, call, hcalls⟩
  · exact Or.inr ⟨h, (s.turn_of_not_accepts model h w).1⟩

/-- A query that brings an id draws none, and neither does anything but a query. -/
theorem source_of_supplied {a : Arrival}
    (h : ¬∃ identity draft, s.Accepts a identity draft ∧ draft.conversationId = none)
    (w : Situation γ σ) : (s.turn model a w).2.memory.source = w.memory.source := by
  by_cases haccepts : ∃ identity draft, s.Accepts a identity draft
  · obtain ⟨identity, draft, haccepts⟩ := haccepts
    obtain ⟨_, _, _, _, ⟨_, hsource⟩ | ⟨hnone, _⟩, _⟩ := s.turn_of_accepts model haccepts w
    · exact hsource
    · exact absurd ⟨identity, draft, haccepts, hnone⟩ h
  · rw [(s.turn_of_not_accepts model haccepts w).2.1]

/-- A query that brings no id draws one, which is the id of its conversation. -/
theorem source_of_fresh {a : Arrival} {identity : Identity} {draft : QueryDraft}
    (haccepts : s.Accepts a identity draft) (hnone : draft.conversationId = none)
    (w : Situation γ σ) :
    ∃ call, (s.turn model a w).1.calls = [call] ∧ s.scheme.generate w.memory.source =
      (call.prompt.conversationId.text, (s.turn model a w).2.memory.source) := by
  obtain ⟨call, hcalls, _, _, ⟨hsome, _⟩ | ⟨_, hgenerate⟩, _⟩ :=
    s.turn_of_accepts model haccepts w
  · exact nomatch hnone.symm.trans hsome
  · exact ⟨call, hcalls, hgenerate⟩

/-- A query that is answered with success is one that is accepted, and the language model has
delivered. -/
theorem turn_of_success {a : Arrival} {w : Situation γ σ}
    (hpath : a.request.path = "/v1/query") (hmethod : a.request.method = "POST")
    (hstatus : (s.turn model a w).1.response.status = 200) :
    ∃ (identity : Identity) (draft : QueryDraft) (prompt : Prompt) (summary : Summary),
      s.Accepts a identity draft ∧ (s.turn model a w).1.caller = .ok identity ∧
      draft.query = some prompt.query ∧ (s.turn model a w).1.calls = [⟨prompt, .ok summary⟩] ∧
      let id := prompt.conversationId
      let key := id.cacheKey identity.userId
      (s.turn model a w).1.response = .json 200 (Answer.ofSummary id summary) ∧
      (draft.conversationId = some id.text ∨ draft.conversationId = none ∧
        s.scheme.generate w.memory.source = (id.text, (s.turn model a w).2.memory.source)) ∧
      prompt.history = w.memory.cache.peek? key ∧
      (s.turn model a w).2.memory.cache = ((w.memory.cache.get key).2.write key
        (History.exchange prompt.query summary.response)).1 := by
  by_cases haccepts : ∃ identity draft, s.Accepts a identity draft
  · obtain ⟨identity, draft, haccepts⟩ := haccepts
    obtain ⟨⟨prompt, delivered⟩, hcalls, hcaller, hquestion, hid, hhistory, hends⟩ :=
      s.turn_of_accepts model haccepts w
    rcases hends with ⟨summary, rfl, hresponse, hcache⟩ | ⟨fault, _, hresponse, _⟩
    · exact ⟨identity, draft, prompt, summary, haccepts, hcaller, hquestion, hcalls, hresponse,
        hid.imp_left And.left, hhistory, hcache⟩
    · exact absurd (hresponse ▸ hstatus) (status_response_ne fault)
  · exact absurd hstatus ((s.turn_of_not_accepts model haccepts w).2.2 hpath hmethod)

/-- A query that is answered with success writes one exchange. -/
theorem written_of_success {a : Arrival} {w : Situation γ σ}
    (hpath : a.request.path = "/v1/query") (hmethod : a.request.method = "POST")
    (hstatus : (s.turn model a w).1.response.status = 200) :
    ∃ e : Exchange, (s.turn model a w).1.exchanges = [e] ∧
      (s.turn model a w).2.memory.cache =
        ((w.memory.cache.get e.key).2.write e.key e.entry).1 := by
  obtain ⟨identity, _, prompt, summary, _, hcaller, _, hcalls, _, _, _, hcache⟩ :=
    s.turn_of_success model hpath hmethod hstatus
  refine ⟨⟨identity.userId, prompt.conversationId, prompt.query, summary.response⟩, ?_, hcache⟩
  unfold Turn.exchanges
  rw [hcaller, hcalls]
  exact if_pos hstatus

/-- What a request changes, by what can be seen of it. Without success no history changes, and
without a call of the language model the cache is left altogether. The model is called at most once,
and only for a query that is accepted; a fresh id is drawn only for one that brings none, and then
once. A query that is answered with success writes one exchange behind one history, of which a cut
is kept; the histories of other keys stay, unless they are evicted, and that one is not while the
clock has not wrapped. -/
theorem effects_of_request (a : Arrival) (w : Situation γ σ) :
    let t := (s.turn model a w).1
    let cache := w.memory.cache
    let source' := (s.turn model a w).2.memory.source
    let cache' := (s.turn model a w).2.memory.cache
    (t.response.status ≠ 200 →
      cache'.keys = cache.keys ∧ ∀ key, cache'.peek? key = cache.peek? key) ∧
    (t.calls = [] → cache' = cache) ∧
    t.calls.length ≤ 1 ∧
    (t.calls ≠ [] ↔ ∃ identity draft, s.Accepts a identity draft) ∧
    ((¬∃ identity draft, s.Accepts a identity draft ∧ draft.conversationId = none) →
      source' = w.memory.source) ∧
    (∀ identity draft, s.Accepts a identity draft → draft.conversationId = none →
      ∃ call, t.calls = [call] ∧
        s.scheme.generate w.memory.source = (call.prompt.conversationId.text, source')) ∧
    (a.request.path = "/v1/query" → a.request.method = "POST" → t.response.status = 200 →
      ∃ e : Exchange, t.exchanges = [e] ∧
        e.entry = "human: " ++ e.question ++ "\nai: " ++ e.answer ∧
        cache' = ((cache.get e.key).2.write e.key e.entry).1 ∧
        (∃ history,
          History.IsCut cache.maxHistoryBytes (History.extended (cache.peek? e.key) e.entry)
            history ∧
          ∀ key, cache'.peek? key =
            if key ∈ ((cache.get e.key).2.write e.key e.entry).2 then none
            else if key = e.key then some history
            else cache.peek? key) ∧
        ∀ (maxEntries maxHistoryBytes : Nat) (accesses : List Access),
          cache = (Cache.empty maxEntries maxHistoryBytes).accessAll accesses →
          accesses.length + 1 < 2 ^ 64 →
          e.key ∉ ((cache.get e.key).2.write e.key e.entry).2) := by
  intro t cache source' cache'
  have hcalls : (∃ identity draft, s.Accepts a identity draft) ∧ (∃ call, t.calls = [call]) ∨
      (¬∃ identity draft, s.Accepts a identity draft) ∧ t.calls = [] := s.calls_cases model a w
  refine ⟨s.histories_of_failure model, s.cache_of_no_call model, ?_, ?_,
    fun h => s.source_of_supplied model h w,
    fun identity draft haccepts hnone => s.source_of_fresh model haccepts hnone w, ?_⟩
  · rcases hcalls with ⟨_, call, hcall⟩ | ⟨_, hnone⟩
    · exact hcall ▸ Nat.le_refl 1
    · exact hnone ▸ Nat.zero_le 1
  · rcases hcalls with ⟨haccepts, call, hcall⟩ | ⟨hnot, hnone⟩
    · exact iff_of_true (hcall ▸ List.cons_ne_nil call []) haccepts
    · exact iff_of_false (not_not_intro hnone) hnot
  · intro hpath hmethod hstatus
    obtain ⟨e, hexchanges, hcache⟩ := s.written_of_success model hpath hmethod hstatus
    refine ⟨e, hexchanges, rfl, hcache, ⟨_, Cache.isCut_extend _ _ _, ?_⟩, ?_⟩
    · intro key
      have hcache : cache' = _ := hcache
      rw [hcache, Cache.peek?_write, cache.peek?_get, cache.peek?_get]
      rfl
    · intro maxEntries maxHistoryBytes accesses hreached hfew
      rw [hreached]
      exact (Cache.evicted_of_read maxEntries maxHistoryBytes hfew e.key e.entry).1

/-- A query that the language model fails on leaves the history that it was given, although the
clock goes on. -/
theorem effects_of_failed_call :
    let model : LanguageModel Unit :=
      ⟨fun prompt state =>
        (if prompt.query = "b" then .error (.internal "down") else .ok ⟨prompt.query, [], false⟩,
          state)⟩
    let s : Service Nat := ⟨⟨fun _ => true, fun n => ("fresh", n + 1)⟩, .anonymous, true⟩
    let w := s.after model [⟨0, .query [] "[\"a\",\"c\"]"⟩] (.initial 1 1024 0 ())
    let a : Arrival := ⟨1, .query [] "[\"b\",\"c\"]"⟩
    let key := (ConversationId.mk "c").cacheKey Identity.anonymous.userId
    (s.turn model a w).1.response.status = 500 ∧
      w.memory.cache.peek? key = some "human: a\nai: a" ∧ w.memory.cache.clock = 2 ∧
      (s.turn model a w).2.memory.cache.peek? key = some "human: a\nai: a" ∧
      (s.turn model a w).2.memory.cache.clock = 3 := by
  intro model s w a key
  have hstatus : (s.turn model a w).1.response.status = 500 := by decide +kernel
  have hhistory : w.memory.cache.peek? key = some "human: a\nai: a" := by decide +kernel
  have hfailed : (s.turn model a w).1.response.status ≠ 200 := by
    rw [hstatus]
    decide
  have hkept := ((s.effects_of_request model a w).1 hfailed).2 key
  exact ⟨hstatus, hhistory, by decide +kernel, hkept.trans hhistory, by decide +kernel⟩

end Service

end Colloquy
