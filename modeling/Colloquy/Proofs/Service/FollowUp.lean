import Colloquy.Proofs.Conversation.KeySharing
import Colloquy.Proofs.Service.Effects
import Colloquy.Proofs.Service.ListedQuery

/-!
# Following up on an answer

A client goes on with a conversation by sending back the id that it has read from an answer. The id
is well formed whether it was supplied or drawn, so that the next query is refused for other reasons
only; it is answered under the same id, and the language model gets the history that the answer has
extended (`Service.follows_up`). What is cut from that history are lines from its front, and none of
the last exchange if that fits.
-/

set_option autoImplicit false

namespace Colloquy

namespace History

/-- A line tail is the end of its text. -/
theorem IsLineTail.exists_front {tail text : String} (h : IsLineTail tail text) :
    ∃ front, text = front ++ tail := by
  rcases h with rfl | ⟨front, rfl⟩
  · exact ⟨"", (String.empty_append).symm⟩
  · exact ⟨front ++ "\n", rfl⟩

/-- An entry that fits is not cut when it extends a history. -/
theorem isLineTail_extend {limit : Nat} {previous : Option String} {entry : String}
    (hfits : entry.utf8ByteSize ≤ limit) :
    IsLineTail entry (Cache.extend limit previous entry) := by
  refine (Cache.isCut_extend limit previous entry).isLineTail_of_le ?_ hfits
  cases previous with
  | none => exact IsLineTail.refl entry
  | some kept => exact Or.inr ⟨kept, rfl⟩

end History

/-- A request is a query of a user that sends the id of a conversation. -/
structure Service.SendsBack {γ : Type} (s : Service γ) (userId : String) (id : ConversationId)
    (a : Arrival) : Prop where
  path : a.request.path = "/v1/query"
  method : a.request.method = "POST"
  caller : ∃ identity, s.authenticator.authenticate a.now a.request.credentials = .ok identity ∧
    identity.userId = userId
  body : ∃ draft, a.request.readJson QueryDraft = .ok draft ∧ draft.conversationId = some id.text

/-- The history of a key that was read and written is the one that was read with the new entry,
unless it is evicted. -/
theorem Cache.peek?_write_of_read (c : Cache) (key entry : String) :
    ((c.get key).2.write key entry).1.peek? key =
      if key ∈ ((c.get key).2.write key entry).2 then none
      else some (Cache.extend c.maxHistoryBytes (c.peek? key) entry) := by
  rw [peek?_write, if_pos rfl, peek?_get]
  rfl

namespace Service

/-- A query is answered under a well-formed id, supplied or drawn. -/
theorem isWellFormed_of_accepts {s : Service Entropy} (hscheme : s.scheme = Scheme.uuid)
    {a : Arrival} {identity : Identity} {draft : QueryDraft} (h : s.Accepts a identity draft)
    {source next : Entropy} {id : ConversationId}
    (hid : draft.conversationId = some id.text ∨
      draft.conversationId = none ∧ s.scheme.generate source = (id.text, next)) :
    Uuid.isWellFormed id.text = true := by
  rcases hid with hsome | ⟨_, hgenerate⟩
  · by_contra hmalformed
    have hrefused : s.scheme.accepts id.text = false := by
      rw [hscheme]
      exact Bool.eq_false_iff.2 hmalformed
    exact h.kept .conversation _ (.conversation h.body hsome hrefused)
  · rw [hscheme] at hgenerate
    have htext : Uuid.text (Uuid.random (source.draw source.drawn)) = id.text :=
      congrArg Prod.fst hgenerate
    rw [← htext]
    exact Uuid.isWellFormed_text _

/-- A well-formed id that is sent back breaks no rule. -/
theorem not_broken_of_sendsBack {s : Service Entropy} (hscheme : s.scheme = Scheme.uuid)
    {userId : String} {id : ConversationId} {a : Arrival} (h : s.SendsBack userId id a)
    (hwell : Uuid.isWellFormed id.text = true) :
    ¬∃ v, QueryRule.Broken s.scheme a.request .conversation v := by
  obtain ⟨draft, hbody, hid⟩ := h.body
  refine QueryRule.not_broken_conversation hbody ?_
  intro text htext
  obtain rfl := Option.some.inj (hid.symm.trans htext)
  rw [hscheme]
  exact hwell

variable {γ σ : Type} (s : Service γ) (model : LanguageModel σ)

/-- A query that sends an id back and breaks no rule goes to the language model with the history of
that conversation, and is answered under that id. -/
theorem turn_of_sendsBack {a : Arrival} {userId : String} {id : ConversationId}
    (h : s.SendsBack userId id a) (hkept : ∀ rule v, ¬QueryRule.Broken s.scheme a.request rule v)
    (w : Situation γ σ) :
    ∃ call, (s.turn model a w).1.calls = [call] ∧ call.prompt.conversationId = id ∧
      call.prompt.history = w.memory.cache.peek? (id.cacheKey userId) ∧
      ((∃ summary, call.delivered = .ok summary ∧
          (s.turn model a w).1.response.Tells 200 (summary.toldUnder id)) ∨
        ∃ fault, call.delivered = .error fault ∧
          fault.IsAnswered (s.turn model a w).1.response) := by
  obtain ⟨identity, hidentity, rfl⟩ := h.caller
  obtain ⟨draft, hbody, hid⟩ := h.body
  have haccepts : s.Accepts a identity draft := ⟨h.path, h.method, hidentity, hbody, hkept⟩
  obtain ⟨call, hcalls, _, _, hresolved, hhistory, hends⟩ := s.turn_of_accepts model haccepts w
  have hsame : call.prompt.conversationId = id := by
    rcases hresolved with ⟨hsome, _⟩ | ⟨hnone, _⟩
    · have htext : id.text = call.prompt.conversationId.text :=
        Option.some.inj (hid.symm.trans hsome)
      exact congrArg ConversationId.mk htext.symm
    · exact nomatch hid.symm.trans hnone
  rw [hsame] at hhistory hends
  refine ⟨call, hcalls, hsame, hhistory, hends.imp ?_ ?_⟩
  · rintro ⟨summary, hdelivered, hresponse, _⟩
    exact ⟨summary, hdelivered, hresponse ▸ summary.tells_ofSummary id⟩
  · rintro ⟨fault, hdelivered, hresponse, _⟩
    exact ⟨fault, hdelivered, hresponse ▸ fault.isAnswered_response⟩

/-- The user of a query that was answered sends back the id that is read from the answer. Then the
id is not malformed, and if nothing else is wrong the query is answered under the same id. What the
language model gets of the history is the end of the one that it got before with the exchange behind
it, and holds the whole exchange if that is no longer than histories may be. There is such a history
whatever accesses the cache has seen, as long as its clock has not wrapped. -/
theorem follows_up {s : Service Entropy} (hscheme : s.scheme = Scheme.uuid) (a : Arrival)
    (w : Situation Entropy σ) (hpath : a.request.path = "/v1/query")
    (hmethod : a.request.method = "POST")
    (hsuccess : (s.turn model a w).1.response.status = 200) :
    ∃ (identity : Identity) (draft : QueryDraft) (prompt : Prompt) (summary : Summary)
        (answer : Answer),
      (s.turn model a w).1.caller = .ok identity ∧
      a.request.readJson QueryDraft = .ok draft ∧ draft.query = some prompt.query ∧
      (s.turn model a w).1.calls = [⟨prompt, .ok summary⟩] ∧
      (s.turn model a w).1.response.Tells 200 answer ∧ answer.response = summary.response ∧
      let id := answer.conversationId
      prompt.conversationId = id ∧
      ∀ next, s.SendsBack identity.userId id next →
        (∀ v, ¬QueryRule.Broken s.scheme next.request .conversation v) ∧
        ((∀ rule v, rule ≠ .conversation → ¬QueryRule.Broken s.scheme next.request rule v) →
          let followed := (s.turn model next (s.turn model a w).2).1
          let entry := "human: " ++ prompt.query ++ "\nai: " ++ summary.response
          ∃ call, followed.calls = [call] ∧ call.prompt.conversationId = id ∧
            ((∃ other, call.delivered = .ok other ∧
                followed.response.Tells 200 (other.toldUnder id)) ∨
              ∃ fault, call.delivered = .error fault ∧ fault.IsAnswered followed.response) ∧
            (∀ history, call.prompt.history = some history →
              (∃ front, History.extended prompt.history entry = front ++ history) ∧
              (entry.utf8ByteSize ≤ w.memory.cache.maxHistoryBytes →
                ∃ front, history = front ++ entry)) ∧
            ∀ (maxEntries maxHistoryBytes : Nat) (accesses : List Access),
              w.memory.cache = (Cache.empty maxEntries maxHistoryBytes).accessAll accesses →
              accesses.length + 1 < 2 ^ 64 → call.prompt.history ≠ none) := by
  obtain ⟨identity, draft, prompt, summary, haccepts, hcaller, hquestion, hcalls, hresponse, hid,
    hhistory, hcache⟩ := s.turn_of_success model hpath hmethod hsuccess
  have hwell : Uuid.isWellFormed prompt.conversationId.text = true :=
    isWellFormed_of_accepts hscheme haccepts hid
  refine ⟨identity, draft, prompt, summary, summary.toldUnder prompt.conversationId, hcaller,
    haccepts.body, hquestion, hcalls, hresponse ▸ summary.tells_ofSummary _, rfl, rfl, ?_⟩
  -- The id that is read from the answer is the one that the query was answered under.
  intro next (hback : s.SendsBack identity.userId prompt.conversationId next)
  have hconversation := not_broken_of_sendsBack hscheme hback hwell
  refine ⟨not_exists.1 hconversation, ?_⟩
  intro hothers followed entry
  have hkept : ∀ rule v, ¬QueryRule.Broken s.scheme next.request rule v := by
    intro rule v hbroken
    by_cases hrule : rule = .conversation
    · exact hconversation ⟨v, hrule ▸ hbroken⟩
    · exact hothers rule v hrule hbroken
  obtain ⟨call, hcall, hsame, hloaded, hanswered⟩ := s.turn_of_sendsBack model hback hkept _
  -- What is loaded is what was written, unless writing has evicted it.
  rw [hcache, Cache.peek?_write_of_read, ← hhistory] at hloaded
  refine ⟨call, hcall, hsame, hanswered, ?_, ?_⟩
  · intro history hsome
    rw [hloaded] at hsome
    split at hsome
    · exact nomatch hsome
    · obtain rfl := Option.some.inj hsome
      constructor
      · exact (Cache.isCut_extend _ prompt.history entry).1.exists_front
      · intro hfits
        exact (History.isLineTail_extend hfits).exists_front
  · intro maxEntries maxHistoryBytes accesses hreached hfew
    obtain ⟨hkept, _⟩ := Cache.evicted_of_read maxEntries maxHistoryBytes hfew
      (prompt.conversationId.cacheKey identity.userId) entry
    rw [← hreached] at hkept
    rw [hloaded]
    exact (if_neg hkept).trans_ne (Option.some_ne_none _)

/-- An id that was drawn is read from the answer and sent back, and the language model gets what was
said, although no more than one conversation is kept. -/
theorem follows_up_fresh_id :
    let s : Service Entropy := ⟨Scheme.uuid, .anonymous, true⟩
    let w : Situation Entropy Unit := .initial 0 1024 ⟨fun _ => Vector.replicate 16 0, 0⟩ ()
    let a : Arrival := ⟨0, .query [] "[\"a\"]"⟩
    let next : Arrival :=
      ⟨1, .query [] (listedQuery "b" "00000000-0000-4000-8000-000000000000")⟩
    a.request.path = "/v1/query" ∧ a.request.method = "POST" ∧
      (s.turn .echo a w).1.response.status = 200 ∧
      (∃ answer : Answer, (s.turn .echo a w).1.response.Tells 200 answer ∧
        answer.conversationId = ⟨"00000000-0000-4000-8000-000000000000"⟩) ∧
      ∃ call history, (s.turn .echo next (s.turn .echo a w).2).1.calls = [call] ∧
        call.prompt.history = some history ∧ ∃ front, history = front ++ "human: a\nai: a" := by
  intro s w a next
  have hstatus : (s.turn .echo a w).1.response.status = 200 := by decide +kernel
  have hcalls : (s.turn .echo a w).1.calls.map
      (fun call => (call.prompt.conversationId, call.prompt.query, call.delivered)) =
    [(⟨"00000000-0000-4000-8000-000000000000"⟩, "a", .ok ⟨"a", [], false⟩)] := by decide +kernel
  have hplain : ∀ c ∈ "00000000-0000-4000-8000-000000000000".toList, Json.IsPlainChar c :=
    Json.isPlainChar_of_all (by decide)
  have hquestion : ∀ c ∈ "b".toList, Json.IsPlainChar c := Json.isPlainChar_of_all (by decide)
  obtain ⟨identity, draft, prompt, summary, answer, hcaller, _, _, hcall, hanswer, _, hsame,
    hnext⟩ := s.follows_up .echo rfl a w (path_query _ _) rfl hstatus
  rw [hcall] at hcalls
  simp only [List.map_cons, List.map_nil, List.cons.injEq, Prod.mk.injEq, Except.ok.injEq] at hcalls
  obtain ⟨⟨hid, hquery, rfl⟩, _⟩ := hcalls
  obtain rfl : Identity.anonymous = identity := Except.ok.inj hcaller
  have hread := readJson_listedQuery [] hquestion hplain (by decide)
  rw [hsame] at hid
  have hback : s.SendsBack Identity.anonymous.userId answer.conversationId next :=
    ⟨path_query _ _, rfl, ⟨_, rfl, rfl⟩, _, hread, by rw [hid]⟩
  have hothers : ∀ rule v, rule ≠ .conversation →
      ¬QueryRule.Broken s.scheme next.request rule v := by
    have hok := readQuery_listedQuery Identity.anonymous [] hquestion hplain (by decide)
    rcases QueryRule.readQuery_cases s.scheme Identity.anonymous next.request with
      ⟨v, herror, _⟩ | ⟨_, _, _, _, _, hkept⟩
    · exact nomatch herror.symm.trans hok
    · exact fun rule v hrule hbroken => hkept rule hrule ⟨v, hbroken⟩
  obtain ⟨call, hfollowed, _, _, hhistory, hsome⟩ := (hnext next hback).2 hothers
  obtain ⟨history, heq⟩ := Option.ne_none_iff_exists'.1 (hsome 0 1024 [] rfl (by decide))
  have hfits : ("human: " ++ prompt.query ++ "\nai: " ++ "a").utf8ByteSize ≤
      w.memory.cache.maxHistoryBytes := by
    rw [hquery]
    decide +kernel
  have hwhole := (hhistory history heq).2 hfits
  rw [hquery] at hwhole
  exact ⟨path_query _ _, rfl, hstatus, ⟨answer, hanswer, hid⟩, call, history, hfollowed, heq,
    hwhole⟩

end Service

end Colloquy
