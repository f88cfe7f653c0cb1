import Colloquy.Service.Handling
import Colloquy.Proofs.Conversation.Residence

/-!
# One request

A `Turn` is what can be seen of a request: who asked, what the language model was called with and
what it delivered, and the answer. `Service.turn_cases` says all that a request can do: either the
language model is not called and no history changes, or it is called once, with the history of the
conversation as it is, and the exchange is written behind that history if the call succeeds. So the
histories change by the accesses that a turn shows (`Service.cache_turn`).
-/

set_option autoImplicit false

namespace Colloquy

/-- A request and the time at which it arrives. -/
structure Arrival where
  now : UInt64
  request : Http.Request
  deriving DecidableEq

/-- A call of a language model. -/
structure Call where
  prompt : Prompt
  delivered : Except Fault Summary
  deriving DecidableEq

/-- A language model that keeps a record of its calls. -/
def LanguageModel.recorded {σ : Type} (model : LanguageModel σ) :
    LanguageModel (σ × List Call) where
  answer prompt state :=
    let (delivered, next) := model.answer prompt state.1
    (delivered, next, state.2 ++ [⟨prompt, delivered⟩])

/-- What can be seen of a request. -/
structure Turn where
  caller : Except AuthFailure Identity
  /-- The calls of the language model, in order. -/
  calls : List Call
  response : Http.Response
  deriving DecidableEq

/-- A question and its answer. -/
structure Exchange where
  userId : String
  conversationId : ConversationId
  question : String
  answer : String
  deriving DecidableEq

namespace Exchange

/-- The key of the history that an exchange belongs to. -/
def key (e : Exchange) : String :=
  e.conversationId.cacheKey e.userId

/-- An exchange as it stands in a history. -/
def entry (e : Exchange) : String :=
  History.exchange e.question e.answer

end Exchange

/-- The exchange of a call, if it succeeds. -/
def Call.exchange? (userId : String) (call : Call) : Option Exchange :=
  match call.delivered with
  | .ok summary =>
    some
      { userId
        conversationId := call.prompt.conversationId
        question := call.prompt.query
        answer := summary.response }
  | .error _ => none

/-- The accesses to the cache that a call shows. -/
def Call.accesses (userId : String) (call : Call) : List Access :=
  .get (call.prompt.conversationId.cacheKey userId) ::
    (call.exchange? userId).toList.map fun e => .write e.key e.entry

namespace Turn

/-- The exchanges of a request that is answered with success. -/
def exchanges (t : Turn) : List Exchange :=
  match t.caller with
  | .ok identity =>
    if t.response.status = 200 then t.calls.filterMap (Call.exchange? identity.userId) else []
  | .error _ => []

/-- The accesses to the cache that a request shows. -/
def accesses (t : Turn) : List Access :=
  match t.caller with
  | .ok identity => t.calls.flatMap (Call.accesses identity.userId)
  | .error _ => []

end Turn

/-- What a service and a language model remember between requests. -/
structure Situation (γ σ : Type) where
  memory : Memory γ
  /-- The state of the language model. -/
  state : σ

/-- The route of a path of a route. -/
theorem Route.ofPath?_path (route : Route) : Route.ofPath? route.path = some route := by
  cases route with
  | unguarded route => cases route <;> decide
  | guarded route => cases route <;> decide

namespace Service

variable {γ σ : Type} (s : Service γ) (model : LanguageModel σ)

/-- One request: what can be seen of it, and what is remembered afterwards. -/
def turn (a : Arrival) (w : Situation γ σ) : Turn × Situation γ σ :=
  let (outcome, state, calls) := s.handle model.recorded a.now a.request w.memory (w.state, [])
  ( { caller := s.authenticator.authenticate a.now a.request.credentials
      calls
      response := outcome.result }
  , { memory := outcome.memory, state } )

/-! ## One request -/

/-- A record of its calls changes nothing of what a language model does. -/
theorem handle_recorded (now : UInt64) (request : Http.Request) (m : Memory γ) (state : σ)
    (calls : List Call) :
    (s.handle model.recorded now request m (state, calls)).1 =
        (s.handle model now request m state).1 ∧
      (s.handle model.recorded now request m (state, calls)).2.1 =
        (s.handle model now request m state).2 := by
  unfold handle
  simp only
  split
  · exact ⟨rfl, rfl⟩
  · exact ⟨rfl, rfl⟩

/-- A guarded route is served to a known caller who writes to it with its method. -/
theorem start_guarded {now : UInt64} {request : Http.Request} {identity : Identity}
    {route : GuardedRoute} (m : Memory γ) (hpath : request.path = (Route.guarded route).path)
    (hserves : (Route.guarded route).serves request.method = true) (hhead : request.method ≠ "HEAD")
    (hidentity : s.authenticator.authenticate now request.credentials = .ok identity) :
    s.start now request m = s.serve route identity request m := by
  have hdress : Progress.dress ((Route.guarded route).dress request.method) = id := by
    funext progress
    cases progress with
    | asking pending => rfl
    | answered response => simp [Progress.dress, Route.dress, hserves, hhead]
  unfold start
  rw [hpath, Route.ofPath?_path]
  simp only [startRoute, hidentity, hserves, hdress]
  rfl

/-- A query of a known caller is answered as such. -/
theorem start_query {now : UInt64} {request : Http.Request} {identity : Identity} (m : Memory γ)
    (hpath : request.path = "/v1/query") (hmethod : request.method = "POST")
    (hidentity : s.authenticator.authenticate now request.credentials = .ok identity) :
    s.start now request m = s.serve .query identity request m := by
  have hserves : (Route.guarded .query).serves request.method = true := by
    rw [hmethod]
    decide
  have hhead : request.method ≠ "HEAD" := by
    rw [hmethod]
    decide
  exact s.start_guarded m hpath hserves hhead hidentity

/-- The path of the route of a path is that path. -/
theorem path_of_ofPath? {path : String} {route : Route} (h : Route.ofPath? path = some route) :
    route.path = path := by
  have := List.find?_some h
  exact beq_iff_eq.1 this

/-- What the first step does with a request: a query of a known caller is begun; anything else is
answered, and then nothing that is remembered changes. -/
theorem start_cases (now : UInt64) (request : Http.Request) (m : Memory γ) :
    (∃ identity, s.authenticator.authenticate now request.credentials = .ok identity ∧
      request.path = "/v1/query" ∧ request.method = "POST" ∧
      s.start now request m = s.serve .query identity request m) ∨
    ∃ response, (s.start now request m).result = .answered response ∧
      (s.start now request m).memory = m := by
  cases hroute : Route.ofPath? request.path with
  | none =>
    right
    unfold start
    rw [hroute]
    exact ⟨_, rfl, rfl⟩
  | some route =>
    cases route with
    | unguarded r =>
      right
      unfold start
      rw [hroute]
      exact ⟨_, rfl, rfl⟩
    | guarded r =>
      cases hidentity : s.authenticator.authenticate now request.credentials with
      | error failure =>
        right
        unfold start
        rw [hroute]
        simp only [startRoute, hidentity]
        exact ⟨_, rfl, rfl⟩
      | ok identity =>
        -- Of the guarded routes only the one of queries has a step that is not an answer.
        by_cases hserves : (Route.guarded r).serves request.method = true
        · have hstart : s.start now request m = (s.serve r identity request m).map
              (Progress.dress ((Route.guarded r).dress request.method)) := by
            unfold start
            rw [hroute]
            simp only [startRoute, hidentity, if_pos hserves]
          cases r with
          | query =>
            left
            have hpath : request.path = "/v1/query" := (path_of_ofPath? hroute).symm
            have hmethod : request.method = "POST" := of_decide_eq_true hserves
            exact ⟨identity, rfl, hpath, hmethod, s.start_query m hpath hmethod hidentity⟩
          | feedback => exact Or.inr (hstart ▸ ⟨_, rfl, rfl⟩)
          | feedbackStatus => exact Or.inr (hstart ▸ ⟨_, rfl, rfl⟩)
          | authorized => exact Or.inr (hstart ▸ ⟨_, rfl, rfl⟩)
        · right
          unfold start
          rw [hroute]
          simp only [startRoute, hidentity, if_neg hserves]
          exact ⟨_, rfl, rfl⟩

/-- A request that the first step answers without a change of what is remembered. -/
theorem turn_of_answered {a : Arrival} {w : Situation γ σ} {response : Http.Response}
    (hresult : (s.start a.now a.request w.memory).result = .answered response) :
    s.turn model a w =
      ( { caller := s.authenticator.authenticate a.now a.request.credentials
          calls := []
          response }
      , { w with memory := (s.start a.now a.request w.memory).memory } ) := by
  unfold turn handle
  simp only [hresult]
  rfl

section Query

variable {a : Arrival} {w : Situation γ σ} {identity : Identity}
  (hpath : a.request.path = "/v1/query") (hmethod : a.request.method = "POST")
  (hidentity : s.authenticator.authenticate a.now a.request.credentials = .ok identity)

include hpath hmethod hidentity

/-- A query that breaks a rule which its text alone decides is answered with that rule. -/
theorem turn_of_refused {violation : Violation}
    (hread : (readQuery identity a.request).1 = .error violation) :
    s.turn model a w =
      ( { caller := .ok identity, calls := [], response := (Fault.rejected violation).response }
      , w ) := by
  have hstart := s.start_query w.memory hpath hmethod hidentity
  rcases hpair : readQuery identity a.request with ⟨result, events⟩
  rw [hpair] at hread
  obtain rfl : result = .error violation := hread
  have hresult : (s.start a.now a.request w.memory).result =
      .answered (Fault.rejected violation).response := by
    rw [hstart]
    simp only [serve, beginQuery, hpair]
    rfl
  rw [s.turn_of_answered model hresult, hstart, hidentity]
  simp only [serve, beginQuery, hpair]
  rfl

/-- A query whose conversation id is not well formed is answered with that. -/
theorem turn_of_unresolved {query : Query} {violation : Violation} {source : γ}
    (hread : (readQuery identity a.request).1 = .ok query)
    (hresolve : ConversationId.resolve s.scheme w.memory.source query.conversationId =
      (.error violation, source)) :
    s.turn model a w =
      ( { caller := .ok identity, calls := [], response := (Fault.rejected violation).response }
      , { w with memory := { w.memory with source } } ) := by
  have hstart := s.start_query w.memory hpath hmethod hidentity
  rcases hpair : readQuery identity a.request with ⟨result, events⟩
  rw [hpair] at hread
  obtain rfl : result = .ok query := hread
  have hresult : (s.start a.now a.request w.memory).result =
      .answered (Fault.rejected violation).response := by
    rw [hstart]
    simp only [serve, beginQuery, hpair, load, hresolve]
    rfl
  rw [s.turn_of_answered model hresult, hstart, hidentity]
  simp only [serve, beginQuery, hpair, load, hresolve]
  rfl

/-- Any other query goes to the language model, once, with the history of its conversation. What
is delivered is answered, and written behind that history if it is a summary. -/
theorem turn_of_resolved {query : Query} {id : ConversationId} {source : γ}
    (hread : (readQuery identity a.request).1 = .ok query)
    (hresolve : ConversationId.resolve s.scheme w.memory.source query.conversationId =
      (.ok id, source)) :
    let key := id.cacheKey identity.userId
    let prompt := query.toPrompt id (w.memory.cache.peek? key)
    let asked := model.answer prompt w.state
    let finished := PendingQuery.finish ⟨key, prompt⟩ asked.1 ⟨source, (w.memory.cache.get key).2⟩
    s.turn model a w =
      ( { caller := .ok identity
          calls := [⟨prompt, asked.1⟩]
          response := .ofResult finished.result }
      , { memory := finished.memory, state := asked.2 } ) := by
  have hstart := s.start_query w.memory hpath hmethod hidentity
  rcases hpair : readQuery identity a.request with ⟨result, events⟩
  rw [hpair] at hread
  obtain rfl : result = .ok query := hread
  unfold turn handle
  simp only [hstart, serve, beginQuery, hpair, load, hresolve, hidentity]
  rfl

end Query

/-- All that a request can do. Either the language model is not called and no history changes. Or
it is called once, with the history of the conversation as it is; then the exchange is written
behind that history if the call succeeds, and nothing is written if it fails. -/
theorem turn_cases (a : Arrival) (w : Situation γ σ) :
    ((s.turn model a w).1.calls = [] ∧ (s.turn model a w).2.state = w.state ∧
      (s.turn model a w).2.memory.cache = w.memory.cache) ∨
    ∃ identity query id source delivered,
      (s.turn model a w).1.caller = .ok identity ∧
      (readQuery identity a.request).1 = .ok query ∧
      ConversationId.resolve s.scheme w.memory.source query.conversationId = (.ok id, source) ∧
      (s.turn model a w).1.calls =
        [⟨query.toPrompt id (w.memory.cache.peek? (id.cacheKey identity.userId)), delivered⟩] ∧
      model.answer (query.toPrompt id (w.memory.cache.peek? (id.cacheKey identity.userId)))
        w.state = (delivered, (s.turn model a w).2.state) ∧
      ((∃ summary, delivered = .ok summary ∧
          (s.turn model a w).1.response = .json 200 (Answer.ofSummary id summary) ∧
          (s.turn model a w).2.memory.cache =
            ((w.memory.cache.get (id.cacheKey identity.userId)).2.write
              (id.cacheKey identity.userId)
              (History.exchange query.query summary.response)).1) ∨
        ∃ fault, delivered = .error fault ∧ (s.turn model a w).1.response = fault.response ∧
          (s.turn model a w).2.memory.cache =
            (w.memory.cache.get (id.cacheKey identity.userId)).2) := by
  rcases s.start_cases a.now a.request w.memory with
    ⟨identity, hidentity, hpath, hmethod, _⟩ | ⟨response, hresult, hmemory⟩
  · cases hread : (readQuery identity a.request).1 with
    | error violation =>
      left
      rw [s.turn_of_refused model hpath hmethod hidentity hread]
      exact ⟨rfl, rfl, rfl⟩
    | ok query =>
      cases hresolve : ConversationId.resolve s.scheme w.memory.source query.conversationId with
      | mk resolved source =>
        cases resolved with
        | error violation =>
          left
          rw [s.turn_of_unresolved model hpath hmethod hidentity hread hresolve]
          exact ⟨rfl, rfl, rfl⟩
        | ok id =>
          right
          rw [s.turn_of_resolved model hpath hmethod hidentity hread hresolve]
          cases hasked : model.answer (query.toPrompt id
              (w.memory.cache.peek? (id.cacheKey identity.userId))) w.state with
          | mk delivered state =>
            refine ⟨identity, query, id, source, delivered, rfl, hread, hresolve, rfl, hasked, ?_⟩
            cases delivered with
            | ok summary => exact Or.inl ⟨summary, rfl, rfl, rfl⟩
            | error fault => exact Or.inr ⟨fault, rfl, rfl, rfl⟩
  · left
    rw [s.turn_of_answered model hresult]
    exact ⟨rfl, rfl, congrArg Memory.cache hmemory⟩

/-! ## What a request shows -/

/-- The language model is called for known callers only, and at most once. -/
theorem caller_of_mem_calls {a : Arrival} {w : Situation γ σ} {call : Call}
    (h : call ∈ (s.turn model a w).1.calls) :
    ∃ identity, (s.turn model a w).1.caller = .ok identity ∧ (s.turn model a w).1.calls = [call] ∧
      call.prompt.history =
        w.memory.cache.peek? (call.prompt.conversationId.cacheKey identity.userId) := by
  rcases s.turn_cases model a w with
    ⟨hnone, _⟩ | ⟨identity, query, id, source, delivered, hcaller, _, _, hcalls, _⟩
  · rw [hnone] at h
    simp at h
  · rw [hcalls, List.mem_singleton] at h
    subst h
    exact ⟨identity, hcaller, hcalls, rfl⟩

/-- Faults are never answered with success. -/
theorem status_response_ne (fault : Fault) : fault.response.status ≠ 200 := by
  cases fault <;> simp [Fault.response, Fault.status, Http.Response.json, Http.Response.ofText]

/-- The accesses and the exchanges that a request shows: none, or reading the history of one
conversation and then, if the language model does not fail, writing one exchange to it. -/
theorem accesses_turn (a : Arrival) (w : Situation γ σ) :
    ((s.turn model a w).1.accesses = [] ∧ (s.turn model a w).1.exchanges = []) ∨
    (∃ key, (s.turn model a w).1.accesses = [.get key] ∧ (s.turn model a w).1.exchanges = []) ∨
    ∃ e : Exchange, (s.turn model a w).1.accesses = [.get e.key, .write e.key e.entry] ∧
      (s.turn model a w).1.exchanges = [e] := by
  unfold Turn.accesses Turn.exchanges
  rcases s.turn_cases model a w with
    ⟨hnone, _⟩ | ⟨identity, query, id, source, delivered, hcaller, _, _, hcalls, _, hends⟩
  · left
    cases (s.turn model a w).1.caller <;> simp [hnone]
  · right
    rw [hcaller, hcalls]
    rcases hends with ⟨summary, rfl, hresponse, _⟩ | ⟨fault, rfl, hresponse, _⟩
    · right
      rw [hresponse]
      exact ⟨⟨identity.userId, id, query.query, summary.response⟩, rfl, rfl⟩
    · left
      rw [hresponse]
      exact ⟨id.cacheKey identity.userId, rfl, if_neg (status_response_ne fault)⟩

/-- The histories change by the accesses that a request shows. -/
theorem cache_turn (a : Arrival) (w : Situation γ σ) :
    (s.turn model a w).2.memory.cache =
      w.memory.cache.accessAll (s.turn model a w).1.accesses := by
  unfold Turn.accesses
  rcases s.turn_cases model a w with
    ⟨hnone, _, hcache⟩ | ⟨identity, query, id, source, delivered, hcaller, _, _, hcalls, _, hends⟩
  · rw [hcache, hnone]
    cases (s.turn model a w).1.caller <;> rfl
  · rw [hcaller, hcalls]
    rcases hends with ⟨summary, rfl, _, hcache⟩ | ⟨fault, rfl, _, hcache⟩
    · exact hcache
    · exact hcache

/-- The entries that a request writes under a key are those of its exchanges. -/
theorem entriesOf_turn (key : String) (a : Arrival) (w : Situation γ σ) :
    (s.turn model a w).1.accesses.flatMap (Access.entriesOf key) =
      ((s.turn model a w).1.exchanges.filter (·.key = key)).map Exchange.entry := by
  rcases s.accesses_turn model a w with ⟨ha, he⟩ | ⟨_, ha, he⟩ | ⟨e, ha, he⟩
  · rw [ha, he]
    rfl
  · rw [ha, he]
    rfl
  · rw [ha, he]
    by_cases hkey : e.key = key <;> simp [Access.entriesOf, hkey]

end Service

end Colloquy
