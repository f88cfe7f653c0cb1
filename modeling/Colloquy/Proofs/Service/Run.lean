import Colloquy.Proofs.Service.Turn

/-!
# Runs of the service

A service is used by requests, one after the other. As every request changes the histories by the
accesses that its turn shows, a run of the service is a run of the cache (`Service.cache_after`),
and the history that the language model is called with is a cut of what was written under the key
of the conversation since the key is held (`Service.remembered_of_call`).
-/

set_option autoImplicit false

namespace Colloquy

/-- The exchanges of some requests that belong to a key, as they stand in its history. -/
def Turn.entriesUnder (key : String) (turns : List Turn) : List String :=
  ((turns.flatMap exchanges).filter (·.key = key)).map Exchange.entry

/-- What is remembered at the beginning: no history, of at most `maxEntries` conversations and
`maxHistoryBytes` bytes each. -/
def Situation.initial {γ σ : Type} (maxEntries maxHistoryBytes : Nat) (source : γ) (state : σ) :
    Situation γ σ where
  memory := { source, cache := Cache.empty maxEntries maxHistoryBytes }
  state

/-- A language model that answers with the question. -/
def LanguageModel.echo : LanguageModel Unit where
  answer prompt state := (.ok ⟨prompt.query, [], false⟩, state)

/-- A query with some headers and a body. -/
def Http.Request.query (headers : List (String × Bytes)) (body : String) : Http.Request where
  method := "POST"
  target := "/v1/query"
  headers := ("content-type", Utf8.encode "application/json") :: headers
  body := Utf8.encode body

namespace Service

variable {γ σ : Type} (s : Service γ) (model : LanguageModel σ)

/-- What can be seen of some requests. -/
def turns : List Arrival → Situation γ σ → List Turn
  | [], _ => []
  | a :: arrivals, w => (s.turn model a w).1 :: turns arrivals (s.turn model a w).2

/-- What is remembered after some requests. -/
def after : List Arrival → Situation γ σ → Situation γ σ
  | [], w => w
  | a :: arrivals, w => after arrivals (s.turn model a w).2

/-- The first turns of a run are the turns of the first requests. -/
theorem take_turns (arrivals : List Arrival) (w : Situation γ σ) (i : Nat) :
    (s.turns model arrivals w).take i = s.turns model (arrivals.take i) w := by
  induction arrivals generalizing w i with
  | nil => simp [turns]
  | cons a arrivals ih =>
    cases i with
    | zero => rfl
    | succ i => rw [turns, List.take_succ_cons, List.take_succ_cons, turns, ih]

/-- A turn of a run is the turn of its request in the situation that the requests before it have
brought about. -/
theorem getElem?_turns (arrivals : List Arrival) (w : Situation γ σ) (i : Nat) :
    (s.turns model arrivals w)[i]? =
      arrivals[i]?.map fun a => (s.turn model a (s.after model (arrivals.take i) w)).1 := by
  induction arrivals generalizing w i with
  | nil => simp [turns]
  | cons a arrivals ih =>
    cases i with
    | zero => rfl
    | succ i => rw [turns, List.getElem?_cons_succ, List.getElem?_cons_succ, ih]; rfl

/-- The histories change by the accesses that the turns show. -/
theorem cache_after (arrivals : List Arrival) (w : Situation γ σ) :
    (s.after model arrivals w).memory.cache =
      w.memory.cache.accessAll ((s.turns model arrivals w).flatMap Turn.accesses) := by
  induction arrivals generalizing w with
  | nil => rfl
  | cons a arrivals ih =>
    rw [after, ih, turns, List.flatMap_cons, cache_turn]
    unfold Cache.accessAll
    rw [List.foldl_append]

/-- Every turn of a run is the turn of a request. -/
theorem forall_mem_turns {P : Turn → Prop} (h : ∀ a w, P (s.turn model a w).1)
    (arrivals : List Arrival) (w : Situation γ σ) : ∀ t ∈ s.turns model arrivals w, P t := by
  induction arrivals generalizing w with
  | nil => simp [turns]
  | cons a arrivals ih =>
    rw [turns]
    intro t ht
    rcases List.mem_cons.1 ht with rfl | ht
    · exact h a w
    · exact ih _ t ht

/-- What is written under a key in the course of a run are the exchanges that belong to it. -/
theorem entriesOf_turns (key : String) (arrivals : List Arrival) (w : Situation γ σ) :
    ((s.turns model arrivals w).flatMap Turn.accesses).flatMap (Access.entriesOf key) =
      Turn.entriesUnder key (s.turns model arrivals w) := by
  unfold Turn.entriesUnder
  rw [List.flatMap_assoc, List.filter_flatMap, List.map_flatMap]
  apply List.flatMap_congr
  exact s.forall_mem_turns model (s.entriesOf_turn model key) arrivals w

/-- The history that the language model is called with is the one that the accesses of the turns
before have left. -/
theorem history_of_call {arrivals : List Arrival} {w : Situation γ σ} {i : Nat} {t : Turn}
    {call : Call} (ht : (s.turns model arrivals w)[i]? = some t) (hcall : call ∈ t.calls) :
    ∃ identity, t.caller = .ok identity ∧ call.prompt.history =
      (w.memory.cache.accessAll
        (((s.turns model arrivals w).take i).flatMap Turn.accesses)).peek?
          (call.prompt.conversationId.cacheKey identity.userId) := by
  rw [getElem?_turns] at ht
  obtain ⟨a, _, rfl⟩ := Option.map_eq_some_iff.1 ht
  obtain ⟨identity, hcaller, _, hhistory⟩ := s.caller_of_mem_calls model hcall
  rw [cache_after, ← take_turns] at hhistory
  exact ⟨identity, hcaller, hhistory⟩

/-- The history that the language model is called with is a cut of what was written under its key
since the key is held. -/
theorem remembered_of_call {maxEntries maxHistoryBytes : Nat} {source : γ} {state : σ}
    {arrivals : List Arrival} {i : Nat} {t : Turn} {call : Call}
    (ht : (s.turns model arrivals (.initial maxEntries maxHistoryBytes source state))[i]? = some t)
    (hcall : call ∈ t.calls) :
    ∃ identity, t.caller = .ok identity ∧
      History.Remembered maxHistoryBytes
        ((Cache.empty maxEntries maxHistoryBytes).residence
          (call.prompt.conversationId.cacheKey identity.userId) []
          (((s.turns model arrivals (.initial maxEntries maxHistoryBytes source state)).take
            i).flatMap Turn.accesses))
        call.prompt.history := by
  obtain ⟨identity, hcaller, hhistory⟩ := s.history_of_call model ht hcall
  rw [hhistory]
  exact ⟨identity, hcaller, Cache.remembered_residence (c := Cache.empty maxEntries maxHistoryBytes)
    .nothing _⟩

end Service

end Colloquy
