import Colloquy.Proofs.Service.Run
import Mathlib.Data.List.Induction

/-!
# Overlapping queries

Requests may overlap: while a query is with the language model it waits, with a ticket, and other
requests arrive. A run is a list of moves in any order: a request arrives, or the language model
delivers for a ticket. A request that nothing comes in between of is two such moves
(`Service.memory_turn_eq_moves`).

Whatever the order, nothing is lost and nothing is written twice
(`Service.keeps_finished_exchanges`). The history of a key is a cut of the exchanges that were
finished under it since it is held, in the order in which they were finished. The history that a
query waits with is the one that was there when it arrived. A query is finished at most once.
-/

set_option autoImplicit false

namespace Colloquy

/-- One move of overlapping work. -/
inductive Move
  | arrive (a : Arrival)
  /-- The language model delivers for the query that waits with a ticket, which is finished. -/
  | deliver (ticket : Nat) (delivered : Except Fault Summary)
  deriving DecidableEq

/-- What is remembered and what waits between two moves. -/
structure Backlog (γ : Type) where
  memory : Memory γ
  /-- The queries that are with the language model, by their tickets. -/
  waiting : List (Nat × PendingQuery)
  /-- The number of tickets so far. -/
  issued : Nat

namespace Backlog

variable {γ : Type}

/-- The beginning: no history is held and nothing waits. -/
def initial (maxEntries maxHistoryBytes : Nat) (source : γ) : Backlog γ where
  memory := { source, cache := Cache.empty maxEntries maxHistoryBytes }
  waiting := []
  issued := 0

/-- The history of a key. -/
def history? (b : Backlog γ) (key : String) : Option String :=
  b.memory.cache.peek? key

/-- The entries that a move writes under a key: the exchange of the query that waits, if it is in
that conversation and the language model delivers a summary. -/
def entriesOf (b : Backlog γ) (key : String) : Move → List String
  | .arrive _ => []
  | .deliver ticket delivered =>
    match b.waiting.lookup ticket, delivered with
    | some pending, .ok summary =>
      if pending.key = key then [History.exchange pending.prompt.query summary.response] else []
    | _, _ => []

end Backlog

namespace Service

variable {γ : Type} (s : Service γ)

/-- One move. A delivery for a ticket that nothing waits with does nothing. -/
def move (b : Backlog γ) : Move → Backlog γ
  | .arrive a =>
    let started := s.start a.now a.request b.memory
    match started.result with
    | .answered _ => { b with memory := started.memory }
    | .asking pending =>
      { memory := started.memory
        waiting := b.waiting ++ [(b.issued, pending)]
        issued := b.issued + 1 }
  | .deliver ticket delivered =>
    match b.waiting.lookup ticket with
    | none => b
    | some pending =>
      { b with
        memory := (pending.finish delivered b.memory).memory
        waiting := b.waiting.filter (·.1 ≠ ticket) }

/-- A request that asks the language model waits under the next number. -/
theorem move_arrive_of_asking {b : Backlog γ} {a : Arrival} {pending : PendingQuery}
    (h : (s.start a.now a.request b.memory).result = .asking pending) :
    s.move b (.arrive a) =
      { memory := (s.start a.now a.request b.memory).memory
        waiting := b.waiting ++ [(b.issued, pending)]
        issued := b.issued + 1 } := by
  unfold move
  simp only [h]

/-- A request that is answered at once does not wait. -/
theorem move_arrive_of_answered {b : Backlog γ} {a : Arrival} {response : Http.Response}
    (h : (s.start a.now a.request b.memory).result = .answered response) :
    s.move b (.arrive a) =
      { b with memory := (s.start a.now a.request b.memory).memory } := by
  unfold move
  simp only [h]

/-- A delivery that nothing waits for changes nothing. -/
theorem move_deliver_of_unknown {b : Backlog γ} {ticket : Nat} (delivered : Except Fault Summary)
    (h : b.waiting.lookup ticket = none) : s.move b (.deliver ticket delivered) = b := by
  unfold move
  simp only [h]

/-- A delivery finishes what waits for it. -/
theorem move_deliver_of_waiting {b : Backlog γ} {ticket : Nat} {pending : PendingQuery}
    (delivered : Except Fault Summary) (h : b.waiting.lookup ticket = some pending) :
    s.move b (.deliver ticket delivered) =
      { b with
        memory := (pending.finish delivered b.memory).memory
        waiting := b.waiting.filter fun e => e.1 ≠ ticket } := by
  unfold move
  simp only [h]

/-- Some moves, one after the other. -/
def moves (b : Backlog γ) (list : List Move) : Backlog γ :=
  list.foldl s.move b

/-- The entries that some moves write under a key. -/
def finished (key : String) : Backlog γ → List Move → List String
  | _, [] => []
  | b, m :: list => b.entriesOf key m ++ finished key (s.move b m) list

/-- One more move is made behind the others. -/
theorem moves_concat (b : Backlog γ) (list : List Move) (m : Move) :
    s.moves b (list ++ [m]) = s.move (s.moves b list) m := by
  unfold moves
  rw [List.foldl_append]
  rfl

/-- Moves that follow others are made from where these lead. -/
theorem moves_append (b : Backlog γ) (before behind : List Move) :
    s.moves b (before ++ behind) = s.moves (s.moves b before) behind :=
  List.foldl_append

/-- One more move finishes what it finishes, behind what was finished before. -/
theorem finished_concat (key : String) (b : Backlog γ) (list : List Move) (m : Move) :
    s.finished key b (list ++ [m]) =
      s.finished key b list ++ (s.moves b list).entriesOf key m := by
  induction list generalizing b with
  | nil => exact List.append_nil _
  | cons first list ih =>
    rw [List.cons_append, finished, ih, finished, List.append_assoc]
    rfl

/-! ## What a move does to the histories -/

/-- What the first step of a request does: it answers and leaves the histories, or it reads the one
of the conversation and passes it on to the language model. -/
theorem start_result_cases (now : UInt64) (request : Http.Request) (m : Memory γ) :
    (∃ response, (s.start now request m).result = .answered response ∧
      (s.start now request m).memory.cache = m.cache) ∨
    ∃ pending identity, (s.start now request m).result = .asking pending ∧
      s.authenticator.authenticate now request.credentials = .ok identity ∧
      pending.key = pending.prompt.conversationId.cacheKey identity.userId ∧
      pending.prompt.history = m.cache.peek? pending.key ∧
      (s.start now request m).memory.cache = (m.cache.get pending.key).2 := by
  rcases s.start_cases now request m with
    ⟨identity, hidentity, _, _, hstart⟩ | ⟨response, hresult, hmemory⟩
  · rw [hstart]
    rcases hread : readQuery identity request with ⟨violation | query, events⟩
    · left
      simp only [serve, beginQuery, hread]
      exact ⟨_, rfl, rfl⟩
    · rcases hresolve : ConversationId.resolve s.scheme m.source query.conversationId with
        ⟨violation | id, source⟩
      · left
        simp only [serve, beginQuery, hread, load, hresolve]
        exact ⟨_, rfl, rfl⟩
      · right
        simp only [serve, beginQuery, hread, load, hresolve]
        exact ⟨_, identity, rfl, hidentity, rfl, rfl, rfl⟩
  · exact Or.inl ⟨response, hresult, congrArg Memory.cache hmemory⟩

/-- A move leaves the histories, or it is one access that writes what the move writes. -/
theorem cache_move_cases (b : Backlog γ) (m : Move) :
    ((s.move b m).memory.cache = b.memory.cache ∧ ∀ key, b.entriesOf key m = []) ∨
    ∃ access, (s.move b m).memory.cache = b.memory.cache.access access ∧
      ∀ key, b.entriesOf key m = access.entriesOf key := by
  cases m with
  | arrive a =>
    rcases s.start_result_cases a.now a.request b.memory with
      ⟨response, hresult, hcache⟩ | ⟨pending, _, hresult, _, _, _, hcache⟩
    · rw [s.move_arrive_of_answered hresult]
      exact Or.inl ⟨hcache, fun _ => rfl⟩
    · rw [s.move_arrive_of_asking hresult]
      exact Or.inr ⟨.get pending.key, hcache, fun _ => rfl⟩
  | deliver ticket delivered =>
    unfold Backlog.entriesOf
    cases hwaiting : b.waiting.lookup ticket with
    | none =>
      rw [s.move_deliver_of_unknown delivered hwaiting]
      left
      simp only [hwaiting, implies_true, and_self]
    | some pending =>
      rw [s.move_deliver_of_waiting delivered hwaiting]
      simp only [hwaiting]
      cases delivered with
      | error fault => exact Or.inl ⟨rfl, fun _ => rfl⟩
      | ok summary =>
        exact Or.inr ⟨.write pending.key (History.exchange pending.prompt.query summary.response),
          rfl, fun _ => rfl⟩

/-- The limit stays. -/
theorem maxHistoryBytes_moves (b : Backlog γ) (list : List Move) :
    (s.moves b list).memory.cache.maxHistoryBytes = b.memory.cache.maxHistoryBytes := by
  induction list using List.reverseRecOn with
  | nil => rfl
  | append_singleton list m ih =>
    rw [moves_concat, ← ih]
    rcases s.cache_move_cases (s.moves b list) m with ⟨hcache, _⟩ | ⟨access, hcache, _⟩
    · rw [hcache]
    · rw [hcache, Cache.maxHistoryBytes_access]

/-- A move keeps the history of a key in step with what was written since the key is held. -/
theorem remembered_move {b : Backlog γ} {key : String} {written : List String}
    (h : History.Remembered b.memory.cache.maxHistoryBytes written (b.history? key)) (m : Move) :
    History.Remembered b.memory.cache.maxHistoryBytes
      (if ((s.move b m).history? key).isSome then written ++ b.entriesOf key m else [])
      ((s.move b m).history? key) := by
  unfold Backlog.history? at h ⊢
  rcases s.cache_move_cases b m with ⟨hcache, hentries⟩ | ⟨access, hcache, hentries⟩
  · rw [hcache, hentries, List.append_nil]
    exact Cache.remembered_isSome h
  · rw [hcache, hentries]
    exact Cache.remembered_access h access

/-- A key is held since some moves: it was not before them, and it is after each of them. -/
structure HeldSince (key : String) (b : Backlog γ) (list : List Move) : Prop where
  absent : b.history? key = none
  held : ∀ front, front <+: list → front ≠ [] → ((s.moves b front).history? key).isSome

/-- A key that is not held is held since no moves. -/
theorem heldSince_nil {key : String} {b : Backlog γ} (h : b.history? key = none) :
    s.HeldSince key b [] :=
  ⟨h, fun _ hfront hne => absurd (List.prefix_nil.1 hfront) hne⟩

/-- What is held since some move is held since then after one more move, unless it is gone. -/
theorem heldSince_concat {key : String} {b : Backlog γ} {list : List Move} {m : Move}
    (h : s.HeldSince key b list) (hsome : ((s.moves b (list ++ [m])).history? key).isSome) :
    s.HeldSince key b (list ++ [m]) := by
  refine ⟨h.absent, ?_⟩
  intro front hfront hne
  rcases List.prefix_concat_iff.1 hfront with rfl | hfront
  · exact hsome
  · exact h.held front hfront hne

/-- What is held under a key is a cut of what was finished under it since it is held, where the
last moves are none if it is not held. -/
theorem exists_heldSince (b : Backlog γ) (hempty : b.memory.cache.entries = []) (key : String)
    (list : List Move) :
    ∃ before behind, list = before ++ behind ∧ s.HeldSince key (s.moves b before) behind ∧
      History.Remembered b.memory.cache.maxHistoryBytes
        (s.finished key (s.moves b before) behind) ((s.moves b list).history? key) := by
  induction list using List.reverseRecOn with
  | nil =>
    have hnone : b.history? key = none := by
      unfold Backlog.history? Cache.peek?
      rw [hempty]
      rfl
    refine ⟨[], [], rfl, s.heldSince_nil hnone, ?_⟩
    exact hnone.symm ▸ History.Remembered.nothing
  | append_singleton list m ih =>
    cases hafter : (s.moves b (list ++ [m])).history? key with
    | none =>
      -- Whatever was held is gone, so that the key is held since no moves.
      exact ⟨list ++ [m], [], (List.append_nil _).symm, s.heldSince_nil hafter, .nothing⟩
    | some kept =>
      obtain ⟨before, behind, rfl, hheld, hremembered⟩ := ih
      rw [List.append_assoc, moves_append] at hafter
      rw [moves_append, ← s.maxHistoryBytes_moves b before, ← s.maxHistoryBytes_moves _ behind]
        at hremembered
      have hsome : ((s.moves (s.moves b before) (behind ++ [m])).history? key).isSome := by
        rw [hafter]
        rfl
      have hstep := s.remembered_move hremembered m
      rw [← moves_concat, if_pos hsome, hafter, maxHistoryBytes_moves, maxHistoryBytes_moves,
        ← finished_concat] at hstep
      exact ⟨before, behind ++ [m], List.append_assoc _ _ _, s.heldSince_concat hheld hsome, hstep⟩

/-! ## What waits -/

/-- A delivery for a ticket leaves what waits with others, and nothing waits with that one. -/
theorem lookup_deliver (b : Backlog γ) (ticket : Nat) (delivered : Except Fault Summary)
    (other : Nat) :
    (s.move b (.deliver ticket delivered)).waiting.lookup other =
      if other = ticket then none else b.waiting.lookup other := by
  cases hwaiting : b.waiting.lookup ticket with
  | none =>
    rw [s.move_deliver_of_unknown delivered hwaiting]
    split
    · next hother => rw [hother, hwaiting]
    · rfl
  | some pending =>
    rw [s.move_deliver_of_waiting delivered hwaiting]
    have hfilter := Cache.lookup_filter (fun t => decide (t ≠ ticket)) other b.waiting
    by_cases hother : other = ticket <;> simpa [hother] using hfilter

/-- What waits after a move has waited before, or has just arrived with the next ticket. -/
theorem lookup_move_cases {b : Backlog γ} {m : Move} {ticket : Nat} {pending : PendingQuery}
    (h : (s.move b m).waiting.lookup ticket = some pending) :
    b.waiting.lookup ticket = some pending ∨
      ∃ a, m = .arrive a ∧ ticket = b.issued ∧
        (s.start a.now a.request b.memory).result = .asking pending := by
  cases m with
  | arrive a =>
    cases hresult : (s.start a.now a.request b.memory).result with
    | answered response =>
      rw [s.move_arrive_of_answered hresult] at h
      exact Or.inl h
    | asking arrived =>
      rw [s.move_arrive_of_asking hresult, List.lookup_append] at h
      rcases Option.or_eq_some_iff.1 h with hold | ⟨_, hnew⟩
      · exact Or.inl hold
      · right
        by_cases hticket : ticket = b.issued
        · subst hticket
          have harrived : some arrived = some pending := by simpa using hnew
          exact ⟨a, rfl, rfl, hresult.trans (congrArg Progress.asking (Option.some.inj harrived))⟩
        · rw [List.lookup_cons, beq_false_of_ne hticket] at hnew
          exact nomatch hnew
  | deliver other delivered =>
    left
    rw [lookup_deliver] at h
    split at h
    · exact nomatch h
    · exact h

/-- Tickets are not taken back. -/
theorem issued_le_move (b : Backlog γ) (m : Move) : b.issued ≤ (s.move b m).issued := by
  cases m with
  | arrive a =>
    cases hresult : (s.start a.now a.request b.memory).result with
    | answered response => rw [s.move_arrive_of_answered hresult]
    | asking pending =>
      rw [s.move_arrive_of_asking hresult]
      exact Nat.le_succ _
  | deliver ticket delivered =>
    cases hwaiting : b.waiting.lookup ticket with
    | none => rw [s.move_deliver_of_unknown delivered hwaiting]
    | some pending => rw [s.move_deliver_of_waiting delivered hwaiting]

/-- Moves do not take numbers back. -/
theorem issued_le_moves (b : Backlog γ) (list : List Move) :
    b.issued ≤ (s.moves b list).issued := by
  induction list generalizing b with
  | nil => exact Nat.le_refl _
  | cons m list ih => exact Nat.le_trans (s.issued_le_move b m) (ih (s.move b m))

/-- A ticket that was issued and that nothing waits with any more is not used again. -/
theorem lookup_moves_of_none {b : Backlog γ} {ticket : Nat} (hissued : ticket < b.issued)
    (h : b.waiting.lookup ticket = none) (list : List Move) :
    (s.moves b list).waiting.lookup ticket = none := by
  induction list generalizing b with
  | nil => exact h
  | cons m list ih =>
    refine ih (Nat.lt_of_lt_of_le hissued (s.issued_le_move b m)) ?_
    rw [Option.eq_none_iff_forall_ne_some]
    intro pending hpending
    rcases s.lookup_move_cases hpending with hold | ⟨_, _, hticket, _⟩
    · exact nomatch h.symm.trans hold
    · exact absurd hticket (Nat.ne_of_lt hissued)

/-- A query that waits has arrived in one of the moves, and was given the history that was there. -/
theorem exists_arrival (b : Backlog γ) (hempty : b.waiting = []) (list : List Move) {ticket : Nat}
    {pending : PendingQuery} (h : (s.moves b list).waiting.lookup ticket = some pending) :
    ∃ before a behind, list = before ++ .arrive a :: behind ∧
      (s.moves b before).issued = ticket ∧
      (s.start a.now a.request (s.moves b before).memory).result = .asking pending := by
  induction list using List.reverseRecOn with
  | nil =>
    have hnone : b.waiting.lookup ticket = none := by rw [hempty]; rfl
    exact nomatch hnone.symm.trans h
  | append_singleton list m ih =>
    rw [moves_concat] at h
    rcases s.lookup_move_cases h with hold | ⟨a, rfl, rfl, hresult⟩
    · obtain ⟨before, a, behind, rfl, hissued, hresult⟩ := ih hold
      exact ⟨before, a, behind ++ [m], by simp, hissued, hresult⟩
    · exact ⟨list, a, [], rfl, rfl, hresult⟩

/-- Whatever waits has a ticket that was issued. -/
theorem lt_issued (b : Backlog γ) (hempty : b.waiting = []) (list : List Move) {ticket : Nat}
    {pending : PendingQuery} (h : (s.moves b list).waiting.lookup ticket = some pending) :
    ticket < (s.moves b list).issued := by
  obtain ⟨before, a, behind, rfl, rfl, hresult⟩ := s.exists_arrival b hempty list h
  have hissued : (s.move (s.moves b before) (.arrive a)).issued =
      (s.moves b before).issued + 1 := by
    rw [s.move_arrive_of_asking hresult]
  rw [moves_append, ← Nat.succ_le_iff, Nat.succ_eq_add_one, ← hissued]
  exact s.issued_le_moves _ behind

/-- A request that nothing comes in between of arrives and, if the language model is called, is
finished with what the model delivers. -/
theorem memory_turn_eq_moves {σ : Type} (model : LanguageModel σ) (a : Arrival)
    (w : Situation γ σ) (b : Backlog γ) (hmemory : b.memory = w.memory)
    (hfresh : b.waiting.lookup b.issued = none) :
    (s.turn model a w).2.memory =
      (s.moves b (.arrive a :: (s.turn model a w).1.calls.map fun call =>
        .deliver b.issued call.delivered)).memory := by
  cases hresult : (s.start a.now a.request w.memory).result with
  | answered response =>
    rw [s.turn_of_answered model hresult]
    rw [← hmemory] at hresult ⊢
    exact congrArg Backlog.memory (s.move_arrive_of_answered hresult).symm
  | asking pending =>
    have hturn : (s.turn model a w).1.calls =
          [⟨pending.prompt, (model.answer pending.prompt w.state).1⟩] ∧
        (s.turn model a w).2.memory = (pending.finish (model.answer pending.prompt w.state).1
          (s.start a.now a.request w.memory).memory).memory := by
      unfold turn handle
      simp only [hresult]
      exact ⟨rfl, rfl⟩
    rw [hturn.1, hturn.2]
    rw [← hmemory] at hresult ⊢
    have harrive := s.move_arrive_of_asking hresult
    have hstarted : (s.start a.now a.request b.memory).memory = (s.move b (.arrive a)).memory := by
      rw [harrive]
    have hwaiting : (s.move b (.arrive a)).waiting.lookup b.issued = some pending := by
      rw [harrive, List.lookup_append, hfresh]
      simp
    have hdeliver := s.move_deliver_of_waiting (model.answer pending.prompt w.state).1 hwaiting
    rw [hstarted]
    exact congrArg Backlog.memory hdeliver.symm

/-- Whatever overlaps, the history of a key that is held is the cut of the exchanges that were
finished under it since it is held, each once and in the order in which they were finished. Every
query waits with the history that its key had when it arrived, and once the language model has
delivered for its ticket nothing waits with that ticket again. -/
theorem keeps_finished_exchanges (maxEntries maxHistoryBytes : Nat) (source : γ)
    (list : List Move) :
    let after (moves : List Move) :=
      s.moves (Backlog.initial maxEntries maxHistoryBytes source) moves
    (∀ key kept, (after list).history? key = some kept →
      ∃ before behind, list = before ++ behind ∧ s.HeldSince key (after before) behind ∧
        kept = History.trim maxHistoryBytes
          (History.ofEntries (s.finished key (after before) behind))) ∧
    (∀ ticket pending, (after list).waiting.lookup ticket = some pending →
      ∃ before a behind identity, list = before ++ .arrive a :: behind ∧
        (after before).issued = ticket ∧
        (s.start a.now a.request (after before).memory).result = .asking pending ∧
        s.authenticator.authenticate a.now a.request.credentials = .ok identity ∧
        pending.key = pending.prompt.conversationId.cacheKey identity.userId ∧
        pending.prompt.history = (after before).history? pending.key) ∧
    ∀ before ticket delivered behind, list = before ++ .deliver ticket delivered :: behind →
      (after before).waiting.lookup ticket ≠ none → (after list).waiting.lookup ticket = none := by
  intro after
  refine ⟨?_, ?_, ?_⟩
  · intro key kept hkept
    obtain ⟨before, behind, heq, hheld, hremembered⟩ :=
      s.exists_heldSince (Backlog.initial maxEntries maxHistoryBytes source) rfl key list
    have hremembered : History.Remembered maxHistoryBytes
        (s.finished key (after before) behind) (some kept) := hkept ▸ hremembered
    exact ⟨before, behind, heq, hheld, hremembered.isCut.unique (History.isCut_trim _ _)⟩
  · intro ticket pending hwaiting
    obtain ⟨before, a, behind, heq, hissued, hresult⟩ := s.exists_arrival _ rfl list hwaiting
    rcases s.start_result_cases a.now a.request (after before).memory with
      ⟨response, hanswered, _⟩ | ⟨other, identity, hasking, hidentity, hkey, hhistory, _⟩
    · exact nomatch hanswered.symm.trans hresult
    · obtain rfl := Progress.asking.inj (hasking.symm.trans hresult)
      exact ⟨before, a, behind, identity, heq, hissued, hresult, hidentity, hkey, hhistory⟩
  · intro before ticket delivered behind heq hwaiting
    obtain ⟨pending, hpending⟩ := Option.ne_none_iff_exists'.1 hwaiting
    -- Tickets that are issued from now on are others.
    have hlt : ticket < (after before).issued := s.lt_issued _ rfl before hpending
    have hdone :
        after list = s.moves (s.move (after before) (.deliver ticket delivered)) behind := by
      rw [heq]
      exact s.moves_append _ before _
    rw [hdone]
    exact s.lookup_moves_of_none (Nat.lt_of_lt_of_le hlt (s.issued_le_move _ _))
      ((s.lookup_deliver _ ticket delivered ticket).trans (if_pos rfl)) behind

/-- A history that was evicted while a query waited with it begins anew with the exchange of that
query. -/
theorem keeps_exchange_of_evicted :
    let s : Service Nat := ⟨⟨fun _ => true, fun n => ("fresh", n + 1)⟩, .anonymous, true⟩
    let ask (body : String) : Move := .arrive ⟨0, .query [] body⟩
    let told (text : String) : Except Fault Summary := .ok ⟨text, [], false⟩
    let list : List Move :=
      [ ask "[\"a\",\"c\"]", .deliver 0 (told "1"), ask "[\"b\",\"c\"]", ask "[\"x\",\"d\"]"
      , .deliver 2 (told "3"), .deliver 1 (told "2"), .deliver 1 (told "2") ]
    let after (moves : List Move) := s.moves (Backlog.initial 1 1024 0) moves
    let key := (ConversationId.mk "c").cacheKey Identity.anonymous.userId
    ((after (list.take 4)).waiting.lookup 1).map (·.prompt.history) =
        some (some "human: a\nai: 1") ∧
      (after (list.take 5)).history? key = none ∧
      (after list).history? key = some "human: b\nai: 2" ∧
      (∃ before behind, list = before ++ behind ∧ s.HeldSince key (after before) behind ∧
        "human: b\nai: 2" =
          History.trim 1024 (History.ofEntries (s.finished key (after before) behind))) ∧
      (after list).waiting.lookup 1 = none := by
  intro s ask told list after key
  have hkept : (after list).history? key = some "human: b\nai: 2" := by decide +kernel
  have hwaiting : ((after (list.take 4)).waiting.lookup 1).map (·.prompt.history) =
    some (some "human: a\nai: 1") := by decide +kernel
  have hevicted : (after (list.take 5)).history? key = none := by decide +kernel
  have hstill : ((after (list.take 5)).waiting.lookup 1).isSome = true := by decide +kernel
  obtain ⟨hheld, _, honce⟩ := s.keeps_finished_exchanges 1 1024 0 list
  refine ⟨hwaiting, hevicted, hkept, hheld key _ hkept, ?_⟩
  exact honce (list.take 5) 1 (told "2") [.deliver 1 (told "2")] rfl
    (Option.isSome_iff_ne_none.1 hstill)

end Service

end Colloquy
