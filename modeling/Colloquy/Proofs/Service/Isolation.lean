import Colloquy.Proofs.Conversation.KeySharing
import Colloquy.Proofs.Service.ListedQuery

/-!
# Conversations of different users

A run is `Isolated` if the history that the language model gets is always a cut of exchanges that
the same user had in the same conversation. Whether all runs of a service are, is decided by the ids
of the users that it may know: exactly if none of them is that of another one with a colon and
`urn:uuid` behind it, that is if none shadows another (`Service.isolated_iff`).
-/

set_option autoImplicit false

namespace Colloquy

/-- The exchanges of some requests that a user had in a conversation, as they stand in a history. -/
def Turn.entriesOf (userId : String) (conversationId : ConversationId) (turns : List Turn) :
    List String :=
  ((turns.flatMap exchanges).filter fun e =>
    e.userId = userId ∧ e.conversationId = conversationId).map Exchange.entry

/-- The history that the language model gets is always a cut of exchanges, the last ones before,
that the same user had in the same conversation. -/
def Isolated (maxHistoryBytes : Nat) (turns : List Turn) : Prop :=
  ∀ (i : Nat) (t : Turn) (call : Call), turns[i]? = some t → call ∈ t.calls →
    ∃ identity entries, t.caller = .ok identity ∧
      entries <:+ Turn.entriesOf identity.userId call.prompt.conversationId (turns.take i) ∧
      History.Remembered maxHistoryBytes entries call.prompt.history

/-- There are credentials that a user is known by, at some time. -/
def Authenticator.Knows (authenticator : Authenticator) (userId : String) : Prop :=
  ∃ (now : UInt64) (request : Http.Request) (identity : Identity),
    authenticator.authenticate now request.credentials = .ok identity ∧ identity.userId = userId

/-- Whoever an exchange belongs to called the language model for it. -/
theorem Turn.exists_call_of_mem_exchanges {t : Turn} {e : Exchange} (h : e ∈ t.exchanges) :
    ∃ identity call, t.caller = .ok identity ∧ call ∈ t.calls ∧ e.userId = identity.userId ∧
      e.conversationId = call.prompt.conversationId := by
  unfold Turn.exchanges at h
  cases hcaller : t.caller with
  | error failure => simp [hcaller] at h
  | ok identity =>
    rw [hcaller] at h
    simp only at h
    split at h
    · obtain ⟨call, hcall, hexchange⟩ := List.mem_filterMap.1 h
      refine ⟨identity, call, rfl, hcall, ?_⟩
      unfold Call.exchange? at hexchange
      cases hdelivered : call.delivered with
      | error fault => simp [hdelivered] at hexchange
      | ok summary =>
        rw [hdelivered] at hexchange
        obtain rfl := Option.some.inj hexchange
        exact ⟨rfl, rfl⟩
    · simp at h

/-- Ids are well formed, those that are supplied and those that are drawn. -/
theorem ConversationId.isWellFormed_of_resolve {source source' : Entropy} {supplied : Option String}
    {id : ConversationId} (h : resolve Scheme.uuid source supplied = (.ok id, source')) :
    Uuid.isWellFormed id.text = true := by
  cases supplied with
  | none =>
    have hid := congrArg Prod.fst h
    obtain rfl := Except.ok.inj hid
    exact Uuid.isWellFormed_text _
  | some value =>
    have hid : parse Scheme.uuid value = .ok id := congrArg Prod.fst h
    unfold parse at hid
    split at hid
    · next haccepts =>
      obtain rfl := Except.ok.inj hid
      exact haccepts
    · simp at hid

/-- A run is not isolated if a user who had no exchange before is given a history. -/
theorem not_isolated_of_stranger {maxHistoryBytes : Nat} {turns : List Turn} {i : Nat} {t : Turn}
    {call : Call} {identity : Identity} (ht : turns[i]? = some t) (hcall : call ∈ t.calls)
    (hcaller : t.caller = .ok identity)
    (hstranger : ∀ e ∈ (turns.take i).flatMap Turn.exchanges, e.userId ≠ identity.userId)
    (hhistory : call.prompt.history ≠ none) : ¬Isolated maxHistoryBytes turns := by
  intro hisolated
  obtain ⟨caller, entries, hcaller', hsuffix, hremembered⟩ := hisolated i t call ht hcall
  obtain rfl : identity = caller := Except.ok.inj (hcaller.symm.trans hcaller')
  have hnone : Turn.entriesOf identity.userId call.prompt.conversationId (turns.take i) = [] := by
    unfold Turn.entriesOf
    rw [List.map_eq_nil_iff, List.filter_eq_nil_iff]
    intro e he
    simp [hstranger e he]
  obtain rfl : entries = [] := List.suffix_nil.1 (hnone ▸ hsuffix)
  exact hhistory hremembered.eq_none

/-! ## Plain ids -/

/-- A character is plain if it is in lower case. -/
theorem isPlainChar_of_toLower {c : Char} (h : Json.IsPlainChar c.toLower) :
    Json.IsPlainChar c := by
  unfold Char.toLower at h
  split at h
  · next hupper =>
    refine ⟨?_, ?_, ?_⟩
    · rintro rfl
      exact absurd hupper (by decide)
    · rintro rfl
      exact absurd hupper (by decide)
    · have hvalue : 65 ≤ c.toNat := UInt32.le_iff_toNat_le.1 hupper.1
      omega
  · exact h

/-- Markers are plain. -/
theorem isPlainChar_of_mem_marker {marker : String} (hm : marker.toLower = "urn:uuid") :
    ∀ c ∈ marker.toList, Json.IsPlainChar c := by
  have hlower : ∀ c ∈ "urn:uuid".toList, Json.IsPlainChar c :=
    Json.isPlainChar_of_all (by decide)
  intro c hc
  apply isPlainChar_of_toLower
  apply hlower
  rw [← hm, Uuid.toList_toLower]
  exact List.mem_map_of_mem hc

/-- A plain text is plain behind a marker, and longer by nine characters. -/
theorem isPlainChar_append_marker {marker text : String} (hm : marker.toLower = "urn:uuid")
    (hplain : ∀ c ∈ text.toList, Json.IsPlainChar c) :
    (∀ c ∈ (marker ++ ":" ++ text).toList, Json.IsPlainChar c) ∧
      (marker ++ ":" ++ text).toList.length = text.toList.length + 9 := by
  have hchars : (marker ++ ":" ++ text).toList = marker.toList ++ ':' :: text.toList := by
    simp [String.toList_append]
  rw [hchars]
  constructor
  · intro c hc
    rcases List.mem_append.1 hc with hc | hc
    · exact isPlainChar_of_mem_marker hm c hc
    · rcases List.mem_cons.1 hc with rfl | hc
      · decide
      · exact hplain c hc
  · rw [List.length_append, List.length_cons, length_marker hm]
    omega

/-- Groups of digits are plain. -/
theorem isPlainChar_of_isGrouped {sizes : List Nat} {text : List Char}
    (h : Uuid.isGrouped sizes text = true) : ∀ c ∈ text, Json.IsPlainChar c := by
  intro c hc
  rcases Uuid.mem_of_isGrouped h c hc with hdigit | rfl
  · refine ⟨?_, ?_, ?_⟩
    · rintro rfl
      exact absurd hdigit (by decide)
    · rintro rfl
      exact absurd hdigit (by decide)
    · unfold Uuid.isHexDigit at hdigit
      simp only [Bool.or_eq_true, Bool.and_eq_true, decide_eq_true_eq] at hdigit
      rcases hdigit with (⟨hlow, _⟩ | ⟨hlow, _⟩) | ⟨hlow, _⟩
      · exact le_trans (by decide) (UInt32.le_iff_toNat_le.1 hlow)
      · exact le_trans (by decide) (UInt32.le_iff_toNat_le.1 hlow)
      · exact le_trans (by decide) (UInt32.le_iff_toNat_le.1 hlow)
  · decide

namespace Service

variable {σ : Type} {s : Service Entropy} {model : LanguageModel σ}

/-- The language model is called for known users, in conversations with well-formed ids. -/
theorem known_of_mem_calls (hscheme : s.scheme = Scheme.uuid) {a : Arrival}
    {w : Situation Entropy σ} {call : Call} {identity : Identity}
    (hcall : call ∈ (s.turn model a w).1.calls)
    (hcaller : (s.turn model a w).1.caller = .ok identity) :
    s.authenticator.Knows identity.userId ∧
      Uuid.isWellFormed call.prompt.conversationId.text = true := by
  constructor
  · exact ⟨a.now, a.request, identity, hcaller, rfl⟩
  · rcases s.turn_cases model a w with
      ⟨hnone, _⟩ | ⟨identity, query, id, source, delivered, _, _, hresolve, hcalls, _⟩
    · rw [hnone] at hcall
      simp at hcall
    · rw [hcalls, List.mem_singleton] at hcall
      subst hcall
      rw [hscheme] at hresolve
      exact ConversationId.isWellFormed_of_resolve hresolve

/-- Exchanges belong to known users and to conversations with well-formed ids. -/
theorem known_of_mem_exchanges (hscheme : s.scheme = Scheme.uuid) {arrivals : List Arrival}
    {w : Situation Entropy σ} {e : Exchange}
    (h : e ∈ (s.turns model arrivals w).flatMap Turn.exchanges) :
    s.authenticator.Knows e.userId ∧ Uuid.isWellFormed e.conversationId.text = true := by
  obtain ⟨t, ht, he⟩ := List.mem_flatMap.1 h
  have hall : ∀ t ∈ s.turns model arrivals w, ∀ e ∈ t.exchanges,
      s.authenticator.Knows e.userId ∧ Uuid.isWellFormed e.conversationId.text = true := by
    refine s.forall_mem_turns model (fun a w => ?_) arrivals w
    intro e he
    obtain ⟨identity, call, hcaller, hcall, huser, hid⟩ := Turn.exists_call_of_mem_exchanges he
    rw [huser, hid]
    exact known_of_mem_calls hscheme hcall hcaller
  exact hall t ht e he

/-! ## Where no user shadows another -/

/-- Where no known user shadows another one, the exchanges that belong to the key of a conversation
are those that its user had in it. -/
theorem entriesUnder_eq_entriesOf (hscheme : s.scheme = Scheme.uuid)
    (hapart : ∀ user other, s.authenticator.Knows user → s.authenticator.Knows other →
      ¬Shadows user other)
    (arrivals : List Arrival) (w : Situation Entropy σ) {userId : String} {id : ConversationId}
    (huser : s.authenticator.Knows userId) (hid : Uuid.isWellFormed id.text = true) :
    Turn.entriesUnder (id.cacheKey userId) (s.turns model arrivals w) =
      Turn.entriesOf userId id (s.turns model arrivals w) := by
  unfold Turn.entriesUnder Turn.entriesOf
  apply congrArg (List.map Exchange.entry)
  apply List.filter_congr
  intro e he
  obtain ⟨huser', hid'⟩ := known_of_mem_exchanges hscheme he
  apply decide_eq_decide.2
  constructor
  · -- A key tells users apart that do not shadow one another.
    intro hkey
    exact (cacheKey_injective_iff e.userId userId).2
      ⟨hapart _ _ huser' huser, hapart _ _ huser huser'⟩ e.conversationId id hid' hid hkey
  · rintro ⟨rfl, rfl⟩
    rfl

/-- Where no known user shadows another one, all runs are isolated. -/
theorem isolated_of_not_shadows (hscheme : s.scheme = Scheme.uuid)
    (hapart : ∀ user other, s.authenticator.Knows user → s.authenticator.Knows other →
      ¬Shadows user other)
    (maxEntries maxHistoryBytes : Nat) (source : Entropy) (state : σ) (arrivals : List Arrival) :
    Isolated maxHistoryBytes
      (s.turns model arrivals (.initial maxEntries maxHistoryBytes source state)) := by
  intro i t call ht hcall
  obtain ⟨identity, hcaller, hremembered⟩ := s.remembered_of_call model ht hcall
  refine ⟨identity, _, hcaller, ?_, hremembered⟩
  have hsuffix := Cache.residence_suffix (c := Cache.empty maxEntries maxHistoryBytes)
    (call.prompt.conversationId.cacheKey identity.userId) []
    (((s.turns model arrivals (.initial maxEntries maxHistoryBytes source state)).take
      i).flatMap Turn.accesses)
  rw [getElem?_turns] at ht
  obtain ⟨a, _, rfl⟩ := Option.map_eq_some_iff.1 ht
  obtain ⟨huser, hid⟩ := known_of_mem_calls hscheme hcall hcaller
  rw [take_turns] at hsuffix ⊢
  rwa [List.nil_append, entriesOf_turns,
    entriesUnder_eq_entriesOf hscheme hapart _ _ huser hid] at hsuffix

/-! ## Where a user shadows another -/

/-- A question of a known user, in a conversation with a well-formed id, goes to the language model
with the history of the conversation, and the exchange is written. -/
theorem turn_listedQuery (hscheme : s.scheme = Scheme.uuid) {now : UInt64} {request : Http.Request}
    {identity : Identity}
    (hidentity : s.authenticator.authenticate now request.credentials = .ok identity)
    (id : ConversationId) (hid : Uuid.isWellFormed id.text = true)
    (hplain : ∀ c ∈ id.text.toList, Json.IsPlainChar c) (hshort : id.text.toList.length ≤ 100)
    (w : Situation Entropy Unit) :
    let a : Arrival := ⟨now, .query request.headers (listedQuery "q" id.text)⟩
    let key := id.cacheKey identity.userId
    (s.turn .echo a w).1.caller = .ok identity ∧
      (s.turn .echo a w).1.calls =
        [⟨⟨id, "q", none, none, [], w.memory.cache.peek? key⟩, .ok ⟨"q", [], false⟩⟩] ∧
      (s.turn .echo a w).2.memory.cache =
        ((w.memory.cache.get key).2.write key (History.exchange "q" "q")).1 := by
  intro a key
  have hpath : a.request.path = "/v1/query" := path_query _ _
  have hknown : s.authenticator.authenticate a.now a.request.credentials = .ok identity := by
    rw [credentials_query, hidentity]
  have hquestion : ∀ c ∈ "q".toList, Json.IsPlainChar c :=
    Json.isPlainChar_of_all (by decide)
  have hread := readQuery_listedQuery identity request.headers hquestion hplain (by simp; omega)
  have hresolve : ConversationId.resolve s.scheme w.memory.source (some id.text) =
      (.ok id, w.memory.source) := by
    rw [hscheme]
    unfold ConversationId.resolve ConversationId.parse
    simp only [Scheme.uuid, hid, if_true]
  rw [s.turn_of_resolved .echo hpath rfl hknown hread hresolve]
  exact ⟨rfl, rfl, rfl⟩

/-- A key that is the first to be written is held. -/
theorem isSome_peek?_write_empty (maxEntries maxHistoryBytes : Nat) (key entry : String) :
    ((((Cache.empty maxEntries maxHistoryBytes).get key).2.write key entry).1.peek?
      key).isSome := by
  have hkeys : ((Cache.empty maxEntries maxHistoryBytes).get key).2.keys = [] := by
    rw [Cache.keys_get]
    rfl
  have hfew : (((Cache.empty maxEntries maxHistoryBytes).get key).2.keys.toFinset ∪
      (Access.write key entry).writtenKeys.toFinset).card ≤ max maxEntries 1 := by
    rw [hkeys]
    simp [Access.writtenKeys]
  have hnodup : ((Cache.empty maxEntries maxHistoryBytes).get key).2.keys.Nodup := by
    rw [hkeys]
    exact List.nodup_nil
  have hheld := (Cache.keys_access_of_few hnodup hfew).2
  rw [hkeys] at hheld
  apply (Cache.isSome_peek?_iff _ key).2
  apply List.mem_toFinset.1
  exact hheld ▸ by simp [Access.writtenKeys]

/-- Where a known user shadows another one, there is a run in which it is given what the other one
was told. -/
theorem exists_not_isolated (hscheme : s.scheme = Scheme.uuid) {user other : String}
    (huser : s.authenticator.Knows user) (hother : s.authenticator.Knows other)
    (hshadows : Shadows user other) (maxEntries maxHistoryBytes : Nat) (source : Entropy) :
    ∃ arrivals, ¬Isolated maxHistoryBytes
      (s.turns .echo arrivals (.initial maxEntries maxHistoryBytes source ())) := by
  obtain ⟨now, request, identity, hidentity, rfl⟩ := huser
  obtain ⟨now', request', identity', hidentity', rfl⟩ := hother
  obtain ⟨marker, hm, huserId⟩ := hshadows
  let digits := Uuid.text (Vector.replicate 16 0)
  have hdigits : Uuid.isHyphenated digits.toList = true := Uuid.isHyphenated_text _
  have hlength : digits.toList.length = 36 := by decide +kernel
  have hplain := isPlainChar_of_isGrouped hdigits
  -- The other user asks in the conversation of the resource name, the first one in that of the
  -- digits: both are kept under one key.
  let id : ConversationId := ⟨digits⟩
  let id' : ConversationId := ⟨marker ++ ":" ++ digits⟩
  have hkey : id.cacheKey identity.userId = id'.cacheKey identity'.userId :=
    SharesKey.cacheKey_eq ⟨marker, hm, huserId, rfl⟩
  obtain ⟨hplain', hlength'⟩ := isPlainChar_append_marker hm hplain
  let w := Situation.initial maxEntries maxHistoryBytes source ()
  let first : Arrival := ⟨now', .query request'.headers (listedQuery "q" id'.text)⟩
  let second : Arrival := ⟨now, .query request.headers (listedQuery "q" id.text)⟩
  obtain ⟨hcaller', _, hcache⟩ := turn_listedQuery hscheme hidentity' id'
    (isWellFormed_marker hm hdigits) hplain' (hlength' ▸ hlength ▸ by decide) w
  obtain ⟨hcaller, hcalls, _⟩ := turn_listedQuery hscheme hidentity id
    (Uuid.isWellFormed_text _) hplain (hlength ▸ by decide) (s.turn .echo first w).2
  refine ⟨[first, second], not_isolated_of_stranger (i := 1) rfl
    (hcalls ▸ List.mem_singleton_self _) hcaller ?_ ?_⟩
  · intro e he hsame
    have hfirst : e ∈ (s.turn .echo first w).1.exchanges := by simpa [turns] using he
    obtain ⟨caller, _, hcaller'', _, huser, _⟩ := Turn.exists_call_of_mem_exchanges hfirst
    obtain rfl : identity' = caller := Except.ok.inj (hcaller'.symm.trans hcaller'')
    exact not_shadows_self _ ⟨marker, hm, (huser.symm.trans hsame) ▸ huserId⟩
  · show (s.turn .echo first w).2.memory.cache.peek? (id.cacheKey identity.userId) ≠ none
    rw [hcache, hkey]
    exact Option.isSome_iff_ne_none.1 (isSome_peek?_write_empty maxEntries maxHistoryBytes _ _)

/-- However callers identify themselves, all runs are isolated if and only if no user that may be
known shadows another one. What this rests on: keys tell two users apart, and the conversations of
one user, if and only if neither of the two shadows the other. -/
theorem isolated_iff (settings : AuthSettings) (takesFeedback : Bool)
    (maxEntries maxHistoryBytes : Nat) :
    let s : Service Entropy := ⟨Scheme.uuid, Authenticator.ofSettings settings, takesFeedback⟩
    ((∀ (σ : Type) (model : LanguageModel σ) (source : Entropy) (state : σ)
        (arrivals : List Arrival), Isolated maxHistoryBytes
          (s.turns model arrivals (.initial maxEntries maxHistoryBytes source state))) ↔
      ∀ user other, s.authenticator.Knows user → s.authenticator.Knows other →
        ¬Shadows user other) ∧
    ∀ user other : String,
      (∀ id id' : ConversationId, Uuid.isWellFormed id.text = true →
        Uuid.isWellFormed id'.text = true → id.cacheKey user = id'.cacheKey other →
          user = other ∧ id = id') ↔
        ¬Shadows user other ∧ ¬Shadows other user := by
  intro s
  refine ⟨⟨?_, ?_⟩, cacheKey_injective_iff⟩
  · intro hisolated user other huser hother hshadows
    obtain ⟨arrivals, hnot⟩ := exists_not_isolated rfl huser hother hshadows maxEntries
      maxHistoryBytes ⟨fun _ => Vector.replicate 16 0, 0⟩
    exact hnot (hisolated Unit .echo _ () arrivals)
  · intro hapart σ model source state arrivals
    exact isolated_of_not_shadows rfl hapart maxEntries maxHistoryBytes source state arrivals

/-- The user `alice:urn:uuid` is given what the user `alice` was told. -/
theorem not_isolated_alice :
    let settings : AuthSettings :=
      { enabled := true
        keys := [⟨"k1", "alice", "Alice"⟩, ⟨"k2", "alice:urn:uuid", "Mallory"⟩]
        tokenSecret := "", tokenIssuer := "", tokenAudience := "" }
    let s : Service Entropy := ⟨Scheme.uuid, Authenticator.ofSettings settings, true⟩
    let arrivals : List Arrival :=
      [ ⟨0, .query [("x-api-key", Utf8.encode "k1")]
          (listedQuery "secret" "urn:uuid:123e4567-e89b-12d3-a456-426614174000")⟩
      , ⟨0, .query [("x-api-key", Utf8.encode "k2")]
          (listedQuery "mine" "123e4567-e89b-12d3-a456-426614174000")⟩ ]
    let run := s.turns LanguageModel.echo arrivals
      (.initial 1000 65536 ⟨fun _ => Vector.replicate 16 0, 0⟩ ())
    (run.map fun t => (t.caller.toOption.map (·.userId), t.calls.map (·.prompt.history))) =
        [ (some "alice", [none])
        , (some "alice:urn:uuid", [some "human: secret\nai: secret"]) ] ∧
      ¬Isolated 65536 run := by
  intro settings s arrivals run
  have hrun : (run.map fun t =>
      (t.caller.toOption.map (·.userId), t.calls.map (·.prompt.history))) =
        [ (some "alice", [none])
        , (some "alice:urn:uuid", [some "human: secret\nai: secret"]) ] := by
    decide +kernel
  have hfirst : ((run.take 1).flatMap Turn.exchanges).map Exchange.userId = ["alice"] := by
    decide +kernel
  have hsecond := congrArg (·[1]?) hrun
  simp only [List.getElem?_map] at hsecond
  obtain ⟨t, ht, hseen⟩ := Option.map_eq_some_iff.1 hsecond
  obtain ⟨hcaller, hcalls⟩ := Prod.mk.inj hseen
  obtain ⟨call, hcall, hhistory⟩ := List.map_eq_singleton_iff.1 hcalls
  cases hidentity : t.caller with
  | error failure =>
    rw [hidentity] at hcaller
    exact nomatch hcaller
  | ok identity =>
    have huser : identity.userId = "alice:urn:uuid" := by
      rw [hidentity] at hcaller
      exact Option.some.inj hcaller
    refine ⟨hrun, not_isolated_of_stranger ht (hcall ▸ List.mem_singleton_self call) hidentity
      ?_ ?_⟩
    · intro e he
      have halice := hfirst ▸ List.mem_map_of_mem (f := Exchange.userId) he
      rw [List.mem_singleton.1 halice, huser]
      decide
    · rw [hhistory]
      exact Option.some_ne_none _

end Service

end Colloquy
