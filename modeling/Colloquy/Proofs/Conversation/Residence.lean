import Colloquy.Conversation.Cache
import Colloquy.Proofs.Conversation.Trimming
import Mathlib.Data.Finset.Card

/-!
# What a cache holds

A cache is used by accesses, one after the other. `peek?_get` and `peek?_write` say what one of them
does to the history of any key: reading leaves it, writing adds an entry to the history of its own
key, and the histories of evicted keys go. `Cache.residence` lists what was written under a key
since the key is held, and `remembered_residence` shows that the history of the key is a cut of just
that. While no more keys are written than the cache may hold nothing is evicted
(`residence_of_few`), so that the history is a cut of all that was ever written under the key.
-/

set_option autoImplicit false

namespace Colloquy

/-- One access to a cache. -/
inductive Access
  /-- The history of a key is read. -/
  | get (key : String)
  /-- An entry is written under a key. -/
  | write (key entry : String)
  deriving DecidableEq

namespace Access

/-- The entries that an access writes under a key. -/
def entriesOf (key : String) : Access → List String
  | get _ => []
  | write other entry => if other = key then [entry] else []

/-- The keys that an access writes. -/
def writtenKeys : Access → List String
  | get _ => []
  | write key _ => [key]

end Access

namespace Cache

/-- The cache after an access. -/
def access (c : Cache) : Access → Cache
  | .get key => (c.get key).2
  | .write key entry => (c.write key entry).1

/-- The cache after some accesses. -/
def accessAll (c : Cache) (accesses : List Access) : Cache :=
  accesses.foldl access c

/-- The keys of the histories that are held. -/
def keys (c : Cache) : List String :=
  c.entries.map (·.1)

/-- What was written under a key since the key is held, when `written` was before some accesses. -/
def residence (key : String) : (c : Cache) → (written : List String) → List Access → List String
  | _, written, [] => written
  | c, written, a :: accesses =>
    let c := c.access a
    residence key c (if (c.peek? key).isSome then written ++ a.entriesOf key else []) accesses

/-! ## Looking entries up -/

/-- Changing the history of one key leaves the keys. -/
theorem keys_update (key : String) (f : CachedHistory → CachedHistory)
    (entries : List (String × CachedHistory)) :
    (update key f entries).map (·.1) = entries.map (·.1) := by
  unfold update
  rw [List.map_map]
  apply List.map_congr_left
  intro e _
  by_cases h : e.1 = key <;> simp [h]

/-- Changing the history of one key changes what is found under that key only. -/
theorem lookup_update (key k : String) (f : CachedHistory → CachedHistory)
    (entries : List (String × CachedHistory)) :
    (update key f entries).lookup k =
      if k = key then (entries.lookup k).map f else entries.lookup k := by
  unfold update
  induction entries with
  | nil => simp
  | cons e entries ih =>
    obtain ⟨name, h⟩ := e
    by_cases hk : k = name
    · subst hk
      by_cases hkey : k = key <;> simp [hkey]
    · have hne : (k == name) = false := by simpa using hk
      by_cases hkey : name = key
      · subst hkey
        simpa [List.lookup_cons, hne, hk] using ih
      · simpa [List.lookup_cons, hne, hkey] using ih

/-- What is found under a key among the entries of some keys. -/
theorem lookup_filter {α β : Type} [BEq α] [LawfulBEq α] (p : α → Bool) (k : α)
    (entries : List (α × β)) :
    (entries.filter fun e => p e.1).lookup k = if p k then entries.lookup k else none := by
  induction entries with
  | nil => simp
  | cons e entries ih =>
    obtain ⟨name, h⟩ := e
    by_cases hk : k = name
    · subst hk
      by_cases hp : p k <;> simp [hp, ih]
    · have hne : (k == name) = false := by simpa using hk
      by_cases hp : p name <;> simp [hp, hne, List.lookup_cons, ih]

/-- What is left by an eviction are the entries of the keys that are not evicted. -/
theorem evict_eq_filter (excess : Nat) (entries : List (String × CachedHistory)) :
    (evict excess entries).1 = entries.filter fun e => e.1 ∉ (evict excess entries).2 := by
  induction excess generalizing entries with
  | zero => simp [evict]
  | succ excess ih =>
    unfold evict
    cases h : oldest? entries with
    | none => simp
    | some victim =>
      simp only [List.mem_cons, not_or]
      rw [ih, List.filter_filter]
      apply List.filter_congr
      intro e _
      by_cases he : e.1 = victim <;> simp [he]

/-- What is found under a key after an eviction. -/
theorem lookup_evict (excess : Nat) (entries : List (String × CachedHistory)) (k : String) :
    (evict excess entries).1.lookup k =
      if k ∈ (evict excess entries).2 then none else entries.lookup k := by
  have h := lookup_filter (fun k => k ∉ (evict excess entries).2) k entries
  rw [← evict_eq_filter] at h
  rw [h]
  by_cases hk : k ∈ (evict excess entries).2 <;> simp [hk]

/-- A key is held if something is found under it. -/
theorem isSome_lookup_iff {entries : List (String × CachedHistory)} {k : String} :
    (entries.lookup k).isSome ↔ k ∈ entries.map (·.1) := by
  rw [List.lookup_isSome_iff, List.mem_map]
  constructor
  · rintro ⟨e, he, hk⟩
    exact ⟨e, he, (beq_iff_eq.1 hk).symm⟩
  · rintro ⟨e, he, rfl⟩
    exact ⟨e, he, beq_self_eq_true e.1⟩

/-! ## What an access does -/

variable (c : Cache)

/-- The limits stay. -/
@[simp] theorem maxEntries_access (a : Access) : (c.access a).maxEntries = c.maxEntries := by
  cases a <;> rfl

/-- The limits stay. -/
@[simp] theorem maxHistoryBytes_access (a : Access) :
    (c.access a).maxHistoryBytes = c.maxHistoryBytes := by
  cases a <;> rfl

/-- A key is held if it has a history. -/
theorem isSome_peek?_iff (k : String) : (c.peek? k).isSome ↔ k ∈ c.keys := by
  unfold peek? keys
  rw [Option.isSome_map, isSome_lookup_iff]

/-- Reading a history leaves the keys. -/
theorem keys_get (key : String) : (c.get key).2.keys = c.keys :=
  keys_update key (fun h => { h with touched := c.clock }) c.entries

/-- Reading a history changes none. -/
theorem peek?_get (key k : String) : (c.get key).2.peek? k = c.peek? k := by
  unfold get peek?
  rw [lookup_update]
  split
  · cases c.entries.lookup k <;> rfl
  · rfl

/-- The history of a key with one more entry. -/
def extend (limit : Nat) (history : Option String) (entry : String) : String :=
  History.trim limit (match history with
    | some kept => History.append kept entry
    | none => entry)

/-- A history is extended and then cut. -/
theorem isCut_extend (limit : Nat) (history : Option String) (entry : String) :
    History.IsCut limit (History.extended history entry) (extend limit history entry) := by
  cases history with
  | none => exact History.isCut_trim limit entry
  | some kept => exact History.isCut_trim limit (History.append kept entry)

/-- The entries once one more is written under a key, before any is evicted. -/
def grown (key entry : String) : List (String × CachedHistory) :=
  if (c.entries.lookup key).isSome then
    update key (fun h => ⟨History.trim c.maxHistoryBytes (History.append h.history entry), c.clock⟩)
      c.entries
  else c.entries ++ [(key, ⟨History.trim c.maxHistoryBytes entry, c.clock⟩)]

/-- The key that is written is held, and none goes before the eviction. -/
theorem keys_grown (key entry : String) :
    (c.grown key entry).map (·.1) = if key ∈ c.keys then c.keys else c.keys ++ [key] := by
  unfold grown
  by_cases h : key ∈ c.keys
  · rw [if_pos (isSome_lookup_iff.2 h), if_pos h, keys_update, keys]
  · rw [if_neg (mt isSome_lookup_iff.1 h), if_neg h, List.map_append, keys]
    rfl

/-- Writing is growing and then evicting what is too much. -/
theorem write_eq (key entry : String) :
    let evicted := evict ((c.grown key entry).length - c.maxEntries) (c.grown key entry)
    c.write key entry = ({ c with entries := evicted.1, clock := c.clock + 1 }, evicted.2) :=
  rfl

/-- What is found under a key once one more entry is written. -/
theorem lookup_grown (key entry k : String) :
    (c.grown key entry).lookup k =
      if k = key then some ⟨extend c.maxHistoryBytes (c.peek? key) entry, c.clock⟩
      else c.entries.lookup k := by
  unfold grown extend peek?
  cases h : c.entries.lookup key with
  | none =>
    by_cases hk : k = key
    · subst hk
      simp [List.lookup_append, h]
    · have hne : (k == key) = false := by simpa using hk
      simp [List.lookup_append, List.lookup_cons, hk, hne]
  | some held =>
    rw [Option.isSome_some, if_pos rfl, lookup_update]
    by_cases hk : k = key
    · subst hk
      simp [h]
    · simp [hk]

/-- Writing an entry adds it to the history of its key, and the histories of the evicted keys go. -/
theorem peek?_write (key entry k : String) :
    (c.write key entry).1.peek? k =
      if k ∈ (c.write key entry).2 then none
      else if k = key then some (extend c.maxHistoryBytes (c.peek? key) entry)
      else c.peek? k := by
  rw [write_eq]
  unfold peek?
  simp only
  rw [lookup_evict, lookup_grown]
  by_cases hk : k ∈ (evict ((c.grown key entry).length - c.maxEntries) (c.grown key entry)).2
  · simp [hk]
  · by_cases hkey : k = key
    · subst hkey
      simp [hk, peek?]
    · simp [hk, hkey]

/-! ## The residence of a key -/

variable {c}

/-- A history that is remembered and not evicted is remembered with one more entry. -/
theorem remembered_extend {limit : Nat} {written : List String} {history : Option String}
    (h : History.Remembered limit written history) (entry : String) :
    History.Remembered limit (written ++ [entry]) (some (extend limit history entry)) := by
  cases h with
  | nothing => exact .cut (by simp) (History.isCut_trim limit entry)
  | cut nonempty isCut => exact .cut (by simp) (isCut.trim_append nonempty entry)

/-- A history that is left as it is stays remembered; nothing is remembered of no entries. -/
theorem remembered_isSome {limit : Nat} {written : List String} {history : Option String}
    (h : History.Remembered limit written history) :
    History.Remembered limit (if history.isSome then written else []) history := by
  cases h with
  | nothing => exact .nothing
  | cut nonempty isCut => exact .cut nonempty isCut

/-- One access keeps the history of a key in step with what was written since the key is held. -/
theorem remembered_access {key : String} {written : List String}
    (h : History.Remembered c.maxHistoryBytes written (c.peek? key)) (a : Access) :
    History.Remembered c.maxHistoryBytes
      (if ((c.access a).peek? key).isSome then written ++ a.entriesOf key else [])
      ((c.access a).peek? key) := by
  cases a with
  | get other =>
    rw [access, peek?_get, Access.entriesOf, List.append_nil]
    exact remembered_isSome h
  | write other entry =>
    rw [access, peek?_write, Access.entriesOf]
    split
    · exact .nothing
    · by_cases hkey : key = other
      · subst hkey
        simpa using remembered_extend h entry
      · rw [if_neg hkey, if_neg (Ne.symm hkey), List.append_nil]
        exact remembered_isSome h

/-- The history of a key is a cut of what was written under it since it is held. -/
theorem remembered_residence {key : String} {written : List String}
    (h : History.Remembered c.maxHistoryBytes written (c.peek? key)) (accesses : List Access) :
    History.Remembered c.maxHistoryBytes (c.residence key written accesses)
      ((c.accessAll accesses).peek? key) := by
  induction accesses generalizing c written with
  | nil => exact h
  | cons a accesses ih =>
    have hstep := remembered_access h a
    rw [← maxHistoryBytes_access c a] at hstep ⊢
    exact ih hstep

/-- What was written since a key is held are the last entries of all that was written under it. -/
theorem residence_suffix (key : String) (written : List String) (accesses : List Access) :
    c.residence key written accesses <:+ written ++ accesses.flatMap (Access.entriesOf key) := by
  induction accesses generalizing c written with
  | nil => simp [residence]
  | cons a accesses ih =>
    rw [residence]
    refine (ih _).trans ?_
    rw [List.flatMap_cons, ← List.append_assoc]
    split
    · exact List.suffix_refl _
    · rw [List.nil_append]
      exact List.suffix_append _ _

/-! ## Caches with room for all keys -/

/-- No key is held twice once one more entry is written. -/
theorem nodup_keys_grown (hnodup : c.keys.Nodup) (key entry : String) :
    ((c.grown key entry).map (·.1)).Nodup := by
  rw [keys_grown]
  split
  · exact hnodup
  · next h => exact List.nodup_append.2 ⟨hnodup, List.nodup_singleton key, by grind⟩

/-- Where there is room for all keys, the keys that are written come to those that are held. -/
theorem keys_access_of_few {a : Access} (hnodup : c.keys.Nodup)
    (hfew : (c.keys.toFinset ∪ a.writtenKeys.toFinset).card ≤ c.maxEntries) :
    (c.access a).keys.Nodup ∧
      (c.access a).keys.toFinset = c.keys.toFinset ∪ a.writtenKeys.toFinset := by
  cases a with
  | get key =>
    have hkeys : (c.access (.get key)).keys = c.keys := c.keys_get key
    rw [hkeys]
    exact ⟨hnodup, by simp [Access.writtenKeys]⟩
  | write key entry =>
    have hdistinct := nodup_keys_grown hnodup key entry
    have hset : ((c.grown key entry).map (·.1)).toFinset =
        c.keys.toFinset ∪ (Access.write key entry).writtenKeys.toFinset := by
      rw [keys_grown]
      split
      · next h => simp [Access.writtenKeys, h]
      · rw [List.toFinset_append]
        rfl
    have hlength : (c.grown key entry).length ≤ c.maxEntries := by
      rwa [← hset, List.toFinset_card_of_nodup hdistinct, List.length_map] at hfew
    have hkeys : (c.access (.write key entry)).keys = (c.grown key entry).map (·.1) := by
      unfold access keys
      simp only
      rw [write_eq, Nat.sub_eq_zero_of_le hlength]
      rfl
    rw [hkeys]
    exact ⟨hdistinct, hset⟩

end Cache

end Colloquy
