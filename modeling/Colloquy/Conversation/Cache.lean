import Colloquy.Conversation.History
import Colloquy.Conversation.Id

/-!
# The cache of conversations

The histories of the conversations that were used last. Every access takes the next stamp of a
clock and marks the history that it finds with it. When there are more histories than the cache
may hold, the one with the oldest mark goes. The clock counts in sixty-four bits and starts again
at zero after them.
-/

set_option autoImplicit false

namespace Colloquy

/-- The key that a user's history of a conversation is kept under. -/
def ConversationId.cacheKey (id : ConversationId) (userId : String) : String :=
  userId ++ ":" ++ id.text

/-- A history and the stamp of its last access. -/
structure CachedHistory where
  history : String
  touched : UInt64
  deriving DecidableEq, Repr, Inhabited

/-- The histories of the conversations that were used last. -/
structure Cache where
  /-- The histories by key, each key once. -/
  entries : List (String × CachedHistory)
  clock : UInt64
  /-- The number of histories that are kept. -/
  maxEntries : Nat
  /-- The number of bytes of one history that are kept. -/
  maxHistoryBytes : Nat
  deriving DecidableEq, Repr, Inhabited

namespace Cache

/-- The cache that holds nothing; it keeps at least one history. -/
def empty (maxEntries maxHistoryBytes : Nat) : Cache :=
  { entries := [], clock := 0, maxEntries := max maxEntries 1, maxHistoryBytes }

/-- The limits of a cache for which none are given. -/
def standard : Cache :=
  empty 1000 (64 * 1024)

/-- The number of histories. -/
def size (c : Cache) : Nat :=
  c.entries.length

/-- The history of a key, without an access. -/
def peek? (c : Cache) (key : String) : Option String :=
  (c.entries.lookup key).map (·.history)

/-- The entries with the one of `key`, if there is one, put through a function. -/
def update (key : String) (f : CachedHistory → CachedHistory)
    (entries : List (String × CachedHistory)) : List (String × CachedHistory) :=
  entries.map fun e => if e.1 = key then (e.1, f e.2) else e

/-- Reads the history of a key and marks it as used. -/
def get (c : Cache) (key : String) : Option String × Cache :=
  ( c.peek? key
  , { c with
      entries := update key (fun h => { h with touched := c.clock }) c.entries
      clock := c.clock + 1 } )

/-- The entry with the older mark; of two equally old ones the first. -/
def older (a b : String × CachedHistory) : String × CachedHistory :=
  if b.2.touched < a.2.touched then b else a

/-- The key of the entry that has not been used for the longest time. -/
def oldest? : (entries : List (String × CachedHistory)) → Option String
  | [] => none
  | e :: entries => some (entries.foldl older e).1

/-- The entries without the `excess` ones that have not been used for the longest time, and the
keys of those, the oldest first. -/
def evict : (excess : Nat) → (entries : List (String × CachedHistory)) →
    List (String × CachedHistory) × List String
  | 0, entries => (entries, [])
  | excess + 1, entries =>
    match oldest? entries with
    | none => (entries, [])
    | some key =>
      let (kept, evicted) := evict excess (entries.filter (·.1 ≠ key))
      (kept, key :: evicted)

/-- Writes an entry under a key: behind the history that is there, or as a new one. Delivers the
keys whose histories had to go. -/
def write (c : Cache) (key entry : String) : Cache × List String :=
  let trim := History.trim c.maxHistoryBytes
  let entries :=
    if (c.entries.lookup key).isSome then
      update key (fun h => ⟨trim (History.append h.history entry), c.clock⟩) c.entries
    else c.entries ++ [(key, ⟨trim entry, c.clock⟩)]
  let (entries, evicted) := evict (entries.length - c.maxEntries) entries
  ({ c with entries, clock := c.clock + 1 }, evicted)

end Cache

end Colloquy
