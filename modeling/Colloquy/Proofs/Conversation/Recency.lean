import Colloquy.Proofs.Conversation.Residence
import Colloquy.Proofs.Entries
import Mathlib.Algebra.Group.Nat.Defs
import Mathlib.Data.List.TakeDrop
import Mathlib.Data.List.Nodup

/-!
# Which conversations are held

`Cache.recentKeys` lists the keys that were used by some accesses, the one used last first. The
cache orders its entries by stamps of a clock instead, in a list whose order means nothing. The
invariant `Ranked` brings the two together: sorted by their stamps, the entries are those of the
first of the recent keys. `exists_ranked_access` shows that an access keeps it while the clock does
not wrap; so the keys that are held are always the ones that were used last. As an eviction removes
the entries at the end of the ranking (`evict_of_ranking`), what goes does not depend on the order
in which the entries are kept.
-/

set_option autoImplicit false

namespace Colloquy

/-- The key that an access is about. -/
def Access.key : Access → String
  | get key => key
  | write key _ => key

namespace Cache

/-- Whether an access uses its key: writing always does, reading does if the key is held. -/
def isUse (c : Cache) : Access → Bool
  | .get key => (c.peek? key).isSome
  | .write .. => true

/-- The keys that are used by some accesses, the last use first, in front of the ones that were
used before. -/
def uses : (c : Cache) → (used : List String) → List Access → List String
  | _, used, [] => used
  | c, used, a :: accesses =>
    uses (c.access a) (if c.isUse a then a.key :: used else used) accesses

/-- The keys that are used by some accesses, each once, the one that was used last first. -/
def recentKeys (c : Cache) (accesses : List Access) : List String :=
  (c.uses [] accesses).eraseDups

/-- What the key of an access is held with once it is used. -/
def freshEntry (c : Cache) : Access → CachedHistory
  | .get key => ⟨(c.peek? key).getD "", c.clock⟩
  | .write key entry => ⟨extend c.maxHistoryBytes (c.peek? key) entry, c.clock⟩

/-- The keys whose histories an access evicts. -/
def evicted (c : Cache) : Access → List String
  | .get _ => []
  | .write key entry => (c.write key entry).2

/-- Caches that differ at most in the order in which they keep their entries. -/
structure Alike (c d : Cache) : Prop where
  /-- The entries are the same, in any order. -/
  perm : c.entries.Perm d.entries
  clock : c.clock = d.clock
  maxEntries : c.maxEntries = d.maxEntries
  /-- As much of one history is kept. -/
  maxHistoryBytes : c.maxHistoryBytes = d.maxHistoryBytes

/-- Entries in the order of their last access, the latest first, each key once. -/
structure IsRanking (ranking entries : List (String × CachedHistory)) : Prop where
  perm : ranking.Perm entries
  /-- They are sorted by their stamps. -/
  sorted : ranking.Pairwise fun a b => b.2.touched.toNat < a.2.touched.toNat
  nodup : (ranking.map (·.1)).Nodup

/-- The entries of a cache are those of the first of the recent keys, and older than the clock. -/
structure Ranked (c : Cache) (recent : List String) (ranking : List (String × CachedHistory)) :
    Prop extends IsRanking ranking c.entries where
  /-- The keys are the first of the recent ones. -/
  keys : ranking.map (·.1) = recent.take c.maxEntries
  /-- The recent keys are each there once. -/
  recent_nodup : recent.Nodup
  /-- The clock is ahead of all stamps. -/
  clock : ∀ e ∈ ranking, e.2.touched.toNat < c.clock.toNat

/-! ## Entries of other keys -/

/-- Where a key is not held there is nothing to filter out. -/
theorem filter_of_notMem {key : String} {entries : List (String × CachedHistory)}
    (h : key ∉ entries.map (·.1)) : entries.filter (·.1 ≠ key) = entries := by
  rw [List.filter_eq_self]
  intro e he
  simpa using ne_of_mem_of_not_mem (List.mem_map_of_mem (f := (·.1)) he) h

/-- Where a key is not held there is nothing to change. -/
theorem update_of_notMem {key : String} {entries : List (String × CachedHistory)}
    (h : key ∉ entries.map (·.1)) (f : CachedHistory → CachedHistory) :
    update key f entries = entries := by
  refine (List.map_congr_left ?_).trans (List.map_id _)
  intro e he
  exact if_neg (ne_of_mem_of_not_mem (List.mem_map_of_mem (f := (·.1)) he) h)

/-- Changing the entry of a key changes one entry and leaves the others. -/
theorem perm_update {key : String} {entries : List (String × CachedHistory)}
    {held : CachedHistory} (hnodup : (entries.map (·.1)).Nodup)
    (hheld : entries.lookup key = some held) (f : CachedHistory → CachedHistory) :
    ((key, f held) :: entries.filter (·.1 ≠ key)).Perm (update key f entries) := by
  obtain ⟨before, after, rfl, _⟩ := List.lookup_eq_some_iff.1 hheld
  rw [List.map_append, List.map_cons, List.nodup_middle, List.nodup_cons, List.mem_append, not_or]
    at hnodup
  obtain ⟨⟨hbefore, hafter⟩, -⟩ := hnodup
  have hupdate : update key f (before ++ (key, held) :: after) =
      before ++ (key, f held) :: after := by
    have hb := update_of_notMem hbefore f
    have ha := update_of_notMem hafter f
    unfold update at ha hb ⊢
    rw [List.map_append, List.map_cons, ha, hb, if_pos rfl]
  rw [hupdate, List.filter_append, filter_of_notMem hbefore, List.filter_cons_of_neg (by simp),
    filter_of_notMem hafter]
  exact List.perm_middle.symm

/-! ## The oldest entry -/

/-- The older one of two entries is one of them, and no younger than either. -/
theorem older_spec (a b : String × CachedHistory) :
    (older a b = a ∨ older a b = b) ∧ (older a b).2.touched.toNat ≤ a.2.touched.toNat ∧
      (older a b).2.touched.toNat ≤ b.2.touched.toNat := by
  unfold older
  split
  · next h => exact ⟨Or.inr rfl, Nat.le_of_lt (UInt64.lt_iff_toNat_lt.1 h), Nat.le_refl _⟩
  · next h => exact ⟨Or.inl rfl, Nat.le_refl _, Nat.le_of_not_lt (mt UInt64.lt_iff_toNat_lt.2 h)⟩

/-- The oldest of some entries is one of them, and no younger than any. -/
theorem foldl_older_spec (entries : List (String × CachedHistory)) (e : String × CachedHistory) :
    entries.foldl older e ∈ e :: entries ∧
      ∀ x ∈ e :: entries, (entries.foldl older e).2.touched.toNat ≤ x.2.touched.toNat := by
  induction entries generalizing e with
  | nil => simp
  | cons y entries ih =>
    obtain ⟨hmem, hle⟩ := ih (older e y)
    obtain ⟨hchoice, hx, hy⟩ := older_spec e y
    rw [List.foldl_cons]
    constructor
    · rcases List.mem_cons.1 hmem with h | h
      · rw [h]
        rcases hchoice with h | h <;> simp [h]
      · exact List.mem_cons_of_mem _ (List.mem_cons_of_mem _ h)
    · have hfirst := hle (older e y) List.mem_cons_self
      intro x hmem'
      rcases List.mem_cons.1 hmem' with rfl | hmem'
      · exact hfirst.trans hx
      · rcases List.mem_cons.1 hmem' with rfl | hmem'
        · exact hfirst.trans hy
        · exact hle x (List.mem_cons_of_mem _ hmem')

/-- The last entry of a ranking is the oldest one, in whatever order the entries are kept. -/
theorem oldest?_of_ranking {init entries : List (String × CachedHistory)}
    {last : String × CachedHistory} (h : IsRanking (init ++ [last]) entries) :
    oldest? entries = some last.1 := by
  cases entries with
  | nil => simpa using h.perm.length_eq
  | cons e entries =>
    obtain ⟨hmem, hle⟩ := foldl_older_spec entries e
    have hlast := hle last (h.perm.mem_iff.1 (by simp))
    show some (entries.foldl older e).1 = some last.1
    rcases List.mem_append.1 (h.perm.mem_iff.2 hmem) with hinit | hinit
    · have := (List.pairwise_append.1 h.sorted).2.2 _ hinit last (List.mem_singleton_self last)
      omega
    · rw [List.mem_singleton.1 hinit]

/-- The entries that are left when the oldest one goes. -/
theorem IsRanking.dropLast {init entries : List (String × CachedHistory)}
    {last : String × CachedHistory} (h : IsRanking (init ++ [last]) entries) :
    IsRanking init (entries.filter (·.1 ≠ last.1)) := by
  have hkeys := h.nodup
  rw [List.map_append, List.map_singleton, List.nodup_append] at hkeys
  obtain ⟨hinit, _, hne⟩ := hkeys
  refine ⟨?_, (List.pairwise_append.1 h.sorted).1, hinit⟩
  have hfilter : (init ++ [last]).filter (·.1 ≠ last.1) = init := by
    rw [List.filter_append, filter_of_notMem]
    · simp
    · intro hmem
      exact hne _ hmem last.1 (List.mem_singleton_self _) rfl
  rw [← hfilter]
  exact h.perm.filter _

/-- An eviction removes the entries at the end of the ranking, the last one first. -/
theorem evict_of_ranking {ranking entries : List (String × CachedHistory)}
    (h : IsRanking ranking entries) (excess : Nat) :
    (ranking.take (ranking.length - excess)).Perm (evict excess entries).1 ∧
      (evict excess entries).2 = ((ranking.reverse.take excess).map (·.1)) := by
  induction excess generalizing ranking entries with
  | zero => simpa [evict] using h.perm
  | succ excess ih =>
    -- The loop takes the oldest entry out, which is the last one of the ranking; the rest of the
    -- ranking ranks what is left.
    rcases List.eq_nil_or_concat ranking with rfl | ⟨init, last, rfl⟩
    · have hnil : entries = [] := h.perm.nil_eq.symm
      subst hnil
      simp [evict, oldest?]
    · rw [List.concat_eq_append] at h ⊢
      obtain ⟨hperm, hkeys⟩ := ih h.dropLast
      unfold evict
      rw [oldest?_of_ranking h]
      constructor
      · have htake : (init ++ [last]).take ((init ++ [last]).length - (excess + 1)) =
            init.take (init.length - excess) := by
          rw [List.take_append_of_le_length] <;> simp
        rw [htake]
        exact hperm
      · simp only [hkeys, List.reverse_append, List.reverse_singleton, List.singleton_append,
          List.take_succ_cons, List.map_cons]

/-- An eviction down to `n` entries leaves the first `n` of the ranking. -/
theorem IsRanking.take_evict {ranking entries : List (String × CachedHistory)}
    (h : IsRanking ranking entries) (n : Nat) :
    IsRanking (ranking.take n) (evict (entries.length - n) entries).1 := by
  have htake : ranking.take (ranking.length - (entries.length - n)) = ranking.take n := by
    rw [← h.perm.length_eq]
    rcases Nat.le_total ranking.length n with hle | hle
    · rw [List.take_of_length_le hle, List.take_of_length_le (by omega)]
    · congr 1
      omega
  refine ⟨?_, h.sorted.sublist (List.take_sublist _ _), ?_⟩
  · rw [← htake]
    exact (evict_of_ranking h _).1
  · exact h.nodup.sublist ((List.take_sublist _ _).map _)

/-! ## The entry that is used -/

/-- An entry that is younger than all others comes to the front of the ranking. -/
theorem IsRanking.front {ranking entries grown : List (String × CachedHistory)}
    {e : String × CachedHistory} (h : IsRanking ranking entries)
    (hnewest : ∀ x ∈ ranking, x.2.touched.toNat < e.2.touched.toNat)
    (hgrown : (e :: entries.filter (·.1 ≠ e.1)).Perm grown) :
    IsRanking (e :: ranking.filter (·.1 ≠ e.1)) grown := by
  refine ⟨((h.perm.filter _).cons e).trans hgrown, ?_, ?_⟩
  · rw [List.pairwise_cons]
    exact ⟨fun x hx => hnewest x (List.mem_of_mem_filter hx), h.sorted.filter _⟩
  · rw [List.map_cons, List.nodup_cons]
    constructor
    · intro hmem
      obtain ⟨x, hx, hkey⟩ := List.mem_map.1 hmem
      simpa [hkey] using List.of_mem_filter hx
    · exact h.nodup.sublist (List.filter_sublist.map _)

/-- A reading that finds nothing leaves the entries. -/
theorem entries_get_of_none {c : Cache} {key : String} (h : c.peek? key = none) :
    (c.get key).2.entries = c.entries := by
  have hmem : key ∉ c.keys := by
    rw [← isSome_peek?_iff, h]
    simp
  exact update_of_notMem hmem fun h => { h with touched := c.clock }

/-- What a use of a key does: the fresh entry of the key comes to the others, and then the oldest
ones go. -/
theorem access_of_isUse {c : Cache} {a : Access} (hnodup : c.keys.Nodup)
    (hsize : c.entries.length ≤ c.maxEntries) (huse : c.isUse a = true) :
    ∃ grown, ((a.key, c.freshEntry a) :: c.entries.filter (·.1 ≠ a.key)).Perm grown ∧
      (c.access a).entries = (evict (grown.length - c.maxEntries) grown).1 ∧
      c.evicted a = (evict (grown.length - c.maxEntries) grown).2 := by
  cases a with
  | get key =>
    have hlength : (c.get key).2.entries.length = c.entries.length := List.length_map _
    refine ⟨(c.get key).2.entries, ?_, ?_⟩
    · cases hheld : c.entries.lookup key with
      | none => simp [isUse, peek?, hheld] at huse
      | some held =>
        have hfresh : c.freshEntry (.get key) = { held with touched := c.clock } := by
          simp [freshEntry, peek?, hheld]
        rw [hfresh]
        exact perm_update hnodup hheld fun h => { h with touched := c.clock }
    · rw [hlength, Nat.sub_eq_zero_of_le hsize]
      exact ⟨rfl, rfl⟩
  | write key entry =>
    refine ⟨c.grown key entry, ?_, rfl, rfl⟩
    unfold grown
    cases hheld : c.entries.lookup key with
    | none =>
      have hmem : key ∉ c.entries.map (·.1) := by
        rw [← isSome_lookup_iff, hheld]
        simp
      have hfresh : c.freshEntry (.write key entry) =
          ⟨History.trim c.maxHistoryBytes entry, c.clock⟩ := by
        simp [freshEntry, extend, peek?, hheld]
      rw [hfresh, Access.key, filter_of_notMem hmem]
      exact (List.perm_append_singleton _ _).symm
    | some held =>
      have hfresh : c.freshEntry (.write key entry) =
          ⟨History.trim c.maxHistoryBytes (History.append held.history entry), c.clock⟩ := by
        simp [freshEntry, extend, peek?, hheld]
      rw [hfresh]
      exact perm_update hnodup hheld fun h =>
        ⟨History.trim c.maxHistoryBytes (History.append h.history entry), c.clock⟩

/-! ## The invariant -/

/-- The first keys once one of them comes to the front. -/
theorem take_front {keys : List String} (hnodup : keys.Nodup) (key : String) (n : Nat) :
    (key :: (keys.take n).filter (· ≠ key)).take n = (key :: keys.filter (· ≠ key)).take n := by
  cases n with
  | zero => rfl
  | succ m =>
    -- The key takes the first place. The others have one place less on the right, and one more of
    -- them was taken on the left, which the key may have held.
    rw [List.take_succ_cons, List.take_succ_cons]
    congr 1
    induction keys generalizing m with
    | nil => rfl
    | cons k keys ih =>
      obtain ⟨hk, hnodup⟩ := List.nodup_cons.1 hnodup
      by_cases hkey : k = key
      · subst hkey
        have hkeep (l : List String) (hl : k ∉ l) : l.filter (· ≠ k) = l := by
          rw [List.filter_eq_self]
          intro x hx
          simpa using ne_of_mem_of_not_mem hx hl
        rw [List.take_succ_cons, List.filter_cons_of_neg (by simp),
          List.filter_cons_of_neg (by simp), hkeep _ hk,
          hkeep _ fun h => hk (List.mem_of_mem_take h), List.take_take, Nat.min_self]
      · rw [List.take_succ_cons, List.filter_cons_of_pos (by simpa using hkey),
          List.filter_cons_of_pos (by simpa using hkey)]
        cases m with
        | zero => rfl
        | succ m => rw [List.take_succ_cons, List.take_succ_cons, ih hnodup]

/-- An access takes one stamp from the clock. -/
theorem clock_access (c : Cache) (a : Access) : (c.access a).clock = c.clock + 1 := by
  cases a <;> rfl

/-- The clock counts on while it does not wrap. -/
theorem toNat_clock_access {c : Cache} (hclock : c.clock.toNat + 1 < 2 ^ 64) (a : Access) :
    (c.access a).clock.toNat = c.clock.toNat + 1 := by
  rw [clock_access, UInt64.toNat_add]
  exact Nat.mod_eq_of_lt hclock

/-- The keys that were used last stay distinct when one of them is used again. -/
theorem nodup_front {recent : List String} (h : recent.Nodup) (key : String) :
    (key :: recent.filter (· ≠ key)).Nodup :=
  List.nodup_cons.2 ⟨fun hmem => by simpa using List.of_mem_filter hmem, h.filter _⟩

/-- No key is held twice. -/
theorem Ranked.nodup_keys {c : Cache} {recent : List String}
    {ranking : List (String × CachedHistory)} (h : c.Ranked recent ranking) : c.keys.Nodup :=
  (h.perm.map _).nodup_iff.1 h.nodup

/-- No more histories are held than may be. -/
theorem Ranked.size_le {c : Cache} {recent : List String}
    {ranking : List (String × CachedHistory)} (h : c.Ranked recent ranking) :
    c.entries.length ≤ c.maxEntries := by
  rw [← h.perm.length_eq, ← List.length_map (f := (·.1)), h.keys]
  exact List.length_take_le _ _

/-- The stamp of a fresh entry is the one of the clock. -/
theorem touched_freshEntry (c : Cache) (a : Access) : (c.freshEntry a).touched = c.clock := by
  cases a <;> rfl

/-- A use of a key puts its fresh entry in front of the ranking, and then the last entries go. -/
theorem Ranked.access_of_isUse {c : Cache} {recent : List String}
    {ranking : List (String × CachedHistory)} (h : c.Ranked recent ranking) {a : Access}
    (huse : c.isUse a = true) :
    ∃ grown, IsRanking ((a.key, c.freshEntry a) :: ranking.filter (·.1 ≠ a.key)) grown ∧
      (c.access a).entries = (evict (grown.length - c.maxEntries) grown).1 ∧
      c.evicted a = (evict (grown.length - c.maxEntries) grown).2 := by
  obtain ⟨grown, hgrown, hkept, hevicted⟩ := Cache.access_of_isUse h.nodup_keys h.size_le huse
  refine ⟨grown, h.toIsRanking.front ?_ hgrown, hkept, hevicted⟩
  rw [touched_freshEntry]
  exact h.clock

/-- A cache that keeps its entries in another order has the same ranking. -/
theorem Ranked.of_alike {c d : Cache} {recent : List String}
    {ranking : List (String × CachedHistory)} (h : c.Ranked recent ranking) (hd : d.Alike c) :
    d.Ranked recent ranking where
  perm := h.perm.trans hd.perm.symm
  sorted := h.sorted
  nodup := h.nodup
  keys := by
    rw [hd.maxEntries]
    exact h.keys
  recent_nodup := h.recent_nodup
  clock := by
    rw [hd.clock]
    exact h.clock

/-- An access keeps the invariant while the clock does not wrap. -/
theorem exists_ranked_access {c : Cache} {recent : List String}
    {ranking : List (String × CachedHistory)} (h : c.Ranked recent ranking)
    (hclock : c.clock.toNat + 1 < 2 ^ 64) (a : Access) :
    ∃ ranking', (c.access a).Ranked
      (if c.isUse a then a.key :: recent.filter (· ≠ a.key) else recent) ranking' := by
  have hclock' := toNat_clock_access hclock a
  by_cases huse : c.isUse a = true
  · obtain ⟨grown, hgrown, hentries, -⟩ := h.access_of_isUse huse
    rw [if_pos huse]
    refine ⟨_, hentries ▸ hgrown.take_evict c.maxEntries, ?_, nodup_front h.recent_nodup _, ?_⟩
    · have hrest : (ranking.filter (·.1 ≠ a.key)).map (·.1) =
          (recent.take c.maxEntries).filter (· ≠ a.key) := by
        rw [← h.keys, List.filter_map]
        rfl
      rw [List.map_take, List.map_cons, hrest, maxEntries_access]
      exact take_front h.recent_nodup a.key c.maxEntries
    · intro x hx
      rcases List.mem_cons.1 (List.mem_of_mem_take hx) with rfl | hx
      · have : (c.freshEntry a).touched = c.clock := touched_freshEntry c a
        simp only [this]
        omega
      · have := h.clock x (List.mem_of_mem_filter hx)
        omega
  · rw [if_neg huse]
    cases a with
    | write key entry => exact absurd rfl huse
    | get key =>
      have hnone : c.peek? key = none := by simpa [isUse] using huse
      have hentries : (c.access (.get key)).entries = c.entries := entries_get_of_none hnone
      refine ⟨ranking, ⟨?_, h.sorted, h.nodup⟩, h.keys, h.recent_nodup, ?_⟩
      · rw [hentries]
        exact h.perm
      · intro e he
        have := h.clock e he
        omega

/-! ## Runs -/

/-- Filtering and dropping repeated keys commute. -/
theorem eraseDups_filter (p : String → Bool) (keys : List String) :
    (keys.filter p).eraseDups = keys.eraseDups.filter p := by
  induction hn : keys.length using Nat.strong_induction_on generalizing keys with
  | _ n ih =>
    cases keys with
    | nil => rfl
    | cons k keys =>
      have hlength : (keys.filter fun x => !x == k).length < n := by
        have := List.length_filter_le (fun x => !x == k) keys
        simp only [List.length_cons] at hn
        omega
      rw [List.eraseDups_cons]
      by_cases hk : p k = true
      · rw [List.filter_cons_of_pos hk, List.filter_cons_of_pos hk, List.eraseDups_cons,
          ← ih _ hlength _ rfl, List.filter_comm]
      · have hcomm : (keys.filter fun x => !x == k).filter p = keys.filter p := by
          rw [List.filter_filter]
          apply List.filter_congr
          intro x _
          by_cases hx : x = k <;> simp [hx, hk]
        rw [List.filter_cons_of_neg hk, List.filter_cons_of_neg hk, ← ih _ hlength _ rfl, hcomm]

/-- A key that is used comes to the front of the recent keys. -/
theorem eraseDups_cons_eq (key : String) (used : List String) :
    (key :: used).eraseDups = key :: used.eraseDups.filter (· ≠ key) := by
  rw [List.eraseDups_cons, eraseDups_filter]
  congr 1
  apply List.filter_congr
  intro x _
  by_cases hx : x = key <;> simp [hx]

/-- The limits stay. -/
@[simp] theorem maxEntries_accessAll (c : Cache) (accesses : List Access) :
    (c.accessAll accesses).maxEntries = c.maxEntries := by
  unfold accessAll
  induction accesses generalizing c with
  | nil => rfl
  | cons a accesses ih => rw [List.foldl_cons, ih, maxEntries_access]

/-- A run keeps the invariant while the clock does not wrap. -/
theorem exists_ranked_accessAll {c : Cache} {used : List String}
    {ranking : List (String × CachedHistory)} (h : c.Ranked used.eraseDups ranking)
    (accesses : List Access) (hclock : c.clock.toNat + accesses.length < 2 ^ 64) :
    ∃ ranking', (c.accessAll accesses).Ranked (c.uses used accesses).eraseDups ranking' := by
  induction accesses generalizing c used ranking with
  | nil => exact ⟨ranking, h⟩
  | cons a accesses ih =>
    rw [List.length_cons] at hclock
    have hstep : c.clock.toNat + 1 < 2 ^ 64 := by omega
    obtain ⟨ranking', h'⟩ := exists_ranked_access h hstep a
    have hused : (if c.isUse a then a.key :: used.eraseDups.filter (· ≠ a.key)
        else used.eraseDups) = (if c.isUse a then a.key :: used else used).eraseDups := by
      split
      · rw [eraseDups_cons_eq]
      · rfl
    rw [hused] at h'
    exact ih h' (by rw [toNat_clock_access hstep]; omega)

/-- A new cache holds nothing, and no key was used. -/
theorem ranked_empty (maxEntries maxHistoryBytes : Nat) :
    (empty maxEntries maxHistoryBytes).Ranked [].eraseDups [] where
  perm := List.Perm.refl []
  sorted := List.Pairwise.nil
  nodup := List.nodup_nil
  keys := by simp
  recent_nodup := List.nodup_nil
  clock := fun e he => by simp at he

/-- A run of a new cache keeps the invariant. -/
theorem exists_ranked_of_empty (maxEntries maxHistoryBytes : Nat) {accesses : List Access}
    (h : accesses.length < 2 ^ 64) :
    ∃ ranking, ((empty maxEntries maxHistoryBytes).accessAll accesses).Ranked
      ((empty maxEntries maxHistoryBytes).recentKeys accesses) ranking := by
  refine exists_ranked_accessAll (ranked_empty maxEntries maxHistoryBytes) accesses ?_
  have : (empty maxEntries maxHistoryBytes).clock.toNat = 0 := rfl
  omega

/-! ## The order of the entries -/

/-- What is found under a key does not depend on the order of the entries. -/
theorem Alike.peek?_eq {c d : Cache} (h : d.Alike c) (hnodup : c.keys.Nodup) (k : String) :
    d.peek? k = c.peek? k := by
  have hnodup' : (d.entries.map (·.1)).Nodup := (h.perm.map _).nodup_iff.2 hnodup
  unfold peek?
  congr 1
  ext v
  rw [lookup_eq_some_iff_mem hnodup', lookup_eq_some_iff_mem hnodup, h.perm.mem_iff]

/-- An access does the same to a cache that keeps its entries in another order. -/
theorem Ranked.alike_access {c d : Cache} {recent : List String}
    {ranking : List (String × CachedHistory)} (h : c.Ranked recent ranking) (hd : d.Alike c)
    (a : Access) : d.evicted a = c.evicted a ∧ (d.access a).Alike (c.access a) := by
  have hpeek := hd.peek?_eq h.nodup_keys
  have hclock : (d.access a).clock = (c.access a).clock := by
    rw [clock_access, clock_access, hd.clock]
  have hentries : (d.access a).maxEntries = (c.access a).maxEntries := by
    rw [maxEntries_access, maxEntries_access, hd.maxEntries]
  have hbytes : (d.access a).maxHistoryBytes = (c.access a).maxHistoryBytes := by
    rw [maxHistoryBytes_access, maxHistoryBytes_access, hd.maxHistoryBytes]
  have hsame : d.isUse a = c.isUse a := by
    cases a with
    | get key => simp [isUse, hpeek]
    | write key entry => rfl
  by_cases huse : c.isUse a = true
  · have hfresh : d.freshEntry a = c.freshEntry a := by
      cases a <;> simp [freshEntry, hpeek, hd.clock, hd.maxHistoryBytes]
    obtain ⟨grown, hgrown, hkept, hevicted⟩ := h.access_of_isUse huse
    obtain ⟨grown', hgrown', hkept', hevicted'⟩ :=
      (h.of_alike hd).access_of_isUse (hsame.trans huse)
    rw [hfresh] at hgrown'
    -- Both caches have come to one ranking, which alone says what is left of them.
    have hlength : grown'.length = grown.length :=
      hgrown'.perm.length_eq.symm.trans hgrown.perm.length_eq
    rw [hlength, hd.maxEntries] at hkept' hevicted'
    obtain ⟨hleft, hgone⟩ := evict_of_ranking hgrown (grown.length - c.maxEntries)
    obtain ⟨hleft', hgone'⟩ := evict_of_ranking hgrown' (grown.length - c.maxEntries)
    refine ⟨by rw [hevicted', hevicted, hgone', hgone], ⟨?_, hclock, hentries, hbytes⟩⟩
    rw [hkept, hkept']
    exact hleft'.symm.trans hleft
  · cases a with
    | write key entry => exact absurd rfl huse
    | get key =>
      have hnone : c.peek? key = none := by simpa [isUse] using huse
      refine ⟨rfl, ⟨?_, hclock, hentries, hbytes⟩⟩
      unfold access
      simp only
      rw [entries_get_of_none hnone, entries_get_of_none ((hpeek key).trans hnone)]
      exact hd.perm

/-! ## One write -/

/-- A key that is written is held. -/
theorem Ranked.mem_keys_write {c : Cache} {recent : List String}
    {ranking : List (String × CachedHistory)} (h : c.Ranked recent ranking)
    (hpos : 0 < c.maxEntries) (key entry : String) : key ∈ (c.write key entry).1.keys := by
  obtain ⟨grown, hgrown, hkept, -⟩ := h.access_of_isUse (a := .write key entry) rfl
  have hperm := (hgrown.take_evict c.maxEntries).perm
  obtain ⟨n, hn⟩ := Nat.exists_eq_add_one.2 hpos
  rw [← hkept, hn, List.take_succ_cons] at hperm
  exact List.mem_map_of_mem (f := (·.1)) (hperm.mem_iff.1 List.mem_cons_self)

/-- Writing evicts at most one key. -/
theorem Ranked.length_evicted_le {c : Cache} {recent : List String}
    {ranking : List (String × CachedHistory)} (h : c.Ranked recent ranking) (key entry : String) :
    (c.write key entry).2.length ≤ 1 := by
  obtain ⟨grown, hgrown, -, hgone⟩ := h.access_of_isUse (a := .write key entry) rfl
  have hlength : grown.length ≤ c.entries.length + 1 := by
    rw [← hgrown.perm.length_eq, ← h.perm.length_eq, List.length_cons]
    exact Nat.succ_le_succ (List.length_filter_le _ _)
  have hevicted : (c.write key entry).2 = _ := hgone.trans (evict_of_ranking hgrown _).2
  have := h.size_le
  rw [hevicted, List.length_map, List.length_take]
  omega

/-- The key that is written is not evicted. -/
theorem notMem_evicted {c : Cache} {key entry : String}
    (h : key ∈ (c.write key entry).1.keys) : key ∉ (c.write key entry).2 := by
  intro hmem
  rw [← isSome_peek?_iff, peek?_write, if_pos hmem] at h
  simp at h

/-- Whatever was done to a cache before, a key that is read and written is not evicted, and at most
one other key is. -/
theorem evicted_of_read (maxEntries maxHistoryBytes : Nat) {accesses : List Access}
    (hfew : accesses.length + 1 < 2 ^ 64) (key entry : String) :
    let read := (((empty maxEntries maxHistoryBytes).accessAll accesses).get key).2
    key ∉ (read.write key entry).2 ∧ (read.write key entry).2.length ≤ 1 := by
  intro read
  have hread : read = (empty maxEntries maxHistoryBytes).accessAll (accesses ++ [.get key]) := by
    unfold accessAll
    rw [List.foldl_append]
    rfl
  have hlength : (accesses ++ [Access.get key]).length < 2 ^ 64 := by simpa using hfew
  obtain ⟨ranking, h⟩ := exists_ranked_of_empty maxEntries maxHistoryBytes hlength
  rw [← hread] at h
  have hlimit : read.maxEntries = max maxEntries 1 := by
    rw [hread, maxEntries_accessAll]
    rfl
  have hpos : 0 < read.maxEntries := by omega
  exact ⟨notMem_evicted (h.mem_keys_write hpos key entry), h.length_evicted_le key entry⟩

/-- A cache holds exactly the keys that were used last, as many as it may hold, where writing uses
a key and reading does if the key is held. Writing evicts at most one key and not the one that is
written, and which one goes does not depend on the order in which the entries are kept. -/
theorem holds_most_recently_used (maxEntries maxHistoryBytes : Nat) (accesses : List Access)
    (hfew : accesses.length < 2 ^ 64) :
    let new := empty maxEntries maxHistoryBytes
    let c := new.accessAll accesses
    let limit := max maxEntries 1
    c.keys.Perm ((new.recentKeys accesses).take limit) ∧
      c.size ≤ limit ∧
      (∀ key, c.peek? key = none → (c.get key).2.entries = c.entries) ∧
      (∀ key entry, (c.write key entry).2.length ≤ 1 ∧ key ∉ (c.write key entry).2 ∧
        ∀ k, k ∈ (c.write key entry).1.keys ↔
          (k = key ∨ k ∈ c.keys) ∧ k ∉ (c.write key entry).2) ∧
      ∀ d : Cache, d.Alike c → ∀ a,
        d.evicted a = c.evicted a ∧ (d.access a).Alike (c.access a) := by
  intro new c limit
  obtain ⟨ranking, h⟩ := exists_ranked_of_empty maxEntries maxHistoryBytes hfew
  have hlimit : c.maxEntries = limit := maxEntries_accessAll new accesses
  have hpos : 0 < c.maxEntries := by omega
  refine ⟨?_, ?_, fun key => entries_get_of_none, ?_, fun d hd a => h.alike_access hd a⟩
  · rw [← hlimit, ← h.keys]
    exact (h.perm.map _).symm
  · rw [← hlimit]
    exact h.size_le
  · intro key entry
    refine ⟨h.length_evicted_le key entry, notMem_evicted (h.mem_keys_write hpos key entry), ?_⟩
    intro k
    rw [← isSome_peek?_iff, ← isSome_peek?_iff, peek?_write]
    by_cases hgone : k ∈ (c.write key entry).2
    · simp [hgone]
    · by_cases hk : k = key <;> simp [hgone, hk]

/-- Of three conversations of which two may be held, the one that was not read again goes. -/
theorem holds_last_two_used :
    let accesses : List Access := [.write "a" "1", .write "b" "2", .get "a", .write "c" "3"]
    accesses.length < 2 ^ 64 ∧ ((empty 2 1024).accessAll accesses).keys.Perm ["c", "a"] := by
  intro accesses
  have hfew : accesses.length < 2 ^ 64 := by decide
  have hrecent : ((empty 2 1024).recentKeys accesses).take (max 2 1) = ["c", "a"] := by
    decide +kernel
  exact ⟨hfew, hrecent ▸ (holds_most_recently_used 2 1024 accesses hfew).1⟩

end Cache

end Colloquy
