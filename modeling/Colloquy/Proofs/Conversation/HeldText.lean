import Colloquy.Proofs.Conversation.Recency

/-!
# The text of a held conversation

A history is cut after every entry, and yet nothing but its length is lost by that: the history of a
key that is held is what one cut leaves of all that was written under the key since it is held
(`Cache.holds_cut_of_written`). `HeldSince` says since when that is. The access that made the key be
held was a write of it (`eq_write_of_held`), so the history begins anew there, whatever was written
under the key before it was evicted; an access that does not write the key leaves its history or
evicts it (`peek?_access_of_entriesOf_eq_nil`).
-/

set_option autoImplicit false

namespace Colloquy

namespace History

/-- A part that begins with a line is an end of the text. -/
theorem IsLineTail.suffix {tail text : String} (h : IsLineTail tail text) :
    tail.toList <:+ text.toList := by
  rcases h with rfl | ⟨front, rfl⟩
  · exact List.suffix_refl _
  · rw [String.toList_append]
    exact List.suffix_append _ _

/-- A cut that is still too long is a single line. -/
theorem IsCut.notMem_of_lt {limit : Nat} {text kept : String} (h : IsCut limit text kept)
    (hlong : limit < kept.utf8ByteSize) : '\n' ∉ kept.toList := by
  obtain ⟨_, ⟨hfits, _⟩ | ⟨_, hline⟩⟩ := h
  · exact absurd hfits (Nat.not_le_of_lt hlong)
  · exact hline

/-- Where nothing is remembered there was nothing. -/
theorem Remembered.eq_nil {limit : Nat} {entries : List String}
    (h : Remembered limit entries none) : entries = [] := by
  cases h with
  | nothing => rfl

end History

namespace Cache

/-- A key is held since its entry `first` was written: it was not held before, and it is after that
write and after each of the accesses behind it. -/
structure HeldSince (c : Cache) (key first : String) (behind : List Access) : Prop where
  absent : c.peek? key = none
  held : ∀ front, front <+: behind →
    ((c.accessAll (.write key first :: front)).peek? key).isSome

variable {c : Cache} {key : String}

/-- Accesses that follow others are made to the cache that these leave. -/
theorem accessAll_append (c : Cache) (accesses more : List Access) :
    c.accessAll (accesses ++ more) = (c.accessAll accesses).accessAll more :=
  List.foldl_append

/-! ## Accesses that do not write a key -/

/-- An access that does not write a key leaves its history, unless it evicts the key. -/
theorem peek?_access_of_entriesOf_eq_nil {a : Access} (h : a.entriesOf key = []) :
    (c.access a).peek? key = c.peek? key ∨
      key ∈ c.evicted a ∧ (c.access a).peek? key = none := by
  cases a with
  | get other => exact Or.inl (c.peek?_get other key)
  | write other entry =>
    have hother : key ≠ other := by
      rintro rfl
      simp [Access.entriesOf] at h
    have hwrite := c.peek?_write other entry key
    by_cases hevicted : key ∈ (c.write other entry).2
    · rw [if_pos hevicted] at hwrite
      exact Or.inr ⟨hevicted, hwrite⟩
    · rw [if_neg hevicted, if_neg hother] at hwrite
      exact Or.inl hwrite

/-- A key that was not held and is held after an access was written by it. -/
theorem eq_write_of_held {a : Access} (habsent : c.peek? key = none)
    (hheld : ((c.access a).peek? key).isSome) : ∃ first, a = .write key first := by
  have hwrites : a.entriesOf key ≠ [] := by
    intro hnone
    rcases peek?_access_of_entriesOf_eq_nil (c := c) hnone with hkept | ⟨_, hgone⟩
    · rw [hkept, habsent] at hheld
      exact nomatch hheld
    · rw [hgone] at hheld
      exact nomatch hheld
  cases a with
  | get other => exact absurd rfl hwrites
  | write other entry =>
    by_cases hother : other = key
    · exact ⟨entry, by rw [hother]⟩
    · exact absurd (if_neg hother) hwrites

/-! ## Since when a key is held -/

/-- One more access adds what it writes under a key, or ends the residence of the key. -/
theorem residence_concat (c : Cache) (key : String) (written : List String)
    (accesses : List Access) (a : Access) :
    c.residence key written (accesses ++ [a]) =
      if ((c.accessAll (accesses ++ [a])).peek? key).isSome then
        c.residence key written accesses ++ a.entriesOf key
      else [] := by
  induction accesses generalizing c written with
  | nil => rfl
  | cons b accesses ih => exact ih (c.access b) _

/-- The history of a key that was not held at first is a cut of what was written under the key
since it is held. -/
theorem remembered_of_absent (habsent : c.peek? key = none) (accesses : List Access) :
    History.Remembered c.maxHistoryBytes (c.residence key [] accesses)
      ((c.accessAll accesses).peek? key) := by
  have hstart : History.Remembered c.maxHistoryBytes [] (c.peek? key) := by
    rw [habsent]
    exact .nothing
  exact remembered_residence hstart accesses

/-- Nothing was written under a key since it is held while it is not. -/
theorem residence_of_absent (habsent : c.peek? key = none) {accesses : List Access}
    (h : (c.accessAll accesses).peek? key = none) : c.residence key [] accesses = [] := by
  have hremembered := remembered_of_absent habsent accesses
  rw [h] at hremembered
  exact hremembered.eq_nil

/-- A write of a key that is held right after it. -/
theorem heldSince_nil {first : String} (habsent : c.peek? key = none)
    (hheld : ((c.access (.write key first)).peek? key).isSome) : c.HeldSince key first [] := by
  refine ⟨habsent, ?_⟩
  intro front hfront
  rw [List.prefix_nil.1 hfront]
  exact hheld

/-- A key that is still held after one more access. -/
theorem HeldSince.concat {first : String} {behind : List Access} {a : Access}
    (h : c.HeldSince key first behind)
    (hheld : ((c.accessAll (.write key first :: (behind ++ [a]))).peek? key).isSome) :
    c.HeldSince key first (behind ++ [a]) := by
  refine ⟨h.absent, ?_⟩
  intro front hfront
  rcases List.prefix_concat_iff.1 hfront with rfl | hfront
  · exact hheld
  · exact h.held front hfront

/-- A key that is held after some accesses is held since one of them wrote it, and what was written
under it since then is its residence. -/
theorem exists_heldSince (habsent : c.peek? key = none) (accesses : List Access)
    (hheld : ((c.accessAll accesses).peek? key).isSome) :
    ∃ before first behind, accesses = before ++ .write key first :: behind ∧
      (c.accessAll before).HeldSince key first behind ∧
      c.residence key [] accesses = first :: behind.flatMap (Access.entriesOf key) := by
  induction accesses using List.reverseRecOn with
  | nil =>
    rw [accessAll, List.foldl_nil, habsent] at hheld
    exact nomatch hheld
  | append_singleton accesses a ih =>
    have hresidence := residence_concat c key [] accesses a
    rw [if_pos hheld] at hresidence
    cases hbefore : (c.accessAll accesses).peek? key with
    | none =>
      -- The last access is the one that made the key be held.
      rw [accessAll_append] at hheld
      obtain ⟨first, rfl⟩ := eq_write_of_held hbefore hheld
      refine ⟨accesses, first, [], rfl, heldSince_nil hbefore hheld, ?_⟩
      rw [hresidence, residence_of_absent habsent hbefore]
      simp [Access.entriesOf]
    | some kept =>
      obtain ⟨before, first, behind, rfl, hsince, hwritten⟩ := ih (by rw [hbefore]; rfl)
      rw [List.append_assoc, accessAll_append] at hheld
      refine ⟨before, first, behind ++ [a], by simp, hsince.concat hheld, ?_⟩
      rw [hresidence, hwritten, List.flatMap_append, List.flatMap_singleton, List.cons_append]

/-! ## The history of a key that is held -/

/-- The history of a key that is held is what one cut leaves of all that was written under the key
since it is held, where it is held since a write that found nothing. So a history that is too long
is a single line, and of what was written an end is left, cut in front of a character. An access
that does not write a key leaves its history or evicts it. -/
theorem holds_cut_of_written (maxEntries maxHistoryBytes : Nat) (accesses : List Access) :
    let after (list : List Access) := (empty maxEntries maxHistoryBytes).accessAll list
    (∀ key kept, (after accesses).peek? key = some kept →
      ∃ before first behind, accesses = before ++ .write key first :: behind ∧
        (after before).HeldSince key first behind ∧
        let written := History.ofEntries (first :: behind.flatMap (Access.entriesOf key))
        kept = History.trim maxHistoryBytes written ∧
          (∀ text, History.IsCut maxHistoryBytes written text ↔ text = kept) ∧
          kept.toList <:+ written.toList ∧
          (maxHistoryBytes < kept.utf8ByteSize → '\n' ∉ kept.toList)) ∧
    ∀ key a, a.entriesOf key = [] →
      ((after accesses).access a).peek? key = (after accesses).peek? key ∨
        key ∈ (after accesses).evicted a ∧ ((after accesses).access a).peek? key = none := by
  intro after
  refine ⟨?_, fun key a hother => peek?_access_of_entriesOf_eq_nil hother⟩
  intro key kept hkept
  have hsome : ((after accesses).peek? key).isSome := by
    rw [hkept]
    rfl
  have hempty : (empty maxEntries maxHistoryBytes).peek? key = none := rfl
  obtain ⟨before, first, behind, heq, hsince, hwritten⟩ := exists_heldSince hempty accesses hsome
  have hremembered := remembered_of_absent hempty accesses
  rw [hwritten] at hremembered
  have hcut := (hkept ▸ hremembered : History.Remembered maxHistoryBytes _ (some kept)).isCut
  refine ⟨before, first, behind, heq, hsince, hcut.unique (History.isCut_trim _ _), ?_,
    hcut.1.suffix, hcut.notMem_of_lt⟩
  intro text
  constructor
  · exact fun htext => htext.unique hcut
  · rintro rfl
    exact hcut

/-- A line that is too long is dropped with the next entry, an empty entry is a line of its own, and
a key that was evicted begins anew; the characters here have three bytes each. -/
theorem holds_cut_after_eviction :
    let accesses : List Access :=
      [.write "k" "old", .write "j" "1", .write "k" "一二三", .get "x", .write "k" "",
        .write "k" "四\n五六"]
    let after (list : List Access) := (empty 1 8).accessAll list
    (after accesses).peek? "k" = some "五六" ∧
      ∃ before first behind, accesses = before ++ .write "k" first :: behind ∧
        (after before).HeldSince "k" first behind ∧
        History.IsCut 8 (History.ofEntries (first :: behind.flatMap (Access.entriesOf "k")))
          "五六" := by
  intro accesses after
  have hkept : (after accesses).peek? "k" = some "五六" := by decide +kernel
  obtain ⟨before, first, behind, heq, hsince, _, hcut, _⟩ :=
    (holds_cut_of_written 1 8 accesses).1 "k" _ hkept
  exact ⟨hkept, before, first, behind, heq, hsince, (hcut _).2 rfl⟩

end Cache

end Colloquy
