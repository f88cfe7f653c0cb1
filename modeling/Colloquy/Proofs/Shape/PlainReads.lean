import Colloquy.Proofs.Json.PassedOver
import Colloquy.Shape.Writer
import Colloquy.Shape.Reader

/-!
# What is read of a plain shape

A plain shape reads a text, a truth value, a number, any value, or a list of such. What it reads is
also what the reader of values reads there: the JSON value that the shape writes, with the same text
left behind it (`Shape.reads_value`). Where something may be missing, `null` is read as nothing
(`Shape.reads_optional_value`). A value that is refused for its kind is never read
(`refuseValue_ne_ok`).
-/

set_option autoImplicit false

namespace Colloquy

open Json

/-- Whether a shape is plain: neither a number of a fixed size nor something that may be missing nor
an object. -/
def Shape.isPlain : Shape → Bool
  | .text _ | .flag | .number | .value => true
  | .list item => item.isPlain
  | .short | .word | .optional _ | .dictionary _ | .record _ _ _ => false

/-! ## Values that are refused -/

/-- What is refused is not read. -/
theorem refuseValue_ne_ok {α : Type} (expected : String) (b : UInt8) (rest : Bytes) (x : α) :
    refuseValue expected b rest ≠ .ok x := by
  have hbind {β : Type} (result : Except Failure β) (failure : β → Failure) :
      (result.bind fun y => (.error (failure y) : Except Failure α)) ≠ .ok x := by
    cases result with
    | error e => exact nofun
    | ok y => exact nofun
  -- Whatever stands there is read up to its end or its bracket, only to be reported.
  unfold refuseValue
  simp only
  split
  · exact hbind _ _
  split
  · exact hbind _ _
  split
  · exact hbind _ _
  split
  · exact hbind _ _
  split
  · exact hbind _ _
  split
  · exact fun h => by cases h
  split
  · exact fun h => by cases h
  · exact fun h => by cases h

/-! ## Where a value begins -/

/-- What is read at a value is read from its first byte on. -/
theorem eq_ok_of_reads_atValue {α : Type} {s rest : Bytes} {value : α}
    {read : (bound : Nat) → (b : UInt8) → (rest : Bytes) → rest.length < bound →
      Except Failure (Scanned α bound)} (h : Reads (atValue read) s value rest) :
    ∃ b tail, skipBlank s = b :: tail ∧
      ∃ h h', read s.length b tail h = .ok ⟨value, rest, h'⟩ := by
  obtain ⟨hrest, hread⟩ := h
  unfold atValue at hread
  split at hread
  · cases hread
  · next b tail hs => exact ⟨b, tail, hs, _, hrest, hread⟩

/-! ## Values of any kind -/

section Values

variable {inner : Option (Reader Value)} {s tail rest : Bytes}

/-- The word null is a value. -/
theorem reads_null (hs : skipBlank s = 0x6e :: tail)
    (hword : Passes (fun bound => readWord bound nullTail) tail rest) :
    Reads (readValueWith inner) s .null rest := by
  obtain ⟨hrest, hword⟩ := hword _ (length_lt_of_skipBlank hs)
  refine ⟨hrest, ?_⟩
  unfold readValueWith
  split
  · next hnil => exact absurd (hs.symm.trans hnil) (List.cons_ne_nil _ _)
  · next hcons =>
    obtain ⟨rfl, rfl⟩ := List.cons.inj (hs.symm.trans hcons)
    simp only at hword
    simp only [if_true, hword]
    rfl

/-- What is read as a text is a value. -/
theorem reads_readText {expected text : String} (h : Reads (readText expected) s text rest) :
    Reads (readValueWith inner) s (.text text) rest := by
  obtain ⟨b, tail, hs, hlt, hrest, hread⟩ := eq_ok_of_reads_atValue h
  split at hread
  · next hquote =>
    subst hquote
    refine ⟨hrest, ?_⟩
    unfold readValueWith
    split
    · next hnil => exact absurd (hs.symm.trans hnil) (List.cons_ne_nil _ _)
    · next hcons =>
      obtain ⟨rfl, rfl⟩ := List.cons.inj (hs.symm.trans hcons)
      have hnull : Ascii.quote ≠ 0x6e := by decide
      have htrue : Ascii.quote ≠ 0x74 := by decide
      have hfalse : Ascii.quote ≠ 0x66 := by decide
      simp only [if_neg hnull, if_neg htrue, if_neg hfalse, if_true, hread]
      rfl
  · exact absurd hread (refuseValue_ne_ok _ _ _ _)

/-- What is read as a truth value is a value. -/
theorem reads_readFlag {flag : Bool} (h : Reads readFlag s flag rest) :
    Reads (readValueWith inner) s (.bool flag) rest := by
  obtain ⟨b, tail, hs, hlt, hrest, hread⟩ := eq_ok_of_reads_atValue h
  split at hread
  · next hb =>
    subst hb
    obtain ⟨_, _, hword, rfl⟩ := Reads.of_map ⟨hrest, hread⟩
    refine ⟨hrest, ?_⟩
    unfold readValueWith
    split
    · next hnil => exact absurd (hs.symm.trans hnil) (List.cons_ne_nil _ _)
    · next hcons =>
      obtain ⟨rfl, rfl⟩ := List.cons.inj (hs.symm.trans hcons)
      have hnull : (0x74 : UInt8) ≠ 0x6e := by decide
      simp only [if_neg hnull, if_true, hword]
      rfl
  · split at hread
    · next hb =>
      subst hb
      obtain ⟨_, _, hword, rfl⟩ := Reads.of_map ⟨hrest, hread⟩
      refine ⟨hrest, ?_⟩
      unfold readValueWith
      split
      · next hnil => exact absurd (hs.symm.trans hnil) (List.cons_ne_nil _ _)
      · next hcons =>
        obtain ⟨rfl, rfl⟩ := List.cons.inj (hs.symm.trans hcons)
        have hnull : (0x66 : UInt8) ≠ 0x6e := by decide
        have htrue : (0x66 : UInt8) ≠ 0x74 := by decide
        simp only [if_neg hnull, if_neg htrue, if_true, hword]
        rfl
    · exact absurd hread (refuseValue_ne_ok _ _ _ _)

/-- What is read as a number is a value. -/
theorem reads_readNumber {depth : Nat} {number : Number}
    (h : Reads (readNumber depth) s number rest) :
    Reads (readValueWith inner) s (.number number) rest := by
  obtain ⟨b, tail, hs, hlt, hrest, hread⟩ := eq_ok_of_reads_atValue h
  split at hread
  · next hstarts =>
    obtain ⟨hnull, htrue, hfalse, hquote, _⟩ := startsNumeral_cases hstarts
    obtain ⟨x, hnumeral, hx⟩ := map_eq_ok_iff.1 hread
    obtain ⟨rfl, rfl⟩ := Scanned.mk.inj hx
    refine ⟨hrest, ?_⟩
    unfold readValueWith
    split
    · next hnil => exact absurd (hs.symm.trans hnil) (List.cons_ne_nil _ _)
    · next hcons =>
      obtain ⟨rfl, rfl⟩ := List.cons.inj (hs.symm.trans hcons)
      simp only [if_neg hnull, if_neg htrue, if_neg hfalse, if_neg hquote, if_pos hstarts, hnumeral]
      rfl
  · split at hread
    · split at hread <;> cases hread
    · split at hread
      · split at hread <;> cases hread
      · exact absurd hread (refuseValue_ne_ok _ _ _ _)

/-- A list is read if its items are. -/
theorem reads_list {reader : Reader Value} {items : List Value}
    (hs : skipBlank s = Ascii.openBracket :: tail)
    (hitems : ReadsItems reader true tail items rest) :
    Reads (readValueWith (some reader)) s (.list items) rest := by
  have hlist : ReadsItems reader ([] : List Value).isEmpty tail items rest := hitems
  obtain ⟨hrest, hitems⟩ := readItems_of_readsItems hlist 0 (length_lt_of_skipBlank hs)
  refine ⟨hrest, ?_⟩
  unfold readValueWith
  split
  · next hnil => exact absurd (hs.symm.trans hnil) (List.cons_ne_nil _ _)
  · next hcons =>
    obtain ⟨rfl, rfl⟩ := List.cons.inj (hs.symm.trans hcons)
    have hnull : Ascii.openBracket ≠ 0x6e := by decide
    have htrue : Ascii.openBracket ≠ 0x74 := by decide
    have hfalse : Ascii.openBracket ≠ 0x66 := by decide
    have hquote : Ascii.openBracket ≠ Ascii.quote := by decide
    have hnumeral : ¬startsNumeral Ascii.openBracket = true := by decide
    simp only [if_neg hnull, if_neg htrue, if_neg hfalse, if_neg hquote, if_neg hnumeral, if_true,
      hitems]
    rfl

end Values

/-- Items that another reader reads as well, put through a function. -/
theorem ReadsItems.map {α β : Type} {item : Reader α} {other : Reader β} {f : α → β}
    (hitem : ∀ s x rest, Reads item s x rest → Reads other s (f x) rest) {first : Bool}
    {s rest : Bytes} {xs : List α} (h : ReadsItems item first s xs rest) :
    ReadsItems other first s (xs.map f) rest := by
  induction h with
  | closed hs => exact .closed hs
  | item hnext hopen hread _ ih => exact .item hnext hopen (hitem _ _ _ hread) ih

/-! ## Plain shapes -/

/-- Values are read with a reader of what is inside them, or without any where they are too deep. -/
theorem exists_readValueWith (depth : Nat) : ∃ inner, readValue depth = readValueWith inner := by
  cases depth with
  | zero => exact ⟨none, rfl⟩
  | succ depth => exact ⟨some (readValue depth), rfl⟩

/-- What a plain shape reads is read as the value that the shape writes. -/
theorem Shape.reads_value : (shape : Shape) → shape.isPlain = true → (depth : Nat) →
    {s rest : Bytes} → {x : shape.Carrier} → Reads (shape.reader depth) s x rest →
      Reads (readValue depth) s (shape.toJson x) rest
  | .text expected, _, depth, s, rest, x, h => by
    obtain ⟨inner, hinner⟩ := exists_readValueWith depth
    rw [Shape.reader] at h
    rw [hinner]
    exact reads_readText h
  | .flag, _, depth, s, rest, x, h => by
    obtain ⟨inner, hinner⟩ := exists_readValueWith depth
    rw [Shape.reader] at h
    rw [hinner]
    exact reads_readFlag h
  | .number, _, depth, s, rest, x, h => by
    obtain ⟨inner, hinner⟩ := exists_readValueWith depth
    rw [Shape.reader] at h
    rw [hinner]
    exact reads_readNumber h
  | .value, _, depth, s, rest, x, h => by
    rw [Shape.reader] at h
    exact h
  | .list item, hplain, depth, s, rest, xs, h => by
    rw [Shape.reader] at h
    obtain ⟨b, tail, hs, hlt, hrest, hread⟩ := eq_ok_of_reads_atValue h
    split at hread
    · next hb =>
      subst hb
      cases depth with
      | zero => cases hread
      | succ depth =>
        obtain ⟨_, rfl, hitems⟩ := readsItems_of_readItems hread
        exact reads_list hs (hitems.map fun s x rest hx => item.reads_value hplain depth hx)
    · exact absurd hread (refuseValue_ne_ok _ _ _ _)

/-- What is read where a plain shape may be missing is read as the value that is written, from its
first byte on. -/
theorem Shape.reads_optional_value {inner : Shape} (hplain : inner.isPlain = true) {depth : Nat}
    {s rest : Bytes} {x : Option inner.Carrier}
    (h : Reads ((Shape.optional inner).reader depth) s x rest) :
    Reads (readValue depth) (skipBlank s) ((Shape.optional inner).toJson x) rest := by
  obtain ⟨hrest, hread⟩ := h
  rw [Shape.reader] at hread
  unfold readOptional at hread
  split at hread
  · cases hread
  · next b tail hs =>
    rw [hs]
    -- Behind its first byte `null` is read alike; all else is read by the shape itself.
    split at hread
    · next hb =>
      subst hb
      obtain ⟨_, _, hword, rfl⟩ := Reads.of_map ⟨hrest, hread⟩
      obtain ⟨inner, hinner⟩ := exists_readValueWith depth
      rw [hinner]
      exact reads_null (skipBlank_of_skipBlank hs) (passes_word hword)
    · obtain ⟨y, hinner, hy⟩ := map_eq_ok_iff.1 hread
      obtain ⟨rfl, rfl⟩ := Scanned.mk.inj hy
      exact inner.reads_value hplain depth ⟨y.shorter, hinner⟩

end Colloquy
