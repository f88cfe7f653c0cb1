import Colloquy.Proofs.Json.Containers
import Colloquy.Shape.Reader

/-!
# Reading a record from a list

A record may be written as the list of its fields. `Fields.readList_of_item` reads one field and
goes on with the others, `Fields.readList_of_closed` ends a list that leaves out the last fields of
a lenient record.
-/

set_option autoImplicit false

namespace Colloquy

open Json

/-- A value behind blanks is read from its first byte on. -/
theorem reads_spaced {α : Type} (blanks : Blanks) {b : UInt8} {tail rest : Bytes} {value : α}
    {read : (bound : Nat) → (b : UInt8) → (rest : Bytes) → rest.length < bound →
      Except Failure (Scanned α bound)}
    (hb : isBlank b = false)
    (hread : ∀ bound h, ∃ h', read bound b tail h = .ok ⟨value, rest, h'⟩) :
    Reads (atValue read) (blanks.bytes ++ b :: tail) value rest := by
  have hblank := (blanks.skip (b :: tail)).trans (skipBlank_of_not hb tail)
  obtain ⟨h', hread⟩ := hread _ (length_lt_of_skipBlank hblank)
  refine ⟨h', ?_⟩
  unfold atValue
  split
  · next hs => exact absurd (hblank.symm.trans hs) (List.cons_ne_nil _ _)
  · next hs =>
    obtain ⟨rfl, rfl⟩ := List.cons.inj (hblank.symm.trans hs)
    exact hread

/-- A value is read from where it begins. -/
theorem reads_atValue {α : Type} {b : UInt8} {tail rest : Bytes} {value : α}
    {read : (bound : Nat) → (b : UInt8) → (rest : Bytes) → rest.length < bound →
      Except Failure (Scanned α bound)}
    (hb : isBlank b = false)
    (hread : ∀ bound h, ∃ h', read bound b tail h = .ok ⟨value, rest, h'⟩) :
    Reads (atValue read) (b :: tail) value rest :=
  reads_spaced .none hb hread

/-- A plain text is read from between its quotation marks. -/
theorem reads_string {text : String} (hplain : ∀ c ∈ text.toList, IsPlainChar c) (depth : Nat)
    (rest : Bytes) :
    Reads (Shape.string.reader depth) (Ascii.quote :: (Utf8.encode text ++ Ascii.quote :: rest))
      text rest := by
  have htext : Shape.string.reader depth = readText "a string" := by rw [Shape.reader]
  rw [htext]
  refine reads_atValue (by decide) fun bound h => ?_
  simp only [if_true]
  exact readStringFrom_encode hplain bound rest (le_of_length_lt h)

/-- What is not `null` is read as what it is where something may be missing. -/
theorem reads_some_spaced {α : Type} {inner : Reader α} (blanks : Blanks) {b : UInt8}
    {tail rest : Bytes} {value : α} (hb : isBlank b = false) (hnull : b ≠ 0x6e)
    (h : Reads inner (b :: tail) value rest) :
    Reads (readOptional inner) (blanks.bytes ++ b :: tail) (some value) rest := by
  have hblank := (blanks.skip (b :: tail)).trans (skipBlank_of_not hb tail)
  obtain ⟨hrest, hread⟩ := h
  refine ⟨Nat.lt_of_lt_of_le hrest (length_lt_of_skipBlank hblank), ?_⟩
  unfold readOptional
  split
  · next hs => exact absurd (hblank.symm.trans hs) (List.cons_ne_nil _ _)
  · next hs =>
    obtain ⟨rfl, rfl⟩ := List.cons.inj (hblank.symm.trans hs)
    simp only [if_neg hnull, hread]
    rfl

/-- What does not begin as null does is read as it is where it may be missing. -/
theorem reads_some {α : Type} {inner : Reader α} {b : UInt8} {tail rest : Bytes} {value : α}
    (hb : isBlank b = false) (hnull : b ≠ 0x6e) (h : Reads inner (b :: tail) value rest) :
    Reads (readOptional inner) (b :: tail) (some value) rest :=
  reads_some_spaced .none hb hnull h

/-- A value of a shape that may be missing is read as it is. -/
theorem reads_optional {shape : Shape} {depth : Nat} {b : UInt8} {tail rest : Bytes}
    {value : shape.Carrier} (hb : isBlank b = false) (hnull : b ≠ 0x6e)
    (h : Reads (shape.reader depth) (b :: tail) value rest) :
    Reads (Shape.optional shape |>.reader depth) (b :: tail) (some value) rest := by
  rw [Shape.reader]
  exact reads_some hb hnull h

/-! ## The fields of a record -/

/-- A field is read from the next item, and the others behind it. -/
theorem Fields.readList_of_item {name : String} {shape : Shape} {fields : Fields} {lenient : Bool}
    {expected : String} {depth index bound : Nat} {s start middle rest : Bytes}
    {h : s.length < bound} {x : shape.Carrier} {xs : fields.Carrier}
    (hnext : ∃ h', nextItem s.length (index == 0) s (Nat.le_refl _) = .ok (.item start h'))
    (hitem : Reads (shape.reader depth) start x middle)
    (hrest : ∀ h', ∃ h'', fields.readList lenient expected depth (index + 1) bound middle h' =
      .ok ⟨xs, rest, h''⟩) :
    ∃ h', (Fields.cons name shape fields).readList lenient expected depth index bound s h =
      .ok ⟨(x, xs), rest, h'⟩ := by
  obtain ⟨hs, hnext⟩ := hnext
  obtain ⟨hmiddle, hitem⟩ := hitem
  obtain ⟨h'', hrest⟩ := hrest
    (Nat.lt_of_le_of_lt (Nat.le_of_lt_succ (Nat.lt_trans hmiddle hs)) h)
  refine ⟨h'', ?_⟩
  -- One step of the reader is computed, up to the item that it meets.
  conv => lhs; whnf
  simp only [hnext, hitem, hrest]
  rfl

/-- The fields of a lenient record that a list leaves out are blank. -/
theorem Fields.readList_of_closed {fields : Fields} (hfields : fields.count ≠ 0) {expected : String}
    {depth index bound : Nat} {rest : Bytes} {h : (Ascii.closeBracket :: rest).length < bound} :
    ∃ h', fields.readList true expected depth index bound (Ascii.closeBracket :: rest) h =
      .ok ⟨fields.blank, rest, h'⟩ := by
  cases fields with
  | nil => exact absurd rfl hfields
  | cons name shape fields => exact ⟨lt_of_cons_lt h, rfl⟩

/-- A record is read from the list of its fields. -/
theorem reads_listed {name : String} {lenient : Bool} {fields : Fields} {depth : Nat}
    {s rest : Bytes} {xs : fields.Carrier} (hdepth : depth ≠ 0)
    (hfields : ∀ bound h, ∃ h', fields.readList lenient (recordLength name fields.count)
      (depth - 1) 0 bound s h = .ok ⟨xs, rest, h'⟩) :
    Reads ((Shape.record name lenient fields).reader depth) (Ascii.openBracket :: s) xs rest := by
  have hbrace : Ascii.openBracket ≠ Ascii.openBrace := by decide
  rw [Shape.reader]
  refine reads_atValue (by decide) fun bound h => ?_
  simp only [if_neg hbrace, if_true, if_neg hdepth]
  exact hfields bound h

end Colloquy
