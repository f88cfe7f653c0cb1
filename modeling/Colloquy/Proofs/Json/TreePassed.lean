import Colloquy.Proofs.Json.TreeReads

/-!
# Trees that are passed over

Any text that is written of a tree is passed over, also one that has no value: numbers may be out of
range, strings need not have a content, and containers may nest to any depth (`spans_of_writes`).
So a member that nobody asks for may have any value.
-/

set_option autoImplicit false

namespace Colloquy

open Json

/-! ## Numbers -/

section Numbers

variable {rest : Bytes} (hrest : Ends rest)

include hrest

/-- A power of the grammar is passed over. -/
theorem passes_power (p : PowerText) :
    Passes skipExponent (p.signBytes ++ (p.digits.bytes ++ rest)) rest := by
  obtain ⟨d, tail, hbytes, hdigit, _⟩ := p.digits.exists_cons
  obtain ⟨_, hafter⟩ := leadingDigits_of_head p.digits.isDigit fun b hb => (hrest b hb).1
  have hsplit := splitSign_text p rest
  intro bound h
  have hlength : rest.length < bound := by
    simp only [List.length_append] at h
    omega
  refine ⟨hlength, ?_⟩
  unfold skipExponent
  simp only [hsplit, hafter]
  split
  · next heq =>
    rw [hbytes] at heq
    cases heq
  · next heq =>
    rw [hbytes, List.cons_append] at heq
    obtain ⟨rfl, rfl⟩ := List.cons.inj heq
    rw [if_pos hdigit]

/-- A number is ended behind its digits, or goes on with a power. -/
theorem passes_writtenPower (power : Option PowerText) (fraction : Bool) :
    Passes (fun bound => skipAfterDigits bound fraction) (writtenPower power ++ rest) rest := by
  cases power with
  | none =>
    exact passes_end fun b hb => ⟨(hrest b hb).2.2, fun _ => (hrest b hb).2.1⟩
  | some p =>
    simp only [writtenPower, PowerText.text, List.cons_append, List.append_assoc]
    exact passes_mark p.isMark (passes_power hrest p)

/-- What follows the digits in front of the point is passed over. -/
theorem passes_writtenFraction (fraction : Option Digits) (power : Option PowerText) :
    Passes (fun bound => skipAfterDigits bound true)
      (writtenFraction fraction ++ (writtenPower power ++ rest)) rest := by
  cases fraction with
  | none => exact passes_writtenPower hrest power true
  | some digits =>
    obtain ⟨d, tail, hbytes, hdigit, htail⟩ := digits.exists_cons
    obtain ⟨_, hafter⟩ := leadingDigits_of_head htail (head_writtenPower power hrest)
    simp only [writtenFraction, hbytes, List.cons_append]
    refine passes_point hdigit ?_
    rw [hafter]
    exact passes_writtenPower hrest power false

/-- A number without its sign is passed over. -/
theorem passes_unsignedText (t : NumberText) (bound : Nat)
    (h : (t.unsignedText ++ rest).length ≤ bound) :
    ∃ h', skipUnsigned bound (t.unsignedText ++ rest) h = .ok ⟨(), rest, h'⟩ := by
  obtain ⟨d, tail, hbytes, hdigit, htail⟩ := t.whole.exists_cons
  obtain ⟨hleading, hafter⟩ :=
    leadingDigits_of_head htail (head_writtenFraction t.fraction t.power hrest)
  have hlead := t.no_leading_zero hbytes
  have htext := t.unsignedText_append hbytes rest
  simp only [htext] at h ⊢
  have hlength : (writtenFraction t.fraction ++ (writtenPower t.power ++ rest)).length < bound := by
    rw [List.length_cons, List.length_append] at h
    omega
  obtain ⟨h', hskip⟩ := passes_writtenFraction hrest t.fraction t.power bound hlength
  refine ⟨h', ?_⟩
  unfold skipUnsigned
  simp only [if_pos hdigit, hleading, hafter, if_neg hlead]
  exact hskip

/-- A number of any size is passed over, from behind its first byte. -/
theorem passes_number (t : NumberText) {b : UInt8} {tail : Bytes}
    (htext : t.text ++ rest = b :: tail) (hstarts : startsNumeral b = true) :
    Passes (fun bound => skipScalar bound b) tail rest := by
  obtain ⟨hnull, htrue, hfalse, hquote, _⟩ := startsNumeral_cases hstarts
  intro bound h
  unfold skipScalar
  simp only [if_neg hnull, if_neg htrue, if_neg hfalse, if_neg hquote]
  unfold NumberText.text at htext
  split at htext
  · obtain ⟨rfl, rfl⟩ := List.cons.inj htext
    simp only [if_true]
    exact passes_unsignedText hrest t bound _
  · obtain ⟨d, digits, hbytes, hdigit, _⟩ := t.whole.exists_cons
    have hunsigned : t.unsignedText ++ rest = b :: tail := htext
    have hb : d = b := by
      unfold NumberText.unsignedText at hunsigned
      rw [hbytes] at hunsigned
      exact (List.cons.inj hunsigned).1
    subst hb
    have hminus : d ≠ Ascii.minus := by
      rintro rfl
      exact absurd hdigit (by decide)
    rw [if_neg hminus, if_pos hdigit]
    simp only [← hunsigned]
    exact passes_unsignedText hrest t bound _

/-- A number of the grammar spans its text. -/
theorem spans_number (t : NumberText) {s : Bytes} (hs : skipBlank s = t.text ++ rest) :
    Spans s rest := by
  obtain ⟨b, tail, htext, hstarts⟩ := t.exists_cons
  obtain ⟨_, _, _, _, hopened⟩ := startsNumeral_cases hstarts
  have hcons : t.text ++ rest = b :: (tail ++ rest) := by
    rw [htext]
    rfl
  exact .scalar (hs.trans hcons) hopened (passes_number hrest t hcons hstarts)

end Numbers

/-! ## Trees -/

/-- A word is passed over. -/
theorem passes_readWord (word rest : Bytes) :
    Passes (fun bound => readWord bound word) (word ++ rest) rest := by
  intro bound h
  exact (comes_readWord word rest h).eq_ok_iff.2 ⟨rfl, rfl⟩

-- By the tree. Nothing limits the depth here, so the containers around are carried along: the parts
-- of one container end where these go on.
mutual

/-- Any text of a tree is passed over. -/
theorem spans_of_writes : (tree : Tree) → {text : Bytes} → Writes tree text →
    {s rest : Bytes} → skipBlank s = text ++ rest → Ends rest → Spans s rest
  | .null, _, h, s, rest, hs, _ => by
    cases h with
    | null => exact .scalar hs rfl (passes_readWord nullTail rest)
  | .flag true, _, h, s, rest, hs, _ => by
    cases h with
    | yes => exact .scalar hs rfl (passes_readWord trueTail rest)
  | .flag false, _, h, s, rest, hs, _ => by
    cases h with
    | no => exact .scalar hs rfl (passes_readWord falseTail rest)
  | .number text, _, h, s, rest, hs, hrest => by
    cases h with
    | number => exact spans_number hrest text hs
  | .string text, _, h, s, rest, hs, _ => by
    cases h with
    | string =>
      rw [StringText.quoted, List.cons_append, List.append_assoc] at hs
      exact .scalar hs rfl (passes_stringText text rest)
  | .list items, _, h, s, rest, hs, _ => by
    cases h with
    | list hitems =>
      exact .container hs rfl fun outer last haround =>
        passesInside_of_writesItems items hitems haround
  | .object members, _, h, s, rest, hs, _ => by
    cases h with
    | object hmembers =>
      exact .container hs rfl fun outer last haround =>
        passesInside_of_writesMembers members hmembers haround

/-- The rest of a list is passed over, inside any containers. -/
theorem passesInside_of_writesItems : (items : List Tree) → {first : Bool} → {inside : Bytes} →
    WritesItems first items inside → {rest last : Bytes} → {outer : List Frame} →
      PassesAround outer rest last →
      PassesInside (.ahead first) .list outer (inside ++ rest) last
  | [], first, inside, h, rest, last, outer, haround => by
    cases h with
    | closed blanks =>
      exact passesInside_closed first (skipBlank_closing (by decide) blanks rest) haround
  | tree :: items, first, inside, h, rest, last, outer, haround => by
    cases h with
    | item before after hitem hothers =>
      obtain ⟨b, tail, rfl, hblank, hclose⟩ := hitem.starts
      refine passesInside_part (nextPart_item hblank first before after tail _ rest) hclose
        fun t ht => passesInside_item ?_
      have hspans : Spans t _ := spans_of_writes tree hitem ht (hothers.ends rest)
      exact hspans.inside (passesInside_of_writesItems items hothers haround)

/-- The rest of an object is passed over, inside any containers. -/
theorem passesInside_of_writesMembers : (members : List (StringText × Tree)) → {first : Bool} →
    {inside : Bytes} → WritesMembers first members inside → {rest last : Bytes} →
      {outer : List Frame} → PassesAround outer rest last →
      PassesInside (.ahead first) .object outer (inside ++ rest) last
  | [], first, inside, h, rest, last, outer, haround => by
    cases h with
    | closed blanks =>
      exact passesInside_closed first (skipBlank_closing (by decide) blanks rest) haround
  | (name, tree) :: members, first, inside, h, rest, last, outer, haround => by
    cases h with
    | member before after middle behind hvalue hothers =>
      obtain ⟨start, value, hnext, hcolon, hstart⟩ :=
        nextPart_member hvalue.starts first name before after middle behind _ rest
      refine passesInside_part hnext (by decide) fun t ht => ?_
      have hspans : Spans value _ := spans_of_writes tree hvalue hstart (hothers.ends rest)
      exact passesInside_member ht (passes_stringText name start) hcolon
        (hspans.inside (passesInside_of_writesMembers members hothers haround))

end

end Colloquy
