import Colloquy.Json.Document
import Colloquy.Json.Skip
import Colloquy.Proofs.Json.ContainerReads

/-!
# Values that are read and values that are passed over

What is read as a value is passed over where nobody asks for it, and the same text is left behind it
(`reads_skipValue`). Strings and numerals are followed step by step. A container is passed over with
a list of the ones around it, so what is shown of it is that it can be passed over inside any
others: `Spans` says that of a value, and the induction is on how deep a value may nest.
-/

set_option autoImplicit false

namespace Colloquy

open Json

/-- Some text is passed over, whatever its length is bounded by. -/
def Passes (skip : (bound : Nat) → (s : Bytes) → s.length < bound →
    Except Failure (Scanned Unit bound)) (s rest : Bytes) : Prop :=
  ∀ bound h, ∃ h', skip bound s h = .ok ⟨(), rest, h'⟩

/-! ## Strings -/

/-- An escape by number is passed over where its four digits can be read. -/
theorem passes_unicode {s : Bytes} {quad : Scanned Nat s.length} (h : readHexQuad s = .ok quad) :
    Passes skipEscape (0x75 :: s) quad.rest := by
  intro bound hbound
  refine ⟨Nat.lt_trans quad.shorter (lt_of_cons_lt hbound), ?_⟩
  unfold skipEscape
  simp only [if_true, h]
  rfl

/-- The second half of a pair of surrogates is read from an escape by number. -/
theorem readLowSurrogate_eq_ok {high : Nat} {s : Bytes} {pair : Scanned Char s.length}
    (h : readLowSurrogate high s = .ok pair) :
    ∃ tail, s = Ascii.backslash :: 0x75 :: tail ∧
      ∃ low, readHexQuad tail = .ok low ∧ pair.rest = low.rest := by
  unfold readLowSurrogate at h
  split at h
  · cases h
  · cases h
  · next tail =>
    split at h
    · cases h
    · next low hlow =>
      split at h
      · obtain rfl := Except.ok.inj h
        exact ⟨tail, rfl, low, hlow, rfl⟩
      · cases h
  · cases h
  · cases h

/-- An escape that is read is passed over as one escape, or as the two halves of a pair. -/
theorem passes_escape {s : Bytes} {e : Scanned Char s.length} (h : readEscape s = .ok e) :
    Passes skipEscape s e.rest ∨
      ∃ middle, Passes skipEscape s (Ascii.backslash :: middle) ∧
        Passes skipEscape middle e.rest := by
  unfold readEscape at h
  split at h
  · cases h
  · next tail =>
    split at h
    · cases h
    · next unit hunit =>
      have hfirst := passes_unicode hunit
      split at h
      · cases h
      -- A high surrogate needs its other half, which is passed over as an escape of its own.
      · split at h
        · split at h
          · cases h
          · next pair hpair =>
            obtain rfl := Except.ok.inj h
            obtain ⟨tail, hrest, low, hlow, hlast⟩ := readLowSurrogate_eq_ok hpair
            rw [hrest] at hfirst
            refine Or.inr ⟨_, hfirst, ?_⟩
            show Passes skipEscape (0x75 :: tail) pair.rest
            rw [hlast]
            exact passes_unicode hlow
        · obtain rfl := Except.ok.inj h
          exact Or.inl hfirst
  · next b tail hother =>
    split at h
    · next c hshort =>
      obtain rfl := Except.ok.inj h
      refine Or.inl fun bound hbound => ⟨lt_of_cons_lt hbound, ?_⟩
      have hb : b ≠ 0x75 := fun hb => hother hb
      have hsome : (shortEscape? b).isSome = true := by rw [hshort]; rfl
      unfold skipEscape
      simp only [if_neg hb, if_pos hsome]
    · cases h

/-- A string goes on behind an escape. -/
theorem passes_string_escape {s middle rest : Bytes} (hescape : Passes skipEscape s middle)
    (hstring : Passes skipString middle rest) :
    Passes skipString (Ascii.backslash :: s) rest := by
  intro bound h
  obtain ⟨hmiddle, hread⟩ := hescape _ (length_lt_succ s)
  obtain ⟨h', hlast⟩ := hstring bound (Nat.lt_trans hmiddle h)
  refine ⟨h', ?_⟩
  have hquote : Ascii.backslash ≠ Ascii.quote := by decide
  rw [skipString]
  simp only [if_neg hquote, if_true, hread]
  exact hlast

/-- A string that is read can be passed over. -/
theorem passes_string {bound : Nat} {content : ByteArray} {s : Bytes} {h : s.length ≤ bound}
    {x : Scanned String bound} (hread : readStringFrom bound content s h = .ok x) :
    Passes skipString s x.rest := by
  -- On the length of what is left, since an escape takes more than one byte.
  induction hn : s.length using Nat.strongRecOn generalizing s content with
  | _ n ih =>
  subst hn
  rw [readStringFrom.eq_def] at hread
  split at hread
  · cases hread
  · next b tail _ =>
    split at hread
    · next hquote =>
      subst hquote
      have hrest : x.rest = tail := by
        unfold closeString at hread
        split at hread
        · obtain rfl := Except.ok.inj hread
          rfl
        · cases hread
      intro bound h
      refine ⟨hrest ▸ lt_of_cons_lt h, ?_⟩
      rw [skipString]
      simp only [if_true, hrest]
    · next hquote =>
      split at hread
      · next hbackslash =>
        subst hbackslash
        split at hread
        · cases hread
        · next e hescape =>
          have hlast : Passes skipString e.rest x.rest :=
            ih _ (Nat.lt_succ_of_lt e.shorter) hread rfl
          rcases passes_escape hescape with hone | ⟨middle, hfirst, hsecond⟩
          · exact passes_string_escape hone hlast
          · exact passes_string_escape hfirst (passes_string_escape hsecond hlast)
      · next hbackslash =>
        split at hread
        · cases hread
        · next hcontrol =>
          have hlast : Passes skipString tail x.rest := ih _ (Nat.lt_succ_self _) hread rfl
          intro bound h
          obtain ⟨h', hskip⟩ := hlast bound (lt_of_cons_lt h)
          refine ⟨h', ?_⟩
          rw [skipString]
          simp only [if_neg hquote, if_neg hbackslash, if_neg hcontrol]
          exact hskip

/-! ## Numerals -/

section Numerals

variable {bound : Nat} {negative : Bool} {sig : Significand} {s : Bytes} {x : Scanned Number bound}

/-- Nothing is read behind a number that is finished. -/
theorem rest_of_finishReal {h : s.length < bound}
    (hread : finishReal bound negative sig s h = .ok x) : x.rest = s := by
  unfold finishReal at hread
  split at hread
  · obtain rfl := Except.ok.inj hread
    rfl
  · cases hread

/-- Nothing is read behind a number without fraction and power. -/
theorem rest_of_plainNumber {h : s.length < bound}
    (hread : plainNumber bound negative sig s h = .ok x) : x.rest = s := by
  unfold plainNumber at hread
  split at hread
  · exact rest_of_finishReal hread
  · split at hread
    · obtain rfl := Except.ok.inj hread
      rfl
    · split at hread
      · obtain rfl := Except.ok.inj hread
        rfl
      · exact rest_of_finishReal hread

/-- A power that is read can be passed over. -/
theorem passes_exponent {h : s.length < bound}
    (hread : readExponent bound negative sig s h = .ok x) : Passes skipExponent s x.rest := by
  unfold readExponent at hread
  simp only at hread
  split at hread
  · cases hread
  · next d tail hstart =>
    split at hread
    · next hdigit =>
      have hrest : x.rest = afterDigits (splitSign s).2 := by
        split at hread
        · exact rest_of_finishReal hread
        · split at hread
          · cases hread
          · obtain rfl := Except.ok.inj hread
            rfl
      rw [hrest]
      intro bound h
      refine ⟨lt_of_exponentDigits h, ?_⟩
      unfold skipExponent
      split
      · next hnil => exact absurd (hstart.symm.trans hnil) (List.cons_ne_nil _ _)
      · next hcons =>
        obtain ⟨rfl, rfl⟩ := List.cons.inj (hstart.symm.trans hcons)
        rw [if_pos hdigit]
    · cases hread

/-- An exponent may stand behind the digits, whether or not there is a fraction. -/
theorem passes_mark {fraction : Bool} {b : UInt8} {tail rest : Bytes}
    (hmark : isExponentMark b = true) (h : Passes skipExponent tail rest) :
    Passes (fun bound => skipAfterDigits bound fraction) (b :: tail) rest := by
  intro bound hbound
  obtain ⟨h', hskip⟩ := h bound (lt_of_cons_lt hbound)
  refine ⟨h', ?_⟩
  simp only
  rw [skipAfterDigits.eq_def]
  simp only [if_pos hmark]
  exact hskip

/-- A numeral ends in front of what it does not go on with. -/
theorem passes_end {fraction : Bool} {s : Bytes}
    (h : ∀ b ∈ s.head?, isExponentMark b = false ∧ (fraction = true → b ≠ Ascii.point)) :
    Passes (fun bound => skipAfterDigits bound fraction) s s := by
  intro bound hbound
  refine ⟨hbound, ?_⟩
  simp only
  rw [skipAfterDigits.eq_def]
  cases s with
  | nil => rfl
  | cons b tail =>
    obtain ⟨hmark, hpoint⟩ := h b rfl
    have hpoint : ¬(fraction = true ∧ b = Ascii.point) := fun h => hpoint h.1 h.2
    simp only [hmark, Bool.false_eq_true, if_false, if_neg hpoint]

/-- What is read behind a fraction can be passed over. -/
theorem passes_afterFraction {h : s.length < bound}
    (hread : afterFraction bound negative sig s h = .ok x) :
    Passes (fun bound => skipAfterDigits bound false) s x.rest := by
  unfold afterFraction at hread
  split at hread
  · rw [rest_of_finishReal hread]
    exact passes_end fun c hc => absurd hc.symm (Option.some_ne_none c)
  · next b tail _ =>
    split at hread
    · next hmark => exact passes_mark hmark (passes_exponent hread)
    · next hmark =>
      rw [rest_of_finishReal hread]
      refine passes_end fun c hc => ?_
      obtain rfl := Option.some.inj hc
      exact ⟨Bool.eq_false_iff.2 hmark, fun h => absurd h Bool.false_ne_true⟩

/-- Behind its point a fraction has a digit and may have more. -/
theorem passes_point {d : UInt8} {tail rest : Bytes} (hdigit : Ascii.isDigit d = true)
    (hlast : Passes (fun bound => skipAfterDigits bound false) (afterDigits tail) rest) :
    Passes (fun bound => skipAfterDigits bound true) (Ascii.point :: d :: tail) rest := by
  intro bound h
  have hshorter : (afterDigits tail).length < bound :=
    Nat.lt_of_le_of_lt (length_afterDigits_le tail) (lt_of_cons_lt (lt_of_cons_lt h))
  obtain ⟨h', hskip⟩ := hlast bound hshorter
  refine ⟨h', ?_⟩
  have hmark : isExponentMark Ascii.point = false := by decide
  simp only at hskip ⊢
  rw [skipAfterDigits.eq_def]
  simp only [hmark, Bool.false_eq_true, if_false, and_self, if_true, if_pos hdigit]
  exact hskip

/-- The digits of a number go on behind the first one. -/
theorem afterDigits_cons {d : UInt8} (hdigit : Ascii.isDigit d = true) (tail : Bytes) :
    afterDigits (d :: tail) = afterDigits tail := by
  unfold afterDigits
  rw [List.dropWhile_cons_of_pos hdigit]

/-- A fraction that is read can be passed over. -/
theorem passes_fraction {h : s.length < bound}
    (hread : readFraction bound negative sig s h = .ok x) :
    Passes (fun bound => skipAfterDigits bound true) (Ascii.point :: s) x.rest := by
  unfold readFraction at hread
  split at hread
  · cases hread
  · next d tail _ =>
    split at hread
    · next hdigit =>
      have hlast := passes_afterFraction hread
      rw [afterDigits_cons hdigit] at hlast
      exact passes_point hdigit hlast
    · cases hread

/-- What is read behind the digits in front of the point can be passed over. -/
theorem passes_afterWhole {h : s.length < bound}
    (hread : afterWhole bound negative sig s h = .ok x) :
    Passes (fun bound => skipAfterDigits bound true) s x.rest := by
  unfold afterWhole at hread
  split at hread
  · rw [rest_of_plainNumber hread]
    exact passes_end fun c hc => absurd hc.symm (Option.some_ne_none c)
  · next b tail _ =>
    split at hread
    · next hpoint =>
      subst hpoint
      exact passes_fraction hread
    · next hpoint =>
      split at hread
      · next hmark => exact passes_mark hmark (passes_exponent hread)
      · next hmark =>
        rw [rest_of_plainNumber hread]
        refine passes_end fun c hc => ?_
        obtain rfl := Option.some.inj hc
        exact ⟨Bool.eq_false_iff.2 hmark, fun _ => hpoint⟩

/-- A number without its sign that is read can be passed over. -/
theorem passes_unsigned {h : s.length ≤ bound}
    (hread : readUnsigned bound negative s h = .ok x) :
    ∀ bound h, ∃ h', skipUnsigned bound s h = .ok ⟨(), x.rest, h'⟩ := by
  unfold readUnsigned at hread
  split at hread
  · cases hread
  · next d tail _ =>
    split at hread
    · next hdigit =>
      simp only at hread
      split at hread
      · cases hread
      · next hzero =>
        intro bound h
        obtain ⟨h', hskip⟩ := passes_afterWhole hread bound (lt_of_afterDigits h)
        refine ⟨h', ?_⟩
        unfold skipUnsigned
        simp only [if_pos hdigit, if_neg hzero]
        exact hskip
    · cases hread

end Numerals

/-- The first byte of a numeral begins no other value. -/
theorem startsNumeral_cases {b : UInt8} (hb : startsNumeral b = true) :
    b ≠ 0x6e ∧ b ≠ 0x74 ∧ b ≠ 0x66 ∧ b ≠ Ascii.quote ∧ Frame.opened? b = none := by
  refine ⟨?_, ?_, ?_, ?_, ?_⟩
  · rintro rfl
    exact absurd hb (by decide)
  · rintro rfl
    exact absurd hb (by decide)
  · rintro rfl
    exact absurd hb (by decide)
  · rintro rfl
    exact absurd hb (by decide)
  · unfold Frame.opened?
    split
    · next hbracket =>
      subst hbracket
      exact absurd hb (by decide)
    · split
      · next hbrace =>
        subst hbrace
        exact absurd hb (by decide)
      · rfl

/-- A number that is read can be passed over. -/
theorem passes_numeral {b : UInt8} {tail : Bytes} (hb : startsNumeral b = true)
    {x : Scanned Number (b :: tail).length} (hread : readNumeral (b :: tail) = .ok x) :
    Passes (fun bound => skipScalar bound b) tail x.rest := by
  obtain ⟨hnull, htrue, hfalse, hquote, _⟩ := startsNumeral_cases hb
  intro bound h
  unfold readNumeral at hread
  unfold skipScalar
  simp only [if_neg hnull, if_neg htrue, if_neg hfalse, if_neg hquote]
  simp only at hread
  split at hread
  · next hminus =>
    rw [if_pos hminus]
    exact passes_unsigned hread bound (le_of_length_lt h)
  · next hminus =>
    have hdigit : Ascii.isDigit b = true := by
      unfold startsNumeral at hb
      simpa [hminus] using hb
    rw [if_neg hminus, if_pos hdigit]
    exact passes_unsigned hread bound h

/-! ## Literals -/

/-- A word that is read can be passed over. -/
theorem passes_word {bound : Nat} {word s : Bytes} {h : s.length < bound} {x : Scanned Unit bound}
    (hread : readWord bound word s h = .ok x) :
    Passes (fun bound => readWord bound word) s x.rest := by
  induction word generalizing s with
  | nil =>
    obtain rfl := Except.ok.inj hread
    exact fun bound h => ⟨h, rfl⟩
  | cons w word ih =>
    cases s with
    | nil => cases hread
    | cons b s =>
      rw [readWord] at hread
      split at hread
      · next hw =>
        intro bound h
        obtain ⟨h', hskip⟩ := ih hread bound (lt_of_cons_lt h)
        refine ⟨h', ?_⟩
        simp only
        rw [readWord, if_pos hw]
        exact hskip
      · cases hread

/-! ## Containers -/

/-- Where a container is left in front of its first part, or of any other. -/
def Json.Place.ahead (first : Bool) : Place :=
  if first then .opened else .behind

/-- The rest of a container, which is left at a place inside others, is passed over. -/
def PassesInside (place : Place) (frame : Frame) (outer : List Frame) (s last : Bytes) : Prop :=
  Passes (fun bound => skipInside bound place frame outer) s last

/-- What comes behind the end of a container: the end of all, or the rest of the one around it. -/
def PassesAround : (outer : List Frame) → (rest last : Bytes) → Prop
  | [], rest, last => rest = last
  | frame :: outer, rest, last => PassesInside .behind frame outer rest last

/-- A value stands in front of a rest, as far as its outline goes. -/
inductive Spans : (s rest : Bytes) → Prop
  | scalar {s tail rest : Bytes} {b : UInt8} (hs : skipBlank s = b :: tail)
    (hopened : Frame.opened? b = none)
    (hscalar : Passes (fun bound => skipScalar bound b) tail rest) :
    Spans s rest
  /-- A container is passed over inside any others. -/
  | container {s tail rest : Bytes} {b : UInt8} {frame : Frame} (hs : skipBlank s = b :: tail)
    (hopened : Frame.opened? b = some frame)
    (hinside : ∀ outer last, PassesAround outer rest last →
      PassesInside .opened frame outer tail last) : Spans s rest

/-- Behind skipped blanks there are none to skip. -/
theorem skipBlank_skipBlank (s : Bytes) : skipBlank (skipBlank s) = skipBlank s := by
  induction s with
  | nil => rfl
  | cons b s ih =>
    cases hb : isBlank b with
    | false => rw [skipBlank_of_not hb, skipBlank_of_not hb]
    | true =>
      have hskip : skipBlank (b :: s) = skipBlank s := by rw [skipBlank, if_pos hb]
      rw [hskip, ih]

/-- What follows blanks stands by itself as well. -/
theorem skipBlank_of_skipBlank {s tail : Bytes} {b : UInt8} (hs : skipBlank s = b :: tail) :
    skipBlank (b :: tail) = b :: tail := by
  rw [← hs, skipBlank_skipBlank]

/-- Blanks in front of a value do not matter. -/
theorem Spans.congr {s t rest : Bytes} (h : Spans s rest) (heq : skipBlank t = skipBlank s) :
    Spans t rest := by
  cases h with
  | scalar hs hopened hscalar => exact .scalar (heq.trans hs) hopened hscalar
  | container hs hopened hinside => exact .container (heq.trans hs) hopened hinside

section Inside

variable {frame : Frame} {outer : List Frame} {s last : Bytes}

/-- A value inside a container is passed over, and then the rest of that. -/
theorem Spans.inside {middle : Bytes} (h : Spans s middle)
    (hbehind : PassesInside .behind frame outer middle last) :
    PassesInside .value frame outer s last := by
  intro bound hbound
  cases h with
  -- A scalar leaves the reader behind itself; a container puts this one around itself.
  | scalar hs hopened hscalar =>
    obtain ⟨hmiddle, hskip⟩ := hscalar _ (length_lt_of_skipBlank hs)
    obtain ⟨h', hlast⟩ := hbehind bound (Nat.lt_trans hmiddle hbound)
    refine ⟨h', ?_⟩
    simp only at hskip hlast ⊢
    rw [skipInside]
    split
    · next hnil => exact absurd (hs.symm.trans hnil) (List.cons_ne_nil _ _)
    · next hcons =>
      obtain ⟨rfl, rfl⟩ := List.cons.inj (hs.symm.trans hcons)
      simp only [hopened, hskip]
      exact hlast
  | container hs hopened hinside =>
    obtain ⟨h', hlast⟩ := hinside (frame :: outer) last hbehind bound
      (lt_of_skipBlank_of_lt hs hbound)
    refine ⟨h', ?_⟩
    simp only at hlast ⊢
    rw [skipInside]
    split
    · next hnil => exact absurd (hs.symm.trans hnil) (List.cons_ne_nil _ _)
    · next hcons =>
      obtain ⟨rfl, rfl⟩ := List.cons.inj (hs.symm.trans hcons)
      simp only [hopened]
      exact hlast

/-- What is done behind the end of a container. -/
theorem PassesAround.eq_ok {rest : Bytes} (h : PassesAround outer rest last) (bound : Nat)
    (hrest : rest.length < bound) :
    ∃ h', (match outer with
        | [] => Except.ok ⟨(), rest, hrest⟩
        | around :: outer => skipInside bound .behind around outer rest hrest) =
      Except.ok ⟨(), last, h'⟩ := by
  cases outer with
  | nil =>
    obtain rfl : rest = last := h
    exact ⟨hrest, rfl⟩
  | cons around outer => exact h bound hrest

/-- The bracket of a container ends it. -/
theorem passesInside_closed {rest : Bytes} (first : Bool) (hs : skipBlank s = frame.closer :: rest)
    (haround : PassesAround outer rest last) :
    PassesInside (.ahead first) frame outer s last := by
  intro bound hbound
  obtain ⟨h', hlast⟩ := haround.eq_ok bound (lt_of_skipBlank_of_lt hs hbound)
  refine ⟨h', ?_⟩
  cases first with
  | true =>
    show skipInside bound .opened frame outer s hbound = _
    rw [skipInside]
    split
    · next hnil => exact absurd (hs.symm.trans hnil) (List.cons_ne_nil _ _)
    · next hcons =>
      obtain ⟨rfl, rfl⟩ := List.cons.inj (hs.symm.trans hcons)
      simp only [if_true]
      exact hlast
  | false =>
    have hcomma : frame.closer ≠ Ascii.comma := by cases frame <;> decide
    show skipInside bound .behind frame outer s hbound = _
    rw [skipInside]
    split
    · next hnil => exact absurd (hs.symm.trans hnil) (List.cons_ne_nil _ _)
    · next hcons =>
      obtain ⟨rfl, rfl⟩ := List.cons.inj (hs.symm.trans hcons)
      simp only [if_neg hcomma, if_true]
      exact hlast

/-- The next part of a container is passed over from where it begins. -/
theorem passesInside_part {first : Bool} {b : UInt8} {tail : Bytes}
    (hnext : NextPart first s b tail) (hopen : b ≠ frame.closer)
    (hpart : ∀ t, skipBlank t = b :: tail → PassesInside .part frame outer t last) :
    PassesInside (.ahead first) frame outer s last := by
  intro bound hbound
  cases hnext with
  | first hs =>
    obtain ⟨h', hlast⟩ := hpart (b :: tail) (skipBlank_of_skipBlank hs) bound
      (Nat.lt_of_le_of_lt (length_lt_of_skipBlank hs) hbound)
    refine ⟨h', ?_⟩
    show skipInside bound .opened frame outer s hbound = _
    rw [skipInside]
    split
    · next hnil => exact absurd (hs.symm.trans hnil) (List.cons_ne_nil _ _)
    · next hcons =>
      obtain ⟨rfl, rfl⟩ := List.cons.inj (hs.symm.trans hcons)
      simp only [if_neg hopen]
      exact hlast
  | @other _ t _ _ hs ht =>
    obtain ⟨h', hlast⟩ := hpart t ht bound (lt_of_skipBlank_of_lt hs hbound)
    refine ⟨h', ?_⟩
    show skipInside bound .behind frame outer s hbound = _
    rw [skipInside]
    split
    · next hnil => exact absurd (hs.symm.trans hnil) (List.cons_ne_nil _ _)
    · next hcons =>
      obtain ⟨rfl, rfl⟩ := List.cons.inj (hs.symm.trans hcons)
      simp only [if_true]
      exact hlast

/-- An item is a value. -/
theorem passesInside_item (h : PassesInside .value .list outer s last) :
    PassesInside .part .list outer s last := by
  intro bound hbound
  obtain ⟨h', hlast⟩ := h bound hbound
  refine ⟨h', ?_⟩
  simp only at hlast ⊢
  rw [skipInside]
  exact hlast

/-- A member is a name, a colon and a value. -/
theorem passesInside_member {text start value : Bytes} (hs : skipBlank s = Ascii.quote :: text)
    (hname : Passes skipString text start) (hcolon : skipBlank start = Ascii.colon :: value)
    (h : PassesInside .value .object outer value last) :
    PassesInside .part .object outer s last := by
  intro bound hbound
  have hread (bound : Nat) (hbound : s.length < bound) :
      ∃ h', skipName bound s hbound = .ok ⟨(), value, h'⟩ := by
    obtain ⟨hstart, hskip⟩ := hname bound (lt_of_skipBlank_of_lt hs hbound)
    refine ⟨lt_of_skipBlank_of_lt hcolon hstart, ?_⟩
    unfold skipName
    split
    · next hnil => exact absurd (hs.symm.trans hnil) (List.cons_ne_nil _ _)
    · next hcons =>
      obtain ⟨rfl, rfl⟩ := List.cons.inj (hs.symm.trans hcons)
      simp only [if_true, hskip]
      unfold skipColon
      split
      · next hnil => exact absurd (hcolon.symm.trans hnil) (List.cons_ne_nil _ _)
      · next hcons =>
        obtain ⟨rfl, rfl⟩ := List.cons.inj (hcolon.symm.trans hcons)
        simp only [if_true]
  obtain ⟨hvalue, hread⟩ := hread _ (length_lt_succ s)
  obtain ⟨h', hlast⟩ := h bound (Nat.lt_of_le_of_lt (Nat.le_of_lt_succ hvalue) hbound)
  refine ⟨h', ?_⟩
  simp only at hlast ⊢
  rw [skipInside]
  simp only [hread]
  exact hlast

end Inside

/-- A list is passed over if its items are. -/
theorem passesInside_items {α : Type} {item : Reader α}
    (hitem : ∀ s x rest, Reads item s x rest → Spans s rest) {first : Bool} {s rest last : Bytes}
    {xs : List α} (h : ReadsItems item first s xs rest) {outer : List Frame}
    (haround : PassesAround outer rest last) :
    PassesInside (.ahead first) .list outer s last := by
  induction h with
  | closed hs => exact passesInside_closed _ hs haround
  | item hnext hopen hread _ ih =>
    refine passesInside_part hnext hopen fun t ht => passesInside_item ?_
    exact ((hitem _ _ _ hread).congr (ht.trans (skipBlank_of_skipBlank ht).symm)).inside
      (ih haround)

/-- An object is passed over if the values of its members are. -/
theorem passesInside_members {σ : Type} {enter : σ → String → Admission σ}
    (hvalue : ∀ state name reader, enter state name = .admitted reader →
      ∀ s next rest, Reads reader s next rest → Spans s rest)
    {first : Bool} {state final : σ} {s rest last : Bytes} {members : List (String × Bytes)}
    (h : ReadsMembers enter first state s members final rest) {outer : List Frame}
    (haround : PassesAround outer rest last) :
    PassesInside (.ahead first) .object outer s last := by
  induction h with
  | closed hs => exact passesInside_closed _ hs haround
  | member hnext hname hcolon henter hread _ ih =>
    obtain ⟨_, hname⟩ := hname
    refine passesInside_part hnext (by decide) fun t ht => ?_
    exact passesInside_member ht (passes_string hname) hcolon
      ((hvalue _ _ _ henter _ _ _ hread).inside (ih haround))

/-! ## Values -/

/-- A value that spans a text is passed over. -/
theorem Spans.reads_skipValue {s rest : Bytes} (h : Spans s rest) : Reads skipValue s () rest := by
  cases h with
  | scalar hs hopened hscalar =>
    obtain ⟨h', hskip⟩ := hscalar _ (length_lt_of_skipBlank hs)
    refine ⟨h', ?_⟩
    unfold skipValue
    split
    · next hnil => exact absurd (hs.symm.trans hnil) (List.cons_ne_nil _ _)
    · next hcons =>
      obtain ⟨rfl, rfl⟩ := List.cons.inj (hs.symm.trans hcons)
      simp only [hopened]
      exact hskip
  | container hs hopened hinside =>
    obtain ⟨h', hskip⟩ := hinside [] rest rfl _ (length_lt_of_skipBlank hs)
    refine ⟨h', ?_⟩
    unfold skipValue
    split
    · next hnil => exact absurd (hs.symm.trans hnil) (List.cons_ne_nil _ _)
    · next hcons =>
      obtain ⟨rfl, rfl⟩ := List.cons.inj (hs.symm.trans hcons)
      simp only [hopened]
      exact hskip

/-- What is read through a function is read. -/
theorem Reads.of_map {α β : Type} {bound : Nat} {result : Except Failure (Scanned α bound)}
    {f : α → β} {value : β} {rest : Bytes}
    (h : ∃ h, result.map (·.map f) = .ok ⟨value, rest, h⟩) :
    ∃ x, ∃ h, result = .ok ⟨x, rest, h⟩ ∧ f x = value := by
  obtain ⟨h, hmap⟩ := h
  obtain ⟨x, rfl, hx⟩ := map_eq_ok_iff.1 hmap
  obtain ⟨rfl, rfl⟩ := Scanned.mk.inj hx
  exact ⟨x.value, x.shorter, rfl, rfl⟩

/-- What stands where a value is read, whose parts are read with `inner`. -/
inductive ValueAt (inner : Option (Reader Value)) (s : Bytes) : (v : Value) → (rest : Bytes) → Prop
  | null {tail rest : Bytes} (hs : skipBlank s = 0x6e :: tail)
    (hword : Passes (fun bound => readWord bound nullTail) tail rest) : ValueAt inner s .null rest
  | yes {tail rest : Bytes} (hs : skipBlank s = 0x74 :: tail)
    (hword : Passes (fun bound => readWord bound trueTail) tail rest) :
    ValueAt inner s (.bool true) rest
  | no {tail rest : Bytes} (hs : skipBlank s = 0x66 :: tail)
    (hword : Passes (fun bound => readWord bound falseTail) tail rest) :
    ValueAt inner s (.bool false) rest
  | text {tail rest : Bytes} {text : String} {h : tail.length ≤ s.length}
    {h' : rest.length < s.length} (hs : skipBlank s = Ascii.quote :: tail)
    (hstring : readStringFrom s.length ByteArray.empty tail h = .ok ⟨text, rest, h'⟩) :
    ValueAt inner s (.text text) rest
  | number {tail rest : Bytes} {b : UInt8} {number : Number} (hs : skipBlank s = b :: tail)
    (hstarts : startsNumeral b = true) (hnumeral : Reads readNumeral (b :: tail) number rest) :
    ValueAt inner s (.number number) rest
  | list {tail rest : Bytes} {reader : Reader Value} {items : List Value}
    (hs : skipBlank s = Ascii.openBracket :: tail) (hinner : inner = some reader)
    (hitems : ReadsItems reader true tail items rest) : ValueAt inner s (.list items) rest
  | object {tail rest : Bytes} {reader : Reader Value} {members : List (String × Bytes)}
    {entries : List (String × Value)} (hs : skipBlank s = Ascii.openBrace :: tail)
    (hinner : inner = some reader)
    (hmembers : ReadsMembers (fun entries name =>
      .admitted fun s => (reader s).map (·.map fun v => (name, v) :: entries)) true [] tail members
      entries rest) : ValueAt inner s (.object (lastByName entries.reverse)) rest

/-- What a reader of values reads is a value that stands there. -/
theorem valueAt_of_reads {inner : Option (Reader Value)} {s rest : Bytes} {v : Value}
    (h : Reads (readValueWith inner) s v rest) : ValueAt inner s v rest := by
  obtain ⟨hrest, hread⟩ := h
  unfold readValueWith at hread
  split at hread
  · cases hread
  next b tail hs =>
  split at hread
  · next hb =>
    subst hb
    obtain ⟨_, _, hword, rfl⟩ := Reads.of_map ⟨hrest, hread⟩
    exact .null hs (passes_word hword)
  split at hread
  · next hb =>
    subst hb
    obtain ⟨_, _, hword, rfl⟩ := Reads.of_map ⟨hrest, hread⟩
    exact .yes hs (passes_word hword)
  split at hread
  · next hb =>
    subst hb
    obtain ⟨_, _, hword, rfl⟩ := Reads.of_map ⟨hrest, hread⟩
    exact .no hs (passes_word hword)
  split at hread
  · next hb =>
    subst hb
    obtain ⟨_, _, hstring, rfl⟩ := Reads.of_map ⟨hrest, hread⟩
    exact .text hs hstring
  split at hread
  · next hstarts =>
    obtain ⟨x, hnumeral, hx⟩ := map_eq_ok_iff.1 hread
    obtain ⟨rfl, rfl⟩ := Scanned.mk.inj hx
    exact .number hs hstarts ⟨x.shorter, hnumeral⟩
  split at hread
  · next hb =>
    subst hb
    split at hread
    · cases hread
    · next reader =>
      obtain ⟨_, _, hlist, rfl⟩ := Reads.of_map ⟨hrest, hread⟩
      obtain ⟨_, rfl, hitems⟩ := readsItems_of_readItems hlist
      exact .list hs rfl hitems
  split at hread
  · next hb =>
    subst hb
    split at hread
    · cases hread
    · next reader =>
      obtain ⟨_, _, hobject, rfl⟩ := Reads.of_map ⟨hrest, hread⟩
      obtain ⟨_, hmembers⟩ := readsMembers_of_readMembers hobject
      exact .object hs rfl hmembers
  · cases hread

/-- What is read as a value is a value in outline if its parts are. -/
theorem spans_of_readValueWith {inner : Option (Reader Value)}
    (hinner : ∀ reader, inner = some reader → ∀ s v rest, Reads reader s v rest → Spans s rest)
    {s rest : Bytes} {v : Value} (h : Reads (readValueWith inner) s v rest) : Spans s rest := by
  cases valueAt_of_reads h with
  | null hs hword => exact .scalar hs rfl hword
  | yes hs hword => exact .scalar hs rfl hword
  | no hs hword => exact .scalar hs rfl hword
  | text hs hstring => exact .scalar hs rfl (passes_string hstring)
  | number hs hstarts hnumeral =>
    obtain ⟨_, _, _, _, hopened⟩ := startsNumeral_cases hstarts
    obtain ⟨_, hnumeral⟩ := hnumeral
    exact .scalar hs hopened (passes_numeral hstarts hnumeral)
  | list hs hreader hitems =>
    exact .container hs rfl fun outer last haround =>
      passesInside_items (hinner _ hreader) hitems haround
  | object hs hreader hmembers =>
    refine .container hs rfl fun outer last haround => passesInside_members ?_ hmembers haround
    intro state name value henter s next rest hread
    obtain rfl := Admission.admitted.inj henter
    obtain ⟨_, _, hvalue, _⟩ := Reads.of_map hread
    exact hinner _ hreader _ _ _ ⟨_, hvalue⟩

/-- A value that is read spans what is read. -/
theorem spans_of_readValue {depth : Nat} {s rest : Bytes} {v : Value}
    (h : Reads (readValue depth) s v rest) : Spans s rest := by
  induction depth generalizing s v rest with
  | zero =>
    exact spans_of_readValueWith (fun _ hnone => absurd hnone.symm (Option.some_ne_none _)) h
  | succ depth ih =>
    refine spans_of_readValueWith (fun reader hreader s v rest hread => ?_) h
    obtain rfl := Option.some.inj hreader
    exact ih hread

/-- What is read as a value is passed over, and the same is left. -/
theorem reads_skipValue {depth : Nat} {s rest : Bytes} {v : Value}
    (h : Reads (readValue depth) s v rest) : Reads skipValue s () rest :=
  (spans_of_readValue h).reads_skipValue

end Colloquy
