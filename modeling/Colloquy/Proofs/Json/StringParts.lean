import Colloquy.Proofs.Json.PassedOver

/-!
# The texts of strings

A string as the grammar of JSON has it: bytes that stand for themselves, escapes of one letter and
escapes of four hexadecimal digits, in any order. `StringText.content?` is what such a text is read
as; none where an escape is half a pair of surrogates or the bytes are not UTF-8. The reader of
strings comes to that content or refuses the text, whatever follows (`comes_readStringFrom`). Where
nobody asks for it the text is passed over, whatever its content would be (`passes_stringText`).
-/

set_option autoImplicit false

namespace Colloquy

open Json

namespace Json

/-- A part of a string. -/
inductive StringPart
  /-- A byte that stands for itself. -/
  | plain (b : UInt8) (hb : IsPlain b)
  /-- An escape of one letter. -/
  | short (b : UInt8) (c : Char) (hc : shortEscape? b = some c)
  /-- An escape of four hexadecimal digits. -/
  | unit (a b c d : UInt8) (n : Nat) (hn : hexQuad? a b c d = some n)

/-- A part as it is written. -/
def StringPart.bytes : StringPart → Bytes
  | plain b _ => [b]
  | short b _ _ => [Ascii.backslash, b]
  | unit a b c d _ _ => [Ascii.backslash, 0x75, a, b, c, d]

/-- What stands between the quotation marks of a string. -/
abbrev StringText := List StringPart

/-- Whether a number is the second half of a pair of surrogates. -/
def isLowSurrogate (n : Nat) : Bool :=
  0xdc00 ≤ n && n ≤ 0xdfff

/-- Whether a number is the first half of a pair of surrogates. -/
def isHighSurrogate (n : Nat) : Bool :=
  0xd800 ≤ n && n ≤ 0xdbff

/-- The character that a pair of surrogates stands for. -/
def ofSurrogates (high low : Nat) : Char :=
  Char.ofNat ((high - 0xd800) * 0x400 + (low - 0xdc00) + 0x10000)

namespace StringText

/-- The text between the quotation marks. -/
def bytes (text : StringText) : Bytes :=
  text.flatMap StringPart.bytes

/-- The text with its quotation marks. -/
def quoted (text : StringText) : Bytes :=
  Ascii.quote :: (text.bytes ++ [Ascii.quote])

/-- The bytes of parts are those of the first and of the others. -/
theorem bytes_cons (part : StringPart) (parts : StringText) (rest : Bytes) :
    bytes (part :: parts) ++ rest = part.bytes ++ (bytes parts ++ rest) := by
  unfold bytes
  rw [List.flatMap_cons, List.append_assoc]

/-- Puts the bytes that the parts stand for behind others; none if a surrogate stands alone. -/
def collect (content : ByteArray) : StringText → Option ByteArray
  | [] => some content
  | .plain b _ :: parts => collect (content.push b) parts
  | .short _ c _ :: parts => collect (pushChar content c) parts
  | .unit _ _ _ _ n _ :: parts =>
    if isLowSurrogate n then none
    else if isHighSurrogate n then
      match parts with
      | .unit _ _ _ _ m _ :: parts =>
        if isLowSurrogate m then collect (pushChar content (ofSurrogates n m)) parts else none
      | _ => none
    else collect (pushChar content (Char.ofNat n)) parts

/-- The text that a string stands for, if its bytes are one. -/
def content? (text : StringText) : Option String :=
  (collect ByteArray.empty text).bind String.fromUTF8?

/-- A text that stands for itself. -/
def ofPlain (text : String) (h : text.toList.all (fun c => decide (IsPlainChar c)) = true) :
    StringText :=
  (Utf8.encode text).pmap StringPart.plain (isPlain_of_mem_encode (isPlainChar_of_all h))

end StringText

end Json

/-- What reading a text comes to: its value and what follows it, or a refusal. -/
inductive Comes {α : Type} {bound : Nat} (rest : Bytes) :
    (value? : Option α) → Except Failure (Scanned α bound) → Prop
  | read {value : α} (h : rest.length < bound) : Comes rest (some value) (.ok ⟨value, rest, h⟩)
  | refused (failure : Failure) : Comes rest none (.error failure)

/-- A reading that succeeds comes to what is read. -/
theorem Comes.of_eq_ok {α : Type} {bound : Nat} {rest : Bytes} {value : α}
    {result : Except Failure (Scanned α bound)} (h : ∃ h, result = .ok ⟨value, rest, h⟩) :
    Comes rest (some value) result := by
  obtain ⟨hrest, rfl⟩ := h
  exact .read hrest

/-- What reading comes to is all that is read. -/
theorem Comes.eq_ok_iff {α : Type} {bound : Nat} {rest left : Bytes} {value? : Option α}
    {result : Except Failure (Scanned α bound)} (h : Comes rest value? result) {value : α} :
    (∃ h, result = .ok ⟨value, left, h⟩) ↔ value? = some value ∧ left = rest := by
  cases h with
  | read hrest =>
    constructor
    · rintro ⟨_, h⟩
      obtain ⟨rfl, rfl⟩ := Scanned.mk.inj (Except.ok.inj h)
      exact ⟨rfl, rfl⟩
    · rintro ⟨h, rfl⟩
      obtain rfl := Option.some.inj h
      exact ⟨hrest, rfl⟩
  | refused failure =>
    constructor
    · rintro ⟨_, h⟩
      cases h
    · rintro ⟨h, _⟩
      cases h

/-! ## Escapes that are read -/

/-- No escape of one letter is one by number. -/
theorem ne_of_shortEscape? {b : UInt8} {c : Char} (hc : shortEscape? b = some c) : b ≠ 0x75 := by
  rintro rfl
  exact absurd hc.symm (Option.some_ne_none c)

section Escapes

variable {a b c d : UInt8} {n : Nat} (hn : hexQuad? a b c d = some n) (s : Bytes)

include hn

/-- Four hexadecimal digits are read as their number. -/
theorem readHexQuad_eq : ∃ h, readHexQuad (a :: b :: c :: d :: s) = .ok ⟨n, s, h⟩ := by
  refine ⟨by simp only [List.length_cons]; omega, ?_⟩
  unfold readHexQuad
  simp only [hn]

/-- The second half of a pair of surrogates does not stand alone. -/
theorem comes_lowSurrogate (hlow : isLowSurrogate n = true) :
    Comes s none (readEscape (0x75 :: a :: b :: c :: d :: s)) := by
  obtain ⟨_, hquad⟩ := readHexQuad_eq hn s
  unfold isLowSurrogate at hlow
  simp only [readEscape, hquad, if_pos hlow]
  exact .refused _

/-- The first half of a pair is read with what follows it. -/
theorem comes_highSurrogate (hlow : ¬isLowSurrogate n = true) (hhigh : isHighSurrogate n = true)
    {left : Bytes} {char? : Option Char} (h : Comes left char? (readLowSurrogate n s)) :
    Comes left char? (readEscape (0x75 :: a :: b :: c :: d :: s)) := by
  obtain ⟨_, hquad⟩ := readHexQuad_eq hn s
  unfold isLowSurrogate at hlow
  unfold isHighSurrogate at hhigh
  simp only [readEscape, hquad, if_neg hlow, if_pos hhigh]
  generalize readLowSurrogate n s = result at h
  cases h with
  | read hleft => exact .read _
  | refused failure => exact .refused failure

/-- Any other number is that of a character. -/
theorem comes_unit (hlow : ¬isLowSurrogate n = true) (hhigh : ¬isHighSurrogate n = true) :
    Comes s (some (Char.ofNat n)) (readEscape (0x75 :: a :: b :: c :: d :: s)) := by
  obtain ⟨hs, hquad⟩ := readHexQuad_eq hn s
  unfold isLowSurrogate at hlow
  unfold isHighSurrogate at hhigh
  simp only [readEscape, hquad, if_neg hlow, if_neg hhigh]
  exact .read _

/-- The second half of a pair of surrogates completes the first, and any other number does not. -/
theorem comes_readLowSurrogate (high : Nat) :
    Comes s (if isLowSurrogate n then some (ofSurrogates high n) else none)
      (readLowSurrogate high (Ascii.backslash :: 0x75 :: a :: b :: c :: d :: s)) := by
  obtain ⟨_, hquad⟩ := readHexQuad_eq hn s
  have hstep := readLowSurrogate.eq_3 high (a :: b :: c :: d :: s)
  simp only [hquad] at hstep
  have hread : readLowSurrogate high (Ascii.backslash :: 0x75 :: a :: b :: c :: d :: s) = _ := hstep
  unfold isLowSurrogate
  rw [hread]
  split
  · exact .read _
  · exact .refused _

end Escapes

/-- The second half of a pair is nothing else than an escape by number. -/
theorem comes_readLowSurrogate_other (high : Nat) (rest left : Bytes) {text : StringText}
    (hother : ∀ a b c d m hm parts, text ≠ .unit a b c d m hm :: parts) :
    Comes left none (readLowSurrogate high (text.bytes ++ Ascii.quote :: rest)) := by
  cases hread : readLowSurrogate high (text.bytes ++ Ascii.quote :: rest) with
  | error failure => exact .refused failure
  | ok pair =>
    obtain ⟨tail, heq, _⟩ := readLowSurrogate_eq_ok hread
    match text with
    | [] => exact absurd (List.cons.inj heq).1 (by decide)
    | .plain b hb :: parts => exact absurd (List.cons.inj heq).1 hb.2.1
    | .short b c hc :: parts =>
      exact absurd (List.cons.inj (List.cons.inj heq).2).1 (ne_of_shortEscape? hc)
    | .unit a b c d m hm :: parts => exact absurd rfl (hother a b c d m hm parts)

/-! ## Strings that are read -/

section Reading

variable {bound : Nat} {content : ByteArray} {rest : Bytes}

/-- A string that is closed comes to the text of its bytes, if they are one. -/
theorem comes_closeString (h : rest.length < bound) :
    Comes rest (String.fromUTF8? content) (closeString bound content rest h) := by
  unfold closeString
  split
  · next heq =>
    rw [heq]
    exact .read h
  · next heq =>
    rw [heq]
    exact .refused _

/-- A string goes on behind the character of an escape. -/
theorem comes_escape {s left : Bytes} {c : Char} {value? : Option String}
    (hescape : Comes left (some c) (readEscape s))
    (hread : ∀ h, Comes rest value? (readStringFrom bound (pushChar content c) left h))
    (h : (Ascii.backslash :: s).length ≤ bound) :
    Comes rest value? (readStringFrom bound content (Ascii.backslash :: s) h) := by
  obtain ⟨_, hstep⟩ := readStringFrom_backslash (hescape.eq_ok_iff.2 ⟨rfl, rfl⟩) h
  rw [hstep]
  exact hread _

/-- A string ends with an escape that is refused. -/
theorem comes_refusedEscape {s left : Bytes} (hescape : Comes left none (readEscape s))
    (h : (Ascii.backslash :: s).length ≤ bound) :
    Comes rest none (readStringFrom bound content (Ascii.backslash :: s) h) := by
  generalize hresult : readEscape s = result at hescape
  cases hescape with
  | refused failure =>
    have hquote : Ascii.backslash ≠ Ascii.quote := by decide
    rw [readStringFrom]
    simp only [if_neg hquote, if_true, hresult]
    exact .refused failure

end Reading

/-- The reader of strings comes to the content of a text, whatever follows its quotation mark. -/
theorem comes_readStringFrom {bound : Nat} (content : ByteArray) (text : StringText)
    (rest : Bytes) (h : (text.bytes ++ Ascii.quote :: rest).length ≤ bound) :
    Comes rest ((text.collect content).bind String.fromUTF8?)
      (readStringFrom bound content (text.bytes ++ Ascii.quote :: rest) h) := by
  fun_induction StringText.collect content text with
  | case1 content =>
    simp only [StringText.bytes, List.flatMap_nil, List.nil_append] at h ⊢
    rw [readStringFrom_quote]
    exact comes_closeString _
  | case2 content b hb parts ih =>
    have hplain : ∀ c ∈ [b], IsPlain c := fun c hc => List.mem_singleton.1 hc ▸ hb
    simp only [StringText.bytes_cons, StringPart.bytes] at h ⊢
    obtain ⟨_, hstep⟩ := readStringFrom_plain hplain bound content _ h
    rw [hstep]
    exact ih _
  | case3 content b c hc parts ih =>
    simp only [StringText.bytes_cons, StringPart.bytes, List.cons_append, List.nil_append] at h ⊢
    exact comes_escape (.of_eq_ok (readEscape_short (ne_of_shortEscape? hc) hc _)) ih h
  -- An escape by number: half a pair by itself, a pair, half a pair in front of something else,
  -- and a character.
  | case4 content a b c d n hn parts hlow =>
    simp only [StringText.bytes_cons, StringPart.bytes, List.cons_append, List.nil_append] at h ⊢
    exact comes_refusedEscape (comes_lowSurrogate hn _ hlow) h
  | case5 content a b c d n hn hlow hhigh a' b' c' d' m hm parts hlow' ih =>
    have hpair := comes_readLowSurrogate hm (StringText.bytes parts ++ Ascii.quote :: rest) n
    rw [if_pos hlow'] at hpair
    simp only [StringText.bytes_cons, StringPart.bytes, List.cons_append, List.nil_append] at h ⊢
    exact comes_escape (comes_highSurrogate hn _ hlow hhigh hpair) ih h
  | case6 content a b c d n hn hlow hhigh a' b' c' d' m hm parts hlow' =>
    have hpair := comes_readLowSurrogate hm (StringText.bytes parts ++ Ascii.quote :: rest) n
    rw [if_neg hlow'] at hpair
    simp only [StringText.bytes_cons, StringPart.bytes, List.cons_append, List.nil_append] at h ⊢
    exact comes_refusedEscape (comes_highSurrogate hn _ hlow hhigh hpair) h
  | case7 content a b c d n hn parts hlow hhigh hother =>
    have hpair := comes_readLowSurrogate_other n rest rest hother
    simp only [StringText.bytes_cons, StringPart.bytes, List.cons_append, List.nil_append] at h ⊢
    exact comes_refusedEscape (comes_highSurrogate hn _ hlow hhigh hpair) h
  | case8 content a b c d n hn parts hlow hhigh ih =>
    simp only [StringText.bytes_cons, StringPart.bytes, List.cons_append, List.nil_append] at h ⊢
    exact comes_escape (comes_unit hn _ hlow hhigh) ih h

/-- A string is read as its content, and nothing else. -/
theorem reads_stringText (text : StringText) {rest left : Bytes} {value : String} :
    Reads readString (text.bytes ++ Ascii.quote :: rest) value left ↔
      text.content? = some value ∧ left = rest :=
  (comes_readStringFrom ByteArray.empty text rest (Nat.le_refl _)).eq_ok_iff

/-! ## Strings that are passed over -/

section Passing

variable {s rest : Bytes}

/-- A quotation mark ends a string that is passed over. -/
theorem passes_quote (rest : Bytes) : Passes skipString (Ascii.quote :: rest) rest := by
  intro bound h
  refine ⟨lt_of_cons_lt h, ?_⟩
  rw [skipString]
  simp only [if_true]

/-- A plain byte is passed over. -/
theorem passes_plain {b : UInt8} (hb : IsPlain b) (h : Passes skipString s rest) :
    Passes skipString (b :: s) rest := by
  obtain ⟨hquote, hbackslash, hcontrol⟩ := hb
  intro bound hbound
  obtain ⟨h', hskip⟩ := h bound (lt_of_cons_lt hbound)
  refine ⟨h', ?_⟩
  rw [skipString]
  simp only [if_neg hquote, if_neg hbackslash, if_neg hcontrol]
  exact hskip

/-- An escape of one letter is passed over. -/
theorem passes_short {b : UInt8} {c : Char} (hc : shortEscape? b = some c) (s : Bytes) :
    Passes skipEscape (b :: s) s := by
  have hb : b ≠ 0x75 := ne_of_shortEscape? hc
  have hsome : (shortEscape? b).isSome = true := by rw [hc]; rfl
  intro bound h
  refine ⟨lt_of_cons_lt h, ?_⟩
  unfold skipEscape
  simp only [if_neg hb, if_pos hsome]

/-- Each part of a string is passed over. -/
theorem passes_part (part : StringPart) (h : Passes skipString s rest) :
    Passes skipString (part.bytes ++ s) rest := by
  match part with
  | .plain b hb => exact passes_plain hb h
  | .short b c hc => exact passes_string_escape (passes_short hc s) h
  | .unit a b c d n hn =>
    obtain ⟨_, hquad⟩ := readHexQuad_eq hn s
    exact passes_string_escape (passes_unicode hquad) h

/-- A string is passed over up to its quotation mark, whatever its content or if it has none. -/
theorem passes_stringText (text : StringText) (rest : Bytes) :
    Passes skipString (text.bytes ++ Ascii.quote :: rest) rest := by
  induction text with
  | nil => exact passes_quote rest
  | cons part parts ih =>
    rw [StringText.bytes_cons]
    exact passes_part part ih

end Passing

end Colloquy
