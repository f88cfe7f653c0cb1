import Colloquy.Json.Value
import Colloquy.Proofs.Json.PlainText

/-!
# Written strings

The bytes of a text that is written as a JSON string, and that they are read back: every character
either stands for itself or for an escape that means it (`Escaping.cases`), so a string of any
characters is read back by one step for each (`readStringFrom_content`).
-/

set_option autoImplicit false

namespace Colloquy

namespace Utf8

/-- The bytes of a text with a character behind it. -/
theorem encode_push (text : String) (c : Char) :
    encode (text.push c) = encode text ++ String.utf8EncodeChar c := by
  simp [encode_eq_flatMap]

/-- The bytes of a text that characters are put behind. -/
theorem encode_foldl_push (cs : List Char) (text : String) :
    encode (cs.foldl String.push text) = encode text ++ cs.flatMap String.utf8EncodeChar := by
  induction cs generalizing text with
  | nil => simp
  | cons c cs ih => rw [List.foldl_cons, ih, encode_push, List.flatMap_cons, List.append_assoc]

end Utf8

namespace Json

/-! ## What is written -/

/-- The bytes that a character is written as in a string. -/
def escapedChar (c : Char) : Bytes :=
  (Value.escape c).flatMap String.utf8EncodeChar

/-- The bytes that characters are written as in a string. -/
def escaped (cs : List Char) : Bytes :=
  cs.flatMap escapedChar

/-- The bytes of a text that is written as a string. -/
def quoted (text : String) : Bytes :=
  Ascii.quote :: (escaped text.toList ++ [Ascii.quote])

/-- A string in front of a rest. -/
theorem quoted_append (text : String) (rest : Bytes) :
    quoted text ++ rest = Ascii.quote :: (escaped text.toList ++ Ascii.quote :: rest) := by
  simp [quoted]

/-- A text is appended as its quoted bytes. -/
theorem encode_writeText (out text : String) :
    Utf8.encode (Value.writeText out text) = Utf8.encode out ++ quoted text := by
  have hloop (cs : List Char) (out : String) :
      Utf8.encode (cs.foldl (fun out c => (Value.escape c).foldl String.push out) out) =
        Utf8.encode out ++ escaped cs := by
    induction cs generalizing out with
    | nil => simp [escaped]
    | cons c cs ih =>
      rw [List.foldl_cons, ih, Utf8.encode_foldl_push, List.append_assoc]
      rfl
  have hquote : String.utf8EncodeChar '"' = [Ascii.quote] := by decide
  unfold Value.writeText quoted
  rw [Utf8.encode_push, hloop, Utf8.encode_push, hquote]
  simp

/-! ## How a character is written -/

/-- A character of a string stands for itself, behind a backslash for itself or as a letter that
means it, or as its number. -/
inductive Escaping (c : Char) : Prop
  | plain (hc : IsPlainChar c) (hbytes : escapedChar c = String.utf8EncodeChar c)
  | short (b : UInt8) (hb : b ≠ 0x75) (hshort : shortEscape? b = some c)
    (hbytes : escapedChar c = [Ascii.backslash, b])
  | number (n : Nat) (hn : n < 0x20) (hc : c = Char.ofNat n)
    (hbytes : escapedChar c = [Ascii.backslash, 0x75, 0x30, 0x30,
      (Value.escape.hexDigit (n / 16)).toUInt8, (Value.escape.hexDigit (n % 16)).toUInt8])

/-- The control characters, one by one. -/
theorem escapedChar_control : ∀ n < 0x20,
    escapedChar (Char.ofNat n) = [Ascii.backslash, 0x75, 0x30, 0x30,
      (Value.escape.hexDigit (n / 16)).toUInt8, (Value.escape.hexDigit (n % 16)).toUInt8] ∨
    ∃ b ∈ [0x62, 0x66, 0x6e, 0x72, 0x74], shortEscape? b = some (Char.ofNat n) ∧
      escapedChar (Char.ofNat n) = [Ascii.backslash, b] := by
  decide

/-- Every character is written in one of the three ways. -/
theorem Escaping.cases (c : Char) : Escaping c := by
  by_cases hquote : c = '"'
  · subst hquote
    exact .short 0x22 (by decide) (by decide) (by decide)
  by_cases hbackslash : c = '\\'
  · subst hbackslash
    exact .short 0x5c (by decide) (by decide) (by decide)
  by_cases hcontrol : c.toNat < 0x20
  · obtain ⟨n, hn, rfl⟩ : ∃ n, n < 0x20 ∧ c = Char.ofNat n := ⟨c.toNat, hcontrol, by simp⟩
    rcases escapedChar_control n hn with hbytes | ⟨b, hb, hshort, hbytes⟩
    · exact .number n hn rfl hbytes
    · refine .short b ?_ hshort hbytes
      rintro rfl
      exact absurd hb (by decide)
  · have hother (d : Char) (hd : d.toNat < 0x20) : c ≠ d := by
      rintro rfl
      exact hcontrol hd
    have hplain : Value.escape c = [c] := by
      unfold Value.escape
      rw [if_neg hquote, if_neg hbackslash, if_neg (hother _ (by decide)),
        if_neg (hother _ (by decide)), if_neg (hother _ (by decide)), if_neg (by omega),
        if_neg (by omega), if_neg hcontrol]
    refine .plain ⟨hquote, hbackslash, Nat.le_of_not_lt hcontrol⟩ ?_
    simp [escapedChar, hplain]

/-! ## Reading it back -/

/-- The four digits of a control character. -/
theorem hexQuad?_control : ∀ n < 0x20,
    hexQuad? 0x30 0x30 (Value.escape.hexDigit (n / 16)).toUInt8
      (Value.escape.hexDigit (n % 16)).toUInt8 = some n := by
  decide

/-- An escape is read as the character that it means. -/
theorem readStringFrom_backslash {bound : Nat} {content : ByteArray} {s rest : Bytes} {c : Char}
    (hescape : ∃ h, readEscape s = .ok ⟨c, rest, h⟩)
    (h : (Ascii.backslash :: s).length ≤ bound) :
    ∃ h', readStringFrom bound content (Ascii.backslash :: s) h =
      readStringFrom bound (pushChar content c) rest h' := by
  obtain ⟨hrest, hescape⟩ := hescape
  refine ⟨Nat.le_trans (Nat.le_of_lt (Nat.lt_succ_of_lt hrest)) h, ?_⟩
  have hquote : Ascii.backslash ≠ Ascii.quote := by decide
  rw [readStringFrom]
  simp only [if_neg hquote, if_true, hescape]

/-- A one-letter escape. -/
theorem readEscape_short {b : UInt8} {c : Char} (hb : b ≠ 0x75) (hshort : shortEscape? b = some c)
    (rest : Bytes) : ∃ h, readEscape (b :: rest) = .ok ⟨c, rest, h⟩ := by
  refine ⟨Nat.lt_succ_self _, ?_⟩
  simp only [readEscape, hshort]

/-- The escape of a control character by its number. -/
theorem readEscape_number {n : Nat} (hn : n < 0x20) (rest : Bytes) :
    ∃ h, readEscape (0x75 :: 0x30 :: 0x30 :: (Value.escape.hexDigit (n / 16)).toUInt8 ::
      (Value.escape.hexDigit (n % 16)).toUInt8 :: rest) = .ok ⟨Char.ofNat n, rest, h⟩ := by
  refine ⟨by simp only [List.length_cons]; omega, ?_⟩
  have hlow : ¬(0xdc00 ≤ n ∧ n ≤ 0xdfff) := by omega
  have hhigh : ¬(0xd800 ≤ n ∧ n ≤ 0xdbff) := by omega
  simp only [readEscape, readHexQuad, hexQuad?_control n hn, Bool.and_eq_true, decide_eq_true_eq,
    if_neg hlow, if_neg hhigh]

/-- A written character is read back. -/
theorem readStringFrom_escapedChar (c : Char) (bound : Nat) (content : ByteArray) (s : Bytes)
    (h : (escapedChar c ++ s).length ≤ bound) :
    ∃ h', readStringFrom bound content (escapedChar c ++ s) h =
      readStringFrom bound (pushChar content c) s h' := by
  cases Escaping.cases c with
  | plain hc hbytes =>
    simp only [hbytes] at h ⊢
    exact readStringFrom_plain (isPlain_of_mem_utf8EncodeChar hc) bound content s h
  | short b hb hshort hbytes =>
    simp only [hbytes] at h ⊢
    exact readStringFrom_backslash (readEscape_short hb hshort s) h
  | number n hn hc hbytes =>
    subst hc
    simp only [hbytes] at h ⊢
    exact readStringFrom_backslash (readEscape_number hn s) h

/-- Written characters are read back one after the other. -/
theorem readStringFrom_escaped (cs : List Char) (bound : Nat) (content : ByteArray) (s : Bytes)
    (h : (escaped cs ++ s).length ≤ bound) :
    ∃ h', readStringFrom bound content (escaped cs ++ s) h =
      readStringFrom bound ((cs.flatMap String.utf8EncodeChar).foldl ByteArray.push content) s
        h' := by
  induction cs generalizing content with
  | nil => exact ⟨h, rfl⟩
  | cons c cs ih =>
    have hsplit : escaped (c :: cs) ++ s = escapedChar c ++ (escaped cs ++ s) := by
      simp [escaped]
    simp only [hsplit] at h ⊢
    obtain ⟨hrest, hfirst⟩ := readStringFrom_escapedChar c bound content (escaped cs ++ s) h
    obtain ⟨hrest', hothers⟩ := ih (pushChar content c) hrest
    refine ⟨hrest', ?_⟩
    rw [hfirst, hothers, List.flatMap_cons, List.foldl_append]
    rfl

/-- A written text in front of a quotation mark is read back. -/
theorem readStringFrom_content (text : String) (bound : Nat) (rest : Bytes)
    (h : (escaped text.toList ++ Ascii.quote :: rest).length ≤ bound) :
    ∃ h', readStringFrom bound ByteArray.empty (escaped text.toList ++ Ascii.quote :: rest) h =
      .ok ⟨text, rest, h'⟩ := by
  obtain ⟨h', hread⟩ := readStringFrom_escaped text.toList bound ByteArray.empty _ h
  refine ⟨lt_of_cons_le h', ?_⟩
  rw [hread, readStringFrom_quote, ← Utf8.encode_eq_flatMap, closeString_encode]

end Json

end Colloquy
