import Colloquy.Json.StringLiteral
import Colloquy.Text.Utf8

/-!
# Reading plain texts

A text that holds no quotation mark, no backslash and no control character stands for itself
between quotation marks: `readStringFrom_encode` reads it back. Its bytes are plain, as those of
longer characters are beyond all that have a meaning (`isPlain_of_mem_utf8EncodeChar`).
-/

set_option autoImplicit false

namespace Colloquy

namespace Utf8

/-- The bytes of a text are those of its characters, one after the other. -/
theorem encode_eq_flatMap (text : String) :
    encode text = text.toList.flatMap String.utf8EncodeChar := by
  unfold encode
  rw [String.toUTF8_eq_toByteArray, ← String.utf8Encode_toList]
  exact List.toList_data_toByteArray

/-- The bytes of two texts in a row. -/
theorem encode_append (a b : String) : encode (a ++ b) = encode a ++ encode b := by
  simp only [encode_eq_flatMap, String.toList_append, List.flatMap_append]

/-- A text is what its bytes encode. -/
theorem fromUTF8?_encode (text : String) :
    String.fromUTF8? ⟨(encode text).toArray⟩ = some text := by
  unfold encode String.fromUTF8?
  rw [Array.toArray_toList, String.toUTF8_eq_toByteArray, dif_pos text.isValidUTF8]
  rfl

/-- Texts of the same bytes are the same. -/
theorem encode_injective {a b : String} (h : encode a = encode b) : a = b := by
  have hb := fromUTF8?_encode b
  rw [← h, fromUTF8?_encode] at hb
  exact Option.some.inj hb

end Utf8

namespace Json

/-- A byte that stands for itself in a string. -/
def IsPlain (b : UInt8) : Prop :=
  b ≠ Ascii.quote ∧ b ≠ Ascii.backslash ∧ ¬b < 0x20

/-- A character that stands for itself in a string. -/
def IsPlainChar (c : Char) : Prop :=
  c ≠ '"' ∧ c ≠ '\\' ∧ 0x20 ≤ c.toNat

/-- Whether a character is plain is decided by its number. -/
instance : DecidablePred IsPlainChar :=
  fun c => inferInstanceAs (Decidable (c ≠ '"' ∧ c ≠ '\\' ∧ 0x20 ≤ c.toNat))

/-- A text is plain if a run over its characters finds it so. -/
theorem isPlainChar_of_all {text : List Char}
    (h : text.all (fun c => decide (IsPlainChar c)) = true) : ∀ c ∈ text, IsPlainChar c :=
  fun c hc => of_decide_eq_true (List.all_eq_true.1 h c hc)

/-- A byte is plain unless it is one of the few that are not. -/
theorem isPlain_ofNat {n : Nat} (hn : n < 256) (hquote : n ≠ 0x22) (hbackslash : n ≠ 0x5c)
    (hcontrol : 0x20 ≤ n) : IsPlain (UInt8.ofNat n) := by
  have hvalue : (UInt8.ofNat n).toNat = n := UInt8.toNat_ofNat_of_lt' hn
  refine ⟨?_, ?_, ?_⟩
  · intro h
    rw [h] at hvalue
    exact hquote hvalue.symm
  · intro h
    rw [h] at hvalue
    exact hbackslash hvalue.symm
  · intro h
    rw [UInt8.lt_iff_toNat_lt, hvalue] at h
    exact absurd hcontrol (Nat.not_le_of_lt h)

/-- The bytes of a plain character are plain. -/
theorem isPlain_of_mem_utf8EncodeChar {c : Char} (hc : IsPlainChar c) :
    ∀ b ∈ String.utf8EncodeChar c, IsPlain b := by
  have hlong {n : Nat} (hn : n < 256) (hbig : 0x80 ≤ n) : IsPlain (UInt8.ofNat n) :=
    isPlain_ofNat hn (by omega) (by omega) (by omega)
  obtain ⟨hquote, hbackslash, hcontrol⟩ := hc
  have hquote : c.val.toNat ≠ 0x22 := fun h => hquote (Char.toNat_inj.1 h)
  have hbackslash : c.val.toNat ≠ 0x5c := fun h => hbackslash (Char.toNat_inj.1 h)
  unfold String.utf8EncodeChar
  intro b hb
  simp only at hb
  split at hb
  · next hsmall =>
    rw [List.mem_singleton] at hb
    subst hb
    exact isPlain_ofNat (by omega) hquote hbackslash hcontrol
  · split at hb
    · simp only [List.mem_cons, List.not_mem_nil, or_false] at hb
      rcases hb with rfl | rfl
      · exact hlong (by omega) (by omega)
      · exact hlong (by omega) (by omega)
    · split at hb
      · simp only [List.mem_cons, List.not_mem_nil, or_false] at hb
        rcases hb with rfl | rfl | rfl
        · exact hlong (by omega) (by omega)
        · exact hlong (by omega) (by omega)
        · exact hlong (by omega) (by omega)
      · simp only [List.mem_cons, List.not_mem_nil, or_false] at hb
        rcases hb with rfl | rfl | rfl | rfl
        · exact hlong (by omega) (by omega)
        · exact hlong (by omega) (by omega)
        · exact hlong (by omega) (by omega)
        · exact hlong (by omega) (by omega)

/-- Bytes that are put behind others one by one. -/
theorem foldl_push (content : ByteArray) (text : Bytes) :
    text.foldl ByteArray.push content = ⟨content.data ++ text.toArray⟩ := by
  induction text generalizing content with
  | nil => simp
  | cons b text ih =>
    have hpush : content.push b = ⟨content.data.push b⟩ := rfl
    rw [List.foldl_cons, ih, hpush]
    simp

/-- Plain bytes are read as they are. -/
theorem readStringFrom_plain {text : Bytes} (hplain : ∀ b ∈ text, IsPlain b) (bound : Nat)
    (content : ByteArray) (s : Bytes) (h : (text ++ s).length ≤ bound) :
    ∃ h', readStringFrom bound content (text ++ s) h =
      readStringFrom bound (text.foldl ByteArray.push content) s h' := by
  induction text generalizing content with
  | nil => exact ⟨h, rfl⟩
  | cons b text ih =>
    obtain ⟨hquote, hbackslash, hcontrol⟩ := hplain b List.mem_cons_self
    obtain ⟨h', hread⟩ :=
      ih (fun b hb => hplain b (List.mem_cons_of_mem _ hb)) (content.push b) (Nat.le_of_lt h)
    refine ⟨h', ?_⟩
    simp only [List.cons_append]
    rw [readStringFrom]
    simp only [hquote, hbackslash, hcontrol, if_false]
    exact hread

/-- A quotation mark ends a string. -/
theorem readStringFrom_quote (bound : Nat) (content : ByteArray) (rest : Bytes)
    (h : (Ascii.quote :: rest).length ≤ bound) :
    readStringFrom bound content (Ascii.quote :: rest) h =
      closeString bound content rest (lt_of_cons_le h) := by
  rw [readStringFrom]
  rfl

/-- The bytes of a text that are collected one by one are that text. -/
theorem fromUTF8?_foldl_push (text : String) :
    String.fromUTF8? ((Utf8.encode text).foldl ByteArray.push ByteArray.empty) = some text := by
  have hcontent : (Utf8.encode text).foldl ByteArray.push ByteArray.empty =
      ⟨(Utf8.encode text).toArray⟩ := by
    rw [foldl_push]
    simp
  rw [hcontent, Utf8.fromUTF8?_encode]

/-- A string whose content are the bytes of a text is that text. -/
theorem closeString_encode (bound : Nat) (text : String) (rest : Bytes) (h : rest.length < bound) :
    closeString bound ((Utf8.encode text).foldl ByteArray.push ByteArray.empty) rest h =
      .ok ⟨text, rest, h⟩ := by
  unfold closeString
  rw [fromUTF8?_foldl_push]

/-- The bytes of a plain text are plain. -/
theorem isPlain_of_mem_encode {text : String} (hplain : ∀ c ∈ text.toList, IsPlainChar c) :
    ∀ b ∈ Utf8.encode text, IsPlain b := by
  rw [Utf8.encode_eq_flatMap]
  intro b hb
  obtain ⟨c, hc, hb⟩ := List.mem_flatMap.1 hb
  exact isPlain_of_mem_utf8EncodeChar (hplain c hc) b hb

/-- A plain text in front of a quotation mark is read as it is. -/
theorem readStringFrom_encode {text : String} (hplain : ∀ c ∈ text.toList, IsPlainChar c)
    (bound : Nat) (rest : Bytes) (h : (Utf8.encode text ++ Ascii.quote :: rest).length ≤ bound) :
    ∃ h', readStringFrom bound ByteArray.empty (Utf8.encode text ++ Ascii.quote :: rest) h =
      .ok ⟨text, rest, h'⟩ := by
  obtain ⟨h', hread⟩ :=
    readStringFrom_plain (isPlain_of_mem_encode hplain) bound ByteArray.empty _ h
  refine ⟨lt_of_cons_le h', ?_⟩
  rw [hread, readStringFrom_quote, closeString_encode]

end Json

end Colloquy
