import Colloquy.Conversation.Id
import Colloquy.Proofs.Conversation.KeySharing

/-!
# The forms of ids

Which texts are ids of conversations where these are UUIDs: thirty-two hexadecimal digits, the
digits in groups with hyphens, that form in braces, and that form behind a marker (`Uuid.IsForm`).
Exactly these are accepted, with a marker in letters of either case, and they are kept as they were
written; any other text is refused as it is. A fresh id is one of them: the digits of its bytes in
lower case, in groups, with version and variant in their places (`ConversationId.parse_forms`).
-/

set_option autoImplicit false

namespace Colloquy

namespace Uuid

/-- The hexadecimal digits in lower case. -/
def lowerDigits : List Char :=
  "0123456789abcdef".toList

/-- The hexadecimal digits of either case. -/
def digits : List Char :=
  lowerDigits ++ "ABCDEF".toList

/-- A text consists of so many of some digits. -/
structure IsDigits (allowed : List Char) (count : Nat) (text : List Char) : Prop where
  length_eq : text.length = count
  mem : ∀ c ∈ text, c ∈ allowed

/-- Five groups of digits, of the usual sizes. -/
structure Groups (allowed : List Char) where
  first : List Char
  second : List Char
  third : List Char
  fourth : List Char
  fifth : List Char
  isFirst : IsDigits allowed 8 first
  isSecond : IsDigits allowed 4 second
  isThird : IsDigits allowed 4 third
  isFourth : IsDigits allowed 4 fourth
  isFifth : IsDigits allowed 12 fifth

namespace Groups

variable {allowed : List Char}

/-- The groups with a hyphen between any two of them. -/
def text (g : Groups allowed) : List Char :=
  g.first ++ '-' :: (g.second ++ '-' :: (g.third ++ '-' :: (g.fourth ++ '-' :: g.fifth)))

/-- The digits of the groups. -/
def digits (g : Groups allowed) : List Char :=
  g.first ++ (g.second ++ (g.third ++ (g.fourth ++ g.fifth)))

/-- Five groups of digits with hyphens between them are thirty-six characters. -/
theorem length_text (g : Groups allowed) : g.text.length = 36 := by
  simp only [text, List.length_append, List.length_cons, g.isFirst.length_eq,
    g.isSecond.length_eq, g.isThird.length_eq, g.isFourth.length_eq, g.isFifth.length_eq]

end Groups

/-- A text is an id, of which the last form begins with a marker. -/
inductive IsForm (isMarker : List Char → Prop) (text : List Char) : Prop
  | compact (h : IsDigits digits 32 text)
  | hyphenated (g : Groups digits) (htext : text = g.text)
  | braced (g : Groups digits) (htext : text = '\x7b' :: (g.text ++ ['\x7d']))
  | named (marker : List Char) (g : Groups digits) (hmarker : isMarker marker)
    (htext : text = marker ++ g.text)

/-- The marker of a uniform resource name, in letters of either case. -/
def IsMarker (marker : List Char) : Prop :=
  marker.map Char.toLower = "urn:uuid:".toList

/-! ## Digits -/

set_option maxRecDepth 4096 in
/-- The digits, one by one. -/
theorem isHexDigit_iff_mem {c : Char} : isHexDigit c = true ↔ c ∈ digits := by
  have hsmall : ∀ n < 128, (isHexDigit (Char.ofNat n) = true ↔ Char.ofNat n ∈ digits) := by
    decide
  have hall : digits.all (fun d => decide (d.toNat < 128)) = true := by decide
  constructor
  · intro h
    have hc : c.toNat < 128 := by
      simp only [isHexDigit, Bool.or_eq_true, Bool.and_eq_true, decide_eq_true_eq,
        Char.le_def, UInt32.le_iff_toNat_le] at h
      have h9 : ('9'.val).toNat = 57 := rfl
      have hf : ('f'.val).toNat = 102 := rfl
      have hF : ('F'.val).toNat = 70 := rfl
      show c.val.toNat < 128
      omega
    have hmem := (hsmall c.toNat hc).1
    rw [Char.ofNat_toNat] at hmem
    exact hmem h
  · intro h
    have hmem := (hsmall c.toNat (of_decide_eq_true (List.all_eq_true.1 hall c h))).2
    rw [Char.ofNat_toNat] at hmem
    exact hmem h

/-- Some digits are as many hexadecimal digits as they should be. -/
theorem isDigits_iff {size : Nat} {text : List Char} :
    IsDigits digits size text ↔ text.length = size ∧ text.all isHexDigit = true := by
  rw [List.all_eq_true]
  constructor
  · rintro ⟨hlength, hmem⟩
    exact ⟨hlength, fun c hc => isHexDigit_iff_mem.2 (hmem c hc)⟩
  · rintro ⟨hlength, hdigits⟩
    exact ⟨hlength, fun c hc => isHexDigit_iff_mem.1 (hdigits c hc)⟩

/-! ## Groups of digits -/

/-- A single group is all of its text. -/
theorem isGrouped_single_iff {size : Nat} {text : List Char} :
    isGrouped [size] text = true ↔ IsDigits digits size text := by
  rw [isDigits_iff, isGrouped, Bool.and_eq_true, beq_iff_eq]

/-- The first of several groups ends in front of a hyphen. -/
theorem isGrouped_cons_iff {size : Nat} {sizes : List Nat} (hne : sizes ≠ []) {text : List Char} :
    isGrouped (size :: sizes) text = true ↔
      ∃ group rest, IsDigits digits size group ∧ isGrouped sizes rest = true ∧
        text = group ++ '-' :: rest := by
  constructor
  · intro h
    rw [isGrouped.eq_3 text size sizes hne, Bool.and_eq_true, Bool.and_eq_true, beq_iff_eq] at h
    obtain ⟨⟨hlength, hdigits⟩, hrest⟩ := h
    split at hrest
    · next rest hdrop =>
      refine ⟨text.take size, rest, isDigits_iff.2 ⟨hlength, hdigits⟩, hrest, ?_⟩
      rw [← hdrop, List.take_append_drop]
    · exact absurd hrest Bool.false_ne_true
  · rintro ⟨group, rest, hgroup, hrest, rfl⟩
    obtain ⟨hlength, hdigits⟩ := isDigits_iff.1 hgroup
    rw [isGrouped.eq_3 _ size sizes hne, List.take_left' hlength, List.drop_left' hlength, hdigits,
      hlength]
    simpa using hrest

/-- The form with hyphens is that of five groups. -/
theorem isHyphenated_iff {text : List Char} :
    isHyphenated text = true ↔ ∃ g : Groups digits, text = g.text := by
  unfold isHyphenated groupSizes
  constructor
  · intro h
    obtain ⟨first, _, hfirst, h1, rfl⟩ := (isGrouped_cons_iff (List.cons_ne_nil _ _)).1 h
    obtain ⟨second, _, hsecond, h2, rfl⟩ := (isGrouped_cons_iff (List.cons_ne_nil _ _)).1 h1
    obtain ⟨third, _, hthird, h3, rfl⟩ := (isGrouped_cons_iff (List.cons_ne_nil _ _)).1 h2
    obtain ⟨fourth, fifth, hfourth, h4, rfl⟩ := (isGrouped_cons_iff (List.cons_ne_nil _ _)).1 h3
    exact ⟨⟨first, second, third, fourth, fifth, hfirst, hsecond, hthird, hfourth,
      isGrouped_single_iff.1 h4⟩, rfl⟩
  · rintro ⟨g, rfl⟩
    refine (isGrouped_cons_iff (List.cons_ne_nil _ _)).2 ⟨_, _, g.isFirst, ?_, rfl⟩
    refine (isGrouped_cons_iff (List.cons_ne_nil _ _)).2 ⟨_, _, g.isSecond, ?_, rfl⟩
    refine (isGrouped_cons_iff (List.cons_ne_nil _ _)).2 ⟨_, _, g.isThird, ?_, rfl⟩
    refine (isGrouped_cons_iff (List.cons_ne_nil _ _)).2 ⟨_, _, g.isFourth, ?_, rfl⟩
    exact isGrouped_single_iff.2 g.isFifth

/-- A text is a number in braces exactly if it is groups of digits between braces. -/
theorem isBraced_iff {text : List Char} :
    isBraced text = true ↔ ∃ g : Groups digits, text = '\x7b' :: (g.text ++ ['\x7d']) := by
  constructor
  · intro h
    unfold isBraced at h
    split at h
    · next rest =>
      rw [Bool.and_eq_true, beq_iff_eq] at h
      obtain ⟨hlast, hinner⟩ := h
      obtain ⟨inner, rfl⟩ := List.getLast?_eq_some_iff.1 hlast
      rw [List.dropLast_concat] at hinner
      obtain ⟨g, rfl⟩ := isHyphenated_iff.1 hinner
      exact ⟨g, rfl⟩
    · exact absurd h Bool.false_ne_true
  · rintro ⟨g, rfl⟩
    have hinner : isHyphenated g.text = true := isHyphenated_iff.2 ⟨g, rfl⟩
    rw [isBraced, List.getLast?_concat, List.dropLast_concat, hinner]
    rfl

/-- A text is a resource name exactly if it is groups of digits behind a marker. -/
theorem isResourceName_iff {text : List Char} :
    isResourceName text = true ↔
      ∃ marker, ∃ g : Groups digits, IsMarker marker ∧ text = marker ++ g.text := by
  unfold isResourceName
  rw [Bool.and_eq_true, beq_iff_eq, isHyphenated_iff]
  constructor
  · rintro ⟨hmarker, g, hg⟩
    exact ⟨text.take resourceName.length, g, hmarker, by rw [← hg, List.take_append_drop]⟩
  · rintro ⟨marker, g, hmarker, rfl⟩
    have hlength : marker.length = resourceName.length := by
      have hmap := congrArg List.length hmarker
      rwa [List.length_map] at hmap
    rw [List.take_left' hlength, List.drop_left' hlength]
    exact ⟨hmarker, g, rfl⟩

/-- What is well formed is of one of the four forms. -/
theorem isWellFormed_iff {text : String} :
    isWellFormed text = true ↔ IsForm IsMarker text.toList := by
  unfold isWellFormed isCompact
  rw [Bool.or_eq_true, Bool.or_eq_true, Bool.or_eq_true, isGrouped_single_iff, isHyphenated_iff,
    isBraced_iff, isResourceName_iff]
  constructor
  · rintro (((h | ⟨g, h⟩) | ⟨g, h⟩) | ⟨marker, g, hmarker, h⟩)
    · exact .compact h
    · exact .hyphenated g h
    · exact .braced g h
    · exact .named marker g hmarker h
  · rintro (h | ⟨g, h⟩ | ⟨g, h⟩ | ⟨marker, g, hmarker, h⟩)
    · exact Or.inl (Or.inl (Or.inl h))
    · exact Or.inl (Or.inl (Or.inr ⟨g, h⟩))
    · exact Or.inl (Or.inr ⟨g, h⟩)
    · exact Or.inr ⟨marker, g, hmarker, h⟩

/-! ## Fresh ids -/

/-- Bytes are written in digits of lower case, two for each. -/
theorem isDigits_hex {bytes : List UInt8} {size : Nat} (hsize : 2 * bytes.length = size) :
    IsDigits lowerDigits size (hex bytes) := by
  have hdigit : ∀ n : Fin 16, Ascii.hexDigit n ∈ lowerDigits := by decide
  refine ⟨(length_hex bytes).trans hsize, fun c hc => ?_⟩
  obtain ⟨b, _, hc⟩ := List.mem_flatMap.1 hc
  have hb : b.toNat < 256 := b.toNat_lt
  unfold Ascii.hexPair at hc
  rw [List.mem_cons, List.mem_singleton] at hc
  rcases hc with rfl | rfl
  · exact hdigit ⟨b.toNat / 16, by omega⟩
  · exact hdigit ⟨b.toNat % 16, by omega⟩

/-- The groups of digits that sixteen bytes are written in. -/
def groups (octets : Octets) : Groups lowerDigits where
  first := hex (octets.toList.take 4)
  second := hex ((octets.toList.drop 4).take 2)
  third := hex ((octets.toList.drop 6).take 2)
  fourth := hex ((octets.toList.drop 8).take 2)
  fifth := hex (octets.toList.drop 10)
  isFirst := isDigits_hex (by simp)
  isSecond := isDigits_hex (by simp)
  isThird := isDigits_hex (by simp)
  isFourth := isDigits_hex (by simp)
  isFifth := isDigits_hex (by simp)

/-- The text of octets consists of their groups. -/
theorem toList_text (octets : Octets) : (text octets).toList = (groups octets).text := by
  simp [text, groups, Groups.text]

/-- The groups hold the digits of the bytes, in order. -/
theorem digits_groups (octets : Octets) : (groups octets).digits = hex octets.toList := by
  have happend (as bs : List UInt8) : hex as ++ hex bs = hex (as ++ bs) := by
    unfold hex
    rw [List.flatMap_append]
  have hsplit (m n : Nat) (bytes : List UInt8) :
      (bytes.drop m).take n ++ bytes.drop (m + n) = bytes.drop m := by
    rw [← List.drop_drop, List.take_append_drop]
  simp only [Groups.digits, groups, happend]
  rw [hsplit 8 2, hsplit 6 2, hsplit 4 2, List.take_append_drop]

set_option maxRecDepth 8192 in
/-- A byte with the version in it is written with a digit that says so. -/
theorem hexDigit_version (b : UInt8) :
    Ascii.hexDigit ((b &&& 0x0f ||| 0x40).toNat / 16) = '4' := by
  have hall : ∀ n : Fin 256,
      Ascii.hexDigit ((UInt8.ofNat n &&& 0x0f ||| 0x40).toNat / 16) = '4' := by decide
  have hb := hall ⟨b.toNat, b.toNat_lt⟩
  rwa [UInt8.ofNat_toNat] at hb

set_option maxRecDepth 8192 in
/-- A byte with the variant in it is written with one of four digits. -/
theorem hexDigit_variant (b : UInt8) :
    Ascii.hexDigit ((b &&& 0x3f ||| 0x80).toNat / 16) ∈ ['8', '9', 'a', 'b'] := by
  have hall : ∀ n : Fin 256,
      Ascii.hexDigit ((UInt8.ofNat n &&& 0x3f ||| 0x80).toNat / 16) ∈ ['8', '9', 'a', 'b'] := by
    decide
  have hb := hall ⟨b.toNat, b.toNat_lt⟩
  rwa [UInt8.ofNat_toNat] at hb

/-- The third group of a fresh id begins with its version, the fourth one with its variant. -/
theorem head_groups_random (octets : Octets) :
    (groups (random octets)).third.head? = some '4' ∧
      ∃ c ∈ ['8', '9', 'a', 'b'], (groups (random octets)).fourth.head? = some c := by
  have hthird : (random octets).toList.drop 6 =
      (octets[6] &&& 0x0f ||| 0x40) :: (random octets).toList.drop 7 := by
    rw [List.drop_eq_getElem_cons (by simp)]
    simp [random]
  have hfourth : (random octets).toList.drop 8 =
      (octets[8] &&& 0x3f ||| 0x80) :: (random octets).toList.drop 9 := by
    rw [List.drop_eq_getElem_cons (by simp)]
    simp [random]
  constructor
  · simp only [groups, hthird, hex, List.take_succ_cons, List.flatMap_cons, Ascii.hexPair,
      List.cons_append, List.head?_cons, hexDigit_version]
  · refine ⟨_, hexDigit_variant octets[8], ?_⟩
    simp only [groups, hfourth, hex, List.take_succ_cons, List.flatMap_cons, Ascii.hexPair,
      List.cons_append, List.head?_cons]

end Uuid

/-! ## Ids -/

namespace ConversationId

open Uuid

/-- A text of one of the forms is taken as an id. -/
theorem parse_of_isForm {text : String} (h : IsForm IsMarker text.toList) :
    parse Scheme.uuid text = .ok ⟨text⟩ :=
  if_pos (isWellFormed_iff.2 h)

/-- A text of none of the forms is refused. -/
theorem parse_of_not_isForm {text : String} (h : ¬ IsForm IsMarker text.toList) :
    parse Scheme.uuid text = .error (.malformedConversationId text) :=
  if_neg fun hwell => h (isWellFormed_iff.1 hwell)

/-- Exactly the four forms are ids, which are kept as they were written, and any other text is
refused as it is. The digits of fresh bytes in lower case, in groups, are one of the four. -/
theorem parse_forms :
    (∀ (text : String) (id : ConversationId),
      parse Scheme.uuid text = .ok id ↔ IsForm IsMarker text.toList ∧ id.text = text) ∧
    (∀ (text : String) (v : Violation),
      parse Scheme.uuid text = .error v ↔
        ¬ IsForm IsMarker text.toList ∧ v = .malformedConversationId text) ∧
    ∀ source : Entropy, ∃ g : Groups lowerDigits,
      (Scheme.uuid.generate source).1.toList = g.text ∧
        g.digits = hex (random (source.draw source.drawn)).toList ∧
        g.third.head? = some '4' ∧ (∃ c ∈ ['8', '9', 'a', 'b'], g.fourth.head? = some c) ∧
        parse Scheme.uuid (Scheme.uuid.generate source).1 =
          .ok ⟨(Scheme.uuid.generate source).1⟩ := by
  refine ⟨fun text id => ?_, fun text v => ?_, fun source => ?_⟩
  · by_cases h : IsForm IsMarker text.toList
    · rw [parse_of_isForm h, Except.ok.injEq]
      constructor
      · rintro rfl
        exact ⟨h, rfl⟩
      · rintro ⟨_, rfl⟩
        rfl
    · rw [parse_of_not_isForm h]
      exact ⟨fun herror => absurd herror (by simp), fun hform => absurd hform.1 h⟩
  · by_cases h : IsForm IsMarker text.toList
    · rw [parse_of_isForm h]
      exact ⟨fun hok => absurd hok (by simp), fun hform => absurd h hform.1⟩
    · rw [parse_of_not_isForm h, Except.error.injEq]
      constructor
      · rintro rfl
        exact ⟨h, rfl⟩
      · rintro ⟨_, rfl⟩
        rfl
  · have hfresh : (Scheme.uuid.generate source).1 = Uuid.text (random (source.draw source.drawn)) :=
      rfl
    obtain ⟨hversion, hvariant⟩ := head_groups_random (source.draw source.drawn)
    rw [hfresh]
    exact ⟨groups (random (source.draw source.drawn)), toList_text _, digits_groups _, hversion,
      hvariant, parse_of_isForm (isWellFormed_iff.1 (isWellFormed_text _))⟩

/-- A marker in capital letters is a marker too: the last form is not one of small letters only. -/
theorem parse_capital_marker :
    parse Scheme.uuid "URN:UUID:123e4567-e89b-12d3-a456-426614174000" =
        .ok ⟨"URN:UUID:123e4567-e89b-12d3-a456-426614174000"⟩ ∧
      ¬ IsForm (fun marker => marker = "urn:uuid:".toList)
        "URN:UUID:123e4567-e89b-12d3-a456-426614174000".toList := by
  refine ⟨by decide +kernel, fun h => ?_⟩
  rcases h with h | ⟨g, h⟩ | ⟨g, h⟩ | ⟨marker, g, rfl, h⟩
  · exact absurd h.length_eq (by decide)
  · have hlength := congrArg List.length h
    rw [g.length_text] at hlength
    exact absurd hlength (by decide)
  · exact absurd (List.cons.inj h).1 (by decide)
  · exact absurd (List.cons.inj h).1 (by decide)

end ConversationId

end Colloquy
