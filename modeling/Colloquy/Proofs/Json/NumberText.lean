import Colloquy.Proofs.Json.Containers

/-!
# The texts of numbers

A number as the grammar of JSON has it: perhaps a sign, digits of which the first of several is not
zero, perhaps a point with digits, perhaps a power of ten with a sign and digits; there may be any
number of digits. `NumberText.number?` is what such a text is read as, none if it lies beyond the
range of double precision, and that is what the reader delivers: it takes the text to its end
(`readsBack_numeral`), or refuses the number as out of range and for no other reason
(`refuses_numeral`).
-/

set_option autoImplicit false

namespace Colloquy

open Json

namespace Json

/-- Some decimal digits, one at least. -/
structure Digits where
  bytes : Bytes
  ne_nil : bytes ≠ []
  isDigit : ∀ b ∈ bytes, Ascii.isDigit b = true

/-- The power of ten behind a number. -/
structure PowerText where
  mark : UInt8
  isMark : isExponentMark mark = true
  /-- The sign, if one is written; true for minus. -/
  sign : Option Bool
  digits : Digits

/-- The text of a number. -/
structure NumberText where
  negative : Bool
  /-- The digits in front of the point. -/
  whole : Digits
  /-- Zero is the only one that begins with a zero. -/
  head_ne_zero : whole.bytes.head? = some 0x30 → whole.bytes = [0x30]
  /-- The digits behind the point. -/
  fraction : Option Digits
  power : Option PowerText

/-- The decimal digits of a natural number. -/
def Digits.ofNat (n : Nat) : Digits where
  bytes := decimal n
  ne_nil := by
    obtain ⟨d, tail, hdecimal, _⟩ := decimal_cons n
    exact hdecimal ▸ List.cons_ne_nil d tail
  isDigit := by
    obtain ⟨d, tail, hdecimal, hdigit, htail, _⟩ := decimal_cons n
    exact hdecimal ▸ List.forall_mem_cons.2 ⟨hdigit, htail⟩

/-- The text of a natural number. -/
def NumberText.ofNat (n : Nat) : NumberText where
  negative := false
  whole := Digits.ofNat n
  head_ne_zero := by
    obtain ⟨d, tail, hdecimal, _, _, hzero⟩ := decimal_cons n
    show (decimal n).head? = some 0x30 → decimal n = [0x30]
    rw [hdecimal]
    intro hhead
    obtain rfl : d = 0x30 := Option.some.inj hhead
    rw [(hzero rfl).2]
  fraction := none
  power := none

namespace PowerText

/-- Whether the power is the inverse of a power of ten. -/
def isDown (p : PowerText) : Bool :=
  p.sign = some true

/-- The sign as it is written. -/
def signBytes (p : PowerText) : Bytes :=
  match p.sign with
  | none => []
  | some true => [Ascii.minus]
  | some false => [Ascii.plus]

/-- The power as it is written. -/
def text (p : PowerText) : Bytes :=
  p.mark :: (p.signBytes ++ p.digits.bytes)

/-- What a significand times the power is read as. -/
def number? (p : PowerText) (negative : Bool) (sig : Significand) : Option Number :=
  match exponentDigits 0 p.digits.bytes [] with
  | .value n => (shiftExponent sig p.isDown n).toBinary64?.map (signed negative)
  | .beyond _ =>
    if sig.digits ≠ 0 ∧ p.isDown = false then none
    else some (signed negative (Binary64.ofMagnitude 0))

end PowerText

/-- The point and the digits behind it as they are written, if there are any. -/
def writtenFraction : Option Digits → Bytes
  | none => []
  | some digits => Ascii.point :: digits.bytes

/-- The power as it is written, if there is one. -/
def writtenPower : Option PowerText → Bytes
  | none => []
  | some p => p.text

/-- What a significand with or without a power is read as. -/
def scaled? (power : Option PowerText) (negative : Bool) (sig : Significand) : Option Number :=
  match power with
  | none => sig.toBinary64?.map (signed negative)
  | some p => p.number? negative sig

/-- What digits alone are read as. -/
def plain? (negative : Bool) (sig : Significand) : Option Number :=
  if sig.exponent ≠ 0 then sig.toBinary64?.map (signed negative)
  else if negative = false then some (.integer (Int.ofNat sig.digits))
  else if sig.digits ≠ 0 ∧ sig.digits ≤ Nat.pow 2 63 then some (.integer (-Int.ofNat sig.digits))
  else sig.toBinary64?.map (signed negative)

namespace NumberText

variable (t : NumberText)

/-- What is written behind the sign. -/
def unsignedText : Bytes :=
  t.whole.bytes ++ (writtenFraction t.fraction ++ writtenPower t.power)

/-- The number as it is written. -/
def text : Bytes :=
  (if t.negative then [Ascii.minus] else []) ++ t.unsignedText

/-- The significand, of as many digits as fit. -/
def significand : Significand :=
  match t.fraction with
  | none => .takeWhole t.whole.bytes
  | some digits => (Significand.takeWhole t.whole.bytes).takeFraction digits.bytes

/-- What the text is read as; none beyond the range of double precision. -/
def number? : Option Number :=
  match t.fraction, t.power with
  | none, none => plain? t.negative t.significand
  | _, power => scaled? power t.negative t.significand

/-- A natural number is written with its decimal digits. -/
theorem text_ofNat (n : Nat) : (NumberText.ofNat n).text = decimal n := by
  show [] ++ (decimal n ++ ([] ++ [])) = _
  rw [List.nil_append, List.append_nil, List.append_nil]

end NumberText

/-! ## Reading -/

/-- What reading a number comes to: the number and what follows it, or the refusal of one that is
out of range. -/
inductive Delivers {bound : Nat} (rest : Bytes) :
    (number? : Option Number) → Except Failure (Scanned Number bound) → Prop
  | read {number : Number} (h : rest.length < bound) :
    Delivers rest (some number) (.ok ⟨number, rest, h⟩)
  | refused (rest' : Bytes) : Delivers rest none (.error (.before .numberOutOfRange rest'))

/-- A number is delivered unless it is infinite. -/
theorem delivers_finishReal {bound : Nat} (negative : Bool) (sig : Significand) {rest : Bytes}
    (h : rest.length < bound) :
    Delivers rest (sig.toBinary64?.map (signed negative))
      (finishReal bound negative sig rest h) := by
  unfold finishReal
  cases sig.toBinary64? with
  | none => exact .refused rest
  | some x => exact .read h

/-- Digits are followed by what is no digit. -/
theorem leadingDigits_of_head {digits rest : Bytes} (hdigits : ∀ b ∈ digits, Ascii.isDigit b = true)
    (hrest : ∀ b ∈ rest.head?, Ascii.isDigit b = false) :
    leadingDigits (digits ++ rest) = digits ∧ afterDigits (digits ++ rest) = rest := by
  unfold leadingDigits afterDigits
  rw [List.takeWhile_append_of_pos hdigits, List.dropWhile_append_of_pos hdigits]
  cases rest with
  | nil => exact ⟨List.append_nil digits, rfl⟩
  | cons b rest =>
    have hb := hrest b rfl
    rw [List.takeWhile_cons_of_neg (by simp [hb]), List.dropWhile_cons_of_neg (by simp [hb]),
      List.append_nil]
    exact ⟨rfl, rfl⟩

/-- Digits begin with a digit, behind which there are only digits. -/
theorem Digits.exists_cons (digits : Digits) :
    ∃ d tail, digits.bytes = d :: tail ∧ Ascii.isDigit d = true ∧
      ∀ b ∈ tail, Ascii.isDigit b = true := by
  obtain ⟨bytes, hne, hdigits⟩ := digits
  cases bytes with
  | nil => exact absurd rfl hne
  | cons d tail =>
    exact ⟨d, tail, rfl, hdigits d List.mem_cons_self,
      fun b hb => hdigits b (List.mem_cons_of_mem d hb)⟩

/-- A digit begins a number. -/
theorem startsNumeral_of_isDigit {b : UInt8} (hb : Ascii.isDigit b = true) :
    startsNumeral b = true := by
  unfold startsNumeral
  rw [hb, Bool.or_true]

/-- No number begins with a blank, with a bracket that closes or as `null` does. -/
theorem not_blank_of_startsNumeral {b : UInt8} (hb : startsNumeral b = true) :
    isBlank b = false ∧ b ≠ Ascii.closeBracket ∧ b ≠ 0x6e := by
  refine ⟨?_, ?_, ?_⟩
  · rw [Bool.eq_false_iff]
    intro hblank
    simp only [isBlank, Bool.or_eq_true, decide_eq_true_eq] at hblank
    rcases hblank with ((rfl | rfl) | rfl) | rfl <;> exact absurd hb (by decide)
  · rintro rfl
    exact absurd hb (by decide)
  · rintro rfl
    exact absurd hb (by decide)

/-- No digit follows a zero in front of the point. -/
theorem NumberText.no_leading_zero (t : NumberText) {d : UInt8} {tail : Bytes}
    (hbytes : t.whole.bytes = d :: tail) : ¬(d = 0x30 ∧ tail ≠ []) := by
  rintro ⟨rfl, hne⟩
  have hzero := t.head_ne_zero (by rw [hbytes]; rfl)
  rw [hbytes] at hzero
  exact hne (List.cons.inj hzero).2

/-- What stands behind the sign begins with the first digit. -/
theorem NumberText.unsignedText_append (t : NumberText) {d : UInt8} {tail : Bytes}
    (hbytes : t.whole.bytes = d :: tail) (rest : Bytes) :
    t.unsignedText ++ rest =
      d :: (tail ++ (writtenFraction t.fraction ++ (writtenPower t.power ++ rest))) := by
  unfold unsignedText
  simp only [hbytes, List.cons_append, List.append_assoc]

/-- A number begins with its sign or with a digit. -/
theorem NumberText.exists_cons (t : NumberText) :
    ∃ b tail, t.text = b :: tail ∧ startsNumeral b = true := by
  obtain ⟨d, tail, hbytes, hdigit, _⟩ := t.whole.exists_cons
  unfold NumberText.text NumberText.unsignedText
  cases t.negative with
  | true => exact ⟨Ascii.minus, _, rfl, by decide⟩
  | false =>
    rw [hbytes]
    exact ⟨d, _, rfl, startsNumeral_of_isDigit hdigit⟩

/-- What follows an exponent matters only to where a refusal is reported. -/
theorem exponentDigits_append (n : Nat) (digits rest : Bytes) :
    exponentDigits n digits rest = match exponentDigits n digits [] with
      | .value k => .value k
      | .beyond left => .beyond (left ++ rest) := by
  induction digits generalizing n with
  | nil => rfl
  | cons d digits ih =>
    unfold exponentDigits
    split
    · exact ih _
    · rw [List.append_nil]

/-- The sign of a power is told from its digits. -/
theorem splitSign_text (p : PowerText) (rest : Bytes) :
    splitSign (p.signBytes ++ (p.digits.bytes ++ rest)) = (p.isDown, p.digits.bytes ++ rest) := by
  obtain ⟨mark, hmark, sign, digits⟩ := p
  match sign with
  | some true => rfl
  | some false => rfl
  | none =>
    obtain ⟨d, tail, hbytes, hdigit, _⟩ := digits.exists_cons
    show splitSign (digits.bytes ++ rest) = (false, digits.bytes ++ rest)
    rw [hbytes, List.cons_append]
    unfold splitSign
    split
    · next heq =>
      obtain ⟨rfl, _⟩ := List.cons.inj heq
      exact absurd hdigit (by decide)
    · next heq =>
      obtain ⟨rfl, _⟩ := List.cons.inj heq
      exact absurd hdigit (by decide)
    · rfl

/-- A power is read behind its mark. -/
theorem delivers_readExponent {bound : Nat} (p : PowerText) (negative : Bool) (sig : Significand)
    {rest : Bytes} (hrest : Ends rest)
    (h : (p.signBytes ++ (p.digits.bytes ++ rest)).length < bound) :
    Delivers rest (p.number? negative sig)
      (readExponent bound negative sig (p.signBytes ++ (p.digits.bytes ++ rest)) h) := by
  obtain ⟨d, tail, hbytes, hdigit, _⟩ := p.digits.exists_cons
  obtain ⟨hleading, hafter⟩ :=
    leadingDigits_of_head p.digits.isDigit fun b hb => (hrest b hb).1
  have hsplit := splitSign_text p rest
  have hlength : rest.length < bound := by
    have hle := length_afterDigits_le (p.digits.bytes ++ rest)
    rw [hafter] at hle
    simp only [List.length_append] at h
    omega
  have hread : readExponent bound negative sig (p.signBytes ++ (p.digits.bytes ++ rest)) h =
      match exponentDigits 0 p.digits.bytes rest with
      | .value n => finishReal bound negative (shiftExponent sig p.isDown n) rest hlength
      | .beyond rest' =>
        if sig.digits ≠ 0 ∧ p.isDown = false then .error (.before .numberOutOfRange rest')
        else .ok ⟨signed negative (Binary64.ofMagnitude 0), rest, hlength⟩ := by
    unfold readExponent
    simp only [hsplit, hafter]
    split
    · next heq =>
      rw [hbytes] at heq
      cases heq
    · next heq =>
      rw [hbytes, List.cons_append] at heq
      obtain ⟨rfl, rfl⟩ := List.cons.inj heq
      rw [hbytes, List.cons_append] at hleading
      generalize leadingDigits (d :: (tail ++ rest)) = digits at hleading
      subst hleading
      rw [← hbytes]
      exact if_pos hdigit
  rw [hread, exponentDigits_append]
  unfold PowerText.number?
  cases exponentDigits 0 p.digits.bytes [] with
  | value n => exact delivers_finishReal negative _ hlength
  | beyond left =>
    show Delivers rest (if _ then _ else _) (if _ then _ else _)
    split
    · exact .refused _
    · exact .read hlength

/-- What follows the digits of a number does not go on with them. -/
theorem head_writtenPower (power : Option PowerText) {rest : Bytes} (hrest : Ends rest) :
    ∀ b ∈ (writtenPower power ++ rest).head?, Ascii.isDigit b = false := by
  intro b hb
  cases power with
  | none => exact (hrest b hb).1
  | some p =>
    obtain rfl := Option.some.inj hb
    have hmark := p.isMark
    unfold isExponentMark at hmark
    rw [Bool.or_eq_true, decide_eq_true_iff, decide_eq_true_iff] at hmark
    rcases hmark with hmark | hmark <;> rw [hmark] <;> decide

/-- What follows the digits in front of the point does not go on with them. -/
theorem head_writtenFraction (fraction : Option Digits) (power : Option PowerText) {rest : Bytes}
    (hrest : Ends rest) :
    ∀ b ∈ (writtenFraction fraction ++ (writtenPower power ++ rest)).head?,
      Ascii.isDigit b = false := by
  intro b hb
  cases fraction with
  | none => exact head_writtenPower power hrest b hb
  | some digits =>
    obtain rfl := Option.some.inj hb
    decide

variable {bound : Nat} {rest : Bytes} (hrest : Ends rest)

include hrest

/-- A number is ended behind its fraction, or goes on with a power. -/
theorem delivers_afterFraction (power : Option PowerText) (negative : Bool) (sig : Significand)
    (h : (writtenPower power ++ rest).length < bound) :
    Delivers rest (scaled? power negative sig)
      (afterFraction bound negative sig (writtenPower power ++ rest) h) := by
  cases power with
  | none =>
    cases rest with
    | nil => exact delivers_finishReal negative sig h
    | cons b rest =>
      show Delivers (b :: rest) _ (afterFraction bound negative sig (b :: rest) h)
      unfold afterFraction
      simp only [(hrest b rfl).2.2, Bool.false_eq_true, if_false]
      exact delivers_finishReal negative sig h
  | some p =>
    simp only [writtenPower, PowerText.text, List.cons_append, List.append_assoc] at h ⊢
    unfold afterFraction
    simp only [p.isMark, if_true]
    exact delivers_readExponent p negative sig hrest _

/-- A fraction is read behind its point. -/
theorem delivers_readFraction (digits : Digits) (power : Option PowerText) (negative : Bool)
    (sig : Significand) (h : (digits.bytes ++ (writtenPower power ++ rest)).length < bound) :
    Delivers rest (scaled? power negative (sig.takeFraction digits.bytes))
      (readFraction bound negative sig (digits.bytes ++ (writtenPower power ++ rest)) h) := by
  obtain ⟨d, tail, hbytes, hdigit, _⟩ := digits.exists_cons
  obtain ⟨hleading, hafter⟩ :=
    leadingDigits_of_head digits.isDigit (head_writtenPower power hrest)
  have hlength : (writtenPower power ++ rest).length < bound := by
    rw [List.length_append] at h
    omega
  have hread : readFraction bound negative sig (digits.bytes ++ (writtenPower power ++ rest)) h =
      afterFraction bound negative (sig.takeFraction digits.bytes) (writtenPower power ++ rest)
        hlength := by
    unfold readFraction
    split
    · next hs _ =>
      rw [hbytes] at hs
      cases hs
    · next hs _ =>
      rw [hbytes, List.cons_append] at hs
      obtain ⟨rfl, rfl⟩ := List.cons.inj hs
      simp only [if_pos hdigit, ← List.cons_append, ← hbytes, hleading, hafter]
  rw [hread]
  exact delivers_afterFraction hrest power negative _ hlength

/-- A number is ended behind the digits in front of the point, or goes on. -/
theorem delivers_afterWhole (t : NumberText)
    (h : (writtenFraction t.fraction ++ (writtenPower t.power ++ rest)).length < bound) :
    Delivers rest t.number?
      (afterWhole bound t.negative (.takeWhole t.whole.bytes)
        (writtenFraction t.fraction ++ (writtenPower t.power ++ rest)) h) := by
  obtain ⟨negative, whole, hhead, fraction, power⟩ := t
  match fraction, power with
  | some digits, power =>
    show Delivers rest (scaled? power negative _) _
    exact delivers_readFraction hrest digits power negative _ (lt_of_cons_lt h)
  | none, some p =>
    have hpoint : p.mark ≠ Ascii.point := by
      intro heq
      exact absurd (heq ▸ p.isMark) (by decide)
    show Delivers rest (scaled? (some p) negative (.takeWhole whole.bytes)) _
    simp only [writtenFraction, writtenPower, PowerText.text, List.cons_append, List.append_assoc,
      List.nil_append] at h ⊢
    unfold afterWhole
    simp only [if_neg hpoint, p.isMark, if_true]
    exact delivers_readExponent p negative _ hrest _
  | none, none =>
    show Delivers rest (plain? negative (.takeWhole whole.bytes))
      (afterWhole bound negative (.takeWhole whole.bytes) rest h)
    have hplain : afterWhole bound negative (.takeWhole whole.bytes) rest h =
        plainNumber bound negative (.takeWhole whole.bytes) rest h := by
      cases rest with
      | nil => rfl
      | cons b rest =>
        obtain ⟨_, hpoint, hmark⟩ := hrest b rfl
        unfold afterWhole
        simp only [if_neg hpoint, hmark, Bool.false_eq_true, if_false]
    rw [hplain]
    unfold plainNumber plain?
    split
    · exact delivers_finishReal negative _ h
    · split
      · exact .read h
      · split
        · exact .read h
        · exact delivers_finishReal negative _ h

/-- A number is read behind its sign. -/
theorem delivers_readUnsigned (t : NumberText) (h : (t.unsignedText ++ rest).length ≤ bound) :
    Delivers rest t.number? (readUnsigned bound t.negative (t.unsignedText ++ rest) h) := by
  obtain ⟨d, tail, hbytes, hdigit, htail⟩ := t.whole.exists_cons
  obtain ⟨hleading, hafter⟩ :=
    leadingDigits_of_head htail (head_writtenFraction t.fraction t.power hrest)
  have hlead := t.no_leading_zero hbytes
  have htext := t.unsignedText_append hbytes rest
  have hlength : (writtenFraction t.fraction ++ (writtenPower t.power ++ rest)).length < bound := by
    rw [htext, List.length_cons, List.length_append] at h
    omega
  have hread : readUnsigned bound t.negative (t.unsignedText ++ rest) h =
      afterWhole bound t.negative (.takeWhole t.whole.bytes)
        (writtenFraction t.fraction ++ (writtenPower t.power ++ rest)) hlength := by
    unfold readUnsigned
    split
    · next hs _ =>
      rw [htext] at hs
      cases hs
    · next hs _ =>
      rw [htext] at hs
      obtain ⟨rfl, rfl⟩ := List.cons.inj hs
      simp only [if_pos hdigit, hleading, hafter, if_neg hlead, ← hbytes]
  rw [hread]
  exact delivers_afterWhole hrest t hlength

/-- What the reader of numbers comes to. -/
theorem delivers_readNumeral (t : NumberText) :
    Delivers rest t.number? (readNumeral (t.text ++ rest)) := by
  cases hnegative : t.negative with
  | true =>
    have htext : t.text = Ascii.minus :: t.unsignedText := by
      unfold NumberText.text
      rw [hnegative]
      rfl
    have hunsigned := delivers_readUnsigned hrest t
      (Nat.le_succ (t.unsignedText ++ rest).length)
    rw [hnegative] at hunsigned
    rw [htext]
    exact hunsigned
  | false =>
    obtain ⟨d, tail, hbytes, hdigit, _⟩ := t.whole.exists_cons
    have hminus : d ≠ Ascii.minus := by
      rintro rfl
      exact absurd hdigit (by decide)
    have htext : t.text = t.unsignedText := by
      unfold NumberText.text
      rw [hnegative]
      rfl
    have hcons : ∃ behind, t.unsignedText ++ rest = d :: behind := by
      unfold NumberText.unsignedText
      rw [hbytes, List.cons_append, List.cons_append]
      exact ⟨_, rfl⟩
    have hunsigned := delivers_readUnsigned hrest t (Nat.le_refl (t.unsignedText ++ rest).length)
    rw [hnegative] at hunsigned
    rw [htext]
    obtain ⟨behind, hcons⟩ := hcons
    rw [hcons] at hunsigned ⊢
    unfold readNumeral
    simp only [if_neg hminus]
    exact hunsigned

end Json

/-! ## What is read -/

variable {t : NumberText}

/-- The text of a number that is in range is read to its end. -/
theorem readsBack_numeral {number : Number} (h : t.number? = some number) :
    ReadsBack readNumeral t.text number := by
  intro rest hrest
  have hdelivers := delivers_readNumeral hrest t
  rw [h] at hdelivers
  generalize hread : readNumeral (t.text ++ rest) = result at hdelivers
  cases hdelivers with
  | read hlength => exact ⟨hlength, hread⟩

/-- The decimal digits of a number that fits sixty-four bits are read as that number. -/
theorem readsBack_decimal {n : Nat} (hn : n ≤ maxWord) :
    ReadsBack readNumeral (decimal n) (.integer n) := by
  have hnumber : (NumberText.ofNat n).number? = some (.integer n) := by
    have htake := takeWhole_decimal hn
    show plain? false (Significand.takeWhole (decimal n)) = _
    rw [htake]
    rfl
  have hback := readsBack_numeral hnumber
  rwa [NumberText.text_ofNat] at hback

/-- The text of any other number is refused as out of range. -/
theorem refuses_numeral (h : t.number? = none) :
    Refuses readNumeral t.text .numberOutOfRange [] := by
  intro rest hrest
  have hdelivers := delivers_readNumeral hrest t
  rw [h] at hdelivers
  generalize readNumeral (t.text ++ rest) = result at hdelivers
  cases hdelivers with
  | refused rest' => exact ⟨rest'.length, rfl⟩

end Colloquy
