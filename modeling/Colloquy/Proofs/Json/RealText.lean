import Colloquy.Proofs.Binary64.ShortestDecimal
import Colloquy.Proofs.Json.NumberValue

/-!
# The texts of real numbers

A number of double precision is written with the digits of its shortest decimal, in full or with a
power of ten behind them. Either is a text of the grammar with the sign of the number and exactly
the value of the decimal, and not the text of an integer (`exists_realText`).
-/

set_option autoImplicit false

namespace Colloquy

open Json

namespace Json

/-! ## Characters that are digits -/

/-- Characters that are written as one byte each, which is a digit. -/
def AreAsciiDigits (cs : List Char) : Prop :=
  ∀ c ∈ cs, String.utf8EncodeChar c = [c.toUInt8] ∧ Ascii.isDigit c.toUInt8 = true

/-- The decimal digits of a natural number are digits. -/
theorem areAsciiDigits_toDigits (n : ℕ) : AreAsciiDigits (Nat.toDigits 10 n) := by
  have hdigit (n : ℕ) (hn : n < 10) : AreAsciiDigits [Nat.digitChar n] := by
    obtain ⟨hbyte, hencode, hdigit, _⟩ := digit_spec n hn
    intro c hc
    rw [List.mem_singleton.1 hc, hencode, hbyte]
    exact ⟨rfl, hdigit⟩
  induction n using Nat.strongRecOn with
  | _ n ih =>
    by_cases hn : n < 10
    · rw [Nat.toDigits_of_lt_base hn]
      exact hdigit n hn
    · rw [Nat.toDigits_of_base_le (by decide) (Nat.le_of_not_lt hn)]
      intro c hc
      rcases List.mem_append.1 hc with hc | hc
      · exact ih (n / 10) (by omega) c hc
      · exact hdigit (n % 10) (Nat.mod_lt n (by decide)) c hc

/-- Zeros are digits. -/
theorem areAsciiDigits_replicate (k : ℕ) : AreAsciiDigits (List.replicate k '0') := by
  intro c hc
  rw [(List.mem_replicate.1 hc).2]
  decide

namespace AreAsciiDigits

variable {cs others : List Char}

/-- Digits behind digits are digits. -/
theorem append (h : AreAsciiDigits cs) (hothers : AreAsciiDigits others) :
    AreAsciiDigits (cs ++ others) := by
  intro c hc
  rcases List.mem_append.1 hc with hc | hc
  · exact h c hc
  · exact hothers c hc

/-- The first digits of some are digits. -/
theorem take (h : AreAsciiDigits cs) (k : ℕ) : AreAsciiDigits (cs.take k) :=
  fun c hc => h c (List.mem_of_mem_take hc)

/-- The last digits of some are digits. -/
theorem drop (h : AreAsciiDigits cs) (k : ℕ) : AreAsciiDigits (cs.drop k) :=
  fun c hc => h c (List.mem_of_mem_drop hc)

/-- Digits are written byte by byte. -/
theorem encode_ofList (h : AreAsciiDigits cs) :
    Utf8.encode (String.ofList cs) = cs.map Char.toUInt8 := by
  rw [Utf8.encode_eq_flatMap, String.toList_ofList, List.map_eq_flatMap]
  exact List.flatMap_congr fun c hc => (h c hc).1

/-- Some digits as the grammar has them. -/
def digits (h : AreAsciiDigits cs) (hne : cs ≠ []) : Digits where
  bytes := cs.map Char.toUInt8
  ne_nil := fun hnil => hne (List.map_eq_nil_iff.1 hnil)
  isDigit := by
    intro b hb
    obtain ⟨c, hc, rfl⟩ := List.mem_map.1 hb
    exact (h c hc).2

end AreAsciiDigits

/-- The decimal digits of a number are worth the number. -/
theorem decimalValue_decimal (n : ℕ) : decimalValue (decimal n) = n := by
  induction n using Nat.strongRecOn with
  | _ n ih =>
    by_cases hn : n < 10
    · rw [decimal_of_lt_ten hn]
      exact (Nat.zero_add _).trans (digit_spec n hn).2.2.2.1
    · rw [decimal_of_ten_le (Nat.le_of_not_lt hn), decimalValue_concat, ih (n / 10) (by omega),
        (digit_spec (n % 10) (Nat.mod_lt n (by decide))).2.2.2.1]
      omega

/-- Zeros are worth nothing. -/
theorem decimalValue_replicate (k : ℕ) : decimalValue (List.replicate k 0x30) = 0 := by
  induction k with
  | zero => rfl
  | succ k ih =>
    have hzero : Ascii.digitValue 0x30 = 0 := by decide
    rw [List.replicate_succ', decimalValue_concat, ih, hzero]

/-! ## Texts of decimals -/

/-- A text of the grammar stands for a sign and a value, and for no integer. -/
structure NumberText.StandsFor (t : NumberText) (negative : Bool) (value : ℚ) : Prop where
  negative : t.negative = negative
  magnitude : t.magnitude = value
  /-- Integers are written without a fraction and without a power. -/
  not_integer : t.fraction.isSome ∨ t.power.isSome

/-- The lower-case letter is a mark of a power. -/
theorem isExponentMark_lower : isExponentMark 0x65 = true := by
  decide

/-- A power of ten that is written with its sign. -/
def PowerText.ofInt (e : ℤ) : PowerText where
  mark := 0x65
  isMark := isExponentMark_lower
  sign := some (decide (e < 0))
  digits := Digits.ofNat e.natAbs

/-- The power is the one that is written. -/
theorem PowerText.exponent_ofInt (e : ℤ) : (PowerText.ofInt e).exponent = e := by
  have hvalue : decimalValue (PowerText.ofInt e).digits.bytes = e.natAbs :=
    decimalValue_decimal e.natAbs
  have hdown : (PowerText.ofInt e).isDown = decide (e < 0) := by
    unfold PowerText.isDown PowerText.ofInt
    cases decide (e < 0) <;> rfl
  unfold PowerText.exponent
  rw [hvalue, hdown]
  split
  · next hnegative =>
    rw [decide_eq_true_eq] at hnegative
    omega
  · next hpositive =>
    rw [decide_eq_true_eq] at hpositive
    omega

/-- A power is written with a mark, its sign and its digits. -/
theorem PowerText.text_ofInt (e : ℤ) : (PowerText.ofInt e).text =
    Utf8.encode ("e" ++ (if 0 ≤ e then "+" else "-") ++ toString e.natAbs) := by
  have hmark : Utf8.encode "e" = [0x65] := by decide
  have hplus : Utf8.encode "+" = [Ascii.plus] := by decide
  have hminus : Utf8.encode "-" = [Ascii.minus] := by decide
  rw [Utf8.encode_append, Utf8.encode_append, encode_toString, hmark]
  unfold PowerText.text PowerText.ofInt PowerText.signBytes
  by_cases he : 0 ≤ e
  · rw [if_pos he, hplus, decide_eq_false (Int.not_lt.2 he)]
    rfl
  · rw [if_neg he, hminus, decide_eq_true (Int.not_le.1 he)]
    rfl

/-- A text without a power and the same with a power behind it. -/
theorem NumberText.exists_scaled {t : NumberText} (hpower : t.power = none) (e : ℤ) :
    ∃ u : NumberText, u.unsignedText = t.unsignedText ++
        Utf8.encode ("e" ++ (if 0 ≤ e then "+" else "-") ++ toString e.natAbs) ∧
      u.StandsFor t.negative (t.magnitude * 10 ^ e) := by
  obtain ⟨negative, whole, hhead, fraction, power⟩ := t
  obtain rfl : power = none := hpower
  refine ⟨⟨negative, whole, hhead, fraction, some (.ofInt e)⟩, ?_, rfl, ?_, .inr rfl⟩
  · unfold NumberText.unsignedText writtenPower
    rw [← PowerText.text_ofInt, List.append_nil, List.append_assoc]
  · unfold NumberText.magnitude
    simp only [PowerText.exponent_ofInt]
    rfl

/-- Digits around a point are a text of the grammar. -/
theorem exists_pointText {whole fraction : List Char} (hwhole : AreAsciiDigits whole)
    (hfraction : AreAsciiDigits fraction) (hwhole_ne : whole ≠ []) (hfraction_ne : fraction ≠ [])
    (hhead : (whole.map Char.toUInt8).head? = some 0x30 → whole.map Char.toUInt8 = [0x30])
    (negative : Bool) :
    ∃ t : NumberText,
      t.unsignedText = Utf8.encode (String.ofList whole ++ "." ++ String.ofList fraction) ∧
      t.power = none ∧ t.StandsFor negative
        (decimalValue ((whole ++ fraction).map Char.toUInt8) * 10 ^ (-(fraction.length : ℤ))) := by
  have hpoint : Utf8.encode "." = [Ascii.point] := by decide
  refine ⟨⟨negative, hwhole.digits hwhole_ne, hhead, some (hfraction.digits hfraction_ne), none⟩,
    ?_, rfl, rfl, ?_, .inl rfl⟩
  · rw [Utf8.encode_append, Utf8.encode_append, hwhole.encode_ofList, hfraction.encode_ofList,
      hpoint, List.append_assoc]
    exact congrArg (whole.map Char.toUInt8 ++ Ascii.point :: ·) (List.append_nil _)
  · rw [List.map_append, ← List.length_map (f := Char.toUInt8)]
    rfl

end Json

namespace Decimal

variable {d : Decimal}

/-- The digits of a decimal as bytes. -/
theorem map_digitText (d : Decimal) : d.digitText.map Char.toUInt8 = decimal d.digits :=
  rfl

/-- There is a digit at least. -/
theorem digitText_ne_nil (d : Decimal) : d.digitText ≠ [] := by
  obtain ⟨first, tail, hdecimal, _⟩ := decimal_cons d.digits
  intro hnil
  have hbytes := d.map_digitText
  rw [hnil, hdecimal] at hbytes
  cases hbytes

/-- The first digit is no zero. -/
theorem head_decimal_ne_zero (hd : d.digits ≠ 0) : (decimal d.digits).head? ≠ some 0x30 := by
  obtain ⟨first, tail, hdecimal, _, _, hzero⟩ := decimal_cons d.digits
  rw [hdecimal]
  intro hhead
  exact hd (hzero (Option.some.inj hhead)).1

/-- Digits behind zeros are worth what they are worth alone. -/
theorem decimalValue_padded (d : Decimal) (k : ℕ) :
    decimalValue ((List.replicate k '0' ++ d.digitText).map Char.toUInt8) = d.digits := by
  have hzero : ('0' : Char).toUInt8 = 0x30 := by decide
  rw [List.map_append, List.map_replicate, hzero, map_digitText, decimalValue_append,
    decimalValue_replicate, Nat.zero_mul, Nat.zero_add, decimalValue_decimal]

/-- Zeros behind digits count powers of ten. -/
theorem decimalValue_shifted (d : Decimal) (k : ℕ) :
    decimalValue ((d.digitText ++ List.replicate k '0').map Char.toUInt8) =
      d.digits * 10 ^ k := by
  have hzero : ('0' : Char).toUInt8 = 0x30 := by decide
  rw [List.map_append, List.map_replicate, hzero, map_digitText, decimalValue_append,
    decimalValue_replicate, List.length_replicate, Nat.add_zero, decimalValue_decimal]

/-- A decimal that is a multiple of a power of ten, written out in full. -/
theorem exists_positional_whole (hd : d.digits = 0 → d.exponent = 0) (hexponent : 0 ≤ d.exponent)
    (negative : Bool) :
    ∃ t : NumberText, t.unsignedText = Utf8.encode (d.positional ".0") ∧
      t.StandsFor negative d.value := by
  have hdigits : AreAsciiDigits d.digitText := areAsciiDigits_toDigits d.digits
  obtain ⟨k, hk⟩ := Int.eq_ofNat_of_zero_le hexponent
  have hhead (h : ((d.digitText ++ List.replicate k '0').map Char.toUInt8).head? = some 0x30) :
      (d.digitText ++ List.replicate k '0').map Char.toUInt8 = [0x30] := by
    rw [List.map_append, map_digitText] at h ⊢
    have hzero : d.digits = 0 := by
      by_contra hne
      obtain ⟨first, tail, hdecimal, _⟩ := decimal_cons d.digits
      refine head_decimal_ne_zero hne ?_
      rw [hdecimal] at h ⊢
      exact h
    obtain rfl : k = 0 := by
      have hnone := hd hzero
      omega
    rw [hzero]
    decide
  obtain ⟨t, htext, -, hstands⟩ := exists_pointText (hdigits.append (areAsciiDigits_replicate k))
    (areAsciiDigits_replicate 1) (List.append_ne_nil_of_left_ne_nil d.digitText_ne_nil _)
    (by decide) hhead negative
  refine ⟨t, ?_, ?_⟩
  · unfold positional
    rw [htext, if_pos hexponent, hk, String.append_assoc]
    rfl
  · have hvalue : (decimalValue ((d.digitText ++ List.replicate k '0' ++
        List.replicate 1 '0').map Char.toUInt8) : ℚ) * 10 ^ (-((List.replicate 1 '0').length : ℤ)) =
        d.value := by
      rw [List.append_assoc, List.replicate_append_replicate, decimalValue_shifted, value, hk,
        List.length_replicate, zpow_natCast]
      push_cast
      rw [pow_succ]
      ring
    exact hvalue ▸ hstands

/-- Digits behind zeros of which one at most is in front of the point: a zero in front of the point
is alone there. -/
theorem take_padded_eq_zero (hd : d.digits ≠ 0) (padding whole : ℕ)
    (hone : padding ≠ 0 → whole = 1)
    (hhead : (((List.replicate padding '0' ++ d.digitText).take whole).map
      Char.toUInt8).head? = some 0x30) :
    ((List.replicate padding '0' ++ d.digitText).take whole).map Char.toUInt8 = [0x30] := by
  cases padding with
  | zero =>
    refine absurd ?_ (head_decimal_ne_zero hd)
    obtain ⟨first, tail, hdecimal, _⟩ := decimal_cons d.digits
    rw [List.map_take, List.replicate_zero, List.nil_append, map_digitText, hdecimal] at hhead
    rw [hdecimal]
    cases whole with
    | zero => cases hhead
    | succ whole => exact hhead
  | succ padding =>
    rw [hone (Nat.succ_ne_zero padding)]
    rfl

/-- A decimal with a fraction, written out in full. -/
theorem exists_positional_fraction (hd : d.digits ≠ 0) (hexponent : ¬0 ≤ d.exponent)
    (negative : Bool) :
    ∃ t : NumberText, t.unsignedText = Utf8.encode (d.positional ".0") ∧
      t.StandsFor negative d.value := by
  unfold positional
  simp only [if_neg hexponent]
  generalize hpadding : (-d.exponent).toNat + 1 - d.digitText.length = padding
  have hlength : 0 < d.digitText.length := List.length_pos_iff.2 d.digitText_ne_nil
  have hpadded : AreAsciiDigits (List.replicate padding '0' ++ d.digitText) :=
    (areAsciiDigits_replicate padding).append (areAsciiDigits_toDigits d.digits)
  have hpadded_length : (List.replicate padding '0' ++ d.digitText).length =
      padding + d.digitText.length := by
    rw [List.length_append, List.length_replicate]
  have hvalue := decimalValue_padded d padding
  generalize hwhole :
    (List.replicate padding '0' ++ d.digitText).length - (-d.exponent).toNat = whole
  have hhead := take_padded_eq_zero hd padding whole (by omega)
  generalize List.replicate padding '0' ++ d.digitText = padded at *
  have htake : padded.take whole ≠ [] := by
    rw [Ne, ← List.length_eq_zero_iff, List.length_take]
    omega
  have hdrop : padded.drop whole ≠ [] := by
    rw [Ne, ← List.length_eq_zero_iff, List.length_drop]
    omega
  have hfraction : ((padded.drop whole).length : ℤ) = -d.exponent := by
    rw [List.length_drop]
    omega
  obtain ⟨t, htext, -, hstands⟩ := exists_pointText (hpadded.take whole) (hpadded.drop whole)
    htake hdrop hhead negative
  rw [List.take_append_drop, hvalue, hfraction, neg_neg] at hstands
  exact ⟨t, htext, hstands⟩

/-- The digits of a decimal with a point behind the first of several. -/
theorem exists_mantissa (d : Decimal) (negative : Bool) :
    ∃ t : NumberText, t.unsignedText = Utf8.encode (String.ofList (d.digitText.take 1) ++
        (if (d.digitText.drop 1).isEmpty then ""
          else "." ++ String.ofList (d.digitText.drop 1))) ∧
      t.power = none ∧ t.negative = negative ∧
      t.magnitude = d.digits * 10 ^ (-((d.digitText.drop 1).length : ℤ)) := by
  have hdigits : AreAsciiDigits d.digitText := areAsciiDigits_toDigits d.digits
  by_cases hrest : d.digitText.drop 1 = []
  · -- One digit is written as a natural number.
    have hsingle : d.digitText.take 1 = d.digitText := by
      rw [← List.append_nil (d.digitText.take 1), ← hrest, List.take_append_drop]
    let t : NumberText := { NumberText.ofNat d.digits with negative }
    refine ⟨t, ?_, rfl, rfl, ?_⟩
    · have htext : t.unsignedText = decimal d.digits := List.append_nil _
      rw [htext, hrest, hsingle, List.isEmpty_nil, if_pos rfl, String.append_empty,
        hdigits.encode_ofList, map_digitText]
    · have hmagnitude : t.magnitude =
          (decimalValue (decimal d.digits ++ []) : ℚ) * 10 ^ (-((0 : ℕ) : ℤ)) := rfl
      rw [hmagnitude, hrest, List.append_nil, decimalValue_decimal, List.length_nil]
  · have hfirst : d.digitText.take 1 ≠ [] := by
      have hlength := List.length_pos_iff.2 d.digitText_ne_nil
      rw [Ne, ← List.length_eq_zero_iff, List.length_take]
      omega
    have hhead (h : ((d.digitText.take 1).map Char.toUInt8).head? = some 0x30) :
        (d.digitText.take 1).map Char.toUInt8 = [0x30] := by
      obtain ⟨first, rest, hsplit⟩ := List.exists_cons_of_ne_nil d.digitText_ne_nil
      rw [hsplit] at h ⊢
      exact congrArg (fun b => [b]) (Option.some.inj h)
    obtain ⟨t, htext, hpower, hstands⟩ := exists_pointText (hdigits.take 1) (hdigits.drop 1)
      hfirst hrest hhead negative
    refine ⟨t, ?_, hpower, hstands.negative, ?_⟩
    · rw [htext, List.isEmpty_eq_false_iff.2 hrest, String.append_assoc]
      rfl
    · rw [hstands.magnitude, List.take_append_drop, map_digitText, decimalValue_decimal]

/-- A decimal written as a digit, perhaps a fraction, and a power of ten. -/
theorem exists_scientific (d : Decimal) (negative : Bool) :
    ∃ t : NumberText, t.unsignedText = Utf8.encode d.scientific ∧
      t.StandsFor negative d.value := by
  obtain ⟨mantissa, htext, hpower, rfl, hmagnitude⟩ := d.exists_mantissa negative
  obtain ⟨t, hscaled, hstands⟩ := NumberText.exists_scaled hpower d.leading
  have hvalue : mantissa.magnitude * 10 ^ d.leading = d.value := by
    have hlength := List.length_pos_iff.2 d.digitText_ne_nil
    have hexponent : -((d.digitText.drop 1).length : ℤ) + d.leading = d.exponent := by
      unfold leading
      rw [List.length_drop, Int.ofNat_eq_natCast]
      omega
    rw [hmagnitude, mul_assoc, ← zpow_add₀ (by norm_num), hexponent, value]
  rw [htext, ← Utf8.encode_append] at hscaled
  refine ⟨t, ?_, hvalue ▸ hstands⟩
  unfold scientific
  simpa only [String.append_assoc] using hscaled

end Decimal

/-- A number of double precision is written with its sign and with exactly the value of its
shortest decimal. -/
theorem Json.exists_realText (x : Binary64) :
    ∃ t : NumberText, t.text = Utf8.encode (Number.realText x) ∧
      t.StandsFor x.isNegative x.shortest.value := by
  have hzero (h : x.shortest.digits = 0) : x.shortest.exponent = 0 := by
    cases hx : x.isZero with
    | true =>
      unfold Binary64.shortest
      rw [hx]
      rfl
    | false => exact absurd h (Binary64.shortest_between hx).1
  have hunsigned : ∃ t : NumberText, t.unsignedText = Utf8.encode
      (if -5 ≤ x.shortest.leading ∧ x.shortest.leading ≤ 15 then x.shortest.positional ".0"
        else x.shortest.scientific) ∧ t.StandsFor x.isNegative x.shortest.value := by
    split
    · by_cases hexponent : 0 ≤ x.shortest.exponent
      · exact Decimal.exists_positional_whole hzero hexponent _
      · exact Decimal.exists_positional_fraction
          (fun hdigits => hexponent (hzero hdigits).ge) hexponent _
    · exact Decimal.exists_scientific _ _
  obtain ⟨t, htext, hstands⟩ := hunsigned
  refine ⟨t, ?_, hstands⟩
  have hsign : Utf8.encode (if x.isNegative then "-" else "") =
      if x.isNegative then [Ascii.minus] else [] := by
    cases x.isNegative <;> decide
  have hrealText : Number.realText x = (if x.isNegative then "-" else "") ++
      (if -5 ≤ x.shortest.leading ∧ x.shortest.leading ≤ 15 then x.shortest.positional ".0"
        else x.shortest.scientific) := by
    unfold Number.realText
    simp only
    split <;> rfl
  rw [hrealText, Utf8.encode_append, hsign, ← htext, ← hstands.negative]
  rfl

end Colloquy
