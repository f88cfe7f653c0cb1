import Colloquy.Proofs.Json.NumberValue

/-!
# The texts of integers

Digits of which the first of several is not zero are the decimal digits of their value
(`decimal_decimalValue`). So an integer has one text, which is that of its decimal digits behind a
minus if it is negative, and a number is read as an integer if it is written with that text and the
integer fits a word, and in no other case (`NumberText.number?_eq_integer_iff`): no fraction, no
power, no sign of zero and no digits beyond a word come out as an integer.
-/

set_option autoImplicit false

namespace Colloquy.Json

/-! ## Digits and their value -/

/-- A digit is the digit of its value. -/
theorem digit_digitValue {d : UInt8} (h : Ascii.isDigit d = true) :
    digit (Ascii.digitValue d) = d := by
  unfold Ascii.isDigit at h
  rw [Bool.and_eq_true, decide_eq_true_iff, decide_eq_true_iff, UInt8.le_iff_toNat_le] at h
  have hlow : 0x30 ≤ d.toNat := h.1
  unfold digit Ascii.digitValue
  rw [Nat.add_sub_cancel' hlow, UInt8.ofNat_toNat]

/-- Digits of which the first of several is not zero are those of their value. -/
theorem decimal_decimalValue {digits : Bytes} (hne : digits ≠ [])
    (hdigits : ∀ b ∈ digits, Ascii.isDigit b = true)
    (hhead : digits.head? = some 0x30 → digits = [0x30]) :
    decimal (decimalValue digits) = digits := by
  induction digits using List.reverseRecOn with
  | nil => exact absurd rfl hne
  | append_singleton digits d ih =>
    have hd := hdigits d (by simp)
    have hvalue := digitValue_lt hd
    rw [decimalValue_concat]
    by_cases hnil : digits = []
    · subst hnil
      have hzero : decimalValue [] = 0 := rfl
      rw [hzero, Nat.zero_mul, Nat.zero_add, decimal_of_lt_ten hvalue, digit_digitValue hd,
        List.nil_append]
    · -- The digits in front of the last one do not begin with zero, so their value is not zero.
      have hfront : digits.head? ≠ some 0x30 := by
        intro hzero
        have hall := hhead (by rw [List.head?_append_of_ne_nil _ hnil, hzero])
        have hlength := congrArg List.length hall
        rw [List.length_append, List.length_singleton, List.length_singleton] at hlength
        exact hnil (List.eq_nil_of_length_eq_zero (by omega))
      have hdecimal := ih hnil (fun b hb => hdigits b (List.mem_append_left _ hb))
        fun hzero => absurd hzero hfront
      have hpositive : decimalValue digits ≠ 0 := by
        intro hzero
        rw [hzero] at hdecimal
        exact hfront (hdecimal ▸ rfl)
      have hten : 10 ≤ decimalValue digits * 10 + Ascii.digitValue d := by omega
      have hfronts : (decimalValue digits * 10 + Ascii.digitValue d) / 10 =
          decimalValue digits := by omega
      have hlast : (decimalValue digits * 10 + Ascii.digitValue d) % 10 =
          Ascii.digitValue d := by omega
      rw [decimal_of_ten_le hten, hfronts, hlast, hdecimal, digit_digitValue hd]

/-- Digits that are taken in as a number without an exponent are the digits of that number. -/
theorem eq_decimal_of_takeWhole {t : NumberText} {n : ℕ}
    (h : Significand.takeWhole t.whole.bytes = ⟨n, 0⟩) : t.whole.bytes = decimal n := by
  obtain ⟨m, k, htake, _, hlow, hhigh, _⟩ := takeWhole_spec t.whole.isDigit
  obtain ⟨rfl, hexponent⟩ := Significand.mk.inj (htake.symm.trans h)
  obtain rfl : k = 0 := by omega
  rw [pow_zero, Nat.mul_one] at hlow hhigh
  have hvalue : decimalValue t.whole.bytes = m := by omega
  rw [← hvalue, decimal_decimalValue t.whole.ne_nil t.whole.isDigit t.head_ne_zero]

/-! ## Integers -/

/-- The text of an integer. -/
def NumberText.ofInt (n : ℤ) : NumberText :=
  { NumberText.ofNat n.natAbs with negative := decide (n < 0) }

/-- An integer is written with the digits of its magnitude, behind a minus if it is negative. -/
theorem NumberText.text_ofInt (n : ℤ) : (NumberText.ofInt n).text = Utf8.encode (toString n) := by
  have hdigits : (NumberText.ofInt n).text =
      (if decide (n < 0) then [Ascii.minus] else []) ++ decimal n.natAbs := by
    rw [← NumberText.text_ofNat]
    rfl
  rw [hdigits]
  cases n with
  | ofNat m =>
    have htext : toString (Int.ofNat m) = toString m := rfl
    rw [htext, encode_toString]
    rfl
  | negSucc m =>
    have htext : toString (Int.negSucc m) = "-" ++ toString (m + 1) := rfl
    have hminus : Utf8.encode "-" = [Ascii.minus] := by decide
    have hnegative : decide (Int.negSucc m < 0) = true := decide_eq_true (Int.negSucc_lt_zero m)
    rw [htext, Utf8.encode_append, encode_toString, hminus, hnegative]
    rfl

/-- The number that is delivered is the one that a text is read as. -/
theorem Delivers.eq_toOption {bound : ℕ} {rest : Bytes} {number? : Option Number}
    {result : Except Failure (Scanned Number bound)} (h : Delivers rest number? result) :
    number? = result.toOption.map Scanned.value := by
  cases h with
  | read _ => rfl
  | refused _ => rfl

/-- What a number is read as is determined by its text. -/
theorem NumberText.number?_congr {t u : NumberText} (h : t.text = u.text) :
    t.number? = u.number? := by
  have hends : Ends [] := nofun
  rw [(delivers_readNumeral hends t).eq_toOption, (delivers_readNumeral hends u).eq_toOption, h]

/-- The integers that fit sixty-four bits, with a sign or without. -/
def FitsWord (n : ℤ) : Prop :=
  -2 ^ 63 ≤ n ∧ n < 2 ^ 64

/-- An integer that fits a word is read from its text. -/
theorem NumberText.number?_ofInt {n : ℤ} (h : FitsWord n) :
    (NumberText.ofInt n).number? = some (.integer n) := by
  obtain ⟨hlow, hhigh⟩ := h
  have hword : n.natAbs ≤ maxWord := by
    rw [maxWord_eq]
    omega
  have htake := takeWhole_decimal hword
  have hplain : (NumberText.ofInt n).number? =
      plain? (decide (n < 0)) (Significand.takeWhole (decimal n.natAbs)) := rfl
  rw [hplain, htake]
  unfold plain?
  by_cases hnegative : n < 0
  · have hfits : n.natAbs ≠ 0 ∧ n.natAbs ≤ Nat.pow 2 63 := by
      have hpower : Nat.pow 2 63 = 9223372036854775808 := by decide
      omega
    have hvalue : -Int.ofNat n.natAbs = n := by
      rw [Int.ofNat_eq_natCast]
      omega
    have hsign : ¬decide (n < 0) = false := by simp [hnegative]
    rw [if_neg (not_not_intro rfl), if_neg hsign, if_pos hfits, hvalue]
  · have hvalue : Int.ofNat n.natAbs = n := by
      rw [Int.ofNat_eq_natCast]
      omega
    rw [if_neg (not_not_intro rfl), if_pos (decide_eq_false hnegative), hvalue]

/-- A significand scaled by a power of ten is no integer. -/
theorem scaled?_ne_integer (power : Option PowerText) (negative : Bool) (sig : Significand)
    (n : ℤ) : scaled? power negative sig ≠ some (.integer n) := by
  have hsigned (sig : Significand) :
      sig.toBinary64?.map (signed negative) ≠ some (.integer n) := by
    intro h
    obtain ⟨x, _, hx⟩ := Option.map_eq_some_iff.1 h
    exact Number.noConfusion hx
  cases power with
  | none => exact hsigned sig
  | some p =>
    have hbeyond (refused : Prop) [Decidable refused] :
        (if refused then none else some (signed negative (Binary64.ofMagnitude 0))) ≠
          some (.integer n) := by
      split <;> simp [signed]
    show p.number? negative sig ≠ some (.integer n)
    unfold PowerText.number?
    cases exponentDigits 0 p.digits.bytes [] with
    | value k => exact hsigned _
    | beyond left => exact hbeyond (sig.digits ≠ 0 ∧ p.isDown = false)

/-- Digits that are read as an integer have all been taken in. -/
theorem plain?_eq_integer {negative : Bool} {sig : Significand} {n : ℤ}
    (hword : sig.digits ≤ maxWord) (h : plain? negative sig = some (.integer n)) :
    sig = ⟨n.natAbs, 0⟩ ∧ negative = decide (n < 0) ∧ FitsWord n := by
  obtain ⟨digits, exponent⟩ := sig
  have hword : digits ≤ 18446744073709551615 := maxWord_eq ▸ hword
  have hpower : Nat.pow 2 63 = 9223372036854775808 := by decide
  unfold plain? at h
  split at h
  · exact absurd h (scaled?_ne_integer none negative _ n)
  · next hexponent =>
    obtain rfl : exponent = 0 := by simpa using hexponent
    split at h
    · next hnegative =>
      obtain rfl : Int.ofNat digits = n := Number.integer.inj (Option.some.inj h)
      refine ⟨rfl, ?_, ?_⟩
      · rw [hnegative]
        rfl
      · unfold FitsWord
        rw [Int.ofNat_eq_natCast]
        omega
    · next hnegative =>
      split at h
      · next hfits =>
        obtain ⟨hzero, hfits⟩ := hfits
        have hzero : digits ≠ 0 := hzero
        have hfits : digits ≤ 9223372036854775808 := hpower ▸ hfits
        obtain rfl : -Int.ofNat digits = n := Number.integer.inj (Option.some.inj h)
        have hless : -Int.ofNat digits < 0 := by
          rw [Int.ofNat_eq_natCast]
          omega
        refine ⟨?_, ?_, ?_⟩
        · rw [Int.natAbs_neg]
          rfl
        · rw [decide_eq_true hless]
          exact Bool.eq_true_of_not_eq_false hnegative
        · unfold FitsWord
          rw [Int.ofNat_eq_natCast]
          omega
      · exact absurd h (scaled?_ne_integer none negative _ n)

/-- A number is read as an integer if it is written as that integer is and fits a word, and in no
other case. -/
theorem NumberText.number?_eq_integer_iff (t : NumberText) (n : ℤ) :
    t.number? = some (.integer n) ↔ t.text = Utf8.encode (toString n) ∧ FitsWord n := by
  rw [← NumberText.text_ofInt]
  constructor
  · intro h
    obtain ⟨negative, whole, hhead, fraction, power⟩ := t
    unfold NumberText.number? at h
    split at h
    · next hfraction hpower =>
      obtain rfl : fraction = none := hfraction
      obtain rfl : power = none := hpower
      obtain ⟨hsig, hnegative, hfits⟩ := plain?_eq_integer (near_significand _).1 h
      have hnegative : negative = decide (n < 0) := hnegative
      have hwhole : whole.bytes = decimal n.natAbs :=
        eq_decimal_of_takeWhole (t := ⟨negative, whole, hhead, none, none⟩) hsig
      refine ⟨?_, hfits⟩
      show (if negative then [Ascii.minus] else []) ++ (whole.bytes ++ ([] ++ [])) =
        (if decide (n < 0) then [Ascii.minus] else []) ++ (decimal n.natAbs ++ ([] ++ []))
      rw [hwhole, hnegative]
    · exact absurd h (scaled?_ne_integer _ _ _ n)
  · rintro ⟨htext, hfits⟩
    rw [number?_congr htext, number?_ofInt hfits]

end Colloquy.Json
