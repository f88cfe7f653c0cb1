import Colloquy.Proofs.Json.NumberText
import Mathlib.Algebra.Order.Field.Power
import Mathlib.Tactic.Linarith
import Mathlib.Tactic.NormNum
import Mathlib.Tactic.Positivity
import Mathlib.Tactic.Ring

/-!
# The value of a number

The number that a text stands for (`NumberText.magnitude`) and the significand that is taken from
its digits. Digits are taken in as long as they fit a word; by then there are eighteen of them, so
those that are left are worth less than one part in `10 ^ 18` of the number (`near_significand`),
however many they are.
-/

set_option autoImplicit false

namespace Colloquy.Json

/-! ## The value of a text -/

/-- The value of decimal digits. -/
def decimalValue (digits : Bytes) : ℕ :=
  digits.foldl (fun n d => n * 10 + Ascii.digitValue d) 0

/-- The power of ten that is written out. -/
def PowerText.exponent (p : PowerText) : ℤ :=
  if p.isDown then -decimalValue p.digits.bytes else decimalValue p.digits.bytes

namespace NumberText

variable (t : NumberText)

/-- The digits behind the point. -/
def fractionDigits : Bytes :=
  match t.fraction with
  | none => []
  | some digits => digits.bytes

/-- The value of the digits, without sign and power. -/
def digitsValue : ℚ :=
  decimalValue (t.whole.bytes ++ t.fractionDigits) * 10 ^ (-(t.fractionDigits.length : ℤ))

/-- The value of the number, without sign. -/
def magnitude : ℚ :=
  match t.power with
  | none => t.digitsValue
  | some p => t.digitsValue * 10 ^ p.exponent

end NumberText

/-- Another digit behind digits is worth its value, and they ten times theirs. -/
theorem decimalValue_concat (digits : Bytes) (d : UInt8) :
    decimalValue (digits ++ [d]) = decimalValue digits * 10 + Ascii.digitValue d := by
  unfold decimalValue
  rw [List.foldl_append]
  rfl

/-- Digits in front of others are worth a power of ten. -/
theorem decimalValue_append (digits others : Bytes) :
    decimalValue (digits ++ others) =
      decimalValue digits * 10 ^ others.length + decimalValue others := by
  induction others using List.reverseRecOn with
  | nil => simp [decimalValue]
  | append_singleton others d ih =>
    rw [← List.append_assoc, decimalValue_concat, decimalValue_concat, ih, List.length_append,
      List.length_singleton, pow_succ]
    ring

/-- Digits are taken in from the left one by one. -/
theorem decimalValue_cons (n : ℕ) (d : UInt8) (digits : Bytes) :
    n * 10 ^ (d :: digits).length + decimalValue (d :: digits) =
      (n * 10 + Ascii.digitValue d) * 10 ^ digits.length + decimalValue digits := by
  have hcons := decimalValue_append [d] digits
  have hone : decimalValue [d] = Ascii.digitValue d := Nat.zero_add _
  rw [List.singleton_append, hone] at hcons
  rw [hcons, List.length_cons, pow_succ]
  ring

/-- A digit is worth less than ten. -/
theorem digitValue_lt {d : UInt8} (h : Ascii.isDigit d = true) : Ascii.digitValue d < 10 := by
  unfold Ascii.isDigit at h
  unfold Ascii.digitValue
  rw [Bool.and_eq_true, decide_eq_true_iff, decide_eq_true_iff, UInt8.le_iff_toNat_le,
    UInt8.le_iff_toNat_le] at h
  have hhigh : d.toNat ≤ 57 := h.2
  omega

/-- Digits are worth less than the power of ten of their number. -/
theorem decimalValue_lt {digits : Bytes} (h : ∀ b ∈ digits, Ascii.isDigit b = true) :
    decimalValue digits < 10 ^ digits.length := by
  induction digits using List.reverseRecOn with
  | nil => simp [decimalValue]
  | append_singleton digits d ih =>
    have hdigits := ih fun b hb => h b (List.mem_append_left _ hb)
    have hd := digitValue_lt (h d (by simp))
    rw [decimalValue_concat, List.length_append, List.length_singleton, pow_succ]
    omega

/-! ## The significand -/

/-- The value of a significand. -/
def Significand.value (sig : Significand) : ℚ :=
  sig.digits * 10 ^ sig.exponent

/-- Two values that differ by one part in `10 ^ 18` at most. -/
def Near (a b : ℚ) : Prop :=
  a ≤ b * (1 + 1 / 10 ^ 18) ∧ b ≤ a * (1 + 1 / 10 ^ 18)

/-- A value is near itself. -/
theorem Near.refl {a : ℚ} (h : 0 ≤ a) : Near a a := by
  have hle : a ≤ a * (1 + 1 / 10 ^ 18) := le_mul_of_one_le_right h (by norm_num)
  exact ⟨hle, hle⟩

/-- Values that are near each other stay so when both are scaled. -/
theorem Near.mul {a b c : ℚ} (h : Near a b) (hc : 0 ≤ c) : Near (a * c) (b * c) := by
  have habove := mul_le_mul_of_nonneg_right h.1 hc
  have hbelow := mul_le_mul_of_nonneg_right h.2 hc
  exact ⟨by rw [mul_right_comm]; exact habove, by rw [mul_right_comm]; exact hbelow⟩

/-- Two values that begin with the same eighteen digits. -/
theorem near_of_between {n : ℕ} (hn : 10 ^ 18 ≤ n) {unit a b : ℚ} (hunit : 0 ≤ unit)
    (ha : n * unit ≤ a ∧ a ≤ (n + 1) * unit) (hb : n * unit ≤ b ∧ b ≤ (n + 1) * unit) :
    Near a b := by
  have hn' : (10 : ℚ) ^ 18 ≤ n := by exact_mod_cast hn
  have hstep : (n + 1) * unit ≤ n * unit * (1 + 1 / 10 ^ 18) := by
    have hless : unit ≤ n * unit / 10 ^ 18 := by
      rw [le_div_iff₀ (by norm_num), mul_comm]
      exact mul_le_mul_of_nonneg_right hn' hunit
    calc (n + 1) * unit = n * unit + unit := by ring
      _ ≤ n * unit + n * unit / 10 ^ 18 := by linarith
      _ = n * unit * (1 + 1 / 10 ^ 18) := by ring
  have hscale : (0 : ℚ) ≤ 1 + 1 / 10 ^ 18 := by norm_num
  exact ⟨le_trans ha.2 (le_trans hstep (mul_le_mul_of_nonneg_right hb.1 hscale)),
    le_trans hb.2 (le_trans hstep (mul_le_mul_of_nonneg_right ha.1 hscale))⟩

/-- The largest number of sixty-four bits. -/
theorem maxWord_eq : maxWord = 18446744073709551615 := by
  decide

/-- A significand that another digit does not fit has eighteen digits at least. -/
theorem le_of_maxWord_lt {n : ℕ} {d : UInt8} (hd : Ascii.isDigit d = true)
    (h : ¬n * 10 + Ascii.digitValue d ≤ maxWord) : 10 ^ 18 ≤ n := by
  have hdigit := digitValue_lt hd
  rw [maxWord_eq] at h
  omega

/-- The digits in front of the point are taken in as long as they fit; those that are left only
raise the exponent. -/
theorem takeWhole_spec {digits : Bytes} (h : ∀ b ∈ digits, Ascii.isDigit b = true) :
    ∃ n k : ℕ, Significand.takeWhole digits = ⟨n, k⟩ ∧ n ≤ maxWord ∧
      n * 10 ^ k ≤ decimalValue digits ∧ decimalValue digits < (n + 1) * 10 ^ k ∧
      (k ≠ 0 → 10 ^ 18 ≤ n) := by
  induction digits using List.reverseRecOn with
  | nil => exact ⟨0, 0, rfl, Nat.zero_le _, by simp [decimalValue], by simp [decimalValue], by simp⟩
  | append_singleton digits d ih =>
    have hd := h d (by simp)
    have hdigit := digitValue_lt hd
    obtain ⟨n, k, htake, hfits, hlow, hhigh, hlong⟩ :=
      ih fun b hb => h b (List.mem_append_left _ hb)
    have hstep : Significand.takeWhole (digits ++ [d]) =
        if (k : ℤ) = 0 ∧ n * 10 + Ascii.digitValue d ≤ maxWord then
          ⟨n * 10 + Ascii.digitValue d, 0⟩
        else ⟨n, (k : ℤ) + 1⟩ := by
      unfold Significand.takeWhole at htake ⊢
      rw [List.foldl_append, htake]
      rfl
    rw [hstep, decimalValue_concat]
    split
    · next hfit =>
      obtain ⟨hzero, hfit⟩ := hfit
      obtain rfl : k = 0 := by omega
      rw [pow_zero, Nat.mul_one] at hlow hhigh
      refine ⟨_, 0, rfl, hfit, ?_, ?_, fun hne => absurd rfl hne⟩
      · rw [pow_zero]
        omega
      · rw [pow_zero]
        omega
    · next hfull =>
      have hlong' : 10 ^ 18 ≤ n := by
        by_cases hzero : k = 0
        · refine le_of_maxWord_lt hd fun hfit => hfull ⟨?_, hfit⟩
          omega
        · exact hlong hzero
      refine ⟨n, k + 1, by push_cast; rfl, hfits, ?_, ?_, fun _ => hlong'⟩
      · rw [pow_succ, ← Nat.mul_assoc]
        omega
      · rw [pow_succ, ← Nat.mul_assoc]
        omega

/-- Of the digits behind the point those at the front are taken in; if any are left, the
significand is long. -/
theorem takeFraction_spec {digits : Bytes} (h : ∀ b ∈ digits, Ascii.isDigit b = true)
    (sig : Significand) (hfits : sig.digits ≤ maxWord) :
    ∃ taken left, digits = taken ++ left ∧
      sig.takeFraction digits =
        ⟨sig.digits * 10 ^ taken.length + decimalValue taken, sig.exponent - taken.length⟩ ∧
      sig.digits * 10 ^ taken.length + decimalValue taken ≤ maxWord ∧
      (left ≠ [] → 10 ^ 18 ≤ sig.digits * 10 ^ taken.length + decimalValue taken) := by
  induction digits generalizing sig with
  | nil =>
    refine ⟨[], [], rfl, ?_, ?_, fun hne => absurd rfl hne⟩
    · simp [Significand.takeFraction, decimalValue]
    · simpa [decimalValue] using hfits
  | cons d digits ih =>
    have hd := h d List.mem_cons_self
    rw [Significand.takeFraction]
    split
    · next hfit =>
      obtain ⟨taken, left, hdigits, htake, hfits', hlong⟩ :=
        ih (fun b hb => h b (List.mem_cons_of_mem d hb))
          ⟨sig.digits * 10 + Ascii.digitValue d, sig.exponent - 1⟩ hfit
      rw [← decimalValue_cons] at htake hfits' hlong
      refine ⟨d :: taken, left, by rw [hdigits, List.cons_append], ?_, hfits', hlong⟩
      rw [htake]
      congr 1
      rw [List.length_cons]
      push_cast
      ring
    · next hfull =>
      refine ⟨[], d :: digits, rfl, by simp [decimalValue], by simpa [decimalValue] using hfits, ?_⟩
      intro _
      simpa [decimalValue] using le_of_maxWord_lt hd hfull

/-- A power of ten is the same among the rational numbers. -/
theorem cast_tenPow (n : ℕ) : ((Nat.pow 10 n : ℕ) : ℚ) = 10 ^ n :=
  Nat.cast_pow 10 n

/-- Powers of ten whose exponents add up to another are factors of its power. -/
theorem tenPow_sub (e : ℤ) (n : ℕ) : (10 : ℚ) ^ n * 10 ^ (e - n) = 10 ^ e := by
  rw [← zpow_natCast, ← zpow_add₀ (by norm_num)]
  congr 1
  omega

/-- Digits that follow others are worth less than one unit of these. -/
theorem between_append {others : Bytes} (h : ∀ b ∈ others, Ascii.isDigit b = true) (n : ℕ)
    (e : ℤ) :
    (n : ℚ) * 10 ^ e ≤
        (n * 10 ^ others.length + decimalValue others : ℕ) * 10 ^ (e - others.length) ∧
      ((n * 10 ^ others.length + decimalValue others : ℕ) : ℚ) * 10 ^ (e - others.length) ≤
        (n + 1) * 10 ^ e := by
  have hunit : (0 : ℚ) < 10 ^ (e - others.length) := by positivity
  have hless : (decimalValue others : ℚ) ≤ 10 ^ others.length := by
    exact_mod_cast (decimalValue_lt h).le
  have hnonneg : (0 : ℚ) ≤ decimalValue others := Nat.cast_nonneg _
  have hpower := tenPow_sub e others.length
  push_cast
  constructor
  · calc (n : ℚ) * 10 ^ e = n * 10 ^ others.length * 10 ^ (e - others.length) := by
          rw [mul_assoc, hpower]
      _ ≤ _ := mul_le_mul_of_nonneg_right (by linarith) hunit.le
  · calc _ ≤ (n * 10 ^ others.length + 10 ^ others.length : ℚ) * 10 ^ (e - others.length) :=
          mul_le_mul_of_nonneg_right (by linarith) hunit.le
      _ = (n + 1) * 10 ^ e := by
          rw [← hpower]
          ring

/-- A number without a fraction is taken in like one with no digits behind the point. -/
theorem NumberText.significand_eq (t : NumberText) :
    t.significand = (Significand.takeWhole t.whole.bytes).takeFraction t.fractionDigits := by
  unfold significand fractionDigits
  cases t.fraction <;> rfl

/-- Behind the point there are only digits. -/
theorem NumberText.isDigit_fractionDigits (t : NumberText) :
    ∀ b ∈ t.fractionDigits, Ascii.isDigit b = true := by
  unfold fractionDigits
  cases t.fraction with
  | none => exact fun _ hb => nomatch hb
  | some digits => exact digits.isDigit

/-- If all digits in front of the point fit, those that are left behind it hardly matter. -/
theorem near_of_left {n : ℕ} {taken left : Bytes} (hleft : ∀ b ∈ left, Ascii.isDigit b = true)
    (hlong : left ≠ [] → 10 ^ 18 ≤ n * 10 ^ taken.length + decimalValue taken) :
    Near ((n * 10 ^ taken.length + decimalValue taken : ℕ) * 10 ^ ((0 : ℤ) - taken.length))
      ((n * 10 ^ (taken ++ left).length + decimalValue (taken ++ left) : ℕ) *
        10 ^ ((0 : ℤ) - (taken ++ left).length)) := by
  obtain ⟨m, hm⟩ : ∃ m, n * 10 ^ taken.length + decimalValue taken = m := ⟨_, rfl⟩
  have hdigits : n * 10 ^ (taken ++ left).length + decimalValue (taken ++ left) =
      m * 10 ^ left.length + decimalValue left := by
    rw [decimalValue_append, List.length_append, pow_add, ← hm]
    ring
  have hexponent : (0 : ℤ) - (taken ++ left).length = 0 - taken.length - left.length := by
    rw [List.length_append]
    push_cast
    ring
  have hunit : (0 : ℚ) ≤ 10 ^ ((0 : ℤ) - taken.length) := by positivity
  rw [hdigits, hexponent, hm]
  by_cases hall : left = []
  · subst hall
    simpa [decimalValue] using Near.refl (mul_nonneg (Nat.cast_nonneg m) hunit)
  · exact near_of_between (hm ▸ hlong hall) hunit
      ⟨le_refl _, mul_le_mul_of_nonneg_right (by linarith) hunit⟩
      (between_append hleft m (0 - taken.length))

/-- If not all digits in front of the point fit, those that are left of them hardly matter, nor do
any behind the point. -/
theorem near_of_cut {n k whole : ℕ} {taken fraction : Bytes} (hlow : n * 10 ^ k ≤ whole)
    (hhigh : whole < (n + 1) * 10 ^ k) (hlong : 10 ^ 18 ≤ n)
    (htaken : ∀ b ∈ taken, Ascii.isDigit b = true)
    (hfraction : ∀ b ∈ fraction, Ascii.isDigit b = true) :
    Near ((n * 10 ^ taken.length + decimalValue taken : ℕ) * 10 ^ ((k : ℤ) - taken.length))
      ((whole * 10 ^ fraction.length + decimalValue fraction : ℕ) *
        10 ^ ((0 : ℤ) - fraction.length)) := by
  have hwhole : (n : ℚ) * 10 ^ (k : ℤ) ≤ whole ∧ (whole : ℚ) + 1 ≤ (n + 1) * 10 ^ (k : ℤ) := by
    rw [zpow_natCast]
    exact ⟨by exact_mod_cast hlow, by exact_mod_cast hhigh⟩
  have hsignificand := between_append htaken n k
  have hexact := between_append hfraction whole 0
  rw [zpow_zero, mul_one, mul_one] at hexact
  exact near_of_between hlong (by positivity) hsignificand
    ⟨le_trans hwhole.1 hexact.1, le_trans hexact.2 hwhole.2⟩

/-- The digits of a number that do not fit its significand hardly matter. -/
theorem near_significand (t : NumberText) :
    t.significand.digits ≤ maxWord ∧ Near t.significand.value t.digitsValue := by
  obtain ⟨n, k, hwhole, hfits, hlow, hhigh, hlong⟩ := takeWhole_spec t.whole.isDigit
  obtain ⟨taken, left, hdigits, hfraction, hfits', hlong'⟩ :=
    takeFraction_spec t.isDigit_fractionDigits ⟨n, k⟩ hfits
  have hisDigit := t.isDigit_fractionDigits
  have hvalue : t.digitsValue = (decimalValue t.whole.bytes * 10 ^ t.fractionDigits.length +
      decimalValue t.fractionDigits : ℕ) * 10 ^ ((0 : ℤ) - t.fractionDigits.length) := by
    unfold NumberText.digitsValue
    rw [decimalValue_append, zero_sub]
  rw [t.significand_eq, hwhole, hfraction, hvalue]
  refine ⟨hfits', ?_⟩
  unfold Significand.value
  -- Once a digit in front of the point is left out, the exponent is no longer zero.
  by_cases hzero : k = 0
  · subst hzero
    rw [pow_zero, Nat.mul_one] at hlow hhigh
    obtain rfl : n = decimalValue t.whole.bytes := by omega
    rw [hdigits] at hisDigit ⊢
    exact near_of_left (fun b hb => hisDigit b (List.mem_append_right _ hb)) hlong'
  · have htaken : ∀ b ∈ taken, Ascii.isDigit b = true := fun b hb =>
      hisDigit b (hdigits ▸ List.mem_append_left _ hb)
    exact near_of_cut hlow hhigh (hlong hzero) htaken hisDigit

/-! ## The size of a value -/

/-- A number has no more digits than its text has bytes. -/
theorem length_digits_le (t : NumberText) :
    (t.whole.bytes ++ t.fractionDigits).length ≤ t.text.length := by
  have hfraction : t.fractionDigits.length ≤ (writtenFraction t.fraction).length := by
    unfold NumberText.fractionDigits
    cases t.fraction with
    | none => exact Nat.le_refl _
    | some digits => exact Nat.le_succ _
  unfold NumberText.text NumberText.unsignedText
  simp only [List.length_append]
  omega

/-- A value is at most as large, and if it is not zero at least as small, as the number of its
digits allows. -/
theorem digitsValue_between (t : NumberText) :
    t.digitsValue ≤ 10 ^ t.text.length ∧
      (t.digitsValue ≠ 0 → 1 ≤ t.digitsValue * 10 ^ t.text.length) := by
  have hlength := length_digits_le t
  have hdigits : ∀ b ∈ t.whole.bytes ++ t.fractionDigits, Ascii.isDigit b = true := by
    intro b hb
    rcases List.mem_append.1 hb with hb | hb
    · exact t.whole.isDigit b hb
    · exact t.isDigit_fractionDigits b hb
  have hless : (decimalValue (t.whole.bytes ++ t.fractionDigits) : ℚ) ≤ 10 ^ t.text.length := by
    exact_mod_cast le_trans (decimalValue_lt hdigits).le (Nat.pow_le_pow_right (by decide) hlength)
  have hscale : (10 : ℚ) ^ (-(t.fractionDigits.length : ℤ)) ≤ 1 :=
    zpow_le_one_of_nonpos₀ (by norm_num) (by omega)
  unfold NumberText.digitsValue
  constructor
  · exact le_trans (mul_le_of_le_one_right (Nat.cast_nonneg _) hscale) hless
  · intro hne
    have hpositive : (1 : ℚ) ≤ decimalValue (t.whole.bytes ++ t.fractionDigits) := by
      have hnat : decimalValue (t.whole.bytes ++ t.fractionDigits) ≠ 0 := fun hzero =>
        hne (by rw [hzero, Nat.cast_zero, zero_mul])
      exact_mod_cast Nat.one_le_iff_ne_zero.2 hnat
    have hpower : (1 : ℚ) ≤ 10 ^ (-(t.fractionDigits.length : ℤ)) * 10 ^ t.text.length := by
      rw [← zpow_natCast, ← zpow_add₀ (by norm_num)]
      rw [List.length_append] at hlength
      exact one_le_zpow₀ (by norm_num) (by omega)
    rw [mul_assoc]
    exact le_trans hpositive (le_mul_of_one_le_right (by linarith only [hpositive]) hpower)

end Colloquy.Json
