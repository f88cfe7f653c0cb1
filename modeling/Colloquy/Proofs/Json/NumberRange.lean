import Colloquy.Proofs.Binary64.Rounding
import Colloquy.Proofs.Json.NumberValue

/-!
# Numbers within range

Which numbers are read. The significand, the power of ten and their product are each rounded to one
part in `2 ^ 53`, and the digits that do not fit the significand are worth even less. So a number is
read if it is below `2 ^ 1024` by one part in `10 ^ 15` and refused if it is above by as much
(`ranged_number?`), however many digits it is written with and however large its exponent is.
-/

set_option autoImplicit false

namespace Colloquy.Json

/-! ## The range of double precision -/

/-- The power of two beyond the largest number of double precision. -/
def rangeLimit : ℚ :=
  2 ^ 1024

/-- The largest number, as a part of the limit beyond which numbers are infinite. -/
theorem largest_eq : (2 : ℚ) ^ 1024 - 2 ^ 971 = rangeLimit * (1 - 1 / 2 ^ 53) := by
  have hdifference (limit unit : ℚ) (h : limit = unit * 2 ^ 53) :
      limit - unit = limit * (1 - 1 / 2 ^ 53) := by
    rw [h]
    ring
  exact hdifference rangeLimit (2 ^ 971) (pow_add 2 971 53)

/-- Powers of ten up to the three hundred and eighth are within the range. -/
theorem tenPow_le_largest {n : ℕ} (hn : n ≤ 308) :
    (10 : ℚ) ^ n ≤ rangeLimit * (1 - 1 / 2 ^ 53) := by
  have hcast (a b c : ℕ) (h : Nat.pow 10 a + Nat.pow 2 b ≤ Nat.pow 2 c) :
      (10 : ℚ) ^ a ≤ 2 ^ c - 2 ^ b := by
    rw [le_sub_iff_add_le, ← cast_tenPow, ← Binary64.cast_twoPow, ← Binary64.cast_twoPow,
      ← Nat.cast_add]
    exact Nat.cast_le.2 h
  rw [← largest_eq]
  exact le_trans (pow_le_pow_right₀ (by norm_num) hn) (hcast 308 971 1024 (by decide +kernel))

/-- The next power of ten is beyond the limit. -/
theorem rangeLimit_lt_tenPow : rangeLimit < 10 ^ 309 := by
  have hcast (a b : ℕ) (h : Nat.pow 2 a < Nat.pow 10 b) : (2 : ℚ) ^ a < 10 ^ b := by
    rw [← cast_tenPow, ← Binary64.cast_twoPow]
    exact Nat.cast_lt.2 h
  exact hcast 1024 309 (by decide +kernel)

/-- The limit is positive. -/
theorem rangeLimit_pos : 0 < rangeLimit :=
  pow_pos (by norm_num) 1024

/-- What counts a word is far within the range. -/
theorem maxWord_lt : (maxWord : ℚ) < rangeLimit * (1 - 1 / 10 ^ 15) := by
  have hword : (maxWord : ℚ) < 10 ^ 20 := by
    rw [maxWord_eq]
    norm_num
  have hlimit : (10 : ℚ) ^ 21 ≤ rangeLimit * (1 - 1 / 2 ^ 53) := tenPow_le_largest (by decide)
  have hpositive := rangeLimit_pos
  linarith

/-- A rounded number is within the bounds of its error. -/
theorem between_of_abs_le {x v : ℚ} (h : |x - v| ≤ v / 2 ^ 53) :
    v * (1 - 1 / 2 ^ 53) ≤ x ∧ x ≤ v * (1 + 1 / 2 ^ 53) := by
  obtain ⟨hlow, hhigh⟩ := abs_le.1 h
  constructor
  · linarith
  · linarith

/-- A significand is multiplied by a power of ten that is a number itself. -/
theorem toBinary64?_of_small (n : ℕ) {k : ℕ} (hk : k ≤ 308) :
    Significand.toBinary64? ⟨n, k⟩ =
      if ((Binary64.ofNat n).mul (Binary64.ofNat (Nat.pow 10 k))).isInfinite then none
      else some ((Binary64.ofNat n).mul (Binary64.ofNat (Nat.pow 10 k))) := by
  unfold Significand.toBinary64?
  simp only [Int.toNat_natCast, if_pos (Int.natCast_nonneg k), if_neg (Nat.not_lt.2 hk)]
  rfl

/-- The numbers of the digits of a significand. -/
theorem ofWord_spec {n : ℕ} (hn : n ≠ 0) (hfits : n ≤ maxWord) :
    (Binary64.ofNat n).isInfinite = false ∧ |(Binary64.ofNat n).value - n| ≤ n / 2 ^ 53 := by
  have hdigits : (n : ℚ) ≤ 2 ^ 1024 - 2 ^ 971 := by
    have hle : (n : ℚ) ≤ maxWord := by exact_mod_cast hfits
    have hlimit := maxWord_lt
    have hpositive := rangeLimit_pos
    rw [largest_eq]
    linarith
  exact Binary64.ofNat_spec hn hdigits

/-- The powers of ten that are numbers themselves. -/
theorem tenPow_spec {k : ℕ} (hk : k ≤ 308) :
    (Binary64.ofNat (Nat.pow 10 k)).isInfinite = false ∧
      |(Binary64.ofNat (Nat.pow 10 k)).value - 10 ^ k| ≤ 10 ^ k / 2 ^ 53 := by
  have hpower : ((Nat.pow 10 k : ℕ) : ℚ) ≤ 2 ^ 1024 - 2 ^ 971 := by
    rw [cast_tenPow, largest_eq]
    exact tenPow_le_largest hk
  have hpositive : Nat.pow 10 k ≠ 0 := (Nat.pow_pos (by decide)).ne'
  rw [← cast_tenPow]
  exact Binary64.ofNat_spec hpositive hpower

/-- The number of a significand with a power of ten that is a number itself. -/
theorem toBinary64?_of_le {n k : ℕ} (hn : n ≠ 0) (hfits : n ≤ maxWord) (hk : k ≤ 308) :
    ((n : ℚ) * 10 ^ k ≤ rangeLimit * (1 - 9 / 10 ^ 16) →
      (Significand.toBinary64? ⟨n, k⟩).isSome = true) ∧
    (rangeLimit * (1 + 9 / 10 ^ 16) ≤ (n : ℚ) * 10 ^ k →
      Significand.toBinary64? ⟨n, k⟩ = none) := by
  obtain ⟨hfinite, hvalue⟩ := ofWord_spec hn hfits
  obtain ⟨hfinite', hvalue'⟩ := tenPow_spec hk
  obtain ⟨hlow, hhigh⟩ := between_of_abs_le hvalue
  obtain ⟨hlow', hhigh'⟩ := between_of_abs_le hvalue'
  have hone : (1 : ℚ) ≤ n * 10 ^ k := by
    have hn' : (1 : ℚ) ≤ n := by exact_mod_cast Nat.one_le_iff_ne_zero.2 hn
    have hk' : (1 : ℚ) ≤ 10 ^ k := one_le_pow₀ (by norm_num)
    exact le_trans hn' (le_mul_of_one_le_right (by linarith) hk')
  obtain ⟨q, hq⟩ : ∃ q, (Binary64.ofNat n).value * (Binary64.ofNat (Nat.pow 10 k)).value = q :=
    ⟨_, rfl⟩
  have hqlow : (n : ℚ) * 10 ^ k * ((1 - 1 / 2 ^ 53) * (1 - 1 / 2 ^ 53)) ≤ q := by
    rw [← hq, mul_mul_mul_comm]
    exact mul_le_mul hlow hlow' (by positivity) (le_trans (by positivity) hlow)
  have hqhigh : q ≤ (n : ℚ) * 10 ^ k * ((1 + 1 / 2 ^ 53) * (1 + 1 / 2 ^ 53)) := by
    rw [← hq, mul_mul_mul_comm]
    exact mul_le_mul hhigh hhigh' (le_trans (by positivity) hlow') (by positivity)
  have hhalf : 1 / 2 ≤ q := by linarith
  have hproduct := Binary64.isInfinite_mul hfinite hfinite' (hq ▸ hhalf)
  rw [hq, largest_eq] at hproduct
  have hbinary : Significand.toBinary64? ⟨n, k⟩ =
      if ((Binary64.ofNat n).mul (Binary64.ofNat (Nat.pow 10 k))).isInfinite then none
      else some ((Binary64.ofNat n).mul (Binary64.ofNat (Nat.pow 10 k))) :=
    toBinary64?_of_small n hk
  rw [hbinary]
  have hlimit := rangeLimit_pos
  constructor
  · intro h
    rw [hproduct.2 (by linarith)]
    rfl
  · intro h
    have hbeyond : 2 ^ 1024 ≤ q := by
      show rangeLimit ≤ q
      linarith
    rw [hproduct.1 hbeyond]
    rfl

/-- Zero is zero with every power of ten. -/
theorem toBinary64?_zero (k : ℕ) : (Significand.toBinary64? ⟨0, k⟩).isSome = true := by
  by_cases hk : k ≤ 308
  · obtain ⟨hfinite, _⟩ := tenPow_spec hk
    have hproduct : (Binary64.ofNat 0).mul (Binary64.ofNat (Nat.pow 10 k)) =
        Binary64.ofMagnitude 0 := by
      have hzero : (Binary64.ofNat 0).isInfinite = false := by decide
      have hratio : (Binary64.ofNat 0).ratio.1 = 0 := by decide
      unfold Binary64.mul
      rw [hzero, hfinite, hratio, Nat.zero_mul]
      exact if_neg Bool.false_ne_true
    have hfinite' : (Binary64.ofMagnitude 0).isInfinite = false := by decide
    rw [toBinary64?_of_small 0 hk, hproduct, hfinite']
    rfl
  · have hzero : (Binary64.ofNat 0).isZero = true := by decide
    unfold Significand.toBinary64?
    simp only [Int.toNat_natCast, if_pos (Int.natCast_nonneg k), if_pos (Nat.lt_of_not_le hk),
      hzero, if_true]
    rfl

/-- A significand with a larger power of ten is no number. -/
theorem toBinary64?_of_large {n k : ℕ} (hn : n ≠ 0) (hfits : n ≤ maxWord) (hk : 308 < k) :
    Significand.toBinary64? ⟨n, k⟩ = none := by
  obtain ⟨_, hvalue⟩ := ofWord_spec hn hfits
  have hnonzero : (Binary64.ofNat n).isZero = false := by
    cases hzero : (Binary64.ofNat n).isZero with
    | false => rfl
    | true =>
      obtain ⟨hlow, _⟩ := between_of_abs_le hvalue
      rw [Binary64.value_of_isZero hzero] at hlow
      have hn' : (1 : ℚ) ≤ n := by exact_mod_cast Nat.one_le_iff_ne_zero.2 hn
      exfalso
      linarith
  unfold Significand.toBinary64?
  simp only [Int.toNat_natCast, if_pos (Int.natCast_nonneg k), if_pos hk, hnonzero,
    Bool.false_eq_true, if_false]

/-- The range of the numbers of significands. -/
theorem toBinary64?_spec {sig : Significand} (hfits : sig.digits ≤ maxWord) :
    (sig.value ≤ rangeLimit * (1 - 9 / 10 ^ 16) → sig.toBinary64?.isSome = true) ∧
      (rangeLimit * (1 + 9 / 10 ^ 16) ≤ sig.value → sig.toBinary64? = none) := by
  obtain ⟨n, e⟩ := sig
  have hlimit := rangeLimit_pos
  have hword : (n : ℚ) ≤ maxWord := by exact_mod_cast hfits
  have hless := maxWord_lt
  have hnonneg : (0 : ℚ) ≤ n := Nat.cast_nonneg n
  unfold Significand.value
  by_cases he : 0 ≤ e
  · obtain ⟨k, rfl⟩ := Int.eq_ofNat_of_zero_le he
    show ((n : ℚ) * 10 ^ (k : ℤ) ≤ _ → _) ∧ (_ ≤ (n : ℚ) * 10 ^ (k : ℤ) → _)
    rw [zpow_natCast]
    by_cases hn : n = 0
    · subst hn
      refine ⟨fun _ => toBinary64?_zero k, fun h => ?_⟩
      rw [Nat.cast_zero, zero_mul] at h
      linarith
    · by_cases hk : k ≤ 308
      · exact toBinary64?_of_le hn hfits hk
      · have hk' : 308 < k := Nat.lt_of_not_le hk
        refine ⟨fun h => ?_, fun _ => toBinary64?_of_large hn hfits hk'⟩
        have hpower : (10 : ℚ) ^ 309 ≤ 10 ^ k := pow_le_pow_right₀ (by norm_num) hk'
        have hn' : (1 : ℚ) ≤ n := by exact_mod_cast Nat.one_le_iff_ne_zero.2 hn
        have hvalue : (10 : ℚ) ^ k ≤ n * 10 ^ k := le_mul_of_one_le_left (by positivity) hn'
        have hbeyond := lt_of_lt_of_le rangeLimit_lt_tenPow (le_trans hpower hvalue)
        exfalso
        linarith only [h, hbeyond, hlimit]
  · have hsome : (Significand.toBinary64? ⟨n, e⟩).isSome = true := by
      unfold Significand.toBinary64?
      simp only [if_neg he]
      rfl
    refine ⟨fun _ => hsome, fun h => ?_⟩
    have hpower : (10 : ℚ) ^ e ≤ 1 := zpow_le_one_of_nonpos₀ (by norm_num) (by omega)
    have hvalue : (n : ℚ) * 10 ^ e ≤ n := mul_le_of_le_one_right hnonneg hpower
    have h' : rangeLimit * (1 + 9 / 10 ^ 16) ≤ (n : ℚ) * 10 ^ e := h
    linarith

/-! ## The numbers that are read -/

/-- The digits of an exponent are added up as long as they stay in range. -/
theorem exponentDigits_cases (n : ℕ) (digits : Bytes) (hn : n ≤ maxExponent) :
    (exponentDigits n digits [] = .value (n * 10 ^ digits.length + decimalValue digits)) ∨
      (∃ left, exponentDigits n digits [] = .beyond left) ∧
        maxExponent < n * 10 ^ digits.length + decimalValue digits := by
  induction digits generalizing n with
  | nil => exact .inl (by simp [exponentDigits, decimalValue])
  | cons d digits ih =>
    rw [exponentDigits, decimalValue_cons]
    split
    · next hfits => exact ih _ hfits
    · next hbeyond =>
      refine .inr ⟨⟨_, rfl⟩, ?_⟩
      have hpower : 1 ≤ 10 ^ digits.length := Nat.one_le_pow _ _ (by decide)
      have hscaled := Nat.le_mul_of_pos_right (n * 10 + Ascii.digitValue d) hpower
      omega

/-- A result that is there for a value within the range of double precision and not there for one
beyond it. Within one part in `10 ^ 15` of the limit it may be either. -/
structure Ranged {α : Type} (v : ℚ) (result : Option α) : Prop where
  within : v ≤ rangeLimit * (1 - 1 / 10 ^ 15) → result.isSome = true
  beyond : rangeLimit * (1 + 1 / 10 ^ 15) ≤ v → result = none

/-- Whether there is a result is not changed by what is made of it. -/
theorem Ranged.map {α β : Type} {v : ℚ} {result : Option α} (h : Ranged v result) (f : α → β) :
    Ranged v (result.map f) := by
  refine ⟨fun hv => ?_, fun hv => ?_⟩
  · rw [Option.isSome_map]
    exact h.within hv
  · rw [h.beyond hv]
    rfl

/-- What is there for a small value. -/
theorem Ranged.of_le {α : Type} {v : ℚ} {result : Option α} (h : result.isSome = true)
    (hv : v ≤ rangeLimit) : Ranged v result := by
  refine ⟨fun _ => h, fun hbeyond => ?_⟩
  have hlimit := rangeLimit_pos
  exfalso
  linarith only [hv, hbeyond, hlimit]

/-- What is not there for a large value. -/
theorem Ranged.of_ge {α : Type} {v : ℚ} {result : Option α} (h : result = none)
    (hv : rangeLimit ≤ v) : Ranged v result := by
  refine ⟨fun hwithin => ?_, fun _ => h⟩
  have hlimit := rangeLimit_pos
  exfalso
  linarith only [hv, hwithin, hlimit]

/-- The number of a significand that is near a value. -/
theorem ranged_toBinary64? {sig : Significand} (hfits : sig.digits ≤ maxWord) {v : ℚ}
    (hnear : Near sig.value v) : Ranged v sig.toBinary64? := by
  obtain ⟨hwithin, hbeyond⟩ := toBinary64?_spec hfits
  obtain ⟨hhigh, hlow⟩ := hnear
  have hlimit := rangeLimit_pos
  refine ⟨fun hv => hwithin ?_, fun hv => hbeyond ?_⟩
  · linarith only [hhigh, hv, hlimit]
  · linarith only [hlow, hv, hlimit]

/-- Digits alone are an integer or, where they do not fit, a number of double precision. -/
theorem ranged_plain? (negative : Bool) {sig : Significand} (hfits : sig.digits ≤ maxWord) {v : ℚ}
    (hnear : Near sig.value v) : Ranged v (plain? negative sig) := by
  have hreal := (ranged_toBinary64? hfits hnear).map (signed negative)
  unfold plain?
  by_cases hexponent : sig.exponent = 0
  · have hsmall : v ≤ rangeLimit := by
      have hvalue : sig.value = sig.digits := by
        unfold Significand.value
        rw [hexponent, zpow_zero, mul_one]
      have hword : (sig.digits : ℚ) ≤ maxWord := by exact_mod_cast hfits
      have hless := maxWord_lt
      have hlimit := rangeLimit_pos
      have habove := hnear.2
      rw [hvalue] at habove
      linarith only [habove, hword, hless, hlimit]
    rw [if_neg (not_not.2 hexponent)]
    split
    · exact .of_le rfl hsmall
    · split
      · exact .of_le rfl hsmall
      · exact hreal
  · rw [if_pos hexponent]
    exact hreal

/-- Shifting the exponent of a significand multiplies it by the power of ten. -/
theorem value_shiftExponent (sig : Significand) (p : PowerText) (n : ℕ)
    (hn : decimalValue p.digits.bytes = n) :
    (shiftExponent sig p.isDown n).value = sig.value * 10 ^ p.exponent := by
  unfold shiftExponent Significand.value PowerText.exponent
  rw [hn]
  cases p.isDown with
  | true =>
    show (sig.digits : ℚ) * 10 ^ (sig.exponent - (n : ℤ)) = _
    rw [sub_eq_add_neg, zpow_add₀ (by norm_num), ← mul_assoc]
    rfl
  | false =>
    show (sig.digits : ℚ) * 10 ^ (sig.exponent + (n : ℤ)) = _
    rw [zpow_add₀ (by norm_num), ← mul_assoc]
    rfl

/-- The exponent of a power behind a minus is negative. -/
theorem PowerText.exponent_of_down (p : PowerText) (h : p.isDown = true) :
    p.exponent = -(decimalValue p.digits.bytes : ℤ) := by
  unfold exponent
  rw [h]
  rfl

/-- The exponent of any other power is what its digits say. -/
theorem PowerText.exponent_of_up (p : PowerText) (h : p.isDown = false) :
    p.exponent = (decimalValue p.digits.bytes : ℤ) := by
  unfold exponent
  rw [h]
  rfl

/-- A power of ten that outweighs the digits makes a number too large. -/
theorem rangeLimit_le_of_power {v : ℚ} {w d : ℕ} (hv : 1 ≤ v * 10 ^ w) (hd : w + 309 ≤ d) :
    rangeLimit ≤ v * 10 ^ (d : ℤ) := by
  have hscale : (10 : ℚ) ^ 309 ≤ 10 ^ (d - w) := pow_le_pow_right₀ (by norm_num) (by omega)
  have hsplit : v * 10 ^ (d : ℤ) = v * 10 ^ w * 10 ^ (d - w) := by
    rw [zpow_natCast, mul_assoc, ← pow_add, Nat.add_sub_cancel' (by omega)]
  rw [hsplit]
  exact le_trans (le_trans rangeLimit_lt_tenPow.le hscale)
    (le_mul_of_one_le_left (by positivity) hv)

/-- The inverse of a power of ten that outweighs the digits makes a number small. -/
theorem power_le_one {v : ℚ} {w d : ℕ} (hv : v ≤ 10 ^ w) (hd : w ≤ d) :
    v * 10 ^ (-(d : ℤ)) ≤ 1 := by
  have hless : (10 : ℚ) ^ w * 10 ^ (-(d : ℤ)) ≤ 1 := by
    rw [← zpow_natCast, ← zpow_add₀ (by norm_num)]
    exact zpow_le_one_of_nonpos₀ (by norm_num) (by omega)
  exact le_trans (mul_le_mul_of_nonneg_right hv (by positivity)) hless

/-- A significand is zero just where the values near it are. -/
theorem digits_eq_zero_iff {sig : Significand} {v : ℚ} (hnear : Near sig.value v) (hv : 0 ≤ v) :
    sig.digits = 0 ↔ v = 0 := by
  obtain ⟨habove, hbelow⟩ := hnear
  constructor
  · intro hzero
    have hvalue : sig.value = 0 := by
      unfold Significand.value
      rw [hzero, Nat.cast_zero, zero_mul]
    rw [hvalue, zero_mul] at hbelow
    exact le_antisymm hbelow hv
  · rintro rfl
    by_contra hne
    have hpositive : 0 < sig.value :=
      mul_pos (Nat.cast_pos.2 (Nat.pos_of_ne_zero hne)) (by positivity)
    rw [zero_mul] at habove
    exact absurd hpositive (not_lt.2 habove)

/-- A number with a power of ten, if its digits are not so many that they could make up for an
exponent beyond its own range. -/
theorem ranged_power (p : PowerText) (negative : Bool) {sig : Significand}
    (hfits : sig.digits ≤ maxWord) {v : ℚ} (hnear : Near sig.value v) {w : ℕ}
    (hw : w + 309 ≤ maxExponent) (hv : 0 ≤ v) (hsmall : v ≤ 10 ^ w)
    (hlarge : v ≠ 0 → 1 ≤ v * 10 ^ w) :
    Ranged (v * 10 ^ p.exponent) (p.number? negative sig) := by
  have hone : 1 ≤ rangeLimit := one_le_pow₀ (by norm_num)
  have hzero := digits_eq_zero_iff hnear hv
  rcases exponentDigits_cases 0 p.digits.bytes (Nat.zero_le _) with
    hvalue | ⟨⟨left, hleft⟩, hbeyond⟩
  · have hshift := hnear.mul (by positivity : (0 : ℚ) ≤ 10 ^ p.exponent)
    rw [← value_shiftExponent sig p _ rfl] at hshift
    rw [Nat.zero_mul, Nat.zero_add] at hvalue
    unfold PowerText.number?
    rw [hvalue]
    have hfits' : (shiftExponent sig p.isDown (decimalValue p.digits.bytes)).digits ≤ maxWord :=
      hfits
    exact (ranged_toBinary64? hfits' hshift).map _
  · -- The exponent is beyond its range, so it outweighs all digits unless they are zeros.
    rw [Nat.zero_mul, Nat.zero_add] at hbeyond
    unfold PowerText.number?
    rw [hleft]
    show Ranged _ (if _ then _ else _)
    cases hdown : p.isDown with
    | true =>
      have hless := power_le_one hsmall (d := decimalValue p.digits.bytes) (by omega)
      rw [if_neg (fun h => Bool.noConfusion h.2), p.exponent_of_down hdown]
      exact .of_le rfl (le_trans hless hone)
    | false =>
      by_cases hdigits : sig.digits = 0
      · rw [if_neg (fun h => h.1 hdigits), hzero.1 hdigits, zero_mul]
        exact .of_le rfl rangeLimit_pos.le
      · have hfar := rangeLimit_le_of_power (d := decimalValue p.digits.bytes)
          (hlarge fun h => hdigits (hzero.2 h)) (by omega)
        rw [if_pos ⟨hdigits, rfl⟩, p.exponent_of_up hdown]
        exact .of_ge rfl hfar

/-- The numbers that are read are those within the range of double precision. -/
theorem ranged_number? {t : NumberText} (hlength : t.text.length + 309 ≤ maxExponent) :
    Ranged t.magnitude t.number? := by
  obtain ⟨hfits, hnear⟩ := near_significand t
  obtain ⟨hsmall, hlarge⟩ := digitsValue_between t
  have hnonneg : 0 ≤ t.digitsValue := mul_nonneg (Nat.cast_nonneg _) (by positivity)
  have hscaled : Ranged t.magnitude (scaled? t.power t.negative t.significand) := by
    unfold NumberText.magnitude
    cases t.power with
    | none => exact (ranged_toBinary64? hfits hnear).map _
    | some p => exact ranged_power p t.negative hfits hnear hlength hnonneg hsmall hlarge
  unfold NumberText.number?
  split
  · next hpower =>
    have hmagnitude : t.magnitude = t.digitsValue := by
      unfold NumberText.magnitude
      rw [hpower]
    rw [hmagnitude]
    exact ranged_plain? t.negative hfits hnear
  · exact hscaled

end Colloquy.Json
