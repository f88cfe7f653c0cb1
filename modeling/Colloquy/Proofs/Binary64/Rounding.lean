import Colloquy.Binary64
import Mathlib.Algebra.Order.Field.Rat
import Mathlib.Algebra.Order.Field.Power
import Mathlib.Tactic.Linarith
import Mathlib.Tactic.NormNum
import Mathlib.Tactic.Positivity
import Mathlib.Tactic.Ring
import Mathlib.Tactic.FieldSimp

/-!
# Rounding

How far a rounded quotient is from the quotient, and when it is infinite. The unit of a quotient
that is not too small has `2 ^ 52` to `2 ^ 53` parts of it (`unitExponent_spec`), so that the number
of units is off by a half at most and the value by one part in `2 ^ 53` (`value_ofRatio`). A
quotient from `2 ^ 1024` on is infinite, one within the largest number is not.
-/

set_option autoImplicit false

namespace Colloquy.Binary64

/-- A power of two is the same among the rational numbers. -/
theorem cast_twoPow (n : ℕ) : ((Nat.pow 2 n : ℕ) : ℚ) = 2 ^ n :=
  Nat.cast_pow 2 n

/-- A power of a sum of exponents is a product of powers. -/
theorem twoPow_add (m n : ℕ) : (2 : ℚ) ^ (m + n) = 2 ^ m * 2 ^ (n : ℤ) := by
  rw [pow_add, zpow_natCast]

/-- An integer is a natural number or the negative of one. -/
theorem exists_neg_of_not_le {e : ℤ} (h : ¬0 ≤ e) : ∃ n : ℕ, e = -(n : ℤ) ∧ (-e).toNat = n := by
  obtain ⟨n, hn⟩ := Int.eq_ofNat_of_zero_le (Int.le_of_lt (Int.neg_pos_of_neg (not_le.1 h)))
  exact ⟨n, by omega, by omega⟩

/-- The value of a finite number, up to its sign. -/
def value (x : Binary64) : ℚ :=
  x.ratio.1 / x.ratio.2

/-- The value of a number is its significand in units of its exponent. -/
theorem value_eq (x : Binary64) : x.value = x.significand * 2 ^ x.exponent := by
  unfold value ratio
  split
  · next h =>
    obtain ⟨n, hn⟩ := Int.eq_ofNat_of_zero_le h
    rw [hn, Int.toNat_natCast]
    show ((x.significand * Nat.pow 2 n : ℕ) : ℚ) / (1 : ℕ) = _
    rw [Nat.cast_one, div_one, Nat.cast_mul, cast_twoPow, zpow_natCast]
  · next h =>
    obtain ⟨n, hexponent, hn⟩ := exists_neg_of_not_le h
    rw [hn, hexponent, zpow_neg, zpow_natCast, ← div_eq_mul_inv, cast_twoPow]

/-- A zero, of either sign, is worth nothing. -/
theorem value_of_isZero {x : Binary64} (h : x.isZero = true) : x.value = 0 := by
  have hmagnitude : x.magnitude = 0 := beq_iff_eq.1 h
  have hsignificand : x.significand = 0 := by
    unfold significand
    rw [hmagnitude]
    exact if_pos (Nat.two_pow_pos 52)
  rw [value_eq, hsignificand, Nat.cast_zero, zero_mul]

/-! ## The number of units -/

/-- A quotient to the nearest natural number is off by a half at most. -/
theorem divideToEven_spec {den : ℕ} (hden : den ≠ 0) (num : ℕ) :
    |(divideToEven num den : ℚ) - num / den| ≤ 1 / 2 := by
  have hpositive : (0 : ℚ) < den := Nat.cast_pos.2 (Nat.pos_of_ne_zero hden)
  have hdivision := Nat.div_add_mod num den
  have hremainder := Nat.mod_lt num (Nat.pos_of_ne_zero hden)
  have hnear : 2 * (den * divideToEven num den) ≤ 2 * num + den ∧
      2 * num ≤ 2 * (den * divideToEven num den) + den := by
    have hnext : den * (num / den + 1) = den * (num / den) + den := Nat.mul_succ _ _
    unfold divideToEven
    simp only
    split
    · omega
    · split
      · rw [hnext]
        omega
      · split
        · omega
        · rw [hnext]
          omega
  have hcast : (2 * (den * divideToEven num den) : ℚ) ≤ 2 * num + den ∧
      (2 * num : ℚ) ≤ 2 * (den * divideToEven num den) + den := by
    exact_mod_cast hnear
  rw [abs_le]
  constructor
  · rw [neg_le_sub_iff_le_add, div_le_iff₀ hpositive]
    linarith
  · rw [sub_le_iff_le_add, ← sub_le_iff_le_add', le_div_iff₀ hpositive]
    linarith

/-- So is the number of units in a quotient. -/
theorem inUnitsOf_spec {den : ℕ} (hden : den ≠ 0) (num : ℕ) (e : ℤ) :
    |(inUnitsOf num den e : ℚ) - num / den / 2 ^ e| ≤ 1 / 2 := by
  unfold inUnitsOf
  split
  · next h =>
    obtain ⟨n, rfl⟩ := Int.eq_ofNat_of_zero_le h
    have hscaled : den * Nat.pow 2 n ≠ 0 := Nat.mul_ne_zero hden (Nat.two_pow_pos n).ne'
    have hspec := divideToEven_spec hscaled num
    rw [Nat.cast_mul, cast_twoPow, ← div_div] at hspec
    rw [Int.toNat_natCast, zpow_natCast]
    exact hspec
  · next h =>
    obtain ⟨n, rfl, hn⟩ := exists_neg_of_not_le h
    have hspec := divideToEven_spec hden (num * Nat.pow 2 n)
    rw [Nat.cast_mul, cast_twoPow, mul_div_right_comm] at hspec
    rw [hn, zpow_neg, zpow_natCast, div_inv_eq_mul]
    exact hspec

/-- A quotient lies within a factor of two of what the lengths of its parts say. -/
theorem quotient_between {num den : ℕ} (hnum : num ≠ 0) (hden : den ≠ 0) :
    (2 : ℚ) ^ ((num.log2 : ℤ) - den.log2 - 1) ≤ num / den ∧
      (num / den : ℚ) < 2 ^ ((num.log2 : ℤ) - den.log2 + 1) := by
  have hpositive : (0 : ℚ) < den := Nat.cast_pos.2 (Nat.pos_of_ne_zero hden)
  have hnumLow : (2 : ℚ) ^ num.log2 ≤ num := by exact_mod_cast Nat.log2_self_le hnum
  have hdenLow : (2 : ℚ) ^ den.log2 ≤ den := by exact_mod_cast Nat.log2_self_le hden
  have hnumHigh : (num : ℚ) < 2 ^ (num.log2 + 1) := by exact_mod_cast Nat.lt_log2_self
  have hdenHigh : (den : ℚ) < 2 ^ (den.log2 + 1) := by exact_mod_cast Nat.lt_log2_self
  have htwo : (2 : ℚ) ≠ 0 := by norm_num
  constructor
  · have hexponent : (num.log2 : ℤ) - den.log2 - 1 = num.log2 - ((den.log2 + 1 : ℕ) : ℤ) := by
      push_cast
      ring
    rw [hexponent, zpow_sub₀ htwo, zpow_natCast, zpow_natCast]
    exact div_le_div₀ (Nat.cast_nonneg num) hnumLow hpositive hdenHigh.le
  · have hexponent : (num.log2 : ℤ) - den.log2 + 1 = ((num.log2 + 1 : ℕ) : ℤ) - den.log2 := by
      push_cast
      ring
    rw [hexponent, zpow_sub₀ htwo, zpow_natCast, zpow_natCast]
    exact div_lt_div₀ hnumHigh hdenLow (by positivity) (by positivity)

/-- The comparison by which a unit is chosen. -/
theorem wide_iff {den : ℕ} (hden : den ≠ 0) (num : ℕ) (guess : ℤ) :
    (if 0 ≤ guess then decide (den * Nat.pow 2 (guess.toNat + 53) ≤ num)
      else decide (den * Nat.pow 2 53 ≤ num * Nat.pow 2 (-guess).toNat)) = true ↔
      2 ^ 53 * 2 ^ guess ≤ (num / den : ℚ) := by
  have hpositive : (0 : ℚ) < den := Nat.cast_pos.2 (Nat.pos_of_ne_zero hden)
  split
  · next h =>
    obtain ⟨n, rfl⟩ := Int.eq_ofNat_of_zero_le h
    rw [decide_eq_true_iff, Int.toNat_natCast, zpow_natCast, le_div_iff₀ hpositive,
      ← Nat.cast_le (α := ℚ), Nat.cast_mul, cast_twoPow, pow_add]
    rw [show (den : ℚ) * (2 ^ n * 2 ^ 53) = 2 ^ 53 * 2 ^ n * den by ring]
  · next h =>
    obtain ⟨n, rfl, hn⟩ := exists_neg_of_not_le h
    have hscale : (0 : ℚ) < 2 ^ n := by positivity
    rw [decide_eq_true_iff, hn, zpow_neg, zpow_natCast, le_div_iff₀ hpositive,
      ← Nat.cast_le (α := ℚ), Nat.cast_mul, Nat.cast_mul, cast_twoPow, cast_twoPow]
    rw [show (2 : ℚ) ^ 53 * (2 ^ n)⁻¹ * den = den * 2 ^ 53 / 2 ^ n by ring, div_le_iff₀ hscale]

/-- The unit of a quotient from a half on has `2 ^ 52` to `2 ^ 53` parts of it. -/
theorem unitExponent_spec {num den : ℕ} (hden : den ≠ 0) (hhalf : (1 / 2 : ℚ) ≤ num / den) :
    -54 ≤ unitExponent num den ∧
      2 ^ 52 * 2 ^ unitExponent num den ≤ (num / den : ℚ) ∧
      (num / den : ℚ) < 2 ^ 53 * 2 ^ unitExponent num den := by
  have hnum : num ≠ 0 := by
    rintro rfl
    norm_num at hhalf
  obtain ⟨hlow, hhigh⟩ := quotient_between hnum hden
  have hlengths : (-1 : ℤ) < num.log2 - den.log2 + 1 := by
    have hhalf' : (2 : ℚ) ^ (-1 : ℤ) ≤ num / den := by
      rw [zpow_neg_one, ← one_div]
      exact hhalf
    exact (zpow_lt_zpow_iff_right₀ (by norm_num)).1 (lt_of_le_of_lt hhalf' hhigh)
  obtain ⟨guess, hguess⟩ : ∃ guess : ℤ, (num.log2 : ℤ) - den.log2 - 53 = guess := ⟨_, rfl⟩
  have hwide := wide_iff hden num guess
  have hpower (k : ℕ) : (2 : ℚ) ^ (guess + k) = 2 ^ k * 2 ^ guess := by
    rw [zpow_add₀ (by norm_num), zpow_natCast, mul_comm]
  have hlow' : (2 : ℚ) ^ 52 * 2 ^ guess ≤ num / den := by
    rw [← hpower, ← hguess]
    push_cast
    rw [show (num.log2 : ℤ) - den.log2 - 53 + 52 = num.log2 - den.log2 - 1 by ring]
    exact hlow
  have hhigh' : (num / den : ℚ) < 2 ^ 54 * 2 ^ guess := by
    rw [← hpower, ← hguess]
    push_cast
    rw [show (num.log2 : ℤ) - den.log2 - 53 + 54 = num.log2 - den.log2 + 1 by ring]
    exact hhigh
  have hunit : unitExponent num den = max (if 2 ^ 53 * 2 ^ guess ≤ (num / den : ℚ) then guess + 1
      else guess) (-1074) := by
    simp only [← hwide]
    rw [← hguess]
    rfl
  rw [hunit]
  -- The lengths tell the unit up to a factor of two, and the comparison tells which one it is.
  split
  · next h =>
    have hmax : max (guess + 1) (-1074) = guess + 1 := by omega
    have hnext := hpower 1
    push_cast at hnext
    rw [hmax, hnext]
    refine ⟨by omega, ?_, ?_⟩
    · linarith
    · linarith
  · next h =>
    have hmax : max guess (-1074) = guess := by omega
    rw [hmax]
    exact ⟨by omega, hlow', not_le.1 h⟩

/-! ## The rounded quotient -/

/-- A pattern that is no larger than that of infinity is the magnitude of its number. -/
theorem magnitude_ofMagnitude {pattern : ℕ} (h : pattern ≤ infinityPattern) :
    (ofMagnitude pattern).magnitude = pattern := by
  have hinfinity : infinityPattern < signWeight := by decide
  have hsign : signWeight < 2 ^ 64 := by decide
  show (UInt64.ofNat pattern).toNat % signWeight = pattern
  rw [UInt64.toNat_ofNat', Nat.mod_eq_of_lt (by omega), Nat.mod_eq_of_lt (by omega)]

/-- The value of a pattern by its exponent, which is not the least, and the bits behind it. -/
theorem value_ofFields {field rest : ℕ} (hfield : 1 ≤ field) (hrest : rest < Nat.pow 2 52)
    (hpattern : field * Nat.pow 2 52 + rest ≤ infinityPattern) :
    (ofMagnitude (field * Nat.pow 2 52 + rest)).value =
      (rest + Nat.pow 2 52 : ℕ) * 2 ^ ((field : ℤ) - 1075) := by
  have hpositive : 0 < Nat.pow 2 52 := Nat.two_pow_pos 52
  have hdiv : (field * Nat.pow 2 52 + rest) / Nat.pow 2 52 = field := by
    rw [Nat.add_comm, Nat.add_mul_div_right _ _ hpositive, Nat.div_eq_of_lt hrest, Nat.zero_add]
  have hmod : (field * Nat.pow 2 52 + rest) % Nat.pow 2 52 = rest := by
    rw [Nat.add_comm, Nat.add_mul_mod_self_right, Nat.mod_eq_of_lt hrest]
  have hlarge : ¬field * Nat.pow 2 52 + rest < Nat.pow 2 52 := by
    have hone := Nat.le_mul_of_pos_left (Nat.pow 2 52) hfield
    omega
  have hmax : max (Int.ofNat field) 1 = (field : ℤ) := max_eq_left (by
    show (1 : ℤ) ≤ (field : ℤ)
    omega)
  rw [value_eq]
  unfold significand exponent
  rw [magnitude_ofMagnitude hpattern, if_neg hlarge, hdiv, hmod, hmax]

/-- The value of a pattern that is made of an exponent and a full number of units. -/
theorem value_ofMagnitude {k m : ℕ} (hlow : Nat.pow 2 52 ≤ m) (hhigh : m ≤ Nat.pow 2 53)
    (hpattern : k * Nat.pow 2 52 + m ≤ infinityPattern) :
    (ofMagnitude (k * Nat.pow 2 52 + m)).value = m * 2 ^ ((k : ℤ) - 1074) := by
  rcases Nat.lt_or_ge m (Nat.pow 2 53) with hm | hm
  · obtain ⟨rest, rfl⟩ := Nat.exists_eq_add_of_le' hlow
    have hfields : k * Nat.pow 2 52 + (rest + Nat.pow 2 52) = (k + 1) * Nat.pow 2 52 + rest := by
      rw [Nat.succ_mul, Nat.add_assoc, Nat.add_comm rest]
    have hrest : rest < Nat.pow 2 52 := by
      have hunit : Nat.pow 2 53 = Nat.pow 2 52 + Nat.pow 2 52 := by decide
      omega
    have hexponent : ((k + 1 : ℕ) : ℤ) - 1075 = k - 1074 := by
      push_cast
      ring
    rw [hfields] at hpattern ⊢
    rw [value_ofFields (Nat.le_add_left 1 k) hrest hpattern, hexponent]
  · -- A full number of units carries into the exponent.
    obtain rfl : m = Nat.pow 2 53 := Nat.le_antisymm hhigh hm
    have hfields : k * Nat.pow 2 52 + Nat.pow 2 53 = (k + 2) * Nat.pow 2 52 + 0 := by
      have hunit : Nat.pow 2 53 = 2 * Nat.pow 2 52 := by decide
      have hsum := Nat.add_mul k 2 (Nat.pow 2 52)
      omega
    have hexponent : ((k + 2 : ℕ) : ℤ) - 1075 = (k - 1074 : ℤ) + 1 := by
      push_cast
      ring
    rw [hfields] at hpattern ⊢
    rw [value_ofFields (Nat.le_add_left 1 (k + 1)) (Nat.two_pow_pos 52) hpattern, hexponent,
      zpow_add_one₀ (by norm_num), Nat.zero_add, cast_twoPow, cast_twoPow]
    ring

/-- The number of units of a quotient from a half on. -/
theorem inUnitsOf_between {num den : ℕ} (hden : den ≠ 0) (hhalf : (1 / 2 : ℚ) ≤ num / den) :
    Nat.pow 2 52 ≤ inUnitsOf num den (unitExponent num den) ∧
      inUnitsOf num den (unitExponent num den) ≤ Nat.pow 2 53 := by
  obtain ⟨_, hlow, hhigh⟩ := unitExponent_spec hden hhalf
  have hunit : (0 : ℚ) < 2 ^ unitExponent num den := by positivity
  obtain ⟨hbelow, habove⟩ := abs_le.1 (inUnitsOf_spec hden num (unitExponent num den))
  rw [← le_div_iff₀ hunit] at hlow
  rw [← div_lt_iff₀ hunit] at hhigh
  constructor
  · have hclose : ((Nat.pow 2 52 : ℕ) : ℚ) < inUnitsOf num den (unitExponent num den) + 1 := by
      rw [cast_twoPow]
      linarith
    exact Nat.le_of_lt_succ (by exact_mod_cast hclose)
  · have hclose : (inUnitsOf num den (unitExponent num den) : ℚ) < (Nat.pow 2 53 : ℕ) + 1 := by
      rw [cast_twoPow]
      linarith
    exact Nat.le_of_lt_succ (by exact_mod_cast hclose)

/-! ## Finite and infinite quotients -/

/-- The pattern of a quotient before it is bounded by that of infinity. -/
def patternOf (num den : ℕ) : ℕ :=
  (unitExponent num den + 1074).toNat * Nat.pow 2 52 + inUnitsOf num den (unitExponent num den)

variable {num den : ℕ} (hden : den ≠ 0) (hhalf : (1 / 2 : ℚ) ≤ num / den)

include hhalf in
/-- A fraction is rounded to the number of its pattern, or to infinity if that is beyond it. -/
theorem ofRatio_eq :
    ofRatio num den = ofMagnitude (min (patternOf num den) infinityPattern) := by
  have hnum : num ≠ 0 := by
    rintro rfl
    norm_num at hhalf
  exact if_neg hnum

include hhalf in
/-- A fraction is rounded to infinity exactly if its pattern reaches that of infinity. -/
theorem isInfinite_ofRatio_iff :
    (ofRatio num den).isInfinite = true ↔ infinityPattern ≤ patternOf num den := by
  unfold isInfinite
  rw [ofRatio_eq hhalf, magnitude_ofMagnitude (Nat.min_le_right _ _), beq_iff_eq]
  exact inf_eq_right

include hden hhalf

/-- A quotient beyond the range of the exponents is infinite. -/
theorem isInfinite_ofRatio (h : (2 : ℚ) ^ 1024 ≤ num / den) :
    (ofRatio num den).isInfinite = true := by
  obtain ⟨_, _, hhigh⟩ := unitExponent_spec hden hhalf
  obtain ⟨hunits, _⟩ := inUnitsOf_between hden hhalf
  have hexponent : 971 < unitExponent num den := by
    have htop : (2 : ℚ) ^ 1024 = 2 ^ 53 * 2 ^ ((971 : ℕ) : ℤ) := twoPow_add 53 971
    have hscaled := lt_of_le_of_lt (htop ▸ h) hhigh
    have hpower := lt_of_mul_lt_mul_left hscaled (by positivity)
    exact (zpow_lt_zpow_iff_right₀ (by norm_num)).1 hpower
  have hplaces : 2046 ≤ (unitExponent num den + 1074).toNat := by omega
  have hinfinity : infinityPattern = 2046 * Nat.pow 2 52 + Nat.pow 2 52 := by decide
  rw [isInfinite_ofRatio_iff hhalf, hinfinity]
  exact Nat.add_le_add (Nat.mul_le_mul_right _ hplaces) hunits

/-- A quotient within the largest number is finite. -/
theorem not_isInfinite_ofRatio (h : (num / den : ℚ) ≤ 2 ^ 1024 - 2 ^ 971) :
    (ofRatio num den).isInfinite = false := by
  obtain ⟨_, hlow, _⟩ := unitExponent_spec hden hhalf
  obtain ⟨_, hunits⟩ := inUnitsOf_between hden hhalf
  have hexponent : unitExponent num den < 972 := by
    have htop : (2 : ℚ) ^ 1024 = 2 ^ 52 * 2 ^ ((972 : ℕ) : ℤ) := twoPow_add 52 972
    have hless : (2 : ℚ) ^ 1024 - 2 ^ 971 < 2 ^ 1024 := sub_lt_self _ (by positivity)
    have hscaled := lt_of_le_of_lt hlow (htop ▸ lt_of_le_of_lt h hless)
    have hpower := lt_of_mul_lt_mul_left hscaled (by positivity)
    exact (zpow_lt_zpow_iff_right₀ (by norm_num)).1 hpower
  have hfinite : patternOf num den < infinityPattern := by
    -- With the largest exponent the units stay below a full number of them.
    rcases lt_or_eq_of_le (show unitExponent num den ≤ 971 by omega) with hless | heq
    · have hplaces : (unitExponent num den + 1074).toNat ≤ 2044 := by omega
      have hinfinity : 2044 * Nat.pow 2 52 + Nat.pow 2 53 < infinityPattern := by decide
      exact Nat.lt_of_le_of_lt (Nat.add_le_add (Nat.mul_le_mul_right _ hplaces) hunits) hinfinity
    · have htop : (2 : ℚ) ^ 1024 = 2 ^ 53 * 2 ^ ((971 : ℕ) : ℤ) := twoPow_add 53 971
      have hbelow : (num / den : ℚ) / 2 ^ unitExponent num den ≤ 2 ^ 53 - 1 := by
        rw [div_le_iff₀ (by positivity), heq, sub_mul, one_mul]
        show (num / den : ℚ) ≤ 2 ^ 53 * 2 ^ ((971 : ℕ) : ℤ) - 2 ^ ((971 : ℕ) : ℤ)
        rw [← htop, zpow_natCast]
        exact h
      have hnear := (abs_le.1 (inUnitsOf_spec hden num (unitExponent num den))).2
      have hunits' : inUnitsOf num den (unitExponent num den) < Nat.pow 2 53 := by
        rw [← Nat.cast_lt (α := ℚ), cast_twoPow]
        linarith
      have hplaces : (unitExponent num den + 1074).toNat = 2045 := by omega
      have hinfinity : infinityPattern = 2045 * Nat.pow 2 52 + Nat.pow 2 53 := by decide
      unfold patternOf
      rw [hplaces, hinfinity]
      exact Nat.add_lt_add_left hunits' _
  have hnot : ¬(ofRatio num den).isInfinite = true := by
    rw [isInfinite_ofRatio_iff hhalf]
    exact Nat.not_le_of_lt hfinite
  exact Bool.eq_false_iff.2 hnot

/-- A finite quotient is off by one part in `2 ^ 53` at most. -/
theorem value_ofRatio (h : (ofRatio num den).isInfinite = false) :
    |(ofRatio num den).value - num / den| ≤ num / den / 2 ^ 53 := by
  obtain ⟨hexponent, hlow, _⟩ := unitExponent_spec hden hhalf
  obtain ⟨hunitsLow, hunitsHigh⟩ := inUnitsOf_between hden hhalf
  have hunit : (0 : ℚ) < 2 ^ unitExponent num den := by positivity
  have hfinite : patternOf num den < infinityPattern := by
    rw [← Bool.not_eq_true, isInfinite_ofRatio_iff hhalf] at h
    exact Nat.lt_of_not_le h
  have hplaces : ((unitExponent num den + 1074).toNat : ℤ) - 1074 = unitExponent num den := by
    omega
  have hvalue : (ofRatio num den).value =
      inUnitsOf num den (unitExponent num den) * 2 ^ unitExponent num den := by
    rw [ofRatio_eq hhalf, Nat.min_eq_left hfinite.le]
    unfold patternOf
    rw [value_ofMagnitude hunitsLow hunitsHigh hfinite.le, hplaces]
  have herror : (ofRatio num den).value - num / den =
      (inUnitsOf num den (unitExponent num den) - num / den / 2 ^ unitExponent num den) *
        2 ^ unitExponent num den := by
    rw [hvalue, sub_mul, div_mul_cancel₀ _ hunit.ne']
  have hnear := mul_le_mul_of_nonneg_right
    (inUnitsOf_spec hden num (unitExponent num den)) hunit.le
  have hsmall : 1 / 2 * 2 ^ unitExponent num den ≤ (num / den : ℚ) / 2 ^ 53 := by
    rw [le_div_iff₀ (by positivity)]
    linarith
  rw [herror, abs_mul, abs_of_pos hunit]
  exact le_trans hnear hsmall

omit hden hhalf

/-! ## Natural numbers and products -/

/-- The fraction of a number has a denominator. -/
theorem ratio_snd_ne_zero (x : Binary64) : x.ratio.2 ≠ 0 := by
  unfold ratio
  split
  · exact Nat.one_ne_zero
  · exact (Nat.two_pow_pos _).ne'

/-- A natural number within the largest number is finite, and off by one part in `2 ^ 53` at
most. -/
theorem ofNat_spec {n : ℕ} (hpositive : n ≠ 0) (h : (n : ℚ) ≤ 2 ^ 1024 - 2 ^ 971) :
    (ofNat n).isInfinite = false ∧ |(ofNat n).value - n| ≤ n / 2 ^ 53 := by
  have hquotient : (n : ℚ) / (1 : ℕ) = n := by rw [Nat.cast_one, div_one]
  have hhalf : (1 / 2 : ℚ) ≤ n / (1 : ℕ) := by
    have hone : (1 : ℚ) ≤ n := by exact_mod_cast Nat.one_le_iff_ne_zero.2 hpositive
    rw [hquotient]
    linarith
  have hfinite := not_isInfinite_ofRatio Nat.one_ne_zero hhalf (by rwa [hquotient])
  have hvalue := value_ofRatio Nat.one_ne_zero hhalf hfinite
  rw [hquotient] at hvalue
  exact ⟨hfinite, hvalue⟩

/-- The product of finite numbers is rounded once, so its range is that of the exact product. -/
theorem isInfinite_mul {x y : Binary64} (hx : x.isInfinite = false) (hy : y.isInfinite = false)
    (hhalf : 1 / 2 ≤ x.value * y.value) :
    (2 ^ 1024 ≤ x.value * y.value → (x.mul y).isInfinite = true) ∧
      (x.value * y.value ≤ 2 ^ 1024 - 2 ^ 971 → (x.mul y).isInfinite = false) := by
  have hmul : x.mul y = ofRatio (x.ratio.1 * y.ratio.1) (x.ratio.2 * y.ratio.2) := by
    unfold mul
    rw [hx, hy]
    exact if_neg Bool.false_ne_true
  have hquotient : ((x.ratio.1 * y.ratio.1 : ℕ) : ℚ) / (x.ratio.2 * y.ratio.2 : ℕ) =
      x.value * y.value := by
    unfold value
    rw [Nat.cast_mul, Nat.cast_mul, div_mul_div_comm]
  have hden : x.ratio.2 * y.ratio.2 ≠ 0 :=
    Nat.mul_ne_zero x.ratio_snd_ne_zero y.ratio_snd_ne_zero
  rw [← hquotient] at hhalf ⊢
  rw [hmul]
  exact ⟨isInfinite_ofRatio hden hhalf, not_isInfinite_ofRatio hden hhalf⟩

end Colloquy.Binary64
