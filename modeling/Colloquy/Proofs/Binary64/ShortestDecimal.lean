import Colloquy.Binary64.Shortest
import Colloquy.Proofs.Binary64.Rounding

/-!
# The shortest decimal stands for its number

The interval of the reals that round to a number is wider than a step of the seventeenth digit of
the number, so the search for its shortest decimal finds one, within the interval
(`shortest_between`). The numbers next to a number are twice as far away as the ends of its
interval, so that no other number is nearer to the decimal (`shortest_nearest`).
-/

set_option autoImplicit false

namespace Colloquy

/-- The value of a decimal. -/
def Decimal.value (d : Decimal) : ℚ :=
  d.digits * 10 ^ d.exponent

namespace Binary64

/-- A power with an integer as its exponent is a fraction of powers, one of which is one. -/
theorem pow_toNat_div {base : ℕ} (hbase : base ≠ 0) (e : ℤ) :
    ((Nat.pow base e.toNat : ℕ) : ℚ) / (Nat.pow base (-e).toNat : ℕ) = (base : ℚ) ^ e := by
  have hbase' : (base : ℚ) ≠ 0 := Nat.cast_ne_zero.2 hbase
  have hcast (n : ℕ) : ((Nat.pow base n : ℕ) : ℚ) = (base : ℚ) ^ (n : ℤ) := by
    rw [zpow_natCast]
    exact Nat.cast_pow base n
  rw [hcast, hcast, ← zpow_sub₀ hbase']
  congr 1
  omega

/-! ## Grids -/

namespace Interval

variable {i : Interval} {k : ℤ} {n : ℕ}

/-- A multiple of a power of ten lies within an interval or at one of its ends. -/
def Holds (i : Interval) (k : ℤ) (n : ℕ) : Prop :=
  (i.low : ℚ) / i.unit ≤ n * 10 ^ k ∧ (n : ℚ) * 10 ^ k ≤ i.high / i.unit

/-- Comparing a multiple with an end is comparing whole numbers. -/
theorem holds_iff (hunit : 0 < i.unit) : i.Holds k n ↔
    i.low * Nat.pow 10 (-k).toNat ≤ n * (i.unit * Nat.pow 10 k.toNat) ∧
      n * (i.unit * Nat.pow 10 k.toNat) ≤ i.high * Nat.pow 10 (-k).toNat := by
  have hunit' : (0 : ℚ) < i.unit := Nat.cast_pos.2 hunit
  have hup : (0 : ℚ) < (Nat.pow 10 (-k).toNat : ℕ) := Nat.cast_pos.2 (Nat.pow_pos (by decide))
  have hten : ((Nat.pow 10 k.toNat : ℕ) : ℚ) = 10 ^ k * (Nat.pow 10 (-k).toNat : ℕ) := by
    rw [← div_eq_iff hup.ne']
    exact pow_toNat_div (by decide) k
  unfold Holds
  rw [div_le_iff₀ hunit', le_div_iff₀ hunit', ← Nat.cast_le (α := ℚ), ← Nat.cast_le (α := ℚ)]
  simp only [Nat.cast_mul, hten]
  constructor
  · rintro ⟨hlow, hhigh⟩
    exact ⟨by nlinarith, by nlinarith⟩
  · rintro ⟨hlow, hhigh⟩
    exact ⟨le_of_mul_le_mul_right (by linarith) hup, le_of_mul_le_mul_right (by linarith) hup⟩

/-- Whether a number lies between two others, or perhaps is one of them. -/
def isBetween (closed : Bool) (a b c : ℕ) : Bool :=
  if closed then a ≤ b && b ≤ c else a < b && b < c

/-- What lies between two others is not outside them. -/
theorem le_of_isBetween {closed : Bool} {a b c : ℕ} (h : isBetween closed a b c = true) :
    a ≤ b ∧ b ≤ c := by
  unfold isBetween at h
  split at h
  · simpa only [Bool.and_eq_true, decide_eq_true_eq] using h
  · simp only [Bool.and_eq_true, decide_eq_true_eq] at h
    exact ⟨h.1.le, h.2.le⟩

/-- What does not lie between two others is not strictly inside them. -/
theorem le_of_not_isBetween {closed : Bool} {a b c : ℕ} (h : isBetween closed a b c = false) :
    b ≤ a ∨ c ≤ b := by
  unfold isBetween at h
  split at h
  · simp only [Bool.and_eq_false_iff, decide_eq_false_iff_not] at h
    omega
  · simp only [Bool.and_eq_false_iff, decide_eq_false_iff_not] at h
    omega

/-- What is found on a grid lies within the interval. -/
theorem holds_of_onGrid (hunit : 0 < i.unit) (h : i.onGrid k = some n) : i.Holds k n := by
  rw [holds_iff hunit]
  unfold onGrid at h
  simp only at h
  split at h
  · next hfound _ => exact Option.some.inj h ▸ le_of_isBetween hfound
  · next _ hnext => exact Option.some.inj h ▸ le_of_isBetween hnext
  · cases h
  · next hfound hnext =>
    split at h
    · exact Option.some.inj h ▸ le_of_isBetween hfound
    · split at h
      · exact Option.some.inj h ▸ le_of_isBetween hnext
      · split at h
        · exact Option.some.inj h ▸ le_of_isBetween hfound
        · exact Option.some.inj h ▸ le_of_isBetween hnext

/-- On a grid whose steps are shorter than an interval something is found. -/
theorem exists_onGrid (hunit : 0 < i.unit) (hlow : i.low < i.value) (hhigh : i.value < i.high)
    (hwide : (10 : ℚ) ^ k < (i.high - i.low) / i.unit) : ∃ n, i.onGrid k = some n := by
  have hunit' : (0 : ℚ) < i.unit := Nat.cast_pos.2 hunit
  have hup : 0 < Nat.pow 10 (-k).toNat := Nat.pow_pos (by decide)
  have hup' : (0 : ℚ) < (Nat.pow 10 (-k).toNat : ℕ) := Nat.cast_pos.2 hup
  have hstep : i.low * Nat.pow 10 (-k).toNat + i.unit * Nat.pow 10 k.toNat <
      i.high * Nat.pow 10 (-k).toNat := by
    have hten : (10 : ℚ) ^ k = (Nat.pow 10 k.toNat : ℕ) / (Nat.pow 10 (-k).toNat : ℕ) :=
      (pow_toNat_div (by decide) k).symm
    rw [hten, div_lt_div_iff₀ hup' hunit'] at hwide
    rw [← Nat.cast_lt (α := ℚ)]
    push_cast
    linarith
  -- Of the two neighbours of the number on the grid one is not beyond its end.
  unfold onGrid
  simp only
  have hbelow := Nat.div_mul_le_self (i.value * Nat.pow 10 (-k).toNat)
    (i.unit * Nat.pow 10 k.toNat)
  have habove := Nat.lt_div_mul_add (a := i.value * Nat.pow 10 (-k).toNat)
    (b := i.unit * Nat.pow 10 k.toNat) (Nat.mul_pos hunit (Nat.pow_pos (by decide)))
  have hlow' := Nat.mul_lt_mul_of_pos_right hlow hup
  have hhigh' := Nat.mul_lt_mul_of_pos_right hhigh hup
  split
  · exact ⟨_, rfl⟩
  · exact ⟨_, rfl⟩
  · next hfound hnext =>
    have hfound := le_of_not_isBetween hfound
    have hnext := le_of_not_isBetween hnext
    rw [Nat.succ_mul] at hnext
    omega
  · split
    · exact ⟨_, rfl⟩
    · split
      · exact ⟨_, rfl⟩
      · split <;> exact ⟨_, rfl⟩

/-- The search finds what is on one of the grids that are tried. -/
theorem holds_firstGrid (hunit : 0 < i.unit) {tries : ℕ}
    (h : ∃ j < tries, ∃ n, i.onGrid (k - j) = some n) :
    i.Holds (i.firstGrid tries k).exponent (i.firstGrid tries k).digits := by
  induction tries generalizing k with
  | zero =>
    obtain ⟨j, hj, _⟩ := h
    exact absurd hj (Nat.not_lt_zero j)
  | succ tries ih =>
    unfold firstGrid
    cases hgrid : i.onGrid k with
    | some n => exact holds_of_onGrid hunit hgrid
    | none =>
      obtain ⟨j, hj, n, hn⟩ := h
      cases j with
      | zero =>
        rw [Nat.cast_zero, Int.sub_zero, hgrid] at hn
        cases hn
      | succ j =>
        refine ih ⟨j, Nat.lt_of_succ_lt_succ hj, n, ?_⟩
        rw [← hn]
        congr 1
        push_cast
        ring

end Interval

/-! ## The leading digit -/

/-- The number of digits of a number says between which powers of ten it lies. -/
theorem decimalLength_spec (n : ℕ) :
    n < 10 ^ decimalLength n ∧ (n ≠ 0 → 10 ^ decimalLength n ≤ 10 * n) := by
  induction n using Nat.strongRecOn with
  | _ n ih =>
    unfold decimalLength at ih ⊢
    by_cases hn : n < 10
    · rw [Nat.toDigits_of_lt_base hn, List.length_singleton, Nat.pow_one]
      exact ⟨hn, fun hne => by omega⟩
    · have hten : 10 ≤ n := Nat.le_of_not_lt hn
      obtain ⟨hlt, hle⟩ := ih (n / 10) (by omega)
      rw [Nat.toDigits_of_base_le (by decide) hten, List.length_append, List.length_singleton,
        Nat.pow_succ]
      have hle := hle (by omega)
      exact ⟨by omega, fun _ => by omega⟩

/-- The leading digit of a quotient does not count a greater power of ten than is in it. -/
theorem tenPow_leadingExponent_le {num den : ℕ} (hnum : num ≠ 0) (hden : den ≠ 0) :
    (10 : ℚ) ^ leadingExponent num den ≤ num / den := by
  have hden' : (0 : ℚ) < den := Nat.cast_pos.2 (Nat.pos_of_ne_zero hden)
  have hten : (10 : ℚ) ≠ 0 := by norm_num
  unfold leadingExponent
  simp only
  generalize hguess : Int.ofNat (decimalLength num) - Int.ofNat (decimalLength den) = guess
  -- One below the guess the lengths alone decide.
  have hbelow : (10 : ℚ) ^ (guess - 1) ≤ num / den := by
    have hlow : (10 : ℚ) ^ decimalLength num ≤ 10 * num := by
      exact_mod_cast (decimalLength_spec num).2 hnum
    have hhigh : (den : ℚ) < 10 ^ decimalLength den := by exact_mod_cast (decimalLength_spec den).1
    have hsplit : (10 : ℚ) ^ (guess - 1) =
        10 ^ decimalLength num / 10 ^ decimalLength den / 10 := by
      rw [← hguess, zpow_sub₀ hten, zpow_sub₀ hten, zpow_one]
      rfl
    rw [hsplit, div_div, div_le_div_iff₀ (by positivity) hden']
    have hnum' : (0 : ℚ) ≤ num := Nat.cast_nonneg num
    calc (10 : ℚ) ^ decimalLength num * den
        ≤ 10 * num * 10 ^ decimalLength den :=
          mul_le_mul hlow hhigh.le hden'.le (by positivity)
      _ = num * (10 ^ decimalLength den * 10) := by ring
  split
  · next hpositive =>
    obtain ⟨e, rfl⟩ := Int.eq_ofNat_of_zero_le hpositive
    split
    · next hreached =>
      rw [decide_eq_true_eq, Int.toNat_natCast] at hreached
      rw [le_div_iff₀ hden', zpow_natCast, mul_comm]
      exact_mod_cast hreached
    · exact hbelow
  · next hnegative =>
    obtain ⟨e, rfl, he⟩ := exists_neg_of_not_le hnegative
    split
    · next hreached =>
      rw [decide_eq_true_eq, he] at hreached
      rw [le_div_iff₀ hden', zpow_neg, zpow_natCast, inv_mul_le_iff₀ (by positivity), mul_comm]
      exact_mod_cast hreached
    · exact hbelow

/-! ## The interval of a number -/

/-- A significand has no more than fifty-three binary digits. -/
theorem significand_lt (x : Binary64) : x.significand < 2 ^ 53 := by
  unfold significand
  split
  · next h => exact h.trans (by decide)
  · have hmod := Nat.mod_lt x.magnitude (Nat.two_pow_pos 52)
    have htwice : Nat.pow 2 52 + Nat.pow 2 52 = 2 ^ 53 := by decide
    have hmod : x.magnitude % Nat.pow 2 52 < Nat.pow 2 52 := hmod
    omega

/-- A number that is no zero has a significand that is none. -/
theorem significand_ne_zero {x : Binary64} (h : x.isZero = false) : x.significand ≠ 0 := by
  have hmagnitude : x.magnitude ≠ 0 := by
    intro hzero
    exact absurd (beq_iff_eq.2 hzero) (by simpa [isZero] using h)
  unfold significand
  split
  · exact hmagnitude
  · have hpositive : 0 < Nat.pow 2 52 := Nat.two_pow_pos 52
    omega

/-- How far the lower end of the interval of a number lies below it. Below a power of two that is
not the least one the numbers are closer to one another than above it. -/
def lowerGap (x : Binary64) : ℚ :=
  if x.significand = Nat.pow 2 52 ∧ Nat.pow 2 53 ≤ x.magnitude then 2 ^ x.exponent / 4
  else 2 ^ x.exponent / 2

/-- How far the upper end lies above it. -/
def upperGap (x : Binary64) : ℚ :=
  2 ^ x.exponent / 2

/-- Neither end of the interval of a number is the number itself. -/
theorem gaps_pos (x : Binary64) : 0 < x.lowerGap ∧ 0 < x.upperGap := by
  have hpower : (0 : ℚ) < 2 ^ x.exponent := by positivity
  refine ⟨?_, half_pos hpower⟩
  unfold lowerGap
  split <;> linarith

/-- The lower end lies above zero. -/
theorem lowerGap_lt_value {x : Binary64} (hx : x.significand ≠ 0) : x.lowerGap < x.value := by
  have hpower : (0 : ℚ) < 2 ^ x.exponent := by positivity
  have hone : (1 : ℚ) ≤ x.significand := by exact_mod_cast Nat.one_le_iff_ne_zero.2 hx
  have hvalue := mul_le_mul_of_nonneg_right hone hpower.le
  rw [value_eq]
  unfold lowerGap
  split <;> linarith

/-- The interval of a number as rational numbers. -/
theorem interval_spec {x : Binary64} (hx : x.significand ≠ 0) : 0 < x.interval.unit ∧
    (x.interval.value : ℚ) / x.interval.unit = x.value ∧
    (x.interval.low : ℚ) / x.interval.unit = x.value - x.lowerGap ∧
    (x.interval.high : ℚ) / x.interval.unit = x.value + x.upperGap := by
  have hscale : ((Nat.pow 2 (x.exponent - 2).toNat : ℕ) : ℚ) /
      (Nat.pow 2 (-(x.exponent - 2)).toNat : ℕ) = 2 ^ x.exponent / 4 := by
    rw [pow_toNat_div two_ne_zero, Nat.cast_ofNat, zpow_sub₀ (by norm_num)]
    norm_num
  have hends (n : ℕ) : ((n * Nat.pow 2 (x.exponent - 2).toNat : ℕ) : ℚ) /
      (Nat.pow 2 (-(x.exponent - 2)).toNat : ℕ) = n * (2 ^ x.exponent / 4) := by
    rw [Nat.cast_mul, mul_div_assoc, hscale]
  have hone : 1 ≤ x.significand := Nat.one_le_iff_ne_zero.2 hx
  rw [value_eq]
  refine ⟨Nat.two_pow_pos _, (hends _).trans ?_, (hends _).trans ?_, (hends _).trans ?_⟩
  · push_cast
    ring
  · unfold lowerGap
    by_cases hedge : x.significand = Nat.pow 2 52 ∧ Nat.pow 2 53 ≤ x.magnitude
    · rw [if_pos hedge, if_pos hedge, Nat.cast_sub (by omega)]
      push_cast
      ring
    · rw [if_neg hedge, if_neg hedge, Nat.cast_sub (by omega)]
      push_cast
      ring
  · unfold upperGap
    push_cast
    ring

/-- A number lies between the ends of its interval. -/
theorem low_lt_value_lt_high {x : Binary64} (hx : x.significand ≠ 0) :
    x.interval.low < x.interval.value ∧ x.interval.value < x.interval.high := by
  obtain ⟨hunit, hvalue, hlow, hhigh⟩ := interval_spec hx
  have hunit' : (0 : ℚ) < x.interval.unit := Nat.cast_pos.2 hunit
  obtain ⟨hbelow, habove⟩ := x.gaps_pos
  constructor
  · rw [← Nat.cast_lt (α := ℚ), ← div_lt_div_iff_of_pos_right hunit', hlow, hvalue]
    linarith
  · rw [← Nat.cast_lt (α := ℚ), ← div_lt_div_iff_of_pos_right hunit', hhigh, hvalue]
    linarith

/-- The interval is wider than a step of the seventeenth digit. -/
theorem step_lt_width {x : Binary64} {k : ℤ} (h : (10 : ℚ) ^ (k + 16) ≤ x.value) :
    (10 : ℚ) ^ k < x.lowerGap + x.upperGap := by
  have hpower : (0 : ℚ) < 2 ^ x.exponent := by positivity
  have hten : (10 : ℚ) ^ (k + 16) = 10 ^ k * 10 ^ 16 := by
    rw [zpow_add₀ (by norm_num)]
    norm_num
  rw [hten, value_eq] at h
  unfold lowerGap upperGap
  split
  · next hedge =>
    have hsignificand : (x.significand : ℚ) = 2 ^ 52 := by
      rw [hedge.1]
      exact cast_twoPow 52
    rw [hsignificand] at h
    linarith
  · have hsignificand : (x.significand : ℚ) ≤ 2 ^ 53 := by
      exact_mod_cast x.significand_lt.le
    have hupper := mul_le_mul_of_nonneg_right hsignificand hpower.le
    linarith

/-- The search for the shortest decimal of a number finds one. -/
theorem holds_shortest {x : Binary64} (hx : x.isZero = false) :
    x.interval.Holds x.shortest.exponent x.shortest.digits := by
  have hsignificand := significand_ne_zero hx
  obtain ⟨hunit, hvalue, hlow, hhigh⟩ := interval_spec hsignificand
  obtain ⟨hbelow, habove⟩ := low_lt_value_lt_high hsignificand
  have hleading : (10 : ℚ) ^ leadingExponent x.interval.value x.interval.unit ≤ x.value :=
    hvalue ▸ tenPow_leadingExponent_le (Nat.ne_zero_of_lt hbelow) hunit.ne'
  have hstep (k : ℤ) (hk : (10 : ℚ) ^ k ≤ x.value) :
      (10 : ℚ) ^ (k + 1 - ((17 : ℕ) : ℤ)) < x.lowerGap + x.upperGap := by
    have hseventeen : k + 1 - ((17 : ℕ) : ℤ) + 16 = k := by
      push_cast
      ring
    exact step_lt_width (hseventeen.symm ▸ hk)
  have hwide := hstep _ hleading
  unfold shortest
  rw [hx]
  -- The last of the grids that are tried is that of the seventeenth digit.
  refine Interval.holds_firstGrid hunit
    ⟨17, by decide, Interval.exists_onGrid hunit hbelow habove ?_⟩
  rw [sub_div, hlow, hhigh]
  linarith

/-- The shortest decimal of a number lies within its interval, and is no zero. -/
theorem shortest_between {x : Binary64} (hx : x.isZero = false) :
    x.shortest.digits ≠ 0 ∧ x.value - x.lowerGap ≤ x.shortest.value ∧
      x.shortest.value ≤ x.value + x.upperGap := by
  have hsignificand := significand_ne_zero hx
  obtain ⟨-, -, hlow, hhigh⟩ := interval_spec hsignificand
  have hholds := holds_shortest hx
  unfold Interval.Holds at hholds
  rw [hlow, hhigh] at hholds
  refine ⟨fun hzero => ?_, hholds⟩
  have hpositive := lowerGap_lt_value hsignificand
  rw [hzero, Nat.cast_zero, zero_mul] at hholds
  linarith

/-! ## The numbers next to a number -/

/-- A number of a smaller unit than another lies below it, by half a unit at least, and by a whole
one unless the other is a power of two. -/
theorem value_le_of_exponent_lt {x y : Binary64} (h : y.exponent < x.exponent) :
    y.value ≤ x.value - 2 * x.lowerGap := by
  have hpower : (0 : ℚ) < 2 ^ x.exponent := by positivity
  -- The unit of the greater number is not the least one, so its significand is a full one.
  have hlarge : Nat.pow 2 53 ≤ x.magnitude := by
    have hfield : 2 ≤ x.magnitude / Nat.pow 2 52 := by
      unfold exponent at h
      simp only [Int.ofNat_eq_natCast] at h
      omega
    calc Nat.pow 2 53 = 2 * Nat.pow 2 52 := by decide
      _ ≤ x.magnitude / Nat.pow 2 52 * Nat.pow 2 52 := Nat.mul_le_mul_right _ hfield
      _ ≤ x.magnitude := Nat.div_mul_le_self _ _
  have hfull : Nat.pow 2 52 ≤ x.significand := by
    have hnormal : ¬x.magnitude < Nat.pow 2 52 := by
      have hless : Nat.pow 2 52 < Nat.pow 2 53 := by decide
      omega
    unfold significand
    rw [if_neg hnormal]
    exact Nat.le_add_left _ _
  have hunit : (2 : ℚ) ^ y.exponent ≤ 2 ^ x.exponent / 2 := by
    calc (2 : ℚ) ^ y.exponent ≤ 2 ^ (x.exponent - 1) := zpow_le_zpow_right₀ (by norm_num) (by omega)
      _ = 2 ^ x.exponent / 2 := by rw [zpow_sub_one₀ (by norm_num), div_eq_mul_inv]
  have hother : (y.significand : ℚ) ≤ 2 ^ 53 - 1 := by
    have hlt := y.significand_lt
    have hsucc : (y.significand : ℚ) + 1 ≤ 2 ^ 53 := by exact_mod_cast hlt
    linarith
  have hvalue : y.value ≤ (2 ^ 53 - 1) * (2 ^ x.exponent / 2) := by
    rw [value_eq]
    exact mul_le_mul hother hunit (by positivity) (by norm_num)
  rw [value_eq x]
  unfold lowerGap
  split
  · next hedge =>
    have hsignificand : (x.significand : ℚ) = 2 ^ 52 := by
      rw [hedge.1]
      exact cast_twoPow 52
    rw [hsignificand]
    linarith
  · next hinner =>
    have hmore : Nat.pow 2 52 + 1 ≤ x.significand := by
      have hne : x.significand ≠ Nat.pow 2 52 := fun heq => hinner ⟨heq, hlarge⟩
      omega
    have hmore' : (2 : ℚ) ^ 52 + 1 ≤ x.significand := by
      have hcast : ((Nat.pow 2 52 + 1 : ℕ) : ℚ) ≤ x.significand := Nat.cast_le.2 hmore
      rwa [Nat.cast_add, cast_twoPow, Nat.cast_one] at hcast
    have hscaled := mul_le_mul_of_nonneg_right hmore' hpower.le
    linarith

/-- Another number is at least twice as far away as the end of the interval on its side. -/
theorem value_cases (x y : Binary64) : y.value = x.value ∨
    x.value + 2 * x.upperGap ≤ y.value ∨ y.value ≤ x.value - 2 * x.lowerGap := by
  by_cases hexponent : x.exponent ≤ y.exponent
  · have hpower : (0 : ℚ) < 2 ^ x.exponent := by positivity
    have hgap : 2 * x.lowerGap ≤ 2 ^ x.exponent := by
      unfold lowerGap
      split <;> linarith
    -- Both are multiples of the unit of the first one.
    obtain ⟨n, hn⟩ := Int.eq_ofNat_of_zero_le (Int.sub_nonneg.2 hexponent)
    have hmultiple : y.value = ((y.significand * 2 ^ n : ℕ) : ℚ) * 2 ^ x.exponent := by
      have hsplit : y.exponent = (n : ℤ) + x.exponent := by omega
      rw [value_eq, hsplit, zpow_add₀ (by norm_num), zpow_natCast]
      push_cast
      ring
    generalize y.significand * 2 ^ n = units at hmultiple
    rw [hmultiple, value_eq]
    unfold upperGap
    rcases Nat.lt_trichotomy units x.significand with hless | rfl | hmore
    · have hless' : (units : ℚ) + 1 ≤ x.significand := by exact_mod_cast hless
      have hscaled := mul_le_mul_of_nonneg_right hless' hpower.le
      exact Or.inr (Or.inr (by linarith))
    · exact Or.inl rfl
    · have hmore' : (x.significand : ℚ) + 1 ≤ units := by exact_mod_cast hmore
      have hscaled := mul_le_mul_of_nonneg_right hmore' hpower.le
      exact Or.inr (Or.inl (by linarith))
  · exact Or.inr (Or.inr (value_le_of_exponent_lt (Int.not_le.1 hexponent)))

/-- No number is nearer to the shortest decimal of a number than the number itself. -/
theorem shortest_nearest (x y : Binary64) :
    |x.shortest.value - x.value| ≤ |x.shortest.value - y.value| := by
  cases hzero : x.isZero with
  | true =>
    have hshortest : x.shortest.value = x.value := by
      rw [value_of_isZero hzero]
      unfold shortest Decimal.value
      rw [hzero]
      norm_num
    rw [hshortest, sub_self, abs_zero]
    exact abs_nonneg _
  | false =>
    obtain ⟨-, hlow, hhigh⟩ := shortest_between hzero
    obtain ⟨hlower, hupper⟩ := x.gaps_pos
    rcases value_cases x y with hsame | habove | hbelow
    · rw [hsame]
    · rw [abs_le]
      have hless : x.shortest.value - y.value ≤ 0 := by linarith
      rw [abs_of_nonpos hless]
      constructor <;> linarith
    · rw [abs_le]
      have hmore : 0 ≤ x.shortest.value - y.value := by linarith
      rw [abs_of_nonneg hmore]
      constructor <;> linarith

end Binary64

end Colloquy
