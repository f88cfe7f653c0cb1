/-!
# Numbers of double precision

A `Binary64` is the 64-bit pattern of a number of double precision: a sign, eleven bits of
exponent and fifty-two of fraction. The arithmetic here is exact arithmetic on natural numbers
followed by one rounding, `ofRatio`, to the nearest representable value with ties to the even
pattern. Nothing depends on the machine's floating-point unit, so every result can be computed
inside a proof.
-/

set_option autoImplicit false

namespace Colloquy

/-- A number of double precision, as its bit pattern. -/
structure Binary64 where
  /-- The pattern: the sign is its highest bit. -/
  bits : UInt64
  deriving DecidableEq, Repr, Inhabited

namespace Binary64

/-- The weight of the sign bit. -/
def signWeight : Nat := Nat.pow 2 63

/-- The pattern of positive infinity. -/
def infinityPattern : Nat := 2047 * Nat.pow 2 52

/-- The pattern without its sign. Patterns of positive numbers are ordered as the numbers. -/
def magnitude (x : Binary64) : Nat :=
  x.bits.toNat % signWeight

/-- Whether the sign bit is set; it is for the negative zero. -/
def isNegative (x : Binary64) : Bool :=
  signWeight ≤ x.bits.toNat

/-- Either zero. -/
def isZero (x : Binary64) : Bool :=
  x.magnitude == 0

/-- Either infinity. -/
def isInfinite (x : Binary64) : Bool :=
  x.magnitude == infinityPattern

/-- The number of a pattern without sign. -/
def ofMagnitude (pattern : Nat) : Binary64 :=
  ⟨UInt64.ofNat pattern⟩

/-- The number of the other sign. -/
def neg (x : Binary64) : Binary64 :=
  if x.isNegative then ofMagnitude x.magnitude
  else ofMagnitude (x.magnitude + signWeight)

/-- A finite number is `significand * 2 ^ exponent`, up to its sign. -/
def significand (x : Binary64) : Nat :=
  if x.magnitude < Nat.pow 2 52 then x.magnitude else x.magnitude % Nat.pow 2 52 + Nat.pow 2 52

/-- The power of two that the significand counts. -/
def exponent (x : Binary64) : Int :=
  max (Int.ofNat (x.magnitude / Nat.pow 2 52)) 1 - 1075

/-- A finite number, up to its sign, as a fraction of natural numbers. -/
def ratio (x : Binary64) : Nat × Nat :=
  if 0 ≤ x.exponent then (x.significand * Nat.pow 2 x.exponent.toNat, 1)
  else (x.significand, Nat.pow 2 (-x.exponent).toNat)

/-- The quotient to the nearest natural number, a half to the even one. -/
def divideToEven (num den : Nat) : Nat :=
  let q := num / den
  let r := num % den
  if 2 * r < den then q
  else if den < 2 * r then q + 1
  else if q % 2 = 0 then q else q + 1

/-- The quotient `num / den` in units of `2 ^ e`, to the nearest natural number. -/
def inUnitsOf (num den : Nat) (e : Int) : Nat :=
  if 0 ≤ e then divideToEven num (den * Nat.pow 2 e.toNat)
  else divideToEven (num * Nat.pow 2 (-e).toNat) den

/-- The exponent of the unit in which `num / den` has fifty-three binary digits, or the least
exponent there is. -/
def unitExponent (num den : Nat) : Int :=
  let guess : Int := Int.ofNat num.log2 - Int.ofNat den.log2 - 53
  let wide : Bool :=
    if 0 ≤ guess then den * Nat.pow 2 (guess.toNat + 53) ≤ num
    else den * Nat.pow 2 53 ≤ num * Nat.pow 2 (-guess).toNat
  max (if wide then guess + 1 else guess) (-1074)

/-- The representable number nearest to `num / den`, a tie to the even pattern; infinity where
the nearest lies beyond the largest. -/
def ofRatio (num den : Nat) : Binary64 :=
  if num = 0 then ofMagnitude 0
  else
    let e := unitExponent num den
    let pattern := (e + 1074).toNat * Nat.pow 2 52 + inUnitsOf num den e
    ofMagnitude (min pattern infinityPattern)

/-- The representable number nearest to a natural number. -/
def ofNat (n : Nat) : Binary64 :=
  ofRatio n 1

/-- The product of two numbers without sign, rounded once. -/
def mul (x y : Binary64) : Binary64 :=
  if x.isInfinite || y.isInfinite then ofMagnitude infinityPattern
  else ofRatio (x.ratio.1 * y.ratio.1) (x.ratio.2 * y.ratio.2)

/-- The quotient of two numbers without sign, the second not zero, rounded once. -/
def div (x y : Binary64) : Binary64 :=
  if x.isInfinite then x
  else ofRatio (x.ratio.1 * y.ratio.2) (x.ratio.2 * y.ratio.1)

/-- The representable number nearest to a power of ten. -/
def powerOfTen (n : Nat) : Binary64 :=
  ofNat (Nat.pow 10 n)

end Binary64

end Colloquy
