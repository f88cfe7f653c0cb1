import Colloquy.Binary64

/-!
# The shortest decimal of a number

Of the decimals that read back as a given number, the ones with the fewest digits are of interest,
and of those the nearest. A number of double precision is `m * 2 ^ q`; the decimals that round to
it form the interval between the midpoints to its neighbours, ends included where `m` is even. On
the grid of the multiples of a power of ten the only candidates are the two neighbours of the
number itself, so each grid, from the coarsest to the finest, is tried with those two.
-/

set_option autoImplicit false

namespace Colloquy

/-- A decimal `digits * 10 ^ exponent`. -/
structure Decimal where
  /-- All the digits, as one number. -/
  digits : Nat
  /-- The power of ten that the last digit counts. -/
  exponent : Int
  deriving DecidableEq, Repr, Inhabited

namespace Binary64

/-- The number and the two ends of the interval of the reals that round to it, over one common
denominator, and whether the ends themselves belong to it. -/
structure Interval where
  /-- Four times the number of units of the denominator. -/
  value : Nat
  low : Nat
  high : Nat
  unit : Nat
  /-- Whether the ends round to the number too. -/
  closed : Bool

/-- The reals that round to a finite positive number. Below a power of two the neighbours are
twice as close, so the lower end lies half as far away. -/
def interval (x : Binary64) : Interval :=
  let m := x.significand
  let below := if m = Nat.pow 2 52 ∧ Nat.pow 2 53 ≤ x.magnitude then 1 else 2
  let e := x.exponent - 2
  let scale := Nat.pow 2 e.toNat
  { value := 4 * m * scale
    low := (4 * m - below) * scale
    high := (4 * m + 2) * scale
    unit := Nat.pow 2 (-e).toNat
    closed := m % 2 == 0 }

/-- The number of decimal digits of a natural number. -/
def decimalLength (n : Nat) : Nat :=
  (Nat.toDigits 10 n).length

/-- The exponent of the leading decimal digit of `num / den`. -/
def leadingExponent (num den : Nat) : Int :=
  let guess : Int := Int.ofNat (decimalLength num) - Int.ofNat (decimalLength den)
  let reached : Bool :=
    if 0 ≤ guess then den * Nat.pow 10 guess.toNat ≤ num
    else den ≤ num * Nat.pow 10 (-guess).toNat
  if reached then guess else guess - 1

/-- The multiple of `10 ^ k` that reads back as the number, if there is one: of two the nearer,
and of two equally near the even one. -/
def Interval.onGrid (i : Interval) (k : Int) : Option Nat :=
  let up := Nat.pow 10 (-k).toNat
  let step := i.unit * Nat.pow 10 k.toNat
  let value := i.value * up
  let inside (n : Nat) : Bool :=
    if i.closed then i.low * up ≤ n * step && n * step ≤ i.high * up
    else i.low * up < n * step && n * step < i.high * up
  let n := value / step
  match inside n, inside (n + 1) with
  | true, false => some n
  | false, true => some (n + 1)
  | false, false => none
  | true, true =>
    let before := value - n * step
    let after := (n + 1) * step - value
    if before < after then some n
    else if after < before then some (n + 1)
    else if n % 2 = 0 then some n else some (n + 1)

/-- Tries `tries` grids, from `10 ^ k` down. -/
def Interval.firstGrid (i : Interval) : (tries : Nat) → (k : Int) → Decimal
  | 0, k => ⟨0, k⟩
  | tries + 1, k =>
    match i.onGrid k with
    | some n => ⟨n, k⟩
    | none => i.firstGrid tries (k - 1)

/-- The shortest decimal that reads back as a finite number without its sign: at most seventeen
digits are needed. The coarsest grid is the one above the leading digit, since a number such as
`9.5` may round up to a power of ten. -/
def shortest (x : Binary64) : Decimal :=
  if x.isZero then ⟨0, 0⟩
  else
    let i := x.interval
    i.firstGrid 18 (leadingExponent i.value i.unit + 1)

end Binary64

namespace Decimal

/-- The digits as a text. -/
def digitText (d : Decimal) : List Char :=
  Nat.toDigits 10 d.digits

/-- The exponent of the leading digit. -/
def leading (d : Decimal) : Int :=
  d.exponent + Int.ofNat d.digitText.length - 1

/-- The decimal written out in full, with at least one digit in front of the point; what has no
fraction ends with `integral`. -/
def positional (integral : String) (d : Decimal) : String :=
  let ds := d.digitText
  if 0 ≤ d.exponent then
    String.ofList (ds ++ List.replicate d.exponent.toNat '0') ++ integral
  else
    let places := (-d.exponent).toNat
    let padded := List.replicate (places + 1 - ds.length) '0' ++ ds
    let whole := padded.length - places
    String.ofList (padded.take whole) ++ "." ++ String.ofList (padded.drop whole)

/-- The decimal as one digit, a fraction if there is one, and the power of ten with its sign. -/
def scientific (d : Decimal) : String :=
  let ds := d.digitText
  let fraction := ds.drop 1
  let mantissa := String.ofList (ds.take 1) ++
    (if fraction.isEmpty then "" else "." ++ String.ofList fraction)
  let e := d.leading
  mantissa ++ "e" ++ (if 0 ≤ e then "+" else "-") ++ toString e.natAbs

end Decimal

end Colloquy
