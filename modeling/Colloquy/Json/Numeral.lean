import Colloquy.Json.Scanned

/-!
# Numerals

The reader of a number. A plain integer that fits 64 bits keeps its value. Any other numeral
becomes a number of double precision in three steps: as many leading digits as fit 64 bits without
sign form a significand, the digits that are dropped and the places of the fraction move its
exponent, and the significand is then multiplied or divided by powers of ten up to `10 ^ 308`,
rounding at each step. The outcome is often, but not always, the representable number that is
nearest to the numeral.
-/

set_option autoImplicit false

namespace Colloquy.Json

/-- The digits at the front of a text. -/
def leadingDigits (s : Bytes) : Bytes :=
  s.takeWhile Ascii.isDigit

/-- What follows the digits at the front of a text. -/
def afterDigits (s : Bytes) : Bytes :=
  s.dropWhile Ascii.isDigit

/-- What follows the digits is no longer than the whole. -/
theorem length_afterDigits_le (s : Bytes) : (afterDigits s).length ≤ s.length :=
  (List.dropWhile_sublist Ascii.isDigit).length_le

/-- The largest value of 64 bits without sign. -/
def maxWord : Nat := Nat.pow 2 64 - 1

/-- The largest exponent that is followed digit by digit. -/
def maxExponent : Nat := Nat.pow 2 31 - 1

/-- A significand of at most 64 bits and the power of ten that it counts. -/
structure Significand where
  digits : Nat
  /-- The power of ten of the last of them. -/
  exponent : Int
  deriving DecidableEq, Repr, Inhabited

namespace Significand

/-- Takes in the digits in front of the point. From the first that does not fit on, each only
raises the exponent. -/
def takeWhole (digits : Bytes) : Significand :=
  digits.foldl
    (fun sig d =>
      if sig.exponent = 0 ∧ sig.digits * 10 + Ascii.digitValue d ≤ maxWord then
        ⟨sig.digits * 10 + Ascii.digitValue d, 0⟩
      else ⟨sig.digits, sig.exponent + 1⟩)
    ⟨0, 0⟩

/-- Takes in the digits behind the point, each lowering the exponent, up to the first that does
not fit. -/
def takeFraction (sig : Significand) : (digits : Bytes) → Significand
  | [] => sig
  | d :: digits =>
    if sig.digits * 10 + Ascii.digitValue d ≤ maxWord then
      takeFraction ⟨sig.digits * 10 + Ascii.digitValue d, sig.exponent - 1⟩ digits
    else sig

/-- Divides by `10 ^ n`, by at most `10 ^ 308` at a time. -/
def scaleDown (x : Binary64) (n : Nat) : Binary64 :=
  if n ≤ 308 then x.div (Binary64.powerOfTen n)
  else if x.isZero then x
  else scaleDown (x.div (Binary64.powerOfTen 308)) (n - 308)
termination_by n

/-- The number of double precision that a significand stands for; none beyond the largest. -/
def toBinary64? (sig : Significand) : Option Binary64 :=
  let x := Binary64.ofNat sig.digits
  if 0 ≤ sig.exponent then
    let n := sig.exponent.toNat
    if 308 < n then (if x.isZero then some x else none)
    else
      let y := x.mul (Binary64.powerOfTen n)
      if y.isInfinite then none else some y
  else some (scaleDown x (-sig.exponent).toNat)

end Significand

/-- What the digits of an exponent amount to. -/
inductive ExponentDigits
  | value (n : Nat)
  /-- An exponent beyond the range; `rest` follows the digit that exceeded it. -/
  | beyond (rest : Bytes)
  deriving Repr

/-- Adds up the digits of an exponent, `rest` being what follows them all. -/
def exponentDigits (n : Nat) (digits rest : Bytes) : ExponentDigits :=
  match digits with
  | [] => .value n
  | d :: digits =>
    if n * 10 + Ascii.digitValue d ≤ maxExponent then
      exponentDigits (n * 10 + Ascii.digitValue d) digits rest
    else .beyond (digits ++ rest)

/-- The sign of an exponent, true for minus, and what follows it. -/
def splitSign (s : Bytes) : Bool × Bytes :=
  match s with
  | Ascii.minus :: rest => (true, rest)
  | Ascii.plus :: rest => (false, rest)
  | _ => (false, s)

/-- What follows a sign is no longer than the whole. -/
theorem length_splitSign_le (s : Bytes) : (splitSign s).2.length ≤ s.length := by
  unfold splitSign
  split <;> simp

/-- What follows the digits behind a digit fits where the text does. -/
theorem lt_of_afterDigits {d : UInt8} {tail : Bytes} {n : Nat} (h : (d :: tail).length ≤ n) :
    (afterDigits tail).length < n :=
  Nat.lt_of_lt_of_le (Nat.lt_succ_of_le (length_afterDigits_le tail)) h

/-- What follows the digits behind a sign fits where the text does. -/
theorem lt_of_exponentDigits {s : Bytes} {n : Nat} (h : s.length < n) :
    (afterDigits (splitSign s).2).length < n :=
  Nat.lt_of_le_of_lt (Nat.le_trans (length_afterDigits_le _) (length_splitSign_le s)) h

/-- A number of double precision with a sign. -/
def signed (negative : Bool) (x : Binary64) : Number :=
  .real (if negative then x.neg else x)

/-- The number of a significand, read up to `rest`. -/
def finishReal (bound : Nat) (negative : Bool) (sig : Significand) (rest : Bytes)
    (h : rest.length < bound) : Except Failure (Scanned Number bound) :=
  match sig.toBinary64? with
  | some x => .ok ⟨signed negative x, rest, h⟩
  | none => .error (.before .numberOutOfRange rest)

/-- The exponent of a significand moved by the exponent that the numeral writes out. -/
def shiftExponent (sig : Significand) (down : Bool) (n : Nat) : Significand :=
  ⟨sig.digits, if down then sig.exponent - Int.ofNat n else sig.exponent + Int.ofNat n⟩

/-- Reads an exponent from behind its letter. -/
def readExponent (bound : Nat) (negative : Bool) (sig : Significand) (s : Bytes)
    (h : s.length < bound) : Except Failure (Scanned Number bound) :=
  let down := (splitSign s).1
  let start := (splitSign s).2
  match start with
  | [] => .error (.before .endInValue [])
  | d :: tail =>
    if Ascii.isDigit d then
      have hp : (afterDigits (splitSign s).2).length < bound := lt_of_exponentDigits h
      let rest := afterDigits (splitSign s).2
      match exponentDigits 0 (leadingDigits (d :: tail)) rest with
      | .value n => finishReal bound negative (shiftExponent sig down n) rest hp
      | .beyond rest' =>
        if sig.digits ≠ 0 ∧ down = false then .error (.before .numberOutOfRange rest')
        else .ok ⟨signed negative (Binary64.ofMagnitude 0), rest, hp⟩
    else .error (.before .invalidNumber tail)

/-- Whether a byte introduces an exponent. -/
def isExponentMark (b : UInt8) : Bool :=
  b = 0x65 || b = 0x45

/-- Goes on behind the digits of a fraction. -/
def afterFraction (bound : Nat) (negative : Bool) (sig : Significand) (s : Bytes)
    (h : s.length < bound) : Except Failure (Scanned Number bound) :=
  match s with
  | [] => finishReal bound negative sig [] h
  | b :: rest =>
    if isExponentMark b then readExponent bound negative sig rest (lt_of_cons_lt h)
    else finishReal bound negative sig (b :: rest) h

/-- Reads a fraction from behind its point. -/
def readFraction (bound : Nat) (negative : Bool) (sig : Significand) (s : Bytes)
    (h : s.length < bound) : Except Failure (Scanned Number bound) :=
  match s with
  | [] => .error (.before .endInValue [])
  | d :: tail =>
    if Ascii.isDigit d then
      afterFraction bound negative (sig.takeFraction (leadingDigits (d :: tail)))
        (afterDigits (d :: tail)) (Nat.lt_of_le_of_lt (length_afterDigits_le _) h)
    else .error (.upon .invalidNumber (d :: tail))

/-- The number of a numeral that consists of digits alone. -/
def plainNumber (bound : Nat) (negative : Bool) (sig : Significand) (rest : Bytes)
    (h : rest.length < bound) : Except Failure (Scanned Number bound) :=
  if sig.exponent ≠ 0 then finishReal bound negative sig rest h
  else if negative = false then .ok ⟨.integer (Int.ofNat sig.digits), rest, h⟩
  else if sig.digits ≠ 0 ∧ sig.digits ≤ Nat.pow 2 63 then
    .ok ⟨.integer (-Int.ofNat sig.digits), rest, h⟩
  else finishReal bound negative sig rest h

/-- Goes on behind the digits in front of the point. -/
def afterWhole (bound : Nat) (negative : Bool) (sig : Significand) (s : Bytes)
    (h : s.length < bound) : Except Failure (Scanned Number bound) :=
  match s with
  | [] => plainNumber bound negative sig [] h
  | b :: rest =>
    if b = Ascii.point then readFraction bound negative sig rest (lt_of_cons_lt h)
    else if isExponentMark b then readExponent bound negative sig rest (lt_of_cons_lt h)
    else plainNumber bound negative sig (b :: rest) h

/-- Reads a numeral from behind its sign. -/
def readUnsigned (bound : Nat) (negative : Bool) (s : Bytes) (h : s.length ≤ bound) :
    Except Failure (Scanned Number bound) :=
  match s with
  | [] => .error (.before .endInValue [])
  | d :: tail =>
    if Ascii.isDigit d then
      let digits := leadingDigits tail
      if d = 0x30 ∧ digits ≠ [] then .error (.upon .invalidNumber tail)
      else
        afterWhole bound negative (Significand.takeWhole (d :: digits)) (afterDigits tail)
          (lt_of_afterDigits h)
    else .error (.before .invalidNumber tail)

/-- Reads a numeral. -/
def readNumeral (s : Bytes) : Except Failure (Scanned Number s.length) :=
  match s with
  | [] => .error (.before .endInValue [])
  | b :: rest =>
    if b = Ascii.minus then readUnsigned (b :: rest).length true rest (Nat.le_succ _)
    else readUnsigned (b :: rest).length false (b :: rest) (Nat.le_refl _)

/-- Whether a numeral begins with a byte. -/
def startsNumeral (b : UInt8) : Bool :=
  b = Ascii.minus || Ascii.isDigit b

end Colloquy.Json
