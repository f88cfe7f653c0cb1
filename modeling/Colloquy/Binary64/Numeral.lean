import Colloquy.Binary64.Shortest

/-!
# Numerals

The number of double precision that is nearest to a decimal numeral: digits with or without a
point, perhaps with a sign in front and a power of ten behind. A numeral beyond the largest number
is infinite, one below the smallest is zero.
-/

set_option autoImplicit false

namespace Colloquy

/-- The value of decimal digits. -/
def digitsValue (digits : List Char) : Nat :=
  digits.foldl (fun n c => 10 * n + (c.toNat - 48)) 0

namespace Decimal

/-- The nearest number. Powers of ten that lead far beyond the range of exponents need not be
computed. -/
def toBinary64 (d : Decimal) : Binary64 :=
  if d.digits = 0 then .ofMagnitude 0
  else if 400 < d.leading then .ofMagnitude Binary64.infinityPattern
  else if d.leading < -400 then .ofMagnitude 0
  else if 0 ≤ d.exponent then .ofRatio (d.digits * Nat.pow 10 d.exponent.toNat) 1
  else .ofRatio d.digits (Nat.pow 10 (-d.exponent).toNat)

end Decimal

namespace Binary64

/-- The power of ten behind a numeral: nothing, or a mark, perhaps a sign, and digits. -/
def powerOf? : List Char → Option Int
  | [] => some 0
  | mark :: rest =>
    if mark = 'e' || mark = 'E' then
      let (negative, digits) := match rest with
        | '-' :: digits => (true, digits)
        | '+' :: digits => (false, digits)
        | digits => (false, digits)
      if digits.isEmpty || !digits.all Char.isDigit then none
      else
        let power := Int.ofNat (digitsValue digits)
        some (if negative then -power else power)
    else none

/-- The number of a numeral without sign. -/
def ofUnsigned? (text : List Char) : Option Binary64 :=
  let whole := text.takeWhile Char.isDigit
  let (fraction, rest) := match text.dropWhile Char.isDigit with
    | '.' :: rest => (rest.takeWhile Char.isDigit, rest.dropWhile Char.isDigit)
    | rest => ([], rest)
  if whole.isEmpty && fraction.isEmpty then none
  else
    (powerOf? rest).map fun power =>
      (Decimal.mk (digitsValue (whole ++ fraction)) (power - Int.ofNat fraction.length)).toBinary64

/-- The number of a numeral. -/
def ofNumeral? : List Char → Option Binary64
  | '-' :: text => (ofUnsigned? text).map neg
  | '+' :: text => ofUnsigned? text
  | text => ofUnsigned? text

/-- A number written out in full. What has no fraction ends with `integral`. -/
def plainText (integral : String) (x : Binary64) : String :=
  let sign := if x.isNegative then "-" else ""
  if x.isInfinite then sign ++ "inf"
  else if infinityPattern < x.magnitude then "NaN"
  else sign ++ x.shortest.positional integral

end Binary64

end Colloquy
