import Colloquy.Binary64.Shortest

/-!
# JSON numbers

A number is an integer where its text is a plain integer that fits 64 bits, signed or unsigned,
and a number of double precision otherwise. The negative zero is of the second kind: no integer
has its sign.
-/

set_option autoImplicit false

namespace Colloquy.Json

/-- A number as a JSON text gives it. -/
inductive Number
  /-- An integer from `-2 ^ 63` to `2 ^ 64 - 1`, written without fraction or exponent. -/
  | integer (value : Int)
  | real (value : Binary64)
  deriving DecidableEq, Repr, Inhabited

namespace Number

/-- The text of a number of double precision: the fewest digits that read back, written out in
full while the leading digit counts a power of ten from `10 ^ -5` to `10 ^ 15`. -/
def realText (x : Binary64) : String :=
  let d := x.shortest
  let sign := if x.isNegative then "-" else ""
  if -5 ≤ d.leading ∧ d.leading ≤ 15 then sign ++ d.positional ".0" else sign ++ d.scientific

/-- The text of a number. -/
def text : Number → String
  | integer value => toString value
  | real value => realText value

/-- The value of a number that is an integer of 64 bits with sign. -/
def toInt64? : Number → Option Int
  | integer value => if value < 0x8000000000000000 then some value else none
  | real _ => none

end Number

end Colloquy.Json
