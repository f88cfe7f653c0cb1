/-!
# ASCII bytes

The bytes that give a text its structure, by name, and the classes of bytes that the readers of
this library ask about. All of them lie below `0x80`, so they never stand inside the encoding of
a longer character: a reader may look for them byte by byte in any UTF-8 text.
-/

set_option autoImplicit false

namespace Colloquy

namespace Ascii

/-- The bytes of an ASCII text, one for each of its characters. -/
def bytes (text : String) : List UInt8 :=
  text.toList.map Char.toUInt8

/-- The character of an ASCII byte. -/
def char (b : UInt8) : Char :=
  Char.ofNat b.toNat

/-- The quotation mark. -/
@[match_pattern] abbrev quote : UInt8 := 0x22
/-- The backslash. -/
@[match_pattern] abbrev backslash : UInt8 := 0x5c
/-- The comma. -/
@[match_pattern] abbrev comma : UInt8 := 0x2c
/-- The colon. -/
@[match_pattern] abbrev colon : UInt8 := 0x3a
/-- The point. -/
@[match_pattern] abbrev point : UInt8 := 0x2e
/-- The plus sign. -/
@[match_pattern] abbrev plus : UInt8 := 0x2b
/-- The minus sign, which is also the hyphen. -/
@[match_pattern] abbrev minus : UInt8 := 0x2d
/-- The opening square bracket. -/
@[match_pattern] abbrev openBracket : UInt8 := 0x5b
/-- The closing square bracket. -/
@[match_pattern] abbrev closeBracket : UInt8 := 0x5d
/-- The opening brace. -/
@[match_pattern] abbrev openBrace : UInt8 := 0x7b
/-- The closing brace. -/
@[match_pattern] abbrev closeBrace : UInt8 := 0x7d
/-- The line feed. -/
@[match_pattern] abbrev lineFeed : UInt8 := 0x0a

/-- The decimal digits. -/
def isDigit (b : UInt8) : Bool :=
  0x30 ≤ b && b ≤ 0x39

/-- The value of a decimal digit. -/
def digitValue (b : UInt8) : Nat :=
  b.toNat - 0x30

/-- The value of a hexadecimal digit of either case. -/
def hexValue? (b : UInt8) : Option Nat :=
  if 0x30 ≤ b && b ≤ 0x39 then some (b.toNat - 0x30)
  else if 0x61 ≤ b && b ≤ 0x66 then some (b.toNat - 0x57)
  else if 0x41 ≤ b && b ≤ 0x46 then some (b.toNat - 0x37)
  else none

/-- The hexadecimal digits of either case. -/
def isHexDigit (b : UInt8) : Bool :=
  (hexValue? b).isSome

/-- The lower-case hexadecimal digit of a value below sixteen. -/
def hexDigit (n : Nat) : Char :=
  if n < 10 then Char.ofNat (0x30 + n) else Char.ofNat (0x57 + n)

/-- A byte as two lower-case hexadecimal digits, the high half first. -/
def hexPair (b : UInt8) : List Char :=
  [hexDigit (b.toNat / 16), hexDigit (b.toNat % 16)]

end Ascii

end Colloquy
