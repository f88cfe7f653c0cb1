/-!
# UTF-8

Where a sequence of bytes stops being UTF-8. `Utf8.soundLength` is the number of bytes in front
of the first one that begins no character, which is where a reader reports the text as broken.
-/

set_option autoImplicit false

namespace Colloquy

/-- A text as it arrives: bytes that need not be UTF-8. -/
abbrev Bytes := List UInt8

namespace Utf8

/-- The bytes of a text. -/
def encode (text : String) : Bytes :=
  text.toUTF8.data.toList

/-- The text that some bytes encode, if they are UTF-8. -/
def decode? (bytes : Bytes) : Option String :=
  String.fromUTF8? ⟨bytes.toArray⟩

/-- A byte that may follow the first byte of a longer character. -/
def isTail (b : UInt8) : Bool :=
  0x80 ≤ b && b ≤ 0xbf

/-- Whether `b` may stand second in a character of three bytes that begins with `a`: no overlong
form, and no surrogate. -/
def isSecondOfThree (a b : UInt8) : Bool :=
  if a = 0xe0 then 0xa0 ≤ b && b ≤ 0xbf
  else if a = 0xed then 0x80 ≤ b && b ≤ 0x9f
  else isTail b

/-- Whether `b` may stand second in a character of four bytes that begins with `a`: no overlong
form, and nothing above the last code point. -/
def isSecondOfFour (a b : UInt8) : Bool :=
  if a = 0xf0 then 0x90 ≤ b && b ≤ 0xbf
  else if a = 0xf4 then 0x80 ≤ b && b ≤ 0x8f
  else isTail b

/-- Counts on from `n` the bytes that belong to whole characters. -/
def soundLengthFrom (n : Nat) : Bytes → Nat
  | [] => n
  | [a] => if a < 0x80 then n + 1 else n
  | [a, b] =>
    if a < 0x80 then soundLengthFrom (n + 1) [b]
    else if 0xc2 ≤ a && a ≤ 0xdf && isTail b then n + 2
    else n
  | [a, b, c] =>
    if a < 0x80 then soundLengthFrom (n + 1) [b, c]
    else if 0xc2 ≤ a && a ≤ 0xdf && isTail b then soundLengthFrom (n + 2) [c]
    else if 0xe0 ≤ a && a ≤ 0xef && isSecondOfThree a b && isTail c then n + 3
    else n
  | a :: b :: c :: d :: rest =>
    if a < 0x80 then soundLengthFrom (n + 1) (b :: c :: d :: rest)
    else if 0xc2 ≤ a && a ≤ 0xdf && isTail b then soundLengthFrom (n + 2) (c :: d :: rest)
    else if 0xe0 ≤ a && a ≤ 0xef && isSecondOfThree a b && isTail c then
      soundLengthFrom (n + 3) (d :: rest)
    else if 0xf0 ≤ a && a ≤ 0xf4 && isSecondOfFour a b && isTail c && isTail d then
      soundLengthFrom (n + 4) rest
    else n

/-- The number of bytes in front of the first one that begins no character. -/
def soundLength (bytes : Bytes) : Nat :=
  soundLengthFrom 0 bytes

end Utf8

end Colloquy
