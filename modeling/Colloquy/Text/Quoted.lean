import Colloquy.Text.Hidden

/-!
# Quoted texts

How a text is shown inside a message: between quotation marks, with a backslash in front of
quotation marks and backslashes, the short escapes for line ends, tabs and NUL, and every other
character without a visible form by its number in braces.
-/

set_option autoImplicit false

namespace Colloquy

namespace Quoted

/-- The number of a character in lower-case hexadecimal digits, between braces. -/
def byNumber (c : Char) : List Char :=
  ['\\', 'u', '\x7b'] ++ Nat.toDigits 16 c.toNat ++ ['\x7d']

/-- One character of a quoted text. -/
def escape (c : Char) : List Char :=
  if c = '"' then ['\\', '"']
  else if c = '\\' then ['\\', '\\']
  else if c = '\n' then ['\\', 'n']
  else if c = '\r' then ['\\', 'r']
  else if c = '\t' then ['\\', 't']
  else if c.toNat = 0 then ['\\', '0']
  else if Hidden.isHidden c then byNumber c
  else [c]

/-- A text between quotation marks, with its characters escaped where they have to be. -/
def quote (text : String) : String :=
  String.ofList ('"' :: (text.toList.flatMap escape ++ ['"']))

end Quoted

end Colloquy
