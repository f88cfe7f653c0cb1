/-!
# Blanks

The characters that Unicode counts as white space, and the few of them that ASCII has.
-/

set_option autoImplicit false

namespace Colloquy.Blank

/-- Whether Unicode counts a character as white space. -/
def isBlank (c : Char) : Bool :=
  let n := c.toNat
  (0x09 ≤ n && n ≤ 0x0d) || n = 0x20 || n = 0x85 || n = 0xa0 || n = 0x1680 ||
    (0x2000 ≤ n && n ≤ 0x200a) || n = 0x2028 || n = 0x2029 || n = 0x202f || n = 0x205f ||
    n = 0x3000

/-- Whether a character is a blank, a tab, a form feed or the end of a line. -/
def isAsciiBlank (c : Char) : Bool :=
  c = ' ' || c = '\t' || c = '\n' || c = '\x0c' || c = '\r'

/-- A text without the white space at its two ends. -/
def trim (text : List Char) : List Char :=
  ((text.dropWhile isBlank).reverse.dropWhile isBlank).reverse

/-- Whether a text consists of white space. -/
def isBlankText (text : String) : Bool :=
  text.toList.all isBlank

end Colloquy.Blank
