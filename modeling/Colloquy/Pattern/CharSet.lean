import Colloquy.Text.Alphanumeric
import Colloquy.Text.Blank

/-!
# Sets of characters

What one place of a pattern admits: characters from one to another, the named classes, and what is
made of such sets.
-/

set_option autoImplicit false

namespace Colloquy

/-- A set of characters. -/
inductive CharSet
  | none
  | any
  /-- The characters from one to another. -/
  | range (first last : Char)
  | digit
  /-- What words consist of: letters, numbers and the underscore. -/
  | word
  | blank
  | union (a b : CharSet)
  | inter (a b : CharSet)
  /-- The characters that are not in a set. -/
  | compl (a : CharSet)
  /-- The characters of a set and the same letters of the other case. -/
  | folded (a : CharSet)
  deriving DecidableEq, Repr, Inhabited

namespace CharSet

/-- Whether a character is in a set. -/
def contains : CharSet → Char → Bool
  | none, _ => false
  | any, _ => true
  | range first last, c => first ≤ c && c ≤ last
  | digit, c => c.isDigit
  | word, c => Alphanumeric.isAlphanumeric c || c = '_'
  | blank, c => Blank.isBlank c
  | union a b, c => a.contains c || b.contains c
  | inter a b, c => a.contains c && b.contains c
  | compl a, c => !a.contains c
  | folded a, c => a.contains c || a.contains c.toLower || a.contains c.toUpper

/-- The set of one character. -/
def single (c : Char) : CharSet :=
  range c c

/-- The characters of the first set that are not in the second one. -/
def diff (a b : CharSet) : CharSet :=
  a.inter b.compl

/-- The characters that are in one of two sets only. -/
def symmDiff (a b : CharSet) : CharSet :=
  (a.diff b).union (b.diff a)

/-- The set of the characters of some ranges. -/
def ofRanges (ranges : List (Char × Char)) : CharSet :=
  ranges.foldl (fun s (first, last) => s.union (range first last)) none

/-- The classes of ASCII characters, by their names. -/
def named : List (String × CharSet) :=
  [ ("alnum", ofRanges [('0', '9'), ('A', 'Z'), ('a', 'z')])
  , ("alpha", ofRanges [('A', 'Z'), ('a', 'z')])
  , ("ascii", ofRanges [('\x00', '\x7f')])
  , ("blank", ofRanges [('\t', '\t'), (' ', ' ')])
  , ("cntrl", ofRanges [('\x00', '\x1f'), ('\x7f', '\x7f')])
  , ("digit", ofRanges [('0', '9')])
  , ("graph", ofRanges [('!', '~')])
  , ("lower", ofRanges [('a', 'z')])
  , ("print", ofRanges [(' ', '~')])
  , ("punct", ofRanges [('!', '/'), (':', '@'), ('[', '\x60'), ('\x7b', '~')])
  , ("space", ofRanges [('\t', '\r'), (' ', ' ')])
  , ("upper", ofRanges [('A', 'Z')])
  , ("word", ofRanges [('0', '9'), ('A', 'Z'), ('_', '_'), ('a', 'z')])
  , ("xdigit", ofRanges [('0', '9'), ('A', 'F'), ('a', 'f')]) ]

end CharSet

end Colloquy
