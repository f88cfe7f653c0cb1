/-!
# Characters of YAML and their places

A text is read as a list of characters of which each one knows its line and its column, so that
whoever stands in front of the rest of a text also knows where. The ends of lines are unified
beforehand.
-/

set_option autoImplicit false

namespace Colloquy.Yaml

/-- A place in a text: a line and a column, both counted from zero. -/
structure Mark where
  line : Nat
  column : Nat
  deriving DecidableEq, Repr, Inhabited

/-- A character at its place. -/
structure Glyph where
  char : Char
  mark : Mark
  deriving DecidableEq, Repr, Inhabited

/-- Whether a character separates words within a line. -/
def isSpace (c : Char) : Bool :=
  c = ' ' || c = '\t'

/-- Whether a character ends a line. -/
def isBreak (c : Char) : Bool :=
  c = '\n' || c = '\u2028' || c = '\u2029'

/-- Whether a character separates words. -/
def isWhite (c : Char) : Bool :=
  isSpace c || isBreak c

/-- Whether a text may have a character: the controls are not allowed, save the tab and those that
end lines. -/
def isPermitted (c : Char) : Bool :=
  c = '\t' || c = '\n' || c = '\r' || c = '\u0085' ||
    (0x20 ≤ c.toNat && c.toNat < 0x7f) || (0xa0 ≤ c.toNat && c.toNat < 0xfffe) ||
    0x10000 ≤ c.toNat

/-- A text with every end of a line that has a form of its own written in one way. -/
def unifyBreaks : List Char → List Char
  | [] => []
  | '\r' :: '\n' :: rest => '\n' :: unifyBreaks rest
  | '\r' :: rest => '\n' :: unifyBreaks rest
  | '\u0085' :: rest => '\n' :: unifyBreaks rest
  | c :: rest => c :: unifyBreaks rest

/-- The place behind a character. -/
def Mark.after (m : Mark) (c : Char) : Mark :=
  if isBreak c then ⟨m.line + 1, 0⟩ else ⟨m.line, m.column + 1⟩

/-- The characters of a text that begins at a place. -/
def locate (m : Mark) : List Char → List Glyph
  | [] => []
  | c :: rest => ⟨c, m⟩ :: locate (m.after c) rest

/-- The characters of a whole text. A byte order mark in front of it is no part of it, but takes
its place. -/
def glyphsOf (text : List Char) : List Glyph :=
  match locate ⟨0, 0⟩ (unifyBreaks text) with
  | [] => []
  | first :: rest => if first.char = '\uFEFF' then rest else first :: rest

/-- Whether a word ends here: at the end of the text or in front of a blank. -/
def isWordEnd : List Glyph → Bool
  | [] => true
  | g :: _ => isWhite g.char

/-- Whether a line begins here with three characters `c` and nothing else in the word. -/
def isMarker (c : Char) : List Glyph → Bool
  | x :: y :: z :: rest =>
    x.mark.column = 0 && x.char = c && y.char = c && z.char = c && isWordEnd rest
  | _ => false

/-- Whether a line begins here that begins or ends a document. -/
def isBoundary (s : List Glyph) : Bool :=
  isMarker '-' s || isMarker '.' s

end Colloquy.Yaml
