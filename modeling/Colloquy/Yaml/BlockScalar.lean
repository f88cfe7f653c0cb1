import Colloquy.Yaml.Lexeme

/-!
# Scalars that stand on lines of their own

A scalar behind a bar or an angle bracket takes up the lines below, as far as they are indented. The
bar keeps the ends of the lines; the angle bracket folds them, save around lines that begin with a
blank. What stands behind the mark says what becomes of the ends of lines at the end of the scalar,
and by how much the lines are indented where the first one does not show it.
-/

set_option autoImplicit false

namespace Colloquy.Yaml

/-- What is kept of the ends of lines at the end of a scalar: none, one or all of them. -/
inductive Chomping
  | strip
  | clip
  | keep
  deriving DecidableEq, Repr, Inhabited

/-- How a scalar on lines of its own is to be read. -/
structure BlockStyle where
  /-- Whether the ends of lines are kept. -/
  isLiteral : Bool
  chomping : Chomping
  /-- By how much the lines are indented, if it is said. -/
  increment : Option Nat
  deriving DecidableEq, Repr, Inhabited

/-- The mark of what becomes of the last ends of lines. -/
def chomping? (g : Glyph) : Option Chomping :=
  if g.char = '+' then some .keep else if g.char = '-' then some .strip else none

/-- Reads by how much the lines are indented, if it is said: by one digit, which is no zero. -/
def readIncrement : List Glyph → Option (Option Nat × List Glyph)
  | [] => some (none, [])
  | g :: rest =>
    if g.char = '0' then none
    else if g.char.isDigit then some (some (g.char.toNat - '0'.toNat), rest)
    else some (none, g :: rest)

/-- Reads what stands behind the mark of a scalar, in either order. -/
def readStyle (isLiteral : Bool) (s : List Glyph) : Option (BlockStyle × List Glyph) :=
  match s.head?.bind chomping? with
  | some chomping =>
    (readIncrement (s.drop 1)).map fun (increment, rest) => (⟨isLiteral, chomping, increment⟩, rest)
  | none =>
    (readIncrement s).map fun (increment, rest) =>
      match increment.bind fun _ => rest.head?.bind chomping? with
      | some chomping => (⟨isLiteral, chomping, increment⟩, rest.drop 1)
      | none => (⟨isLiteral, .clip, increment⟩, rest)

/-- Passes over blanks and a comment up to the next line. Nothing else may stand there. -/
def skipLine (s : List Glyph) : Option (List Glyph) :=
  let behind := s.dropWhile fun g => isSpace g.char
  let lineEnd :=
    if behind.head?.any (·.char = '#') then behind.dropWhile fun g => !isBreak g.char else behind
  if lineEnd.head?.all fun g => isBreak g.char then some (lineEnd.drop 1) else none

/-- The column of the first line that is not blank, or that of the longest one in front of it. A tab
may not stand in front of the line. -/
def firstColumn? (longest : Nat) : List Glyph → Option Nat
  | [] => some longest
  | g :: rest =>
    if g.char = ' ' then firstColumn? (max longest (g.mark.column + 1)) rest
    else if isBreak g.char then firstColumn? longest rest
    else if g.char = '\t' then none
    else some (max longest g.mark.column)

/-- What has been read of a scalar on lines of its own; texts have their last character first. -/
structure BlockText where
  text : List Char
  /-- The end of the last line, if the text goes on behind it. -/
  lineEnd : List Char
  /-- The ends of the blank lines behind it. -/
  gap : List Char
  /-- Whether the last line began with a blank. -/
  beganBlank : Bool
  deriving Inhabited

namespace BlockText

/-- A text in front of its next line, which begins with a blank or not. One end of a line between
two lines that do not is folded: it becomes a blank, or goes if blank lines follow. -/
def beforeLine (t : BlockText) (isLiteral beginsBlank : Bool) : List Char :=
  let isFolded := !isLiteral && t.lineEnd = ['\n'] && !t.beganBlank && !beginsBlank
  let joined := if isFolded then (if t.gap.isEmpty then [' '] else []) else t.lineEnd
  t.gap ++ joined ++ t.text

/-- The whole text once no line follows. -/
def finish (t : BlockText) (chomping : Chomping) (rest : List Glyph) : Lexeme :=
  let ending := match chomping with
    | .strip => []
    | .clip => t.lineEnd
    | .keep => t.gap ++ t.lineEnd
  ⟨String.ofList (ending ++ t.text).reverse, true, rest⟩

end BlockText

/-- Reads lines that begin in a column, from within a line or from between two of them. -/
def readLines (style : BlockStyle) (column : Nat) (t : BlockText) :
    (inLine : Bool) → List Glyph → Option Lexeme
  | _, [] => some (t.finish style.chomping [])
  | true, g :: rest =>
    if isBreak g.char then readLines style column { t with lineEnd := [g.char] } false rest
    else readLines style column { t with text := g.char :: t.text } true rest
  | false, g :: rest =>
    if isBreak g.char then readLines style column { t with gap := g.char :: t.gap } false rest
    else if column ≤ g.mark.column then
      let beginsBlank := isSpace g.char
      readLines style column
        ⟨g.char :: t.beforeLine style.isLiteral beginsBlank, [], [], beginsBlank⟩ true rest
    else if g.char = ' ' then readLines style column t false rest
    else if g.char = '\t' then none
    else some (t.finish style.chomping (g :: rest))

/-- Reads a scalar from behind its bar or angle bracket. Its lines are indented further than the
list or group in the column `outer` around it, if there is one. -/
def readBlock (isLiteral : Bool) (outer : Option Nat) (s : List Glyph) : Option Lexeme := do
  let (style, rest) ← readStyle isLiteral s
  let lines ← skipLine rest
  let column ← match style.increment with
    | some increment => some (outer.getD 0 + increment)
    | none => (firstColumn? 0 lines).map fun column => max column (max (outer.elim 0 (· + 1)) 1)
  readLines style column ⟨[], [], [], false⟩ false lines

end Colloquy.Yaml
