import Colloquy.Yaml.Glyph
import Colloquy.Yaml.Scalar

/-!
# Scalars as they are written

The three forms of a scalar: plain, between single and between double quotation marks. Each may run
over several lines. What stands between two words is then folded (`joint`): blanks around the end of
a line go, one end of a line becomes a blank, and of several the first goes. The readers walk over
the characters once; they keep what has been read of the text and the blanks behind it, the last
character first.
-/

set_option autoImplicit false

namespace Colloquy.Yaml

/-- A scalar that has been read. -/
structure Lexeme where
  text : String
  /-- Whether a line ends in the blanks behind it, which are passed over. -/
  endsLine : Bool
  rest : List Glyph
  deriving Inhabited

/-- What the blanks between two words of a scalar stand for. -/
def joint (gap : List Char) : List Char :=
  match gap.filter isBreak with
  | [] => gap
  | first :: more =>
    if first = '\n' then (if more.isEmpty then [' '] else more) else first :: more

/-- A text, the last character first, with the blanks that come next joined to it. -/
def append (text gap : List Char) : List Char :=
  (joint gap.reverse).reverse ++ text

/-- Whether a character has a meaning of its own between brackets. -/
def isFlowMark (c : Char) : Bool :=
  c = ',' || c = '[' || c = ']' || c = '\x7b' || c = '\x7d'

/-- Whether a colon may not stand in a plain scalar between brackets, given what follows it. -/
def isStrayColon (inFlow : Bool) (s : List Glyph) : Bool :=
  match s with
  | g :: next :: _ => inFlow && g.char = ':' && (isFlowMark next.char || next.char = '?')
  | _ => false

/-- Whether a plain scalar ends here by what is next: a colon at the end of a word, or a mark of
the brackets around it. -/
def endsPlain (inFlow : Bool) (s : List Glyph) : Bool :=
  match s with
  | [] => true
  | g :: rest => (g.char = ':' && isWordEnd rest) || (inFlow && isFlowMark g.char)

/-- Whether a plain scalar ends here because no further word may begin: a comment does, or a
document ends, or the column is left of `least`, which counts outside of brackets only. -/
def endsBeforeWord (inFlow : Bool) (least : Nat) (s : List Glyph) : Bool :=
  match s with
  | [] => true
  | g :: _ => g.char = '#' || isBoundary s || (!inFlow && g.mark.column < least)

/-- Reads a plain scalar whose later lines begin in the column `least` or further right. A tab may
not stand left of that column. -/
def readPlain (inFlow : Bool) (least : Nat) (text gap : List Char) : List Glyph → Option Lexeme
  | [] => some ⟨String.ofList text.reverse, gap.any isBreak, []⟩
  | g :: rest =>
    if isWhite g.char then
      if g.char = '\t' && g.mark.column < least && gap.any isBreak then none
      else readPlain inFlow least text (g.char :: gap) rest
    else if !gap.isEmpty && endsBeforeWord inFlow least (g :: rest) then
      some ⟨String.ofList text.reverse, gap.any isBreak, g :: rest⟩
    else if isStrayColon inFlow (g :: rest) then none
    else if endsPlain inFlow (g :: rest) then
      some ⟨String.ofList text.reverse, gap.any isBreak, g :: rest⟩
    else readPlain inFlow least (g.char :: append text gap) [] rest

/-- Reads a scalar from behind its opening single quotation mark. A quotation mark inside is
written twice. -/
def readSingle (text gap : List Char) : List Glyph → Option Lexeme
  | [] => none
  | [g] =>
    if g.char = '\'' then some ⟨String.ofList (append text gap).reverse, false, []⟩ else none
  | g :: next :: rest =>
    if isWhite g.char then readSingle text (g.char :: gap) (next :: rest)
    else if isBoundary (g :: next :: rest) then none
    else if g.char ≠ '\'' then readSingle (g.char :: append text gap) [] (next :: rest)
    else if next.char = '\'' then readSingle ('\'' :: append text gap) [] rest
    else some ⟨String.ofList (append text gap).reverse, false, next :: rest⟩

/-- The character that stands behind a backslash for another one. -/
def escaped? (c : Char) : Option Char :=
  match c with
  | '0' => some '\x00'
  | 'a' => some '\x07'
  | 'b' => some '\x08'
  | 't' => some '\t'
  | '\t' => some '\t'
  | 'n' => some '\n'
  | 'v' => some '\x0b'
  | 'f' => some '\x0c'
  | 'r' => some '\r'
  | 'e' => some '\x1b'
  | ' ' => some ' '
  | '"' => some '"'
  | '/' => some '/'
  | '\\' => some '\\'
  | 'N' => some '\u0085'
  | '_' => some '\u00a0'
  | 'L' => some '\u2028'
  | 'P' => some '\u2029'
  | _ => none

/-- How many hexadecimal digits follow a character that stands behind a backslash. -/
def digitCount? (c : Char) : Option Nat :=
  match c with
  | 'x' => some 2
  | 'u' => some 4
  | 'U' => some 8
  | _ => none

/-- Where a reader stands between double quotation marks. -/
inductive Within
  | text
  /-- Behind the end of a line with a backslash in front of it; nothing stands for this end. -/
  | joined
  | escape
  /-- Among the digits of a character: so many are left, and those so far have a value. -/
  | digits (left value : Nat)
  deriving DecidableEq, Repr, Inhabited

/-- A text, the last character first, with the blanks that come next joined to it. -/
def Within.append (w : Within) (text gap : List Char) : List Char :=
  if w = .joined then gap.filter isBreak ++ text else Yaml.append text gap

/-- Reads a scalar from behind its opening double quotation mark. -/
def readDouble (text gap : List Char) : Within → List Glyph → Option Lexeme
  | _, [] => none
  | .escape, g :: rest =>
    if isBreak g.char then readDouble text [] .joined rest
    else
      match escaped? g.char, digitCount? g.char with
      | some c, _ => readDouble (c :: text) [] .text rest
      | none, some count => readDouble text [] (.digits count 0) rest
      | none, none => none
  | .digits left value, g :: rest =>
    match inBase? 16 [g.char] with
    | none => none
    | some digit =>
      if 1 < left then readDouble text [] (.digits (left - 1) (16 * value + digit)) rest
      else if (16 * value + digit).isValidChar then
        readDouble (Char.ofNat (16 * value + digit) :: text) [] .text rest
      else none
  | w, g :: rest =>
    if isWhite g.char then readDouble text (g.char :: gap) w rest
    else if isBoundary (g :: rest) then none
    else if g.char = '"' then some ⟨String.ofList (w.append text gap).reverse, false, rest⟩
    else if g.char = '\\' then readDouble (w.append text gap) [] .escape rest
    else readDouble (g.char :: w.append text gap) [] .text rest

end Colloquy.Yaml
