import Colloquy.Datum
import Colloquy.Text.Ascii
import Colloquy.Text.Blank
import Colloquy.Text.Utf8

/-!
# Settings from environment variables

The variables whose names begin with `PARLEY_`, in letters of either case, are settings. What
follows in a name is a path whose parts are separated by two underscores or by a point. A value is
a truth value, a number, a quoted text, a list or a group if it is written as one to its end, and
otherwise it is the text that it consists of.
-/

set_option autoImplicit false

namespace Colloquy.Environment

/-- Whether a character may stand in a value that is not quoted, within a list or a group. -/
def isPlain (c : Char) : Bool :=
  !(c = ',' || c = '\x7b' || c = '\x7d' || c = '[' || c = ']')

/-- Whether a character may stand in a name that is not quoted. -/
def isNameChar (c : Char) : Bool :=
  c.isAlphanum || c = '_' || c = '-'

/-- A text without the blanks at its front. -/
def skipBlank (s : List Char) : List Char :=
  s.dropWhile Blank.isAsciiBlank

/-- The number of a text that consists of digits. -/
def natural? (digits : List Char) : Option Nat :=
  if digits.isEmpty || !digits.all Char.isDigit then none else some (digitsValue digits)

/-- The integer of a text: with or without a sign, and of sixty-four bits. -/
def integer? (text : List Char) : Option Datum :=
  match text with
  | '-' :: digits =>
    (natural? digits).bind fun n =>
      if n ≤ Nat.pow 2 63 then some (.signed (-Int.ofNat n)) else none
  | '+' :: digits =>
    (natural? digits).bind fun n => if n < Nat.pow 2 64 then some (.unsigned n) else none
  | digits =>
    (natural? digits).bind fun n => if n < Nat.pow 2 64 then some (.unsigned n) else none

/-- The value of a text that is not quoted: a number with a point, an integer, or a text. -/
def ofPlain (text : List Char) : Datum :=
  let real := if text.contains '.' then Binary64.ofNumeral? text else none
  match real with
  | some x => .real x
  | none => (integer? text).getD (.text (String.ofList text))

/-- The value of hexadecimal digits. -/
def hexValue? (digits : List Char) : Option Nat :=
  digits.foldlM (fun n c =>
    if c.toNat < 0x80 then
      (Ascii.hexValue? c.toUInt8).map fun d => 16 * n + d
    else none) 0

/-- The character of so many hexadecimal digits at the front of a text, and what follows. -/
def numbered? (count : Nat) (s : List Char) : Option (Char × List Char) :=
  if s.length < count then none
  else
    (hexValue? (s.take count)).bind fun n =>
      if n < 0xd800 || (0xdfff < n && n < 0x110000) then some (Char.ofNat n, s.drop count)
      else none

/-- The character that stands behind a backslash, and what follows. -/
def escaped? : List Char → Option (Char × List Char)
  | '"' :: rest => some ('"', rest)
  | '\\' :: rest => some ('\\', rest)
  | 'b' :: rest => some ('\x08', rest)
  | 'f' :: rest => some ('\x0c', rest)
  | 'n' :: rest => some ('\n', rest)
  | 'r' :: rest => some ('\r', rest)
  | 't' :: rest => some ('\t', rest)
  | 'u' :: rest => numbered? 4 rest
  | 'U' :: rest => numbered? 8 rest
  | _ => none

/-- Whether a character may stand in a quoted text as it is. -/
def isQuotable (c : Char) : Bool :=
  c = '\t' || (0x20 ≤ c.toNat && c.toNat ≠ 0x7f)

/-- A quoted text from behind its opening quotation mark or an escape in it, and what follows its
closing one. There is no more to do than there are characters. -/
def readQuotedRest : (fuel : Nat) → List Char → Option (List Char × List Char)
  | 0, _ => none
  | _, [] => none
  | fuel + 1, c :: rest =>
    if c = '"' then some ([], rest)
    else if c = '\\' then
      (escaped? rest).bind fun (c, rest) =>
        (readQuotedRest fuel rest).map fun (text, rest) => (c :: text, rest)
    else if isQuotable c then (readQuotedRest fuel rest).map fun (text, rest) => (c :: text, rest)
    else none

/-- What is kept of the characters in front of the first escape of a quoted text. Their number is
taken as one of bytes, so that as many bytes are kept, if they are whole characters. -/
def keptInFront? (front : List Char) : Option (List Char) :=
  (Utf8.decode? (Utf8.encode (String.ofList front) |>.take front.length)).map String.toList

/-- A quoted text from behind its opening quotation mark, and what follows its closing one. -/
def readQuoted (s : List Char) : Option (List Char × List Char) :=
  let isFront (c : Char) : Bool := c ≠ '"' && c ≠ '\\'
  let front := s.takeWhile isFront
  let rest := s.dropWhile isFront
  if !front.all isQuotable then none
  else
    (if rest.head? = some '\\' then keptInFront? front else some front).bind fun front =>
      (readQuotedRest rest.length rest).map fun (text, rest) => (front ++ text, rest)

/-- The name of a member of a group, and what follows. -/
def readName (s : List Char) : Option (String × List Char) :=
  match s with
  | '"' :: rest =>
    (readQuoted rest).map fun (text, rest) => (String.ofList text, rest)
  | _ =>
    match s.takeWhile isNameChar with
    | [] => none
    | name => some (String.ofList name, s.dropWhile isNameChar)

mutual

/-- A value and what follows it. -/
def readValue : (fuel : Nat) → List Char → Option (Datum × List Char)
  | 0, _ => none
  | fuel + 1, s =>
    (match skipBlank s with
      | 't' :: 'r' :: 'u' :: 'e' :: rest => some (Datum.flag true, rest)
      | 'f' :: 'a' :: 'l' :: 's' :: 'e' :: rest => some (Datum.flag false, rest)
      | '\x7b' :: rest =>
        (readMembers fuel rest).map fun (members, rest) => (Datum.ofMembers members, rest)
      | '[' :: rest => (readItems fuel rest).map fun (items, rest) => (Datum.list items, rest)
      | '"' :: rest =>
        (readQuoted rest).map fun (text, rest) =>
          (Datum.text (String.ofList text), rest)
      | '\'' :: c :: '\'' :: rest => some (Datum.text (String.ofList [c]), rest)
      | '\'' :: _ => none
      | s => some (ofPlain (Blank.trim (s.takeWhile isPlain)), s.dropWhile isPlain)).map
      fun (value, rest) => (value, skipBlank rest)

/-- The items of a list from behind its opening bracket, and what follows its closing one. -/
def readItems : (fuel : Nat) → List Char → Option (List Datum × List Char)
  | 0, _ => none
  | _, ']' :: rest => some ([], rest)
  | fuel + 1, s =>
    match readValue fuel s with
    | some (item, ',' :: rest) =>
      (readItems fuel rest).map fun (items, rest) => (item :: items, rest)
    | some (item, ']' :: rest) => some ([item], rest)
    | _ => none

/-- The members of a group from behind its opening brace, and what follows its closing one. -/
def readMembers : (fuel : Nat) → List Char → Option (List (String × Datum) × List Char)
  | 0, _ => none
  | _, '\x7d' :: rest => some ([], rest)
  | fuel + 1, s =>
    match readName (skipBlank s) with
    | none => none
    | some (name, rest) =>
      match skipBlank rest with
      | '=' :: rest =>
        match readValue fuel rest with
        | some (value, ',' :: rest) =>
          (readMembers fuel rest).map fun (members, rest) => ((name, value) :: members, rest)
        | some (value, '\x7d' :: rest) => some ([(name, value)], rest)
        | _ => none
      | _ => none

end

/-- The data that the value of a variable stands for: the text as it is, if it is not written as a
value to its end. Every item of a list or a group takes two steps, and ends with a character of its
own. -/
def valueOf (text : String) : Datum :=
  match readValue (2 * text.length + 2) text.toList with
  | some (value, []) => value
  | _ => .text text

/-- The beginning of the names of the variables that are settings. -/
def mark : String := "PARLEY_"

/-- What follows the mark in a name. -/
def behindMark? (name : List Char) : Option (List Char) :=
  if (name.take mark.length).map Char.toLower = mark.toList.map Char.toLower then
    some (name.drop mark.length)
  else none

/-- The parts of a path: two underscores or a point stand between them. -/
def partsOf : List Char → List (List Char)
  | [] => [[]]
  | '_' :: '_' :: rest => [] :: partsOf rest
  | '.' :: rest => [] :: partsOf rest
  | c :: rest =>
    match partsOf rest with
    | [] => [[c]]
    | part :: parts => (c :: part) :: parts

/-- The path that the name of a variable stands for, if it is a setting: none of its parts is
empty. -/
def pathOf? (name : String) : Option (List String) :=
  (behindMark? (Blank.trim name.toList)).bind fun rest =>
    let parts := (partsOf ((Blank.trim rest).map Char.toLower)).map String.ofList
    if parts.contains "" then none else some parts

/-- A value at the end of a path of names. -/
def nest (value : Datum) (path : List String) : Datum :=
  path.foldr (fun name inner => .group [(name, inner)]) value

/-- The settings of some variables; a later one is laid over an earlier one. -/
def settingsOf (vars : List (String × String)) : Datum :=
  vars.foldl
    (fun settings (name, value) =>
      match pathOf? name with
      | some path => settings.overlay (nest (valueOf value) path)
      | none => settings)
    (.group [])

end Colloquy.Environment
