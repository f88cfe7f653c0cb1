import Colloquy.Yaml.BlockScalar

/-!
# What stands in front of data

Data can be given a name, by which it is referred to elsewhere, and a tag, which says what it is. A
tag is written in full, or it begins with a handle whose meaning the directives in front of the
document give. As bytes that are no characters can be spelled in a tag, tags are bytes.
-/

set_option autoImplicit false

namespace Colloquy.Yaml

/-- Whether a character may stand in a name. -/
def isNameChar (c : Char) : Bool :=
  c.isAlphanum || c = '-' || c = '_'

/-- Reads characters of a kind. -/
def readRun (p : Char → Bool) (s : List Glyph) : List Char × List Glyph :=
  let run := s.takeWhile fun g => p g.char
  (run.map (·.char), s.drop run.length)

/-- Whether the next character is a given one. -/
def isAt (c : Char) (s : List Glyph) : Bool :=
  s.head?.any (·.char = c)

/-- Reads the name of data, from behind an ampersand or an asterisk. -/
def readAnchor (s : List Glyph) : Option (String × List Glyph) :=
  let (name, rest) := readRun isNameChar s
  let isEnd := isWordEnd rest ||
    rest.head?.any fun g => ['?', ':', ',', ']', '\x7d', '%', '@', '\x60'].contains g.char
  if name.isEmpty || !isEnd then none else some (String.ofList name, rest)

/-! ## Tags -/

/-- Whether a character may stand in a tag; if the tag is fenced, also those that have a meaning
between brackets. -/
def isTagChar (isFenced : Bool) (c : Char) : Bool :=
  isNameChar c || ";/?:@&=+$.%!~*'()".toList.contains c || (isFenced && ",[]".toList.contains c)

/-- The number of bytes of a character that begins with a byte. -/
def byteCount? (lead : Nat) : Option Nat :=
  if lead < 0x80 then some 1
  else if lead < 0xc0 then none
  else if lead < 0xe0 then some 2
  else if lead < 0xf0 then some 3
  else if lead < 0xf8 then some 4
  else none

/-- The bytes of a tag, in which a byte may be spelled by a percent sign and two digits; `left`
bytes of the last character are still to be spelled. -/
def tagBytes? (left : Nat) : List Char → Option Bytes
  | [] => if left = 0 then some [] else none
  | '%' :: high :: low :: rest => do
    let byte ← inBase? 16 [high, low]
    let isTail := 0x80 ≤ byte && byte < 0xc0
    let left ← if left = 0 then (byteCount? byte).map (· - 1)
      else if isTail then some (left - 1)
      else none
    (tagBytes? left rest).map (UInt8.ofNat byte :: ·)
  | c :: rest => if left = 0 && c ≠ '%' then (tagBytes? 0 rest).map (c.toUInt8 :: ·) else none

/-- Reads a tag or a part of one. What follows a byte zero is lost. -/
def readTagPart (isFenced : Bool) (s : List Glyph) : Option (Bytes × List Glyph) :=
  let (part, rest) := readRun (isTagChar isFenced) s
  (tagBytes? 0 part).map fun bytes => (bytes.takeWhile (· ≠ 0), rest)

/-- Reads a part of a tag that is not empty. -/
def readTagPart1 (isFenced : Bool) (s : List Glyph) : Option (Bytes × List Glyph) :=
  if s.head?.any fun g => isTagChar isFenced g.char then readTagPart isFenced s else none

/-- A tag as it is written: a handle, or none if it is written in full, and what follows it. -/
structure RawTag where
  handle : Option String
  suffix : Bytes
  deriving DecidableEq, Repr, Inhabited

/-- Reads a tag from behind its exclamation mark: in full between angle brackets, behind a handle
between exclamation marks, or behind that mark alone, which is a tag also without anything else. -/
def readTag (inFlow : Bool) (s : List Glyph) : Option (RawTag × List Glyph) := do
  let (name, behind) := readRun isNameChar s
  let (tag, rest) ←
    if isAt '<' s then do
      let (tag, rest) ← readTagPart1 true (s.drop 1)
      if isAt '>' rest then some (⟨none, tag⟩, rest.drop 1) else none
    else if isAt '!' behind then
      (readTagPart1 false (behind.drop 1)).map fun (suffix, rest) =>
        (⟨some ("!" ++ String.ofList name ++ "!"), suffix⟩, rest)
    else
      (readTagPart false s).map fun (suffix, rest) =>
        (if suffix.isEmpty then ⟨none, [0x21]⟩ else ⟨some "!", suffix⟩, rest)
  if isWordEnd rest || (inFlow && isAt ',' rest) then some (tag, rest) else none

/-! ## Directives -/

/-- A line that says how the document behind it is to be read. -/
inductive Directive
  /-- The version of the language. -/
  | version (major minor : Nat)
  /-- What a handle stands for. -/
  | tagHandle (handle : String) (meaning : Bytes)
  deriving DecidableEq, Repr, Inhabited

/-- Passes over blanks. -/
def skipSpaces (s : List Glyph) : List Glyph :=
  s.dropWhile fun g => isSpace g.char

/-- Reads a part of the number of a version: at most nine digits. -/
def readVersionPart (s : List Glyph) : Option (Nat × List Glyph) :=
  let (digits, rest) := readRun Char.isDigit s
  if 9 < digits.length then none else (inBase? 10 digits).map fun n => (n, rest)

/-- Reads the number of a version. -/
def readVersion (s : List Glyph) : Option (Directive × List Glyph) := do
  let (major, rest) ← readVersionPart s
  if !isAt '.' rest then none
  let (minor, rest) ← readVersionPart (rest.drop 1)
  return (.version major minor, rest)

/-- Reads a handle between exclamation marks, which may be one and the same, and its meaning. -/
def readMeaning (s : List Glyph) : Option (Directive × List Glyph) := do
  if !isAt '!' s then none
  let (name, behind) := readRun isNameChar (s.drop 1)
  let isClosed := isAt '!' behind
  if !isClosed && !name.isEmpty then none
  let rest := if isClosed then behind.drop 1 else behind
  if !rest.head?.any fun g => isSpace g.char then none
  let (meaning, rest) ← readTagPart1 true (skipSpaces rest)
  if !isWordEnd rest then none
  return (.tagHandle ("!" ++ String.ofList name ++ if isClosed then "!" else "") meaning, rest)

/-- Reads a directive from behind its percent sign, up to the next line. -/
def readDirective (s : List Glyph) : Option (Directive × List Glyph) := do
  let (name, rest) := readRun isNameChar s
  if !isWordEnd rest then none
  let (directive, rest) ← match String.ofList name with
    | "YAML" => readVersion (skipSpaces rest)
    | "TAG" => readMeaning (skipSpaces rest)
    | _ => none
  (skipLine rest).map fun rest => (directive, rest)

end Colloquy.Yaml
