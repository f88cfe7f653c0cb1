import Colloquy.Yaml.Tag

/-!
# Tokens of YAML

A text as a sequence of tokens: scalars, names and tags of data, the marks between them, and the
beginnings and ends of the lists and groups that are told by their columns (`tokensOf`).

That a scalar or a bracket begins the name of a member is known only when its colon is met, on the
same line. Until then it is a candidate: with the colon, a `key` is put in front of it, and the
beginning of the group if its column is a new one. So a token is settled once no candidate stands in
front of it, and of a text that is broken somewhere the tokens that are settled there are delivered.
-/

set_option autoImplicit false

namespace Colloquy.Yaml

/-- A part of a text. -/
inductive Token
  | directive (d : Directive)
  /-- The line that begins a document. -/
  | documentStart
  /-- The line that ends a document. -/
  | documentEnd
  | textEnd
  /-- The beginning of a list told by its column. -/
  | listStart
  /-- The beginning of a group told by its column. -/
  | groupStart
  /-- The end of a list or a group told by its column. -/
  | blockEnd
  | openList
  | closeList
  | openGroup
  | closeGroup
  | comma
  /-- The hyphen in front of an item. -/
  | item
  /-- What stands in front of a name: a question mark, or nothing visible. -/
  | key
  /-- The colon in front of a value. -/
  | value
  /-- The name of the data behind it. -/
  | anchor (name : String)
  /-- The name of data that stands elsewhere. -/
  | reference (name : String)
  | tag (tag : RawTag)
  | scalar (isPlain : Bool) (text : String)
  deriving DecidableEq, Repr, Inhabited

/-- Something that may turn out to begin with a name. -/
structure Candidate where
  isRequired : Bool
  /-- How many tokens stand in front of it. -/
  number : Nat
  mark : Mark
  deriving DecidableEq, Repr, Inhabited

/-- Whether a candidate is none any more further on in the text: in a later line, or too far
right. -/
def Candidate.isStale (c : Candidate) (s : List Glyph) : Bool :=
  match s with
  | [] => true
  | g :: _ => c.mark.line < g.mark.line || c.mark.column + 1024 < g.mark.column

/-- The tokens of the front of a text, and what matters for those of the rest. -/
structure Scan where
  rest : List Glyph
  /-- The tokens, the last one first, each with the place where it begins. -/
  tokens : List (Token × Mark)
  count : Nat
  /-- The columns of the open lists and groups that are told by their columns, the innermost one
  first. -/
  columns : List Nat
  /-- Whether a name may begin here. -/
  keyAllowed : Bool
  /-- The candidate within the innermost brackets. -/
  candidate : Option Candidate
  /-- Those outside of each open bracket, the innermost one first. -/
  outer : List (Option Candidate)
  deriving Inhabited

namespace Scan

/-- Whether brackets are open. -/
def inFlow (s : Scan) : Bool :=
  !s.outer.isEmpty

/-- The place of the rest. Nothing is ever reported at the end of the text, which has none. -/
def here (s : Scan) : Mark :=
  (s.rest.head?.map (·.mark)).getD ⟨0, 0⟩

/-- Adds a token that begins here. -/
def put (s : Scan) (t : Token) : Scan :=
  { s with tokens := (t, s.here) :: s.tokens, count := s.count + 1 }

/-- Adds a token behind the first `number` ones. -/
def putAt (s : Scan) (number : Nat) (t : Token) (m : Mark) : Scan :=
  let later := s.count - number
  { s with
    tokens := s.tokens.take later ++ (t, m) :: s.tokens.drop later, count := s.count + 1 }

/-- Goes on behind so many characters. -/
def skip (s : Scan) (count : Nat) : Scan :=
  { s with rest := s.rest.drop count }

/-- Ends the lists and groups whose columns are right of the one here, all of them without one. -/
def endBlocks (s : Scan) (column : Option Nat) : Scan :=
  if s.inFlow then s
  else
    let isOver (c : Nat) : Bool := column.all (· < c)
    (s.columns.takeWhile isOver).foldl (fun s _ => s.put .blockEnd)
      { s with columns := s.columns.dropWhile isOver }

/-- Begins a list or a group in a column, unless one is open there: its first token is that of a
number. -/
def beginBlock (s : Scan) (t : Token) (number : Nat) (m : Mark) : Scan :=
  if s.inFlow || !s.columns.head?.all (· < m.column) then s
  else { s.putAt number t m with columns := m.column :: s.columns }

/-- Gives up the candidate within the innermost brackets. -/
def dropCandidate (s : Scan) : Option Scan :=
  if s.candidate.any (·.isRequired) then none else some { s with candidate := none }

/-- Gives up the candidates that are none any more. -/
def dropStale (s : Scan) : Option Scan :=
  let isStale (c : Option Candidate) : Bool := c.any (·.isStale s.rest)
  let isBad (c : Option Candidate) : Bool := isStale c && c.any (·.isRequired)
  let kept (c : Option Candidate) : Option Candidate := if isStale c then none else c
  if isBad s.candidate || s.outer.any isBad then none
  else some { s with candidate := kept s.candidate, outer := s.outer.map kept }

/-- Takes what begins here as a candidate, if a name may begin here. It must be one in the column
of the innermost group. -/
def saveCandidate (s : Scan) : Option Scan :=
  if s.keyAllowed then
    s.dropCandidate.map fun s =>
      let isRequired := !s.inFlow && s.columns.head? = some s.here.column
      { s with candidate := some ⟨isRequired, s.count, s.here⟩ }
  else some s

/-- Passes over blanks, comments and ends of lines. A tab may not stand where a name may begin; the
end of a line allows a name outside of brackets. -/
def skipIdle (inFlow : Bool) : (inComment keyAllowed : Bool) → List Glyph → Bool × List Glyph
  | _, keyAllowed, [] => (keyAllowed, [])
  | inComment, keyAllowed, g :: rest =>
    if isBreak g.char then skipIdle inFlow false (keyAllowed || !inFlow) rest
    else if inComment || g.char = '#' then skipIdle inFlow true keyAllowed rest
    else if g.char = ' ' || (g.char = '\t' && (inFlow || !keyAllowed)) then
      skipIdle inFlow false keyAllowed rest
    else (keyAllowed, g :: rest)

/-- Reads a directive, up to the next line. -/
def directive (s : Scan) : Option Scan :=
  (s.endBlocks none).dropCandidate.bind fun s =>
    (readDirective (s.rest.drop 1)).map fun (directive, rest) =>
      { s.put (.directive directive) with rest, keyAllowed := false }

/-- Reads the mark of the beginning or the end of a document. -/
def boundary (s : Scan) (t : Token) : Option Scan :=
  (s.endBlocks none).dropCandidate.map fun s =>
    { (s.put t).skip 3 with keyAllowed := false }

/-- Reads an opening bracket or brace. -/
def opening (s : Scan) (t : Token) : Option Scan :=
  s.saveCandidate.map fun s =>
    { (s.put t).skip 1 with
      keyAllowed := true, candidate := none, outer := s.candidate :: s.outer }

/-- Reads a closing bracket or brace. -/
def closing (s : Scan) (t : Token) : Option Scan :=
  s.dropCandidate.map fun s =>
    { (s.put t).skip 1 with
      keyAllowed := false, candidate := s.outer.head?.join, outer := s.outer.drop 1 }

/-- Reads a comma. -/
def comma (s : Scan) : Option Scan :=
  s.dropCandidate.map fun s => { (s.put .comma).skip 1 with keyAllowed := true }

/-- Begins a list or a group here, if one may begin here. -/
def enterBlock (s : Scan) (t : Token) : Option Scan :=
  if s.inFlow then some s
  else if s.keyAllowed then some (s.beginBlock t s.count s.here)
  else none

/-- Reads the hyphen in front of an item. -/
def item (s : Scan) : Option Scan :=
  ((s.enterBlock .listStart).bind dropCandidate).map fun s =>
    { (s.put .item).skip 1 with keyAllowed := true }

/-- Reads the question mark in front of a name. -/
def key (s : Scan) : Option Scan :=
  ((s.enterBlock .groupStart).bind dropCandidate).map fun s =>
    { (s.put .key).skip 1 with keyAllowed := !s.inFlow }

/-- Reads the colon in front of a value: of the candidate if there is one, and else of a name with a
question mark, or without any. -/
def value (s : Scan) : Option Scan :=
  match s.candidate with
  | some c =>
    let s := (s.putAt c.number .key c.mark).beginBlock .groupStart c.number c.mark
    some { (s.put .value).skip 1 with keyAllowed := false, candidate := none }
  | none =>
    (s.enterBlock .groupStart).map fun s => { (s.put .value).skip 1 with keyAllowed := !s.inFlow }

/-- Reads what names data or says what it is, from behind its mark. -/
def property {α : Type} (s : Scan) (token : α → Token)
    (read : List Glyph → Option (α × List Glyph)) : Option Scan :=
  s.saveCandidate.bind fun s =>
    (read (s.rest.drop 1)).map fun (x, rest) => { s.put (token x) with rest, keyAllowed := false }

/-- Reads a scalar with a reader for its form. -/
def scalar (s : Scan) (isPlain : Bool) (read : Scan → Option Lexeme) : Option Scan :=
  s.saveCandidate.bind fun s =>
    (read s).map fun x =>
      { s.put (.scalar isPlain x.text) with rest := x.rest, keyAllowed := x.endsLine }

/-- Reads a scalar that stands on lines of its own. It is no name. -/
def block (s : Scan) (isLiteral : Bool) : Option Scan :=
  s.dropCandidate.bind fun s =>
    (readBlock isLiteral s.columns.head? (s.rest.drop 1)).map fun x =>
      { s.put (.scalar false x.text) with rest := x.rest, keyAllowed := x.endsLine }

/-- Whether no token begins with a character: a tab that was not passed over, and those that are
kept for later use or have a meaning elsewhere only. -/
def beginsNoToken (c : Char) : Bool :=
  ['\t', '|', '>', '%', '@', '\x60'].contains c

/-- Reads the token that begins here. -/
def token (s : Scan) : Option Scan :=
  match s.rest with
  | [] => (s.endBlocks none).dropCandidate.map (·.put .textEnd)
  | g :: rest =>
    let c := g.char
    if g.mark.column = 0 && c = '%' then s.directive
    else if isMarker '-' (g :: rest) then s.boundary .documentStart
    else if isMarker '.' (g :: rest) then s.boundary .documentEnd
    else if c = '[' then s.opening .openList
    else if c = '\x7b' then s.opening .openGroup
    else if c = ']' then s.closing .closeList
    else if c = '\x7d' then s.closing .closeGroup
    else if c = ',' then s.comma
    else if c = '-' && isWordEnd rest then s.item
    else if c = '?' && (s.inFlow || isWordEnd rest) then s.key
    else if c = ':' && (s.inFlow || isWordEnd rest) then s.value
    else if c = '*' then s.property .reference readAnchor
    else if c = '&' then s.property .anchor readAnchor
    else if c = '!' then s.property .tag (readTag s.inFlow)
    else if c = '|' && !s.inFlow then s.block true
    else if c = '>' && !s.inFlow then s.block false
    else if c = '\'' then s.scalar false fun s => readSingle [] [] (s.rest.drop 1)
    else if c = '"' then s.scalar false fun s => readDouble [] [] .text (s.rest.drop 1)
    else if beginsNoToken c then none
    else
      s.scalar true fun s => readPlain s.inFlow (s.columns.head?.elim 0 (· + 1)) [] [] s.rest

/-- Reads the next token, and the beginnings and ends of lists and groups in front of it. -/
def next? (s : Scan) : Option Scan :=
  let (keyAllowed, rest) := skipIdle s.inFlow false s.keyAllowed s.rest
  (dropStale { s with keyAllowed, rest }).bind fun s =>
    (s.endBlocks (s.rest.head?.map fun g => g.mark.column)).token

/-- Whether the text has been read to its end. -/
def hasEnded (s : Scan) : Bool :=
  s.tokens.head?.any (·.1 = .textEnd)

/-- The tokens that no candidate stands in front of. -/
def settled (s : Scan) : List (Token × Mark) :=
  let candidates := (s.candidate :: s.outer).filterMap id
  s.tokens.reverse.take (candidates.foldl (fun n c => min n c.number) s.count)

/-- The tokens of the text, as far as they can be told, with so many steps at most. -/
def toTokens : (fuel : Nat) → Scan → List (Token × Mark)
  | 0, s => s.settled
  | fuel + 1, s =>
    match s.dropStale with
    | none => s.settled
    | some s =>
      match s.next? with
      | none => s.settled
      | some next => if next.hasEnded then next.tokens.reverse else toTokens fuel next

end Scan

/-- The tokens of a text. They end with `textEnd` unless the text is broken. Every step but the last
one takes characters from the text. -/
def tokensOf (text : List Char) : List (Token × Mark) :=
  let glyphs := glyphsOf text
  Scan.toTokens (glyphs.length + 1)
    { rest := glyphs, tokens := [], count := 0, columns := [], keyAllowed := true
      candidate := none, outer := [] }

end Colloquy.Yaml
