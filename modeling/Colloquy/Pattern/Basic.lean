import Colloquy.Pattern.CharSet

/-!
# Patterns

Regular expressions, and the part of a text that one of them finds: the leftmost one, and of those
the one that is preferred. Of two alternatives the first is preferred, and what is repeated is
preferably repeated as often as possible, or as seldom if it is reluctant. `Pattern.ends` lists all
the places where a part may end, the preferred one first.
-/

set_option autoImplicit false

namespace Colloquy

/-- A kind of place in a text. -/
inductive PatternPlace
  | textStart
  | textEnd
  | lineStart
  | lineEnd
  /-- Between a character of a word and one that is none, or not between such, both of ASCII. -/
  | wordEdge (isEdge : Bool)
  deriving DecidableEq, Repr, Inhabited

/-- A regular expression. -/
inductive Pattern
  | empty
  | one (set : CharSet)
  /-- The empty text at a place of a kind. -/
  | place (kind : PatternPlace)
  | seq (first second : Pattern)
  | either (first second : Pattern)
  /-- A pattern, or the empty text. -/
  | optional (isReluctant : Bool) (inner : Pattern)
  /-- A pattern, once or several times. -/
  | many (isReluctant : Bool) (inner : Pattern)
  deriving DecidableEq, Repr, Inhabited

namespace Pattern

/-- A place in a text: the character in front of it, and what follows. -/
structure Cursor where
  before : Option Char
  rest : List Char
  deriving DecidableEq, Repr, Inhabited

/-- Whether a character of ASCII is one of a word. -/
def isWordChar (c : Char) : Bool :=
  c.isAlphanum || c = '_'

/-- Whether a place is of a kind. -/
def Cursor.isAt (c : Cursor) : PatternPlace → Bool
  | .textStart => c.before.isNone
  | .textEnd => c.rest.isEmpty
  | .lineStart => c.before.all (· = '\n')
  | .lineEnd => c.rest.head?.all (· = '\n')
  | .wordEdge isEdge => (c.before.any isWordChar != c.rest.head?.any isWordChar) == isEdge

/-- The place of a list at its end, unless it is in the list. -/
def addNew (c : Cursor) (cs : List Cursor) : List Cursor :=
  if cs.contains c then cs else cs ++ [c]

/-- Where a pattern that is repeated from a place on may end, where `step` tells where it may end
when it is used once. Added to what has been `found`; from the places in `visited` it has been
repeated before. Every use but the last one takes characters, so that there are no more of them than
`fuel`. -/
def repeatFrom (step : Cursor → List Cursor) (isReluctant : Bool) :
    (fuel : Nat) → (visited found : List Cursor) → Cursor → List Cursor × List Cursor
  | 0, visited, found, _ => (visited, found)
  | fuel + 1, visited, found, c =>
    if visited.contains c then (visited, found)
    else
      (step c).foldl
        (fun (visited, found) e =>
          if e = c then (visited, addNew e found)
          else if isReluctant then repeatFrom step isReluctant fuel visited (addNew e found) e
          else
            let (visited, found) := repeatFrom step isReluctant fuel visited found e
            (visited, addNew e found))
        (c :: visited, found)

/-- The places where a part of a text that begins at a place may end, the preferred one first. -/
def ends : Pattern → Cursor → List Cursor
  | empty, c => [c]
  | one set, c =>
    match c.rest with
    | [] => []
    | x :: rest => if set.contains x then [⟨some x, rest⟩] else []
  | place kind, c => if c.isAt kind then [c] else []
  | seq first second, c => ((first.ends c).flatMap second.ends).eraseDups
  | either first second, c => (first.ends c ++ second.ends c).eraseDups
  | optional isReluctant inner, c =>
    (if isReluctant then c :: inner.ends c else inner.ends c ++ [c]).eraseDups
  | many isReluctant inner, c =>
    (repeatFrom inner.ends isReluctant (c.rest.length + 1) [] [] c).2

/-- The end of the part that a pattern finds in a text, of which `before` is the character in
front. -/
def findFrom (p : Pattern) (before : Option Char) : List Char → Option Cursor
  | [] => (p.ends ⟨before, []⟩).head?
  | x :: rest =>
    match p.ends ⟨before, x :: rest⟩ with
    | e :: _ => some e
    | [] => p.findFrom (some x) rest

/-- Whether the part that a pattern finds in a text ends where the text does. -/
def findsEnd (p : Pattern) (text : List Char) : Bool :=
  (p.findFrom none text).any (·.rest.isEmpty)

end Pattern

end Colloquy
