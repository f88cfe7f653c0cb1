/-!
# Media types

The type of a body, such as `application/problem+json; charset=utf-8`: a kind, a subtype that may
have a suffix, and parameters. Only the form of the parameters is checked. A parameter has a name
and a value; a value is a token, which may be empty at the very end, or a quoted text, which has at
least one character.
-/

set_option autoImplicit false

namespace Colloquy.Http

/-- The type of a body. -/
structure MediaType where
  /-- The kind, such as `application`. -/
  kind : String
  /-- The subtype, without its suffix. -/
  subtype : String
  /-- What stands behind the last plus sign of the subtype. -/
  suffix : Option String
  deriving DecidableEq, Repr, Inhabited

namespace MediaType

/-- Whether a character may stand in a token. -/
def isTokenChar (c : Char) : Bool :=
  c.isAlphanum || "!#$%&'*+-.^_`|~".toList.contains c

/-- Whether a character may stand in a quoted text. -/
def isQuotedChar (c : Char) : Bool :=
  0x20 ≤ c.toNat && c.toNat ≠ 0x7f

/-- Where in the parameters a reader stands. -/
inductive Place
  | start
  | name
  | valueStart
  | value
  /-- In front of the first character of a quoted text. -/
  | quotedStart
  | quoted
  | behind
  deriving DecidableEq, Repr, Inhabited

namespace Place

/-- Where a reader stands after one more character. -/
def next : Place → Char → Option Place
  | start, c => if c = ' ' then some start else if isTokenChar c then some name else none
  | name, c => if c = '=' then some valueStart else if isTokenChar c then some name else none
  | valueStart, c =>
    if c = '"' then some quotedStart else if isTokenChar c then some value else none
  | value, c => if c = ';' then some start else if isTokenChar c then some value else none
  | quotedStart, c => if isQuotedChar c then some quoted else none
  | quoted, c => if c = '"' then some behind else if isQuotedChar c then some quoted else none
  | behind, c => if c = ' ' then some behind else if c = ';' then some start else none

/-- Whether the parameters may end here. -/
def isEnd : Place → Bool
  | start | valueStart | value | behind => true
  | name | quotedStart | quoted => false

end Place

/-- Whether a text is a list of parameters. -/
def areParameters (text : List Char) : Bool :=
  (text.foldlM Place.next Place.start).any Place.isEnd

/-- The subtype and the suffix of a name: the last plus sign that is not the first character of
the name stands between them. -/
def splitSuffix (name : List Char) : List Char × Option (List Char) :=
  let suffix := name.reverse.takeWhile (· ≠ '+')
  match (name.reverse.dropWhile (· ≠ '+')).drop 1 with
  | [] => (name, none)
  | subtype => (subtype.reverse, some suffix.reverse)

/-- The media type that a text names, in lower case. -/
def parse? (text : String) : Option MediaType :=
  let cs := text.toList
  match cs.takeWhile isTokenChar, cs.dropWhile isTokenChar with
  | [], _ => none
  | kind, '/' :: rest =>
    let name := rest.takeWhile isTokenChar
    let (subtype, suffix) := splitSuffix name
    let found : MediaType :=
      { kind := (String.ofList kind).toLower
        subtype := (String.ofList subtype).toLower
        suffix := suffix.map fun s => (String.ofList s).toLower }
    match name, rest.dropWhile isTokenChar with
    | _, [] => some found
    | _ :: _, ';' :: parameters => if areParameters parameters then some found else none
    | _, _ => none
  | _, _ => none

/-- Whether bodies of a media type are JSON texts. -/
def isJson (m : MediaType) : Bool :=
  m.kind = "application" && (m.subtype = "json" || m.suffix = some "json")

end MediaType

end Colloquy.Http
