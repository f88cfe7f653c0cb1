import Colloquy.Json.Number
import Colloquy.Text.Quoted
import Colloquy.Text.Utf8

/-!
# Failures of reading JSON

Why a text could not be read, and where. A reader knows only the bytes in front of it, so it
reports a place as the number of bytes that are left after it; `Failure.locate` turns that number
into a line and a column of the whole text. `Error.message` is the wording of the located failure.
-/

set_option autoImplicit false

namespace Colloquy.Json

/-- The kind of value that stands where another was expected. -/
inductive Found
  | null
  | bool (value : Bool)
  | number (value : Number)
  | text (value : String)
  | list
  | object
  deriving DecidableEq, Repr, Inhabited

/-- How a found value is named in a message. -/
def Found.describe : Found → String
  | null => "null"
  | bool value => "boolean `" ++ (if value then "true" else "false") ++ "`"
  | number (.integer value) => "integer `" ++ toString value ++ "`"
  | number (.real value) => "floating point `" ++ Number.realText value ++ "`"
  | text value => "string " ++ Quoted.quote value
  | list => "sequence"
  | object => "map"

/-- Why a text is not the JSON text of a value of the wanted form. -/
inductive Cause
  /-- The text ends where a value should begin or go on. -/
  | endInValue
  /-- The text ends inside a string. -/
  | endInText
  /-- The text ends inside a list. -/
  | endInList
  /-- The text ends inside an object. -/
  | endInObject
  /-- No value begins with the byte that is there. -/
  | noValue
  /-- A word other than the three literals. -/
  | unknownWord
  /-- Something else than the colon after a name. -/
  | noColon
  /-- Something else than a comma or the end after an item. -/
  | noListSeparator
  /-- Something else than a comma or the end after a member. -/
  | noObjectSeparator
  /-- A member that does not begin with a string. -/
  | nameNotText
  /-- A comma in front of a closing bracket. -/
  | trailingComma
  /-- Something after the end of the value. -/
  | trailingCharacters
  /-- A number of a form the grammar does not have. -/
  | invalidNumber
  /-- A number beyond the largest of double precision. -/
  | numberOutOfRange
  /-- An unknown escape in a string. -/
  | invalidEscape
  /-- A control character in a string. -/
  | controlCharacter
  /-- One half of a pair of escapes that must stand together, or the wrong second half. -/
  | loneSurrogate
  /-- The first half of a pair of escapes without an escape after it. -/
  | unfinishedPair
  /-- A string that is not UTF-8. -/
  | invalidCodePoint
  /-- More containers inside one another than are read. -/
  | tooDeep
  /-- A value of another kind than the wanted one. -/
  | wrongType (found : Found) (expected : String)
  /-- A value of the right kind that does not fit. -/
  | wrongValue (found : Found) (expected : String)
  /-- A record without a member that it needs. -/
  | missingField (name : String)
  | duplicateField (name : String)
  /-- A record written as a list of too few items. -/
  | wrongLength (length : Nat) (expected : String)
  /-- A text that is none of the names that are known. -/
  | unknownName (name : String) (known : List String)
  /-- A value that is of none of the forms that are known. -/
  | unknownForm (forms : String)
  deriving DecidableEq, Repr, Inhabited

namespace Cause

/-- The wording of a cause. -/
def text : Cause → String
  | endInValue => "EOF while parsing a value"
  | endInText => "EOF while parsing a string"
  | endInList => "EOF while parsing a list"
  | endInObject => "EOF while parsing an object"
  | noValue => "expected value"
  | unknownWord => "expected ident"
  | noColon => "expected `:`"
  | noListSeparator => "expected `,` or `]`"
  | noObjectSeparator => "expected `,` or `\x7d`"
  | nameNotText => "key must be a string"
  | trailingComma => "trailing comma"
  | trailingCharacters => "trailing characters"
  | invalidNumber => "invalid number"
  | numberOutOfRange => "number out of range"
  | invalidEscape => "invalid escape"
  | controlCharacter => "control character (\\u0000-\\u001F) found while parsing a string"
  | loneSurrogate => "lone leading surrogate in hex escape"
  | unfinishedPair => "unexpected end of hex escape"
  | invalidCodePoint => "invalid unicode code point"
  | tooDeep => "recursion limit exceeded"
  | wrongType found expected => "invalid type: " ++ found.describe ++ ", expected " ++ expected
  | wrongValue found expected => "invalid value: " ++ found.describe ++ ", expected " ++ expected
  | missingField name => "missing field `" ++ name ++ "`"
  | duplicateField name => "duplicate field `" ++ name ++ "`"
  | wrongLength length expected =>
    "invalid length " ++ toString length ++ ", expected " ++ expected
  | unknownName name known =>
    "unknown variant `" ++ name ++ "`, expected one of " ++
      ", ".intercalate (known.map fun k => "`" ++ k ++ "`")
  | unknownForm forms => "data did not match any variant of untagged enum " ++ forms

/-- Whether the text is JSON as far as it was read, but not of the wanted form. -/
def isData : Cause → Bool
  | wrongType .. | wrongValue .. | missingField _ | duplicateField _ | wrongLength ..
  | unknownName .. | unknownForm _ => true
  | _ => false

end Cause

/-- One step from a value to a part of it. -/
inductive Step
  /-- To an item of a list. -/
  | index (i : Nat)
  /-- To a member of an object. -/
  | member (name : String)
  /-- To a member whose name could not be read. -/
  | nameless
  deriving DecidableEq, Repr, Inhabited

namespace Step

/-- A step as it is written in a path. -/
def text : Step → String
  | index i => "[" ++ toString i ++ "]"
  | member name => name
  | nameless => "?"

/-- The steps of a path: a point stands in front of every name but the first step. -/
def pathText : List Step → String
  | [] => ""
  | first :: rest =>
    rest.foldl
      (fun out step => match step with
        | index _ => out ++ step.text
        | _ => out ++ "." ++ step.text)
      first.text

end Step

/-- A failure as a reader reports it. -/
structure Failure where
  cause : Cause
  /-- How many bytes of the text are left after the place that the failure is reported at. -/
  left : Nat
  /-- The way to the part that could not be read, from the outermost value. -/
  path : List Step
  deriving DecidableEq, Repr, Inhabited

namespace Failure

/-- A failure reported in front of `rest`. -/
def before (cause : Cause) (rest : Bytes) : Failure :=
  ⟨cause, rest.length, []⟩

/-- A failure reported at the first byte of `rest`, or at the end of the text. -/
def upon (cause : Cause) (rest : Bytes) : Failure :=
  ⟨cause, rest.length - 1, []⟩

/-- The failure seen from the value that has the failing one as a part. -/
def inside (step : Step) (f : Failure) : Failure :=
  { f with path := step :: f.path }

end Failure

/-- A failure with its place in the text. -/
structure Error where
  cause : Cause
  /-- The line, counted from one. -/
  line : Nat
  /-- The number of bytes of that line up to the place. -/
  column : Nat
  /-- The way to the part that could not be read. -/
  path : List Step
  deriving DecidableEq, Repr, Inhabited

/-- The line and the column behind some bytes. -/
def lineAndColumn (bytes : Bytes) : Nat × Nat :=
  bytes.foldl
    (fun (line, column) b => if b = Ascii.lineFeed then (line + 1, 0) else (line, column + 1))
    (1, 0)

/-- The place of a failure in the text that was read. -/
def Failure.locate (text : Bytes) (f : Failure) : Error :=
  let (line, column) := lineAndColumn (text.take (text.length - f.left))
  ⟨f.cause, line, column, f.path⟩

namespace Error

/-- The wording of an error. -/
def message (e : Error) : String :=
  e.cause.text ++ " at line " ++ toString e.line ++ " column " ++ toString e.column

/-- The wording of an error, after the way to the failing part if any step of it has a name. -/
def messageWithPath (e : Error) : String :=
  if e.path.all (· == .nameless) then e.message
  else Step.pathText e.path ++ ": " ++ e.message

end Error

end Colloquy.Json
