import Colloquy.Datum
import Colloquy.Yaml.Glyph

/-!
# Flaws of YAML texts

Why a text has no data, and how that is worded.
-/

set_option autoImplicit false

namespace Colloquy.Yaml

/-- Why a text has no data. -/
inductive Flaw
  | notUtf8
  | manyDocuments
  /-- It is not in the language. -/
  | malformed
  /-- A name is not one of data in front of it. -/
  | unknownAnchor (start : Mark)
  /-- At the end of a path, something else stands than was expected. -/
  | wrongType (found : Datum) (expected : String) (path : List Json.Step) (start : Mark)
  /-- At the end of a path, a text is not what its tag says. -/
  | wrongText (text expected : String) (path : List Json.Step) (start : Mark)
  /-- At the end of a path, data has a tag of the text itself, which only enumerations have. -/
  | localTag (path : List Json.Step) (start : Mark)
  /-- Too many lists and groups stand inside one another. -/
  | tooDeep (start : Mark)
  /-- Data is referred to too often. -/
  | tooManyReferences
  deriving Inhabited

namespace Flaw

/-- A place as it follows a message; the front of a text is not mentioned. -/
def placeText (m : Mark) : String :=
  if m = ⟨0, 0⟩ then ""
  else " at line " ++ toString (m.line + 1) ++ " column " ++ toString (m.column + 1)

/-- What is wrong at the end of a path and at a place. -/
def located (path : List Json.Step) (wrong : String) (start : Mark) : String :=
  (if path.isEmpty then "" else Json.Step.pathText path ++ ": ") ++ wrong ++ placeText start

/-- The wording of a flaw. -/
def message : Flaw → String
  | notUtf8 => "stream did not contain valid UTF-8"
  | manyDocuments =>
    "deserializing from YAML containing more than one document is not supported"
  | malformed => "did not find expected node content"
  | unknownAnchor start => "unknown anchor" ++ placeText start
  | wrongType found expected path start =>
    located path ("invalid type: " ++ found.describeWhole ++ ", expected " ++ expected) start
  | wrongText text expected path start =>
    located path
      ("invalid value: " ++ (Datum.text text).describeWhole ++ ", expected " ++ expected) start
  | localTag path start =>
    located path "invalid type: enum, expected a primitive, dictionary, or array" start
  | tooDeep start => "recursion limit exceeded" ++ placeText start
  | tooManyReferences => "repetition limit exceeded"

end Flaw

end Colloquy.Yaml
