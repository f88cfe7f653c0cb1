import Colloquy.Dictionary
import Colloquy.Json.Container
import Colloquy.Json.Numeral
import Colloquy.Json.Value

/-!
# Whole texts

The reader of a value of any kind, and the two ways to read a text with a given reader: all of it,
or only its first value. Containers nest to a limited depth; the members of an object are delivered
in the order of their names, and of members of one name the last.
-/

set_option autoImplicit false

namespace Colloquy.Json

/-- How many containers may stand inside one another. -/
def depthLimit : Nat := 127

/-- Reads a value. The values inside it are read by `inner`; without it no container may begin
here. -/
def readValueWith (inner : Option (Reader Value)) : Reader Value := fun s =>
  match hs : skipBlank s with
  | [] => .error (.upon .endInValue [])
  | b :: rest =>
    have hr : rest.length < s.length := length_lt_of_skipBlank hs
    if b = 0x6e then (readWord s.length nullTail rest hr).map (·.map fun _ => .null)
    else if b = 0x74 then (readWord s.length trueTail rest hr).map (·.map fun _ => .bool true)
    else if b = 0x66 then (readWord s.length falseTail rest hr).map (·.map fun _ => .bool false)
    else if b = Ascii.quote then
      (readStringFrom s.length ByteArray.empty rest (Nat.le_of_lt hr)).map (·.map .text)
    else if startsNumeral b then
      (readNumeral (b :: rest)).map fun x => (x.weaken hr).map .number
    else if b = Ascii.openBracket then
      match inner with
      | none => .error (.upon .tooDeep (b :: rest))
      | some inner => (readItems inner s.length 0 [] rest hr).map (·.map .list)
    else if b = Ascii.openBrace then
      match inner with
      | none => .error (.upon .tooDeep (b :: rest))
      | some inner =>
        (readMembers
          (fun members name =>
            .admitted fun s => (inner s).map (·.map fun v => (name, v) :: members))
          s.length true [] rest hr).map
          (·.map fun members => .object (lastByName members.reverse))
    else .error (.upon .noValue (b :: rest))

/-- Reads a value, with at most `depth` containers inside one another. -/
def readValue : (depth : Nat) → Reader Value
  | 0 => readValueWith none
  | depth + 1 => readValueWith (some (readValue depth))

/-- Reads the first value of a text, whatever follows it. -/
def decodeFirst {α : Type} (reader : Reader α) (text : Bytes) : Except Error α :=
  match reader text with
  | .error e => .error (e.locate text)
  | .ok x => .ok x.value

/-- Reads a text that is one value and blanks. -/
def decode {α : Type} (reader : Reader α) (text : Bytes) : Except Error α :=
  match reader text with
  | .error e => .error (e.locate text)
  | .ok x =>
    match skipBlank x.rest with
    | [] => .ok x.value
    | b :: rest => .error ((Failure.upon .trailingCharacters (b :: rest)).locate text)

/-- Reads a text as a value of any kind. -/
def Value.parse (text : Bytes) : Except Error Value :=
  decode (readValue depthLimit) text

end Colloquy.Json
