import Colloquy.Json.Number

/-!
# JSON values

The tree of a JSON text, and its compact text. An object is the list of its members in the order
in which they are written; a reader delivers them sorted by name and each name once
(`Json.readValue`).
-/

set_option autoImplicit false

namespace Colloquy.Json

/-- A JSON value. -/
inductive Value
  | null
  | bool (value : Bool)
  | number (value : Number)
  | text (value : String)
  | list (items : List Value)
  /-- An object, as its members in order. -/
  | object (members : List (String × Value))
  deriving Inhabited

namespace Value

/-- A text written as it stands in a JSON string: only the quotation mark, the backslash and the
control characters below the blank are escaped. -/
def escape (c : Char) : List Char :=
  if c = '"' then ['\\', '"']
  else if c = '\\' then ['\\', '\\']
  else if c = '\n' then ['\\', 'n']
  else if c = '\r' then ['\\', 'r']
  else if c = '\t' then ['\\', 't']
  else if c.toNat = 0x08 then ['\\', 'b']
  else if c.toNat = 0x0c then ['\\', 'f']
  else if c.toNat < 0x20 then
    ['\\', 'u', '0', '0'] ++ [hexDigit (c.toNat / 16), hexDigit (c.toNat % 16)]
  else [c]
where
  /-- A hexadecimal digit in lower case. -/
  hexDigit (n : Nat) : Char :=
    if n < 10 then Char.ofNat (0x30 + n) else Char.ofNat (0x57 + n)

/-- Appends a text as a JSON string. -/
def writeText (out : String) (text : String) : String :=
  (text.toList.foldl (fun out c => (escape c).foldl String.push out) (out.push '"')).push '"'

mutual

/-- Appends the compact text of a value. -/
def write (out : String) : Value → String
  | null => out ++ "null"
  | bool true => out ++ "true"
  | bool false => out ++ "false"
  | number n => out ++ n.text
  | text t => writeText out t
  | list items => (writeItems (out.push '[') true items).push ']'
  | object members => (writeMembers (out.push '\x7b') true members).push '\x7d'

/-- Appends the items of a list, each but the first after a comma. -/
def writeItems (out : String) (first : Bool) : List Value → String
  | [] => out
  | item :: items => writeItems (write (if first then out else out.push ',') item) false items

/-- Appends the members of an object, each but the first after a comma. -/
def writeMembers (out : String) (first : Bool) : List (String × Value) → String
  | [] => out
  | (name, value) :: members =>
    writeMembers
      (write ((writeText (if first then out else out.push ',') name).push ':') value) false members

end

/-- The compact text of a value. -/
def render (value : Value) : String :=
  write "" value

/-- The member of a name; of members of one name the last. -/
def member? (name : String) : Value → Option Value
  | object members => (members.reverse.find? (·.1 = name)).map (·.2)
  | _ => none

/-- The content of a text. -/
def text? : Value → Option String
  | text t => some t
  | _ => none

end Value

end Colloquy.Json
