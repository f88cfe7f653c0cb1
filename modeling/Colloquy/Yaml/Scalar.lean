import Colloquy.Datum
import Colloquy.Text.Ascii
import Colloquy.Text.Utf8

/-!
# Scalars of YAML

What the text of a scalar stands for: nothing, a truth value, a number, or if it is none of them the
text itself. Of a plain scalar the text decides (`ofPlain`), unless a tag says which of them it has
to be (`ofScalar`); any other scalar is its text if no tag says otherwise.
-/

set_option autoImplicit false

namespace Colloquy.Yaml

/-- The value of digits to a base. -/
def inBase? (base : Nat) (digits : List Char) : Option Nat :=
  if digits.isEmpty then none
  else
    digits.foldlM (fun n c =>
      if c.toNat < 0x80 then
        (Ascii.hexValue? c.toUInt8).bind fun d => if d < base then some (base * n + d) else none
      else none) 0

/-- The value of an integer without sign: `0x`, `0o` and `0b` name a base other than ten, in which
no number begins with a zero. -/
def magnitude? : List Char → Option Nat
  | '0' :: 'x' :: digits => inBase? 16 digits
  | '0' :: 'o' :: digits => inBase? 8 digits
  | '0' :: 'b' :: digits => inBase? 2 digits
  | '0' :: _ :: _ => none
  | digits => inBase? 10 digits

/-- The integer that a text is, if it has at most 128 bits. -/
def integer? (text : List Char) : Option Datum :=
  let positive (digits : List Char) : Option Datum :=
    (magnitude? digits).bind fun n =>
      if n < Nat.pow 2 64 then some (.unsigned n)
      else if n < Nat.pow 2 128 then some (.large n)
      else none
  match text with
  | '-' :: digits =>
    (magnitude? digits).bind fun n =>
      if n ≤ Nat.pow 2 63 then some (.signed (-Int.ofNat n))
      else if n ≤ Nat.pow 2 127 then some (.large (-Int.ofNat n))
      else none
  | '+' :: digits => positive digits
  | digits => positive digits

/-- Whether a text consists of digits, of which the first of several is a zero. -/
def isPaddedNumber (text : List Char) : Bool :=
  let digits := match text with
    | '-' :: digits => digits
    | '+' :: digits => digits
    | digits => digits
  match digits with
  | '0' :: c :: rest => (c :: rest).all Char.isDigit
  | _ => false

/-- The number with a fraction that a text is. -/
def real? (text : List Char) : Option Datum :=
  let infinity := Binary64.ofMagnitude Binary64.infinityPattern
  let isInfinity (s : List Char) : Bool :=
    s = ".inf".toList || s = ".Inf".toList || s = ".INF".toList
  let unsigned := match text with
    | '+' :: rest => rest
    | _ => text
  let value :=
    if isInfinity unsigned then some infinity
    else if text.head? = some '-' && isInfinity (text.drop 1) then some infinity.neg
    else if text = ".nan".toList || text = ".NaN".toList || text = ".NAN".toList then
      some (.ofMagnitude (Binary64.infinityPattern + Nat.pow 2 51))
    else if text.head? = some '+' && (unsigned.head? = some '+' || unsigned.head? = some '-') then
      none
    else (Binary64.ofNumeral? unsigned).filter fun x => !x.isInfinite
  value.map .real

/-- The truth value that a text is. -/
def flag? (text : List Char) : Option Datum :=
  match String.ofList text with
  | "true" | "True" | "TRUE" => some (.flag true)
  | "false" | "False" | "FALSE" => some (.flag false)
  | _ => none

/-- Nothing, if a text says so. -/
def nothing? (text : List Char) : Option Datum :=
  match String.ofList text with
  | "~" | "null" | "Null" | "NULL" => some .nothing
  | _ => none

/-- What a plain scalar stands for. -/
def ofPlain (text : List Char) : Datum :=
  if text.isEmpty then .nothing
  else
    let number :=
      (integer? text).or (if isPaddedNumber text then none else real? text)
    ((nothing? text).or ((flag? text).or number)).getD (.text (String.ofList text))

/-- The types that a tag can demand of a scalar: what messages call them, and the data of a text. -/
def coreTypes : List (String × String × (List Char → Option Datum)) :=
  [ ("bool", "a boolean", flag?), ("int", "an integer", integer?), ("float", "a float", real?)
  , ("null", "null", nothing?) ]

/-- The tag of one of these types. -/
def coreTag (type : String) : Bytes :=
  Utf8.encode ("tag:yaml.org,2002:" ++ type)

/-- Whether a tag is one of the text itself: it begins with an exclamation mark. -/
def isLocalTag (tag : Bytes) : Bool :=
  tag.head? = some 0x21

/-- What a scalar with a tag stands for, or what was expected of it. -/
def ofScalar (tag : Option Bytes) (isPlain : Bool) (text : String) : Except String Datum :=
  let untagged := if isPlain then ofPlain text.toList else .text text
  match tag with
  | none => .ok untagged
  | some tag =>
    match coreTypes.find? fun type => tag = coreTag type.1 with
    | some (_, expected, read) => ((read text.toList).map .ok).getD (.error expected)
    | none => .ok (if isLocalTag tag then untagged else .text text)

end Colloquy.Yaml
