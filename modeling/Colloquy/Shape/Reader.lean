import Colloquy.Json.Document
import Colloquy.Json.Skip
import Colloquy.Shape

/-!
# Reading values of a shape

The reader that a shape stands for. It is strict about kinds, a text is not read as a number, and
says what it found and what it wanted. A record is read from an object, whose members may come in
any order and where unknown ones are passed over, or from the list of its fields; a record that is
not lenient needs every field, save those that may hold nothing.
-/

set_option autoImplicit false

namespace Colloquy

open Json

/-- Reports the value that begins with `b`, where a value of another kind is wanted: behind it,
or in front of its bracket. -/
def refuseValue {α : Type} (expected : String) (b : UInt8) (rest : Bytes) : Except Failure α :=
  let refuse (found : Found) (rest : Bytes) : Failure := .before (.wrongType found expected) rest
  if b = 0x6e then
    (readWord (rest.length + 1) nullTail rest (length_lt_succ rest)).bind
      fun x => .error (refuse .null x.rest)
  else if b = 0x74 then
    (readWord (rest.length + 1) trueTail rest (length_lt_succ rest)).bind
      fun x => .error (refuse (.bool true) x.rest)
  else if b = 0x66 then
    (readWord (rest.length + 1) falseTail rest (length_lt_succ rest)).bind
      fun x => .error (refuse (.bool false) x.rest)
  else if b = Ascii.quote then
    (readString rest).bind fun x => .error (refuse (.text x.value) x.rest)
  else if startsNumeral b then
    (readNumeral (b :: rest)).bind fun x => .error (refuse (.number x.value) x.rest)
  else if b = Ascii.openBracket then .error (refuse .list (b :: rest))
  else if b = Ascii.openBrace then .error (refuse .object (b :: rest))
  else .error (.upon .noValue (b :: rest))

/-- Goes to the first byte of a value and lets `read` go on there. -/
def atValue {α : Type}
    (read : (bound : Nat) → (b : UInt8) → (rest : Bytes) → rest.length < bound →
      Except Failure (Scanned α bound)) : Reader α := fun s =>
  match hs : skipBlank s with
  | [] => .error (.upon .endInValue [])
  | b :: rest => read s.length b rest (length_lt_of_skipBlank hs)

/-- Reads a text. -/
def readText (expected : String) : Reader String := atValue fun bound b rest h =>
  if b = Ascii.quote then readStringFrom bound ByteArray.empty rest (le_of_length_lt h)
  else refuseValue expected b rest

/-- Reads a truth value. -/
def readFlag : Reader Bool := atValue fun bound b rest h =>
  if b = 0x74 then (readWord bound trueTail rest h).map (·.map fun _ => true)
  else if b = 0x66 then (readWord bound falseTail rest h).map (·.map fun _ => false)
  else refuseValue "a boolean" b rest

/-- Reads a natural number below `limit`. -/
def readNatural (limit : Nat) (expected : String) : Reader Nat := atValue fun _ b rest h =>
  if startsNumeral b then
    match readNumeral (b :: rest) with
    | .error e => .error e
    | .ok x =>
      match x.value with
      | .real _ => .error (.before (.wrongType (.number x.value) expected) x.rest)
      | .integer n =>
        if 0 ≤ n ∧ n < limit then .ok ((x.weaken h).map fun _ => n.toNat)
        else .error (.before (.wrongValue (.number x.value) expected) x.rest)
  else refuseValue expected b rest

/-- What messages call a number of any form. -/
def anyNumber : String := "a JSON number"

/-- Reads a number of any form. A container is entered before it is refused. -/
def readNumber (depth : Nat) : Reader Number := atValue fun _ b rest h =>
  if startsNumeral b then (readNumeral (b :: rest)).map (·.weaken h)
  else if b = Ascii.openBracket then
    if depth = 0 then .error (.upon .tooDeep (b :: rest))
    else .error (.before (.wrongType .list anyNumber) (leaveList rest))
  else if b = Ascii.openBrace then
    if depth = 0 then .error (.upon .tooDeep (b :: rest))
    else .error (.before (.wrongType .object anyNumber) (leaveObject rest))
  else refuseValue anyNumber b rest

/-- Reads `null` or a value. -/
def readOptional {α : Type} (inner : Reader α) : Reader (Option α) := fun s =>
  match hs : skipBlank s with
  | [] => .error (.upon .endInValue [])
  | b :: rest =>
    have hr : rest.length < s.length := length_lt_of_skipBlank hs
    if b = 0x6e then (readWord s.length nullTail rest hr).map (·.map fun _ => none)
    else (inner (b :: rest)).map fun x => (x.weaken hr).map some

/-- Reads a list. -/
def readList {α : Type} (depth : Nat) (item : Reader α) : Reader (List α) :=
  atValue fun bound b rest h =>
    if b = Ascii.openBracket then
      if depth = 0 then .error (.upon .tooDeep (b :: rest))
      else readItems item bound 0 [] rest h
    else refuseValue "a sequence" b rest

/-- Reads an object with any names. -/
def readDictionary {α : Type} (depth : Nat) (item : Reader α) : Reader (Dictionary α) :=
  atValue fun bound b rest h =>
    if b = Ascii.openBrace then
      if depth = 0 then .error (.upon .tooDeep (b :: rest))
      else
        (readMembers
          (fun entries name =>
            .admitted fun s => (item s).map (·.map fun x => (name, x) :: entries))
          bound true [] rest h).map
          (·.map fun entries => Dictionary.ofList entries.reverse)
    else refuseValue "a map" b rest

/-- The fields of a record that have been read. -/
@[reducible] def Fields.Slots : Fields → Type
  | .nil => Unit
  | .cons _ shape rest => Option shape.Carrier × rest.Slots

/-- No field has been read. -/
def Fields.noSlots : (fields : Fields) → fields.Slots
  | .nil => ()
  | .cons _ _ rest => (none, rest.noSlots)

/-- The value of a field that is left out; none where the field is needed. -/
def Shape.absent? (lenient : Bool) (shape : Shape) : Option shape.Carrier :=
  match lenient, shape with
  | true, shape => some shape.blank
  | false, .optional _ => some none
  | false, _ => none

/-- The fields of a record once its object has ended; else the first needed one that is
missing. -/
def Fields.complete (lenient : Bool) : (fields : Fields) → fields.Slots →
    Except Cause fields.Carrier
  | .nil, _ => .ok ()
  | .cons name shape rest, (slot, slots) =>
    match slot <|> shape.absent? lenient with
    | none => .error (.missingField name)
    | some x => (rest.complete lenient slots).map fun xs => (x, xs)

/-- What messages call a record. -/
def recordName (name : String) : String :=
  "struct " ++ name

/-- What messages call a record written as a list. -/
def recordLength (name : String) (count : Nat) : String :=
  recordName name ++ " with " ++ toString count ++ (if count = 1 then " element" else " elements")

/-- Reads the end of the list that a record is written as, behind its last field. -/
def endRecordList (bound : Nat) (s : Bytes) (h : s.length < bound) :
    Except Failure (Scanned Unit bound) :=
  match hs : skipBlank s with
  | [] => .error (.upon .endInList [])
  | b :: rest =>
    if b = Ascii.closeBracket then .ok ⟨(), rest, lt_of_skipBlank_of_lt hs h⟩
    else if b = Ascii.comma then
      match skipBlank rest with
      | c :: tail =>
        if c = Ascii.closeBracket then .error (.upon .trailingComma (c :: tail))
        else .error (.upon .trailingCharacters (c :: tail))
      | [] => .error (.upon .trailingCharacters [])
    else .error (.upon .trailingCharacters (b :: rest))

/-- The fields that a list has left out, its end being in front of `rest`. -/
def Fields.leftOut (lenient : Bool) (expected : String) (index : Nat) (rest : Bytes) :
    (fields : Fields) → Except Failure fields.Carrier
  | .nil => .ok ()
  | .cons _ shape fields =>
    if lenient then .ok (shape.blank, fields.blank)
    else .error (.before (.wrongLength index expected) rest)

/-- Reads the members of a record from its object and closes it. -/
def readRecord {σ α : Type} (enter : σ → String → Admission σ) (start : σ)
    (complete : σ → Except Cause α) (bound : Nat) (s : Bytes) (h : s.length < bound) :
    Except Failure (Scanned α bound) :=
  match readMembers enter bound true start s h with
  | .error e => .error e
  | .ok x =>
    match complete x.value with
    | .error cause => .error (.before cause x.rest)
    | .ok a => .ok (x.map fun _ => a)

mutual

/-- Reads a value of a shape, with at most `depth` containers inside one another. -/
def Shape.reader : (shape : Shape) → (depth : Nat) → Reader shape.Carrier
  | .text expected, _ => readText expected
  | .flag, _ => readFlag
  | .short, _ => fun s => (readNatural (Nat.pow 2 16) "u16" s).map (·.map UInt16.ofNat)
  | .word, _ => fun s => (readNatural (Nat.pow 2 64) "usize" s).map (·.map UInt64.ofNat)
  | .number, depth => readNumber depth
  | .value, depth => readValue depth
  | .optional inner, depth => readOptional (inner.reader depth)
  | .list item, depth => readList depth (item.reader (depth - 1))
  | .dictionary item, depth => readDictionary depth (item.reader (depth - 1))
  | .record name lenient fields, depth => atValue fun bound b rest h =>
    if b = Ascii.openBrace then
      if depth = 0 then .error (.upon .tooDeep (b :: rest))
      else
        readRecord (fun slots key => fields.enter (depth - 1) key slots) fields.noSlots
          (fields.complete lenient) bound rest h
    else if b = Ascii.openBracket then
      if depth = 0 then .error (.upon .tooDeep (b :: rest))
      else
        fields.readList lenient (recordLength name fields.count) (depth - 1) 0 bound rest h
    else refuseValue (recordName name) b rest

/-- What a name does to the fields that have been read: a field is read once, and a member of
another name is passed over. -/
def Fields.enter : (fields : Fields) → (depth : Nat) → (key : String) → fields.Slots →
    Admission fields.Slots
  | .nil, _, _, _ => .admitted fun s => skipValue s
  | .cons name shape rest, depth, key, (slot, slots) =>
    if key = name then
      if slot.isSome then .refused (.duplicateField name)
      else .admitted fun s => (shape.reader depth s).map (·.map fun x => (some x, slots))
    else
      match rest.enter depth key slots with
      | .refused cause => .refused cause
      | .admitted value => .admitted fun s => (value s).map (·.map fun slots => (slot, slots))

/-- Reads the fields of a record from the list that it is written as, from the field number
`index` on. -/
def Fields.readList : (fields : Fields) → (lenient : Bool) → (expected : String) →
    (depth index bound : Nat) → (s : Bytes) → (h : s.length < bound) →
    Except Failure (Scanned fields.Carrier bound)
  | .nil, _, _, _, _, bound, s, h => endRecordList bound s h
  | .cons name shape rest, lenient, expected, depth, index, bound, s, h =>
    match nextItem s.length (index == 0) s (Nat.le_refl _) with
    | .error e => .error e
    | .ok (.closed tail ht) =>
      match Fields.leftOut lenient expected index tail (.cons name shape rest) with
      | .error e => .error e
      | .ok xs => .ok ⟨xs, tail, Nat.lt_of_le_of_lt (Nat.le_of_lt_succ ht) h⟩
    | .ok (.item start hs) =>
      match shape.reader depth start with
      | .error e => .error (e.inside (.index index))
      | .ok x =>
        match rest.readList lenient expected depth (index + 1) bound x.rest
            (Nat.lt_of_le_of_lt (Nat.le_of_lt_succ (Nat.lt_trans x.shorter hs)) h) with
        | .error e => .error e
        | .ok xs => .ok (xs.map fun tail => (x.value, tail))

end

namespace Encoded

/-- The reader of the values of a type. -/
def reader (α : Type) [Encoded α] : Reader α := fun s =>
  ((shape α).reader depthLimit s).map (·.map unpack)

/-- Reads a text that is one value and blanks. -/
def decode {α : Type} [Encoded α] (text : Bytes) : Except Json.Error α :=
  Json.decode (reader α) text

/-- Reads the first value of a text, whatever follows it. -/
def decodeFirst {α : Type} [Encoded α] (text : Bytes) : Except Json.Error α :=
  Json.decodeFirst (reader α) text

end Encoded

end Colloquy
