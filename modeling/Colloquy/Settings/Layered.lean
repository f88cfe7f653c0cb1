import Colloquy.Datum
import Colloquy.Shape.Reader
import Colloquy.Shape.Writer

/-!
# Reading data of a shape

The value of a shape that a piece of data stands for. Data is read as strictly as JSON texts are: a
text is not read as a number, nor a number as a text. The members of a group are read in the order
of their names, so of several that do not fit the first one is reported. A record may also be
written as the list of its fields, of which those that are left out are blank where the record is
lenient; items beyond the last field are passed over.
-/

set_option autoImplicit false

namespace Colloquy

/-- Why a piece of data is not of a shape. -/
inductive MisfitCause
  | wrongType (found : Datum) (expected : String)
  /-- It is a number out of range. -/
  | wrongValue (found : Datum) (expected : String)
  | incomplete (cause : Json.Cause)
  deriving Inhabited

/-- The wording of a cause. -/
def MisfitCause.message : MisfitCause → String
  | wrongType found expected =>
    "invalid type: found " ++ found.describe ++ ", expected " ++ expected
  | wrongValue found expected => "invalid value " ++ found.describe ++ ", expected " ++ expected
  | incomplete cause => cause.text

/-- A part of a piece of data that is not as it should be. -/
structure Misfit where
  cause : MisfitCause
  path : List Json.Step
  deriving Inhabited

namespace Misfit

/-- A piece of data that is itself not as it should be. -/
def here (cause : MisfitCause) : Misfit :=
  ⟨cause, []⟩

/-- The misfit seen from the data that has the misfitting data as a part. -/
def inside (step : Json.Step) (m : Misfit) : Misfit :=
  { m with path := step :: m.path }

end Misfit

namespace Datum

/-- Reads a natural number below `limit`. -/
def toNatural (limit : Nat) (expected : String) (d : Datum) : Except Misfit Nat :=
  match d with
  | unsigned n => if n < limit then .ok n else .error (.here (.wrongValue d expected))
  | signed n =>
    if 0 ≤ n ∧ n < limit then .ok n.toNat else .error (.here (.wrongValue d expected))
  | _ => .error (.here (.wrongType d expected))

mutual

/-- The JSON value of a piece of data. -/
def toJson : Datum → Json.Value
  | nothing => .null
  | flag b => .bool b
  | unsigned n => .number (.integer n)
  | signed n => .number (.integer n)
  | large n => .number (.integer n)
  | real x => .number (.real x)
  | text t => .text t
  | list items => .list (itemsToJson items)
  | group members => .object (membersToJson members)

/-- The JSON values of the items of a list. -/
def itemsToJson : List Datum → List Json.Value
  | [] => []
  | item :: items => toJson item :: itemsToJson items

/-- The JSON values of the members of a group. -/
def membersToJson : List (String × Datum) → List (String × Json.Value)
  | [] => []
  | (name, value) :: members => (name, toJson value) :: membersToJson members

end

/-- Reads the items of a list, from the one number `index` on. -/
def readItems {α : Type} (read : Datum → Except Misfit α) :
    (index : Nat) → List Datum → Except Misfit (List α)
  | _, [] => .ok []
  | index, item :: items =>
    match read item with
    | .error e => .error (e.inside (.index index))
    | .ok x => (readItems read (index + 1) items).map (x :: ·)

/-- Reads the members of a group. -/
def readMembers {α : Type} (read : Datum → Except Misfit α) :
    List (String × Datum) → Except Misfit (List (String × α))
  | [] => .ok []
  | (name, value) :: members =>
    match read value with
    | .error e => .error (e.inside (.member name))
    | .ok x => (readMembers read members).map ((name, x) :: ·)

end Datum

/-- The fields of a record that have been read, and those that are left out. -/
def Fields.completed (lenient : Bool) (fields : Fields) (slots : fields.Slots) :
    Except Misfit fields.Carrier :=
  (fields.complete lenient slots).mapError fun cause => .here (.incomplete cause)

mutual

/-- Reads a piece of data as a value of a shape. -/
def Shape.ofDatum : (shape : Shape) → Datum → Except Misfit shape.Carrier
  | .text expected, d =>
    match d with
    | .text t => .ok t
    | _ => .error (.here (.wrongType d expected))
  | .flag, d =>
    match d with
    | .flag b => .ok b
    | _ => .error (.here (.wrongType d "a boolean"))
  | .short, d => (d.toNatural (Nat.pow 2 16) "u16").map UInt16.ofNat
  | .word, d => (d.toNatural (Nat.pow 2 64) "usize").map UInt64.ofNat
  | .number, d =>
    match d.toJson with
    | .number n => .ok n
    | _ => .error (.here (.wrongType d Colloquy.anyNumber))
  | .value, d => .ok d.toJson
  | .optional inner, d =>
    match d with
    | .nothing => .ok none
    | _ => (inner.ofDatum d).map some
  | .list item, d =>
    match d with
    | .list items => Datum.readItems item.ofDatum 0 items
    | _ => .error (.here (.wrongType d "a sequence"))
  | .dictionary item, d =>
    match d with
    | .group members => (Datum.readMembers item.ofDatum members).map Dictionary.ofList
    | _ => .error (.here (.wrongType d "a map"))
  | .record name lenient fields, d =>
    match d with
    | .group members =>
      (members.foldlM (fun slots (key, value) => fields.fill key value slots) fields.noSlots).bind
        (fields.completed lenient)
    | .list items => fields.ofItems lenient 0 items
    | _ => .error (.here (.wrongType d (recordName name)))

/-- Reads a member of a group as a field of a record; a member of another name is passed over. -/
def Fields.fill : (fields : Fields) → (key : String) → Datum → fields.Slots →
    Except Misfit fields.Slots
  | .nil, _, _, slots => .ok slots
  | .cons name shape rest, key, value, (slot, slots) =>
    if key = name then
      match shape.ofDatum value with
      | .error e => .error (e.inside (.member name))
      | .ok x => .ok (some x, slots)
    else (rest.fill key value slots).map fun slots => (slot, slots)

/-- Reads the items of a list as the fields of a record, from the field number `index` on. -/
def Fields.ofItems : (fields : Fields) → (lenient : Bool) → (index : Nat) → List Datum →
    Except Misfit fields.Carrier
  | .nil, _, _, _ => .ok ()
  | .cons name shape rest, lenient, _, [] =>
    (Fields.cons name shape rest).completed lenient (none, rest.noSlots)
  | .cons _ shape rest, lenient, index, item :: items =>
    match shape.ofDatum item with
    | .error e => .error (e.inside (.index index))
    | .ok x => (rest.ofItems lenient (index + 1) items).map fun xs => (x, xs)

end

namespace Encoded

/-- Reads a piece of data as a value of a type. -/
def ofDatum {α : Type} [Encoded α] (d : Datum) : Except Misfit α :=
  ((shape α).ofDatum d).map unpack

/-- The data that a value is written as. -/
def toDatum {α : Type} [Encoded α] (a : α) : Datum :=
  .ofJson (toJson a)

end Encoded

end Colloquy
