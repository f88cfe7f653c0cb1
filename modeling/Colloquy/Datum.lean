import Colloquy.Binary64.Numeral
import Colloquy.Dictionary
import Colloquy.Json.Failure
import Colloquy.Json.Value
import Colloquy.Text.Quoted

/-!
# Data

What settings are made of before they are known to be settings: texts, truth values, numbers,
lists, and groups of named data. A group is written in any order and kept in the order of its names,
each name once. Data can be laid over other data: groups are merged name by name, and everything
else replaces what it is laid over.
-/

set_option autoImplicit false

namespace Colloquy

/-- A piece of data. -/
inductive Datum
  | nothing
  | flag (value : Bool)
  /-- An integer of sixty-four bits without sign. -/
  | unsigned (value : Nat)
  /-- An integer of sixty-four bits with sign. -/
  | signed (value : Int)
  /-- An integer that needs more bits. -/
  | large (value : Int)
  | real (value : Binary64)
  | text (value : String)
  | list (items : List Datum)
  | group (members : List (String × Datum))
  deriving Inhabited

/-- The members of a group with one more, in place of the one of that name if there is one. -/
def putMember {β : Type} (name : String) (value : β) :
    List (String × β) → List (String × β)
  | [] => [(name, value)]
  | (other, kept) :: rest =>
    if name < other then (name, value) :: (other, kept) :: rest
    else if name = other then (name, value) :: rest
    else (other, kept) :: putMember name value rest

namespace Datum

/-- The group of some members, of which the last one of a name counts. -/
def ofMembers (members : List (String × Datum)) : Datum :=
  .group (members.foldl (fun kept (name, value) => putMember name value kept) [])

mutual

/-- The data in which the members of every group are in the order of their names, and the last one
of a name counts. -/
def arranged : Datum → Datum
  | list items => .list (arrangedItems items)
  | group members => .ofMembers (arrangedMembers members)
  | d => d

/-- The items of a list, arranged. -/
def arrangedItems : List Datum → List Datum
  | [] => []
  | item :: items => arranged item :: arrangedItems items

/-- The members of a group, each arranged. -/
def arrangedMembers : List (String × Datum) → List (String × Datum)
  | [] => []
  | (name, value) :: members => (name, arranged value) :: arrangedMembers members

end

mutual

/-- Data laid over data. -/
def overlay (lower : Datum) : (upper : Datum) → Datum
  | group members =>
    match lower with
    | group below => .group (overlayMembers below members)
    | _ => .group members
  | upper => upper

/-- The members of a group laid over those of another. -/
def overlayMembers (below : List (String × Datum)) :
    (above : List (String × Datum)) → List (String × Datum)
  | [] => below
  | (name, value) :: above =>
    let merged := match below.lookup name with
      | some lower => overlay lower value
      | none => value
    overlayMembers (putMember name merged below) above

end

/-- The part of a piece of data that a step leads to. -/
def part? : Datum → Json.Step → Option Datum
  | group members, .member name => members.lookup name
  | list items, .index i => items[i]?
  | _, _ => none

/-- The part of a piece of data at the end of a path. -/
def at? (d : Datum) (path : List Json.Step) : Option Datum :=
  path.foldlM part? d

mutual

/-- The data of a JSON value. -/
def ofJson : Json.Value → Datum
  | .null => nothing
  | .bool b => flag b
  | .number (.integer n) => if 0 ≤ n then unsigned n.toNat else signed n
  | .number (.real x) => real x
  | .text t => text t
  | .list items => list (ofItems items)
  | .object members => ofMembers (ofNamed members)

/-- The data of the items of a list. -/
def ofItems : List Json.Value → List Datum
  | [] => []
  | item :: items => ofJson item :: ofItems items

/-- The data of the members of an object. -/
def ofNamed : List (String × Json.Value) → List (String × Datum)
  | [] => []
  | (name, value) :: members => (name, ofJson value) :: ofNamed members

end

/-- The form of an integer that needs more than sixty-four bits. -/
def largeForm (n : Int) : String :=
  "integer `" ++ toString n ++ "` as " ++ (if 0 ≤ n then "u128" else "i128")

/-- What messages call a piece of data. -/
def describe : Datum → String
  | nothing => "unit"
  | flag b => "bool " ++ (if b then "true" else "false")
  | unsigned n => "unsigned int `" ++ toString n ++ "`"
  | signed n => "signed int `" ++ toString n ++ "`"
  | large n => largeForm n
  | real x => "float `" ++ x.plainText "" ++ "`"
  | text t => "string " ++ Quoted.quote t
  | list _ => "sequence"
  | group _ => "map"

/-- What messages call a piece of data that a file consists of. -/
def describeWhole : Datum → String
  | nothing => "unit value"
  | flag b => "boolean `" ++ (if b then "true" else "false") ++ "`"
  | unsigned n => "integer `" ++ toString n ++ "`"
  | signed n => "integer `" ++ toString n ++ "`"
  | large n => largeForm n
  | real x => "floating point `" ++ x.plainText ".0" ++ "`"
  | text t => "string " ++ Quoted.quote t
  | list _ => "sequence"
  | group _ => "map"

end Datum

end Colloquy
