import Colloquy.Yaml.Event
import Colloquy.Yaml.Flaw

/-!
# Nodes of YAML

The events of a document as a tree (`Document.root`). References are by number: a name stands for
the last data in front of the reference that has it. The number of data is that of the different
names so far, so that it may be used again once a name is; a reference by a number leads to the last
data of the document that has it. What is broken somewhere is a tree with a flaw in that place.
-/

set_option autoImplicit false

namespace Colloquy.Yaml

/-- What is known of data in front of it. -/
structure Head where
  tag : Option Bytes
  start : Mark
  deriving DecidableEq, Repr, Inhabited

/-- A part of a document with all that is inside. -/
inductive Node
  | scalar (head : Head) (isPlain : Bool) (text : String)
  | list (head : Head) (items : List Node)
  /-- A group: the names and the values of its members by turns. -/
  | group (head : Head) (parts : List Node)
  | reference (number : Nat)
  /-- The text is not in the language from here on. -/
  | broken (flaw : Flaw)
  deriving Inhabited

/-! ## Names -/

/-- The parts of a document with numbers in place of names, and what is wrong behind them if they
end within data. They end in front of a reference to a name that was not given. -/
def number (names : List (String × Nat)) : List (Part String) → List (Part Nat) × Flaw
  | [] => ([], .malformed)
  | part :: rest =>
    let names' := match part.anchor with
      | some name => (name, names.length) :: names.filter (·.1 ≠ name)
      | none => names
    let event : Option (Event Nat) := match part.event with
      | .scalar isPlain text => some (.scalar isPlain text)
      | .listStart => some .listStart
      | .groupStart => some .groupStart
      | .close => some .close
      | .reference name => (names.lookup name).map .reference
    match event with
    | none => ([], .unknownAnchor part.start)
    | some event =>
      let (parts, flaw) := number names' rest
      (⟨event, part.anchor.map fun _ => names.length, part.tag, part.start⟩ :: parts, flaw)

/-! ## Trees -/

/-- A list or a group that is not at its end. -/
structure OpenNode where
  head : Head
  isGroup : Bool
  /-- The parts so far, the last one first. -/
  parts : List Node
  deriving Inhabited

namespace OpenNode

/-- A list or a group with one more part. -/
def add (o : OpenNode) (node : Node) : OpenNode :=
  { o with parts := node :: o.parts }

/-- A list or a group at its end. -/
def close (o : OpenNode) : Node :=
  if o.isGroup then .group o.head o.parts.reverse else .list o.head o.parts.reverse

end OpenNode

/-- The data that parts begin with, within lists and groups that are open, the innermost one first.
If the parts end too early there is a flaw in that place. -/
def treeOf (flaw : Flaw) : (outer : List OpenNode) → List (Part Nat) → Node
  | outer, [] => outer.foldl (fun node o => (o.add node).close) (.broken flaw)
  | outer, part :: rest =>
    let head : Head := ⟨part.tag, part.start⟩
    let put (node : Node) (outer : List OpenNode) : Node :=
      match outer with
      | [] => node
      | o :: outer => treeOf flaw (o.add node :: outer) rest
    match part.event with
    | .scalar isPlain text => put (.scalar head isPlain text) outer
    | .reference number => put (.reference number) outer
    | .listStart => treeOf flaw (⟨head, false, []⟩ :: outer) rest
    | .groupStart => treeOf flaw (⟨head, true, []⟩ :: outer) rest
    | .close =>
      match outer with
      | [] => .broken flaw
      | o :: outer => put o.close outer

/-- The data that has a number, the last one first. -/
def numberedTrees (flaw : Flaw) : List (Part Nat) → List (Nat × Node)
  | [] => []
  | part :: rest =>
    match part.anchor with
    | some number => numberedTrees flaw rest ++ [(number, treeOf flaw [] (part :: rest))]
    | none => numberedTrees flaw rest

/-- A document as a tree. -/
structure Document where
  root : Node
  /-- What the numbers of references stand for. -/
  numbered : List (Nat × Node)
  /-- The number of its parts. -/
  size : Nat
  deriving Inhabited

/-- The document of some events. -/
def Document.ofParts (parts : List (Part String)) : Document :=
  let (parts, flaw) := number [] parts
  ⟨treeOf flaw [] parts, numberedTrees flaw parts, parts.length⟩

end Colloquy.Yaml
