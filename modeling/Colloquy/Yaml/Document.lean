import Colloquy.Text.Utf8
import Colloquy.Yaml.Node

/-!
# Documents of YAML

The data of a text: a group. A name or a value that is left out is nothing, names are texts, and
data that is referred to is read as if it stood in the place of the reference. A text holds one
document.
-/

set_option autoImplicit false

namespace Colloquy.Yaml

/-- How many lists and groups may stand inside one another. -/
def depthLimit : Nat := 128

/-- How many references may be followed for each part of a document. -/
def referenceLimit : Nat := 100

/-- A reader that counts the references that have been followed. -/
abbrev Reading := StateT Nat (Except Flaw)

namespace Document

/-- The data itself, or that which a reference leads to. -/
def target (doc : Document) (node : Node) : Reading Node := do
  match node with
  | .reference number =>
    let followed ← get
    if referenceLimit * doc.size ≤ followed then throw .tooManyReferences
    set (followed + 1)
    return (doc.numbered.lookup number).getD node
  | node => return node

/-- Reads a name, which has to be a scalar. -/
def readName (doc : Document) (path : List Json.Step) (node : Node) : Reading String := do
  match ← doc.target node with
  | .scalar _ _ text => return text
  | .list head _ => throw (.wrongType (.list []) "a string" path head.start)
  | .group head _ => throw (.wrongType (.group []) "a string" path head.start)
  | .broken flaw => throw flaw
  | .reference _ => throw .malformed

/-- The step to the value behind a name. -/
def stepOf : (name : Node) → Json.Step
  | .scalar _ _ text => .member text
  | _ => .nameless

section Parts

variable (doc : Document) (read : List Json.Step → Node → Reading Datum) (path : List Json.Step)

/-- Reads the items of a list, from the one number `index` on. -/
def readItems (index : Nat) : List Node → Reading (List Datum)
  | [] => return []
  | item :: items => do
    let x ← read (path ++ [.index index]) item
    let xs ← readItems (index + 1) items
    return x :: xs

/-- Reads the members of a group. A name without a value is one that is broken. -/
def readMembers : (parts : List Node) → Reading (List (String × Datum))
  | [] => return []
  | [name] => do
    let _ ← doc.readName path name
    throw .malformed
  | name :: value :: parts => do
    let text ← doc.readName path name
    let x ← read (path ++ [stepOf name]) value
    let xs ← readMembers parts
    return (text, x) :: xs

end Parts

/-- Refuses a tag of the text itself, which can only be that of an enumeration. -/
def refuseLocalTag (head : Head) (path : List Json.Step) : Reading Unit :=
  let isLocal := head.tag.any fun tag => isLocalTag tag && (Utf8.decode? (tag.drop 1)).isSome
  if isLocal then throw (.localTag path head.start) else return

/-- Reads data at the end of a path, in which so many lists and groups may stand inside one
another. -/
def readNode (doc : Document) (depth : Nat) (path : List Json.Step) (node : Node) :
    Reading Datum := do
  match ← doc.target node with
  | .scalar head isPlain text =>
    refuseLocalTag head path
    match ofScalar head.tag isPlain text with
    | .ok d => return d
    | .error expected => throw (.wrongText text expected path head.start)
  | .list head items =>
    refuseLocalTag head path
    match depth with
    | 0 => throw (.tooDeep head.start)
    | depth + 1 => return .list (← readItems (doc.readNode depth) path 0 items)
  | .group head parts =>
    refuseLocalTag head path
    match depth with
    | 0 => throw (.tooDeep head.start)
    | depth + 1 => return .group (← readMembers doc (doc.readNode depth) path parts)
  | .broken flaw => throw flaw
  | .reference _ => throw .malformed

/-- Reads the group that a document consists of. It may be left out. -/
def readRoot (doc : Document) : Reading Datum := do
  match ← doc.target doc.root with
  | .group _ parts => return .group (← readMembers doc (doc.readNode (depthLimit - 1)) [] parts)
  | .list head _ => throw (.wrongType (.list []) "a map" [] head.start)
  | .scalar head isPlain text =>
    if isPlain && text.isEmpty then return .group []
    match ofScalar head.tag isPlain text with
    | .ok found => throw (.wrongType found "a map" [] head.start)
    | .error expected => throw (.wrongText text expected [] head.start)
  | .broken flaw => throw flaw
  | .reference _ => throw .malformed

end Document

/-- Checks that nothing follows a document but lines that end it. -/
def checkEnd (ts : Tokens) : Except Flaw Unit :=
  if ts.isEmpty then .error .malformed
  else if isNext (· = .textEnd) (ts.dropWhile fun t => t.1 = .documentEnd) then .ok ()
  else .error .manyDocuments

/-- The group that a text consists of, with the members of every group as they are written; a text
without any content is an empty one. -/
def written (bytes : Bytes) : Except Flaw Datum :=
  match Utf8.decode? bytes with
  | none => .error .notUtf8
  | some text =>
    if !text.toList.all isPermitted then .error .malformed
    else
      let ts := tokensOf text.toList
      if isNext (· = .textEnd) ts then .ok (.group [])
      else do
        let told := documentOf ts
        let d ← (Document.ofParts told.parts).readRoot.run' 0
        checkEnd (told.rest.getD [])
        return d

/-- The data of a text. -/
def read (bytes : Bytes) : Except Flaw Datum :=
  (written bytes).map Datum.arranged

end Colloquy.Yaml
