import Colloquy.Yaml.Token

/-!
# Events of YAML

The tokens of a document as a sequence of events: scalars, references, and the beginnings and ends
of lists and groups, whichever way these are written (`documentOf`). What is left out between tokens
is there as an empty scalar, and tags have the meaning of their handles.

The tokens are read with a stack of goals. A goal says what is to come next (`Goal.step`): it takes
tokens, tells events, and leaves further goals in its place. Of a document that is broken somewhere
the events up to there are told.
-/

set_option autoImplicit false

namespace Colloquy.Yaml

/-- Tokens and the places where they begin. -/
abbrev Tokens := List (Token × Mark)

/-- Whether the next token is of some kind. -/
def isNext (p : Token → Bool) (ts : Tokens) : Bool :=
  ts.head?.any fun t => p t.1

/-- A part of a document. Data is referred to by a name of type `ν`. -/
inductive Event (ν : Type)
  | scalar (isPlain : Bool) (text : String)
  | listStart
  | groupStart
  /-- The end of the innermost list or group. -/
  | close
  | reference (name : ν)
  deriving DecidableEq, Repr, Inhabited

/-- A part of a document with what stands in front of it. -/
structure Part (ν : Type) where
  event : Event ν
  /-- The name of the data that begins here. -/
  anchor : Option ν
  tag : Option Bytes
  start : Mark
  deriving DecidableEq, Repr, Inhabited

/-- A part that has no name and no tag and begins with the next token. -/
def Part.bare {ν : Type} (event : Event ν) (ts : Tokens) : Part ν :=
  ⟨event, none, none, (ts.head?.map (·.2)).getD ⟨0, 0⟩⟩

/-- What stands in the place of data that is left out. -/
def Part.omitted {ν : Type} (ts : Tokens) : Part ν :=
  .bare (.scalar true "") ts

/-! ## Goals -/

/-- The groups by the way they are written: told by columns, between braces, or a single member
between brackets. -/
inductive GroupForm
  | block
  | flow
  | pair
  deriving DecidableEq, Repr, Inhabited

/-- What is to come next. -/
inductive Goal
  /-- Data. Where the column of a name is also that of the items that belong to it (`looseItems`), a
  hyphen begins a list. -/
  | node (looseItems : Bool)
  /-- An item of a list told by its column, or the end of the list. -/
  | item
  /-- An item of a list in the column of the member that it belongs to, or the end of the list. -/
  | looseItem
  /-- A member of a group told by its column, or the end of the group. -/
  | member
  /-- An item between brackets, or the end of the list. -/
  | flowItem (isFirst : Bool)
  /-- A member between braces, or the end of the group. -/
  | flowMember (isFirst : Bool)
  /-- The name of the only member of a group between brackets. -/
  | pairName
  /-- The end of such a group. -/
  | pairEnd
  /-- The colon behind a name and the value, of which both or the value may be left out. -/
  | value (form : GroupForm)
  /-- The value of a name without a colon. -/
  | noValue
  deriving DecidableEq, Repr, Inhabited

/-- Whether a token ends a member of a group. -/
def GroupForm.endsMember (form : GroupForm) (t : Token) : Bool :=
  match form with
  | block => t = .key || t = .value || t = .blockEnd
  | flow => t = .comma || t = .closeGroup
  | pair => t = .comma || t = .closeList

/-- What is to come behind a member of a group. -/
def GroupForm.next : GroupForm → Goal
  | block => .member
  | flow => .flowMember false
  | pair => .pairEnd

/-- What comes of a goal: events, what is to come instead of it, and the tokens that are left. -/
structure Advance where
  parts : List (Part String)
  goals : List Goal
  rest : Tokens
  deriving Inhabited

/-- Data that may be left out: it is, if the next token is of some kind. -/
def nodeUnless (isLeftOut : Token → Bool) (looseItems : Bool) (next : Goal) (ts : Tokens) :
    Advance :=
  if isNext isLeftOut ts then ⟨[.omitted ts], [next], ts⟩ else ⟨[], [.node looseItems, next], ts⟩

/-- What stands in front of data: its name and its tag in either order. -/
structure Properties where
  anchor : Option String
  tag : Option RawTag
  deriving Inhabited

/-- Reads what stands in front of data. -/
def readProperties : Tokens → Properties × Tokens
  | (.anchor name, _) :: (.tag tag, _) :: rest => (⟨some name, some tag⟩, rest)
  | (.tag tag, _) :: (.anchor name, _) :: rest => (⟨some name, some tag⟩, rest)
  | (.anchor name, _) :: rest => (⟨some name, none⟩, rest)
  | (.tag tag, _) :: rest => (⟨none, some tag⟩, rest)
  | ts => (⟨none, none⟩, ts)

/-- What handles stand for. -/
abbrev Handles := List (String × Bytes)

/-- What handles stand for unless a directive says otherwise. -/
def Handles.standard : Handles :=
  [("!", [0x21]), ("!!", coreTag "")]

/-- The tag that is meant by one that is written, if its handle is known. -/
def RawTag.meaning? (tag : RawTag) (handles : Handles) : Option Bytes :=
  match tag.handle with
  | none => some tag.suffix
  | some handle => (handles.lookup handle).map (· ++ tag.suffix)

/-- Data with what stands in front of it. The tag that is an exclamation mark alone says nothing of
a scalar. Behind a name or a tag nothing need follow. -/
def nodeStep (handles : Handles) (looseItems : Bool) (ts : Tokens) : Option Advance := do
  let (properties, inside) := readProperties ts
  let tag ← match properties.tag with
    | none => some none
    | some tag => (tag.meaning? handles).map some
  let part (event : Event String) : Part String :=
    { Part.bare event ts with anchor := properties.anchor, tag }
  match inside with
  | [] => none
  | (token, _) :: rest =>
    match token with
    | .scalar isPlain text =>
      let known := tag.filter (· ≠ [0x21])
      some ⟨[{ part (.scalar isPlain text) with tag := known }], [], rest⟩
    | .listStart => some ⟨[part .listStart], [.item], rest⟩
    | .groupStart => some ⟨[part .groupStart], [.member], rest⟩
    | .openList => some ⟨[part .listStart], [.flowItem true], rest⟩
    | .openGroup => some ⟨[part .groupStart], [.flowMember true], rest⟩
    | _ =>
      if looseItems && token = .item then some ⟨[part .listStart], [.looseItem], inside⟩
      else if properties.anchor.isSome || tag.isSome then
        some ⟨[part (.scalar true "")], [], inside⟩
      else none

/-- The tokens from behind the comma in front of an item or a member, which the first one and the
end have none of. -/
def behindComma? (isFirst : Bool) (last : Token) (ts : Tokens) : Option Tokens :=
  if isFirst || isNext (· = last) ts then some ts
  else if isNext (· = .comma) ts then some (ts.drop 1)
  else none

/-- One step towards a goal, if the next token allows one. -/
def Goal.step (handles : Handles) (goal : Goal) (ts : Tokens) : Option Advance :=
  -- Without a token nothing is known of what comes next.
  if ts.isEmpty then none
  else
    match goal with
    | .node looseItems =>
      match ts with
      | (.reference name, _) :: rest => some ⟨[.bare (.reference name) ts], [], rest⟩
      | ts => nodeStep handles looseItems ts
    | .item =>
      if isNext (· = .item) ts then
        some (nodeUnless (fun t => t = .item || t = .blockEnd) false .item (ts.drop 1))
      else if isNext (· = .blockEnd) ts then some ⟨[.bare .close ts], [], ts.drop 1⟩
      else none
    | .looseItem =>
      if isNext (· = .item) ts then
        some (nodeUnless (fun t => t = .item || GroupForm.block.endsMember t) false .looseItem
          (ts.drop 1))
      else some ⟨[.bare .close ts], [], ts⟩
    | .member =>
      if isNext (· = .key) ts then
        some (nodeUnless GroupForm.block.endsMember true (.value .block) (ts.drop 1))
      else if isNext (· = .blockEnd) ts then some ⟨[.bare .close ts], [], ts.drop 1⟩
      else none
    | .flowItem isFirst =>
      (behindComma? isFirst .closeList ts).map fun ts =>
        if isNext (· = .closeList) ts then ⟨[.bare .close ts], [], ts.drop 1⟩
        else if isNext (· = .key) ts then
          ⟨[.bare .groupStart ts], [.pairName, .flowItem false], ts.drop 1⟩
        else ⟨[], [.node false, .flowItem false], ts⟩
    | .flowMember isFirst =>
      (behindComma? isFirst .closeGroup ts).map fun ts =>
        if isNext (· = .closeGroup) ts then ⟨[.bare .close ts], [], ts.drop 1⟩
        else if isNext (· = .key) ts then
          nodeUnless (fun t => t = .value || GroupForm.flow.endsMember t) false (.value .flow)
            (ts.drop 1)
        else ⟨[], [.node false, .noValue], ts⟩
    | .pairName =>
      -- If the name is left out, the token that stands in its place is passed over.
      if isNext (fun t => t = .value || GroupForm.pair.endsMember t) ts then
        some ⟨[.omitted ts], [.value .pair], ts.drop 1⟩
      else some ⟨[], [.node false, .value .pair], ts⟩
    | .pairEnd => some ⟨[.bare .close ts], [], ts⟩
    | .value form =>
      if isNext (· = .value) ts then
        some (nodeUnless form.endsMember (form = .block) form.next (ts.drop 1))
      else some ⟨[.omitted ts], [form.next], ts⟩
    | .noValue => some ⟨[.omitted ts], [.flowMember false], ts⟩

/-- The events of a document and the tokens behind it, or none of these if it is broken. -/
structure Told where
  parts : List (Part String)
  rest : Option Tokens
  deriving Inhabited

/-- Reads what is to come, with so many steps at most, behind parts of which the last one comes
first. -/
def follow (handles : Handles) :
    (fuel : Nat) → (parts : List (Part String)) → (goals : List Goal) → Tokens → Told
  | _, parts, [], ts => ⟨parts.reverse, some ts⟩
  | 0, parts, _ :: _, _ => ⟨parts.reverse, none⟩
  | fuel + 1, parts, goal :: goals, ts =>
    match goal.step handles ts with
    | none => ⟨parts.reverse, none⟩
    | some a => follow handles fuel (a.parts.reverse ++ parts) (a.goals ++ goals) a.rest

/-! ## Documents -/

/-- Reads the directives in front of a document: at most one of a known version, and at most one for
each handle. -/
def readDirectives (hasVersion : Bool) (handles : Handles) : Tokens → Option (Handles × Tokens)
  | (.directive (.version major minor), _) :: rest =>
    if !hasVersion && major = 1 && (minor = 1 || minor = 2) then readDirectives true handles rest
    else none
  | (.directive (.tagHandle handle meaning), _) :: rest =>
    if handles.any (·.1 = handle) then none
    else readDirectives hasVersion ((handle, meaning) :: handles) rest
  | ts => some (handles, ts)

/-- Whether a token stands in front of a document. -/
def isHeader (t : Token) : Bool :=
  match t with
  | .directive _ | .documentStart => true
  | _ => false

/-- The events of the data that begins with the next token. From one token to the next no more than
five goals are met without a token being taken. -/
def dataOf (handles : Handles) (ts : Tokens) : Told :=
  follow handles (6 * ts.length + 6) [] [.node false] ts

/-- The events of the next document, which directives or a line of its own may begin. Behind such a
line nothing need follow. -/
def documentOf (ts : Tokens) : Told :=
  if isNext isHeader ts then
    match readDirectives false [] ts with
    | some (handles, (.documentStart, _) :: rest) =>
      let isEmpty := isNext (fun t => isHeader t || t = .documentEnd || t = .textEnd) rest
      if isEmpty then ⟨[.omitted rest], some rest⟩ else dataOf (handles ++ .standard) rest
    | _ => ⟨[], none⟩
  else dataOf .standard ts

end Colloquy.Yaml
