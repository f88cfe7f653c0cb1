import Colloquy.Shape.Reader

/-!
# Headers

What a token says about itself: how it is signed, and some texts that are read but not used. The
members of a header may come in any order; one of another name than the known ones must be a text,
which is checked when the object has ended.
-/

set_option autoImplicit false

namespace Colloquy.Token

open Json

/-- The ways of signing that a header may name. -/
def algorithms : List String :=
  ["HS256", "HS384", "HS512", "ES256", "ES384", "RS256", "RS384", "RS512", "PS256", "PS384",
    "PS512", "EdDSA"]

/-- The way of signing of the tokens of this service. -/
def ownAlgorithm : String :=
  "HS256"

/-- The header of every token that this service issues. -/
def ownHeader : String :=
  (Value.object [("typ", .text "JWT"), ("alg", .text ownAlgorithm)]).render

/-- The known members that are texts. -/
def textMembers : List String :=
  ["typ", "cty", "jku", "kid", "x5u", "x5t", "x5t#S256", "enc", "zip", "url", "nonce"]

/-- The known members that are lists of texts. -/
def listMembers : List String :=
  ["x5c", "crit"]

/-- The member that is a key. -/
def keyMember : String :=
  "jwk"

/-- What a value is found to be. -/
def foundIn : Value → Found
  | .null => .null
  | .bool b => .bool b
  | .number n => .number n
  | .text t => .text t
  | .list _ => .list
  | .object _ => .object

/-- Why a value is no text. -/
def notText? (v : Value) : Option Cause :=
  if v.text?.isSome then none else some (.wrongType (foundIn v) "a string")

/-- What a member of a key holds. -/
inductive KeyPart
  | text
  | texts
  /-- One of the names that are known, or any name. -/
  | name (known : Option (List String))
  deriving DecidableEq, Repr, Inhabited

/-- Why a value does not fit a member of a key. A name may also be written as the only member of an
object, which holds nothing. -/
def KeyPart.refuse? : KeyPart → Value → Option Cause
  | text, v => notText? v
  | texts, .list items => items.findSome? notText?
  | texts, v => some (.wrongType (foundIn v) "a sequence")
  | name known, .text t => refuseName? known t
  | name known, .object [(t, v)] =>
    (refuseName? known t).or
      (match v with
        | .null => none
        | v => some (.wrongType (foundIn v) "unit"))
  | name _, .object _ => some (.wrongValue .object "map with a single key")
  | name _, v => some (.wrongType (foundIn v) "string or map")
where
  /-- Why a name is none of those that are known. -/
  refuseName? (known : Option (List String)) (t : String) : Option Cause :=
    match known with
    | some names => if names.contains t then none else some (.unknownName t names)
    | none => none

/-- The curves that keys may name. -/
def curves : List String :=
  ["P-256", "P-384", "P-521", "Ed25519"]

/-- The members that keys of every form may have. -/
def keyFrame : List (String × KeyPart) :=
  [ ("use", .text), ("key_ops", .texts), ("alg", .name none), ("kid", .text), ("x5u", .text)
  , ("x5c", .texts), ("x5t", .text), ("x5t#S256", .text) ]

/-- The forms of a key, each with the members that it has to have. -/
def keyForms : List (List (String × KeyPart)) :=
  [ [ ("kty", .name (some ["EC"])), ("crv", .name (some curves)), ("x", .text), ("y", .text) ]
  , [ ("kty", .name (some ["RSA"])), ("n", .text), ("e", .text) ]
  , [ ("kty", .name (some ["oct"])), ("k", .text) ]
  , [ ("kty", .name (some ["OKP"])), ("crv", .name (some curves)), ("x", .text) ] ]

/-- Checks those members of a key that any form may have, in the order in which they are written.
`seen` are the names of those in front of them. -/
def checkFrame (seen : List String) : List (String × Value) → Except Cause Unit
  | [] => .ok ()
  | (name, v) :: rest =>
    match keyFrame.lookup name with
    | none => checkFrame seen rest
    | some part =>
      if seen.contains name then .error (.duplicateField name)
      else
        match if foundIn v = .null then none else part.refuse? v with
        | some cause => .error cause
        | none => checkFrame (name :: seen) rest

/-- Whether an object has the members of a form, each of them once. -/
def isOfForm (members : List (String × Value)) (form : List (String × KeyPart)) : Bool :=
  form.all fun (name, part) =>
    match members.filter (·.1 = name) with
    | [(_, v)] => (part.refuse? v).isNone
    | _ => false

/-- Checks that the members of an object make a key. -/
def checkKey (members : List (String × Value)) : Except Cause Unit :=
  (checkFrame [] members).bind fun _ =>
    if keyForms.any (isOfForm members) then .ok ()
    else .error (.unknownForm "AlgorithmParameters")

/-- A way of signing, by its name. -/
def checkAlgorithm {bound : Nat} (x : Scanned String bound) :
    Except Failure (Scanned String bound) :=
  if algorithms.contains x.value then .ok x
  else .error (.before (.unknownName x.value algorithms) x.rest)

/-- Reads `null` and the brace that closes the object around it. -/
def readUnit (name : String) : Reader String := atValue fun bound b rest h =>
  if b = 0x6e then
    match readWord bound nullTail rest h with
    | .error e => .error e
    | .ok x =>
      match hs : skipBlank x.rest with
      | [] => .error (.before .endInObject [])
      | c :: tail =>
        if c = Ascii.closeBrace then .ok ⟨name, tail, lt_of_skipBlank_of_lt hs x.shorter⟩
        else .error (.before .noValue (c :: tail))
  else refuseValue "unit" b rest

/-- Reads a way of signing: its name, or an object whose one member has that name and holds
nothing. -/
def readAlgorithm : Reader String := atValue fun bound b rest h =>
  if b = Ascii.quote then
    (readStringFrom bound ByteArray.empty rest (le_of_length_lt h)).bind checkAlgorithm
  else if b = Ascii.openBrace then
    match readText "variant identifier" rest with
    | .error e => .error e
    | .ok name =>
      match checkAlgorithm name with
      | .error e => .error e
      | .ok name =>
        (readMemberValue name.value (readUnit name.value) rest.length name.rest
          (le_of_length_lt name.shorter)).map (·.weaken (le_of_length_lt h))
  else .error (.upon .noValue (b :: rest))

/-- Reads a key. -/
def readKey (depth : Nat) : Reader Unit := atValue fun bound b rest h =>
  if b = Ascii.openBrace then
    match depth with
    | 0 => .error (.upon .tooDeep (b :: rest))
    | depth + 1 =>
      let read :=
        readMembers
          (fun members name =>
            .admitted fun s => (readValue depth s).map (·.map fun v => (name, v) :: members))
          bound true [] rest h
      match read with
      | .error e => .error e
      | .ok members =>
        match checkKey members.value.reverse with
        | .error cause => .error (.before cause members.rest)
        | .ok _ => .ok (members.map fun _ => ())
  else refuseValue "struct Jwk" b rest

/-- What has been read of a header. -/
structure HeaderParts where
  algorithm : Option String
  /-- The known members that have been read. -/
  seen : List String
  /-- The members of other names, the last one first. -/
  others : List Value

namespace HeaderParts

/-- A known member other than the way of signing; what it holds is not kept. -/
def enterKnown {α : Type} (parts : HeaderParts) (name : String) (value : Reader α) :
    Admission HeaderParts :=
  if parts.seen.contains name then .refused (.duplicateField name)
  else .admitted fun s => (value s).map (·.map fun _ => { parts with seen := name :: parts.seen })

/-- What a name does to a header that has been read in part. -/
def enter (depth : Nat) (parts : HeaderParts) (name : String) : Admission HeaderParts :=
  if name = "alg" then
    if parts.algorithm.isSome then .refused (.duplicateField name)
    else .admitted fun s =>
      (readAlgorithm s).map (·.map fun a => { parts with algorithm := some a })
  else if textMembers.contains name then
    parts.enterKnown name (readOptional (readText "a string"))
  else if listMembers.contains name then
    parts.enterKnown name (readOptional (readList depth (readText "a string")))
  else if name = keyMember then parts.enterKnown name (readOptional (readKey depth))
  else .admitted fun s =>
    (readValue depth s).map (·.map fun v => { parts with others := v :: parts.others })

/-- The way of signing of a header that has been read. -/
def complete (parts : HeaderParts) : Except Cause String :=
  match parts.algorithm with
  | none => .error (.missingField "alg")
  | some algorithm =>
    match parts.others.reverse.findSome? notText? with
    | some cause => .error cause
    | none => .ok algorithm

end HeaderParts

/-- Reads a header and delivers the way of signing that it names. -/
def readHeader : Reader String := atValue fun bound b rest h =>
  if b = Ascii.openBrace then
    readRecord (HeaderParts.enter (depthLimit - 1)) ⟨none, [], []⟩ HeaderParts.complete bound rest h
  else refuseValue "struct Header" b rest

end Colloquy.Token
