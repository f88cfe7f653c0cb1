import Colloquy.Json.StringLiteral
import Colloquy.Json.Numeral

/-!
# Values that are passed over

The value of a member that nobody asks for is not built but passed over. Only its outline is
checked: brackets match, strings end, numerals and literals are spelled right. Its strings need
not be UTF-8 and its escapes need not form pairs, its numbers may lie out of range, its names may
repeat, and its containers may nest to any depth, since the open ones are kept in a list.
-/

set_option autoImplicit false

namespace Colloquy.Json

/-- Passes over an escape, from behind its backslash. -/
def skipEscape (bound : Nat) (s : Bytes) (h : s.length < bound) :
    Except Failure (Scanned Unit bound) :=
  match s with
  | [] => .error (.before .endInText [])
  | b :: rest =>
    if b = 0x75 then
      match readHexQuad rest with
      | .error e => .error e
      | .ok quad => .ok ((quad.map fun _ => ()).weaken (le_of_cons_lt h))
    else if (shortEscape? b).isSome then .ok ⟨(), rest, lt_of_cons_lt h⟩
    else .error (.before .invalidEscape rest)

/-- Passes over a string, from behind its opening quotation mark. -/
def skipString (bound : Nat) (s : Bytes) (h : s.length < bound) :
    Except Failure (Scanned Unit bound) :=
  match s with
  | [] => .error (.before .endInText [])
  | b :: rest =>
    if b = Ascii.quote then .ok ⟨(), rest, lt_of_cons_lt h⟩
    else if b = Ascii.backslash then
      match skipEscape (rest.length + 1) rest (length_lt_succ rest) with
      | .error e => .error e
      | .ok escape => skipString bound escape.rest (Nat.lt_trans escape.shorter h)
    else if b < 0x20 then .error (.before .controlCharacter (b :: rest))
    else skipString bound rest (lt_of_cons_lt h)
termination_by s.length
decreasing_by
  · exact escape.shorter
  · exact Nat.lt_succ_self _

/-- Passes over an exponent, from behind its letter. -/
def skipExponent (bound : Nat) (s : Bytes) (h : s.length < bound) :
    Except Failure (Scanned Unit bound) :=
  match (splitSign s).2 with
  | [] => .error (.before .invalidNumber [])
  | d :: tail =>
    if Ascii.isDigit d then
      .ok ⟨(), afterDigits (splitSign s).2, lt_of_exponentDigits h⟩
    else .error (.before .invalidNumber tail)

/-- Passes over what may follow the digits of a numeral; `fraction` says whether a fraction may. -/
def skipAfterDigits (bound : Nat) (fraction : Bool) (s : Bytes) (h : s.length < bound) :
    Except Failure (Scanned Unit bound) :=
  match s with
  | [] => .ok ⟨(), [], h⟩
  | b :: rest =>
    if isExponentMark b then skipExponent bound rest (lt_of_cons_lt h)
    else if fraction = true ∧ b = Ascii.point then
      match rest with
      | [] => .error (.upon .invalidNumber [])
      | d :: tail =>
        if Ascii.isDigit d then
          skipAfterDigits bound false (afterDigits tail)
            (Nat.lt_of_le_of_lt (length_afterDigits_le tail)
              (Nat.lt_of_succ_lt (Nat.lt_of_succ_lt h)))
        else .error (.upon .invalidNumber (d :: tail))
    else .ok ⟨(), b :: rest, h⟩
termination_by s.length
decreasing_by
  exact Nat.lt_succ_of_le (Nat.le_succ_of_le (length_afterDigits_le tail))

/-- Passes over a numeral, from behind its sign. -/
def skipUnsigned (bound : Nat) (s : Bytes) (h : s.length ≤ bound) :
    Except Failure (Scanned Unit bound) :=
  match s with
  | [] => .error (.before .invalidNumber [])
  | d :: tail =>
    if Ascii.isDigit d then
      if d = 0x30 ∧ leadingDigits tail ≠ [] then .error (.upon .invalidNumber tail)
      else
        skipAfterDigits bound true (afterDigits tail)
          (lt_of_afterDigits h)
    else .error (.before .invalidNumber tail)

/-- Passes over a value that is no container, whose first byte is `b`. -/
def skipScalar (bound : Nat) (b : UInt8) (rest : Bytes) (h : rest.length < bound) :
    Except Failure (Scanned Unit bound) :=
  if b = 0x6e then readWord bound nullTail rest h
  else if b = 0x74 then readWord bound trueTail rest h
  else if b = 0x66 then readWord bound falseTail rest h
  else if b = Ascii.quote then skipString bound rest h
  else if b = Ascii.minus then skipUnsigned bound rest (le_of_length_lt h)
  else if Ascii.isDigit b then skipUnsigned bound (b :: rest) h
  else .error (.upon .noValue (b :: rest))

/-- A container that has been opened and not closed. -/
inductive Frame
  | list
  | object
  deriving DecidableEq, Repr

namespace Frame

/-- The container that a bracket opens. -/
def opened? (b : UInt8) : Option Frame :=
  if b = Ascii.openBracket then some list
  else if b = Ascii.openBrace then some object
  else none

/-- The bracket that closes a container. -/
def closer : Frame → UInt8
  | list => Ascii.closeBracket
  | object => Ascii.closeBrace

/-- What is wrong when the text ends inside a container. -/
def atEnd : Frame → Cause
  | list => .endInList
  | object => .endInObject

/-- What is wrong when neither a comma nor the end follows a part of a container. -/
def noSeparator : Frame → Cause
  | list => .noListSeparator
  | object => .noObjectSeparator

end Frame

/-- Passes over the colon behind a name. -/
def skipColon (bound : Nat) (s : Bytes) (h : s.length < bound) :
    Except Failure (Scanned Unit bound) :=
  match hs : skipBlank s with
  | [] => .error (.upon .endInObject [])
  | b :: rest =>
    if b = Ascii.colon then .ok ⟨(), rest, lt_of_skipBlank_of_lt hs h⟩
    else .error (.upon .noColon (b :: rest))

/-- Passes over the name of a member and its colon. -/
def skipName (bound : Nat) (s : Bytes) (h : s.length < bound) :
    Except Failure (Scanned Unit bound) :=
  match hs : skipBlank s with
  | [] => .error (.upon .endInObject [])
  | b :: rest =>
    if b = Ascii.quote then
      match skipString bound rest (lt_of_skipBlank_of_lt hs h) with
      | .error e => .error e
      | .ok name => skipColon bound name.rest name.shorter
    else .error (.upon .nameNotText (b :: rest))

/-- Where a container that is passed over has been left. -/
inductive Place
  | value
  /-- In front of an item or a member. -/
  | part
  | opened
  /-- Behind an item or a member. -/
  | behind
  deriving DecidableEq, Repr

namespace Place

/-- Orders the places that follow each other without reading. -/
def rank : Place → Nat
  | value => 0
  | part => 1
  | opened => 2
  | behind => 2

end Place

/-- Passes over the rest of a container that has been left at `place`, and of the containers
`outer` around it, the innermost first. -/
def skipInside (bound : Nat) (place : Place) (frame : Frame) (outer : List Frame) (s : Bytes)
    (h : s.length < bound) : Except Failure (Scanned Unit bound) :=
  match place with
  | .value =>
    match hs : skipBlank s with
    | [] => .error (.upon .endInValue [])
    | b :: rest =>
      have hr : rest.length < s.length := length_lt_of_skipBlank hs
      match Frame.opened? b with
      | some inner => skipInside bound .opened inner (frame :: outer) rest (Nat.lt_trans hr h)
      | none =>
        match skipScalar s.length b rest hr with
        | .error e => .error e
        | .ok x => skipInside bound .behind frame outer x.rest (Nat.lt_trans x.shorter h)
  | .part =>
    match frame with
    | .list => skipInside bound .value .list outer s h
    | .object =>
      match skipName (s.length + 1) s (length_lt_succ s) with
      | .error e => .error e
      | .ok x =>
        skipInside bound .value .object outer x.rest
          (Nat.lt_of_le_of_lt (Nat.le_of_lt_succ x.shorter) h)
  | .opened =>
    match hs : skipBlank s with
    | [] => .error (.upon frame.atEnd [])
    | b :: rest =>
      have hr : rest.length < s.length := length_lt_of_skipBlank hs
      if b = frame.closer then
        match outer with
        | [] => .ok ⟨(), rest, Nat.lt_trans hr h⟩
        | f :: outer => skipInside bound .behind f outer rest (Nat.lt_trans hr h)
      else skipInside bound .part frame outer (b :: rest) (Nat.lt_of_le_of_lt hr h)
  | .behind =>
    match hs : skipBlank s with
    | [] => .error (.upon frame.atEnd [])
    | b :: rest =>
      have hr : rest.length < s.length := length_lt_of_skipBlank hs
      if b = Ascii.comma then skipInside bound .part frame outer rest (Nat.lt_trans hr h)
      else if b = frame.closer then
        match outer with
        | [] => .ok ⟨(), rest, Nat.lt_trans hr h⟩
        | f :: outer => skipInside bound .behind f outer rest (Nat.lt_trans hr h)
      else .error (.upon frame.noSeparator (b :: rest))
termination_by 3 * s.length + place.rank
decreasing_by
  all_goals simp only [Place.rank, List.length_cons]
  · omega
  · have := x.shorter
    omega
  · omega
  · have := x.shorter
    omega
  · omega
  · omega
  · omega
  · omega

/-- Passes over a value. -/
def skipValue : Reader Unit := fun s =>
  match hs : skipBlank s with
  | [] => .error (.upon .endInValue [])
  | b :: rest =>
    have hr : rest.length < s.length := length_lt_of_skipBlank hs
    match Frame.opened? b with
    | some frame => skipInside s.length .opened frame [] rest hr
    | none => skipScalar s.length b rest hr

end Colloquy.Json
