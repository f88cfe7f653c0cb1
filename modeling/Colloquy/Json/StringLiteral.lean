import Colloquy.Json.Scanned

/-!
# JSON strings

The reader of a string, from behind its opening quotation mark to behind the closing one. The
content is collected as bytes and has to be UTF-8 as a whole; a string that is not is reported at
its first broken byte. Characters beyond the sixteen-bit range are escaped as pairs of surrogates,
and a surrogate that stands alone is refused.
-/

set_option autoImplicit false

namespace Colloquy.Json

/-- The value of four hexadecimal digits. -/
def hexQuad? (a b c d : UInt8) : Option Nat := do
  let a ← Ascii.hexValue? a
  let b ← Ascii.hexValue? b
  let c ← Ascii.hexValue? c
  let d ← Ascii.hexValue? d
  return ((a * 16 + b) * 16 + c) * 16 + d

/-- Reads four hexadecimal digits. -/
def readHexQuad (s : Bytes) : Except Failure (Scanned Nat s.length) :=
  match s with
  | a :: b :: c :: d :: rest =>
    match hexQuad? a b c d with
    | some n => .ok ⟨n, rest, Nat.lt_succ_of_lt (Nat.lt_succ_of_lt (lt_of_cons_le (Nat.le_succ _)))⟩
    | none => .error (.before .invalidEscape rest)
  | _ => .error (.before .endInText [])

/-- The character that a one-letter escape stands for. -/
def shortEscape? (b : UInt8) : Option Char :=
  if b = Ascii.quote then some '"'
  else if b = Ascii.backslash then some '\\'
  else if b = 0x2f then some '/'
  else if b = 0x62 then some (Char.ofNat 0x08)
  else if b = 0x66 then some (Char.ofNat 0x0c)
  else if b = 0x6e then some '\n'
  else if b = 0x72 then some '\r'
  else if b = 0x74 then some '\t'
  else none

/-- Reads the second half of a pair of surrogates, whose first half is `high`. -/
def readLowSurrogate (high : Nat) (s : Bytes) : Except Failure (Scanned Char s.length) :=
  match s with
  | [] => .error (.before .endInText [])
  | Ascii.backslash :: [] => .error (.before .endInText [])
  | Ascii.backslash :: 0x75 :: rest =>
    match readHexQuad rest with
    | .error e => .error e
    | .ok low =>
      if 0xdc00 ≤ low.value && low.value ≤ 0xdfff then
        .ok ⟨Char.ofNat ((high - 0xd800) * 0x400 + (low.value - 0xdc00) + 0x10000), low.rest,
          Nat.lt_of_lt_of_le low.shorter (Nat.le_succ_of_le (Nat.le_succ _))⟩
      else .error (.before .loneSurrogate low.rest)
  | Ascii.backslash :: _ :: rest => .error (.before .unfinishedPair rest)
  | _ :: rest => .error (.before .unfinishedPair rest)

/-- Reads an escape from behind its backslash. -/
def readEscape (s : Bytes) : Except Failure (Scanned Char s.length) :=
  match s with
  | [] => .error (.before .endInText [])
  | 0x75 :: rest =>
    match readHexQuad rest with
    | .error e => .error e
    | .ok unit =>
      if 0xdc00 ≤ unit.value && unit.value ≤ 0xdfff then
        .error (.before .loneSurrogate unit.rest)
      else if 0xd800 ≤ unit.value && unit.value ≤ 0xdbff then
        match readLowSurrogate unit.value unit.rest with
        | .error e => .error e
        | .ok pair =>
          .ok ⟨pair.value, pair.rest,
            Nat.lt_succ_of_lt (Nat.lt_trans pair.shorter unit.shorter)⟩
      else .ok ⟨Char.ofNat unit.value, unit.rest, Nat.lt_succ_of_lt unit.shorter⟩
  | b :: rest =>
    match shortEscape? b with
    | some c => .ok ⟨c, rest, Nat.lt_succ_self _⟩
    | none => .error (.before .invalidEscape rest)

/-- The bytes of a character, added to those of a string. -/
def pushChar (content : ByteArray) (c : Char) : ByteArray :=
  (String.utf8EncodeChar c).foldl ByteArray.push content

/-- A string whose content has been collected, with `rest` behind its closing mark. -/
def closeString (bound : Nat) (content : ByteArray) (rest : Bytes) (h : rest.length < bound) :
    Except Failure (Scanned String bound) :=
  match String.fromUTF8? content with
  | some text => .ok ⟨text, rest, h⟩
  | none =>
    let broken := content.size - Utf8.soundLength content.data.toList
    .error ⟨.invalidCodePoint, rest.length + broken, []⟩

/-- Goes on with a string whose content so far is `content`. -/
def readStringFrom (bound : Nat) (content : ByteArray) (s : Bytes) (h : s.length ≤ bound) :
    Except Failure (Scanned String bound) :=
  match s with
  | [] => .error (.before .endInText [])
  | b :: rest =>
    if b = Ascii.quote then closeString bound content rest (lt_of_cons_le h)
    else if b = Ascii.backslash then
      match readEscape rest with
      | .error e => .error e
      | .ok escape =>
        readStringFrom bound (pushChar content escape.value) escape.rest
          (Nat.le_trans (Nat.le_of_lt (Nat.lt_succ_of_lt escape.shorter)) h)
    else if b < 0x20 then .error (.before .controlCharacter rest)
    else readStringFrom bound (content.push b) rest (Nat.le_trans (Nat.le_succ _) h)
termination_by s.length
decreasing_by
  · exact Nat.lt_succ_of_lt escape.shorter
  · exact Nat.lt_succ_self _

/-- Reads a string from behind its opening quotation mark. -/
def readString (s : Bytes) : Except Failure (Scanned String s.length) :=
  readStringFrom s.length ByteArray.empty s (Nat.le_refl _)

end Colloquy.Json
