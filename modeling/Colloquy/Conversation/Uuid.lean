import Colloquy.Text.Ascii

/-!
# UUID texts

The four ways to write a UUID: thirty-two hexadecimal digits; the same digits with hyphens behind
the eighth, twelfth, sixteenth and twentieth; that form in braces; and that form behind
`urn:uuid:`. Letters may be of either case everywhere. Version and variant are not looked at.
`Uuid.text` writes sixteen bytes in the second form, in lower case.
-/

set_option autoImplicit false

namespace Colloquy

namespace Uuid

/-- The hexadecimal digits of either case. -/
def isHexDigit (c : Char) : Bool :=
  ('0' ≤ c && c ≤ '9') || ('a' ≤ c && c ≤ 'f') || ('A' ≤ c && c ≤ 'F')

/-- Whether a text consists of groups of hexadecimal digits of the given sizes, with a hyphen
between any two of them. -/
def isGrouped : (sizes : List Nat) → (text : List Char) → Bool
  | [], text => text.isEmpty
  | [size], text => text.length == size && text.all isHexDigit
  | size :: sizes, text =>
    (text.take size).length == size && (text.take size).all isHexDigit &&
      match text.drop size with
      | '-' :: rest => isGrouped sizes rest
      | _ => false

/-- The digits without hyphens. -/
def isCompact (text : List Char) : Bool :=
  isGrouped [32] text

/-- The sizes of the groups of digits between the hyphens. -/
def groupSizes : List Nat :=
  [8, 4, 4, 4, 12]

/-- The digits with hyphens. -/
def isHyphenated (text : List Char) : Bool :=
  isGrouped groupSizes text

/-- The form with hyphens, in braces. -/
def isBraced : (text : List Char) → Bool
  | '\x7b' :: rest => rest.getLast? == some '\x7d' && isHyphenated rest.dropLast
  | _ => false

/-- What stands in front of the digits of a UUID that is written as a uniform resource name. -/
def resourceName : List Char :=
  "urn:uuid:".toList

/-- The form with hyphens, as a uniform resource name. -/
def isResourceName (text : List Char) : Bool :=
  (text.take resourceName.length).map Char.toLower == resourceName &&
    isHyphenated (text.drop resourceName.length)

/-- Whether a text is one of the four forms. -/
def isWellFormed (text : String) : Bool :=
  isCompact text.toList || isHyphenated text.toList || isBraced text.toList ||
    isResourceName text.toList

/-- Sixteen bytes. -/
abbrev Octets := Vector UInt8 16

/-- The bytes with the version and the variant of a random UUID in their places. -/
def random (octets : Octets) : Octets :=
  (octets.set 6 (octets[6] &&& 0x0f ||| 0x40)).set 8 (octets[8] &&& 0x3f ||| 0x80)

/-- Some bytes as pairs of hexadecimal digits. -/
def hex (bytes : List UInt8) : List Char :=
  bytes.flatMap Ascii.hexPair

/-- Sixteen bytes in the form with hyphens. -/
def text (octets : Octets) : String :=
  let bytes := octets.toList
  String.ofList
    (hex (bytes.take 4) ++ '-' :: hex ((bytes.drop 4).take 2) ++ '-' ::
      hex ((bytes.drop 6).take 2) ++ '-' :: hex ((bytes.drop 8).take 2) ++ '-' ::
      hex (bytes.drop 10))

end Uuid

end Colloquy
