import Colloquy.Text.Utf8

/-!
# Base64 for addresses

Bytes as texts of sixty-four symbols that may stand in an address. Three bytes make four symbols;
one or two bytes at the end make two or three, without padding. A text is read strictly: a symbol
outside the alphabet, padding, a single symbol at the end and bits that belong to no byte are all
refused, each with its place.
-/

set_option autoImplicit false

namespace Colloquy.Token.Base64Url

/-- Why a text encodes no bytes. -/
inductive Flaw
  | invalidSymbol (symbol : UInt8) (offset : Nat)
  /-- A symbol that ends a text with bits that belong to no byte. -/
  | invalidLastSymbol (symbol : UInt8) (offset : Nat)
  /-- A length that no bytes are encoded with. -/
  | invalidLength (length : Nat)
  | invalidPadding
  deriving DecidableEq, Repr, Inhabited

/-- The wording of a flaw. -/
def Flaw.message : Flaw → String
  | invalidSymbol symbol offset =>
    "Invalid symbol " ++ toString symbol.toNat ++ ", offset " ++ toString offset ++ "."
  | invalidLastSymbol symbol offset =>
    "Invalid last symbol " ++ toString symbol.toNat ++ ", offset " ++ toString offset ++ "."
  | invalidLength length => "Invalid input length: " ++ toString length
  | invalidPadding => "Invalid padding"

/-- The symbol of a value below sixty-four. -/
def symbol (n : Nat) : UInt8 :=
  if n < 26 then UInt8.ofNat (0x41 + n)
  else if n < 52 then UInt8.ofNat (0x61 + (n - 26))
  else if n < 62 then UInt8.ofNat (0x30 + (n - 52))
  else if n = 62 then 0x2d
  else 0x5f

/-- The value of a symbol. -/
def value? (b : UInt8) : Option Nat :=
  if 0x41 ≤ b && b ≤ 0x5a then some (b.toNat - 0x41)
  else if 0x61 ≤ b && b ≤ 0x7a then some (b.toNat - 0x61 + 26)
  else if 0x30 ≤ b && b ≤ 0x39 then some (b.toNat - 0x30 + 52)
  else if b = 0x2d then some 62
  else if b = 0x5f then some 63
  else none

/-- The padding of other variants of the encoding. -/
def pad : UInt8 := 0x3d

/-- The symbols of some bytes. -/
def encode : Bytes → Bytes
  | a :: b :: c :: rest =>
    let n := (a.toNat * 256 + b.toNat) * 256 + c.toNat
    symbol (n / 262144) :: symbol (n / 4096 % 64) :: symbol (n / 64 % 64) :: symbol (n % 64) ::
      encode rest
  | [a, b] =>
    let n := (a.toNat * 256 + b.toNat) * 4
    [symbol (n / 4096), symbol (n / 64 % 64), symbol (n % 64)]
  | [a] =>
    let n := a.toNat * 16
    [symbol (n / 64), symbol (n % 64)]
  | [] => []

/-- The value of the symbol at `offset`. -/
def readSymbol (offset : Nat) (b : UInt8) : Except Flaw Nat :=
  match value? b with
  | some n => .ok n
  | none => .error (.invalidSymbol b offset)

/-- Checks the last symbols of a text, at most four, for bytes that are no symbols. Padding may
only end them, and not before the third. `padded` is the place of the first padding. -/
def checkEnd (start index : Nat) (padded : Option Nat) : Bytes → Except Flaw Unit
  | [] => .ok ()
  | b :: rest =>
    if b = pad then
      if index < 2 then .error (.invalidSymbol b (start + index))
      else checkEnd start (index + 1) (padded <|> some index) rest
    else
      match padded with
      | some first => .error (.invalidSymbol pad (start + first))
      | none =>
        match value? b with
        | none => .error (.invalidSymbol b (start + index))
        | some _ => checkEnd start (index + 1) none rest

/-- The bytes of the last symbols of a text, which stand at `start`. -/
def decodeEnd (start : Nat) (s : Bytes) : Except Flaw Bytes := do
  checkEnd start 0 none s
  let symbols := s.filter (· ≠ pad)
  let padding := symbols.length ≠ s.length
  match symbols.filterMap value? with
  | [] => if s.isEmpty then return [] else .error (.invalidLength start)
  | [_] => .error (.invalidLength (start + 1))
  | [a, b] =>
    let n := a * 64 + b
    if padding then .error .invalidPadding
    else if n % 16 ≠ 0 then .error (.invalidLastSymbol (symbol b) (start + 1))
    else return [UInt8.ofNat (n / 16)]
  | [a, b, c] =>
    let n := (a * 64 + b) * 64 + c
    if padding then .error .invalidPadding
    else if n % 4 ≠ 0 then .error (.invalidLastSymbol (symbol c) (start + 2))
    else return [UInt8.ofNat (n / 1024), UInt8.ofNat (n / 4 % 256)]
  | a :: b :: c :: d :: _ =>
    let n := ((a * 64 + b) * 64 + c) * 64 + d
    return [UInt8.ofNat (n / 65536), UInt8.ofNat (n / 256 % 256), UInt8.ofNat (n % 256)]

/-- The bytes of the symbols from `start` on, behind those that have been read, the last one
first. -/
def decodeFrom (start : Nat) (read : Bytes) : Bytes → Except Flaw Bytes
  | a :: b :: c :: d :: e :: rest => do
    let a ← readSymbol start a
    let b ← readSymbol (start + 1) b
    let c ← readSymbol (start + 2) c
    let d ← readSymbol (start + 3) d
    let n := ((a * 64 + b) * 64 + c) * 64 + d
    decodeFrom (start + 4)
      (UInt8.ofNat (n % 256) :: UInt8.ofNat (n / 256 % 256) :: UInt8.ofNat (n / 65536) :: read)
      (e :: rest)
  | s => (decodeEnd start s).map (read.reverse ++ ·)

/-- A single byte at the end that is neither a symbol nor padding. -/
def strayEnd? (s : Bytes) : Option Flaw :=
  if s.length % 4 = 1 then
    match s.getLast? with
    | some b => if b ≠ pad ∧ value? b = none then some (.invalidSymbol b (s.length - 1)) else none
    | none => none
  else none

/-- The bytes that a text encodes. A byte at the end that is no symbol, such as a line end, is
reported before all else. -/
def decode (s : Bytes) : Except Flaw Bytes :=
  match strayEnd? s with
  | some flaw => .error flaw
  | none => decodeFrom 0 [] s

end Colloquy.Token.Base64Url
