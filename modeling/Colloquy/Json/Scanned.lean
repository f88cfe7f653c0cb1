import Colloquy.Json.Failure

/-!
# Readers

A reader takes the bytes in front of it and delivers a value and the bytes that are left. What is
left is shorter than what was there, and the result says so: that is why every loop of readers
ends.
-/

set_option autoImplicit false

namespace Colloquy.Json

/-- A value read from the front of a text, and the rest, which is shorter than `bound` bytes. -/
structure Scanned (α : Type) (bound : Nat) where
  value : α
  rest : Bytes
  shorter : rest.length < bound

/-- Reads a value from the front of a text. -/
abbrev Reader (α : Type) := (s : Bytes) → Except Failure (Scanned α s.length)

namespace Scanned

/-- The same rest, with what was read put through a function. -/
def map {α β : Type} {bound : Nat} (f : α → β) (x : Scanned α bound) : Scanned β bound :=
  ⟨f x.value, x.rest, x.shorter⟩

/-- A longer text is a weaker bound. -/
def weaken {α : Type} {n m : Nat} (h : n ≤ m) (x : Scanned α n) : Scanned α m :=
  ⟨x.value, x.rest, Nat.lt_of_lt_of_le x.shorter h⟩

end Scanned

/-- The blanks between the tokens of a text: space, tab and the two line ends. -/
def isBlank (b : UInt8) : Bool :=
  b = 0x20 || b = 0x0a || b = 0x0d || b = 0x09

/-- The text from its first byte that is no blank on. -/
def skipBlank : Bytes → Bytes
  | [] => []
  | b :: rest => if isBlank b then skipBlank rest else b :: rest

/-- What follows the blanks is no longer than the whole. -/
theorem length_skipBlank_le (s : Bytes) : (skipBlank s).length ≤ s.length := by
  induction s with
  | nil => exact Nat.le_refl _
  | cons b rest ih =>
    rw [skipBlank]
    split
    · exact Nat.le_succ_of_le ih
    · exact Nat.le_refl _

/-- What follows the first byte of a text fits where the text does. -/
theorem lt_of_cons_lt {b : UInt8} {s : Bytes} {n : Nat} (h : (b :: s).length < n) :
    s.length < n :=
  Nat.lt_of_succ_lt h

/-- What follows the first byte of a text is shorter than whatever is as long as the text. -/
theorem lt_of_cons_le {b : UInt8} {s : Bytes} {n : Nat} (h : (b :: s).length ≤ n) :
    s.length < n :=
  h

/-- What follows the first byte of a text is within whatever the text is shorter than. -/
theorem le_of_cons_lt {b : UInt8} {s : Bytes} {n : Nat} (h : (b :: s).length < n) :
    s.length ≤ n :=
  Nat.le_of_lt (lt_of_cons_lt h)

/-- A text that is shorter than a bound is within it. -/
theorem le_of_length_lt {s : Bytes} {n : Nat} (h : s.length < n) : s.length ≤ n :=
  Nat.le_of_lt h

/-- A text is shorter than the bound that is one above its length. -/
theorem length_lt_succ (s : Bytes) : s.length < s.length + 1 :=
  Nat.lt_succ_self _

/-- What follows the first byte behind the blanks fits where the text does. -/
theorem lt_of_skipBlank {s rest : Bytes} {b : UInt8} {n : Nat} (hs : skipBlank s = b :: rest)
    (h : s.length ≤ n) : rest.length < n := by
  have blank := length_skipBlank_le s
  rw [hs] at blank
  exact Nat.le_trans blank h

/-- What follows the first byte behind the blanks is shorter than what the text is shorter than. -/
theorem lt_of_skipBlank_of_lt {s rest : Bytes} {b : UInt8} {n : Nat}
    (hs : skipBlank s = b :: rest) (h : s.length < n) : rest.length < n :=
  lt_of_skipBlank hs (Nat.le_of_lt h)

/-- What follows the first byte behind the blanks is shorter than the whole. -/
theorem length_lt_of_skipBlank {s rest : Bytes} {b : UInt8} (hs : skipBlank s = b :: rest) :
    rest.length < s.length :=
  lt_of_skipBlank hs (Nat.le_refl _)

/-- Reads the rest of a literal whose first letter has been read. -/
def readWord (bound : Nat) : (word s : Bytes) → (h : s.length < bound) →
    Except Failure (Scanned Unit bound)
  | [], s, h => .ok ⟨(), s, h⟩
  | _ :: _, [], _ => .error (.before .endInValue [])
  | w :: word, b :: s, h =>
    if b = w then readWord bound word s (lt_of_cons_lt h)
    else .error (.before .unknownWord s)

/-- What follows the first letter of `null`. -/
def nullTail : Bytes := Ascii.bytes "ull"

/-- What follows the first letter of `true`. -/
def trueTail : Bytes := Ascii.bytes "rue"

/-- What follows the first letter of `false`. -/
def falseTail : Bytes := Ascii.bytes "alse"

end Colloquy.Json
