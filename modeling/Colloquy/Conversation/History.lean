/-!
# Histories

The history of a conversation is a text that grows by one exchange at a time, each on lines of its
own. A history that has grown too long loses whole lines from its front until it fits; a last line
that is too long by itself is kept.
-/

set_option autoImplicit false

namespace Colloquy

namespace History

/-- The number of bytes of some characters. -/
def byteLength (text : List Char) : Nat :=
  text.foldl (fun n c => n + c.utf8Size) 0

/-- Drops lines from the front of a text of `size` bytes while it is longer than `limit` bytes and
another line follows. -/
def dropLines (limit size : Nat) (text : List Char) : List Char :=
  if size ≤ limit then text
  else
    match _h : text.dropWhile (· ≠ '\n') with
    | [] => text
    | _ :: rest => dropLines limit (size - byteLength (text.takeWhile (· ≠ '\n')) - 1) rest
termination_by text.length
decreasing_by
  have h := (List.dropWhile_sublist (l := text) (fun c => decide (c ≠ '\n'))).length_le
  rw [_h] at h
  exact h

/-- A history cut to `limit` bytes, as far as cutting whole lines can. -/
def trim (limit : Nat) (history : String) : String :=
  if history.utf8ByteSize ≤ limit then history
  else String.ofList (dropLines limit history.utf8ByteSize history.toList)

/-- A history with one more entry, on a line of its own. -/
def append (history entry : String) : String :=
  history ++ "\n" ++ entry

/-- The entry of a question and its answer. -/
def exchange (question answer : String) : String :=
  "human: " ++ question ++ "\nai: " ++ answer

end History

end Colloquy
