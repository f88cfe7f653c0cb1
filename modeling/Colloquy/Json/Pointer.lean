import Colloquy.Json.Value

/-!
# Pointers

A place in a JSON value, named by a text: every step from the outside to the inside is written
behind a slash, a member by its name and an item by its number. In a name `~1` stands for a slash
and `~0` for a tilde.
-/

set_option autoImplicit false

namespace Colloquy.Json

/-- A step of a pointer as it is meant. -/
def unescapeStep : List Char → List Char
  | '~' :: '1' :: rest => '/' :: unescapeStep rest
  | '~' :: '0' :: rest => '~' :: unescapeStep rest
  | c :: rest => c :: unescapeStep rest
  | [] => []

/-- The steps of a pointer, each without the slash in front of it. -/
def stepsOf : List Char → List (List Char)
  | [] => [[]]
  | '/' :: rest => [] :: stepsOf rest
  | c :: rest =>
    match stepsOf rest with
    | [] => [[c]]
    | step :: steps => (c :: step) :: steps

/-- The number that a step is: digits, the first of several not zero. -/
def indexOf? : List Char → Option Nat
  | [] => none
  | [c] => if c.isDigit then some (c.toNat - 48) else none
  | '0' :: _ => none
  | cs =>
    if cs.all Char.isDigit then some (cs.foldl (fun n c => 10 * n + (c.toNat - 48)) 0) else none

namespace Value

/-- The part of a value that a step leads to. -/
def part? (v : Value) (step : List Char) : Option Value :=
  match v with
  | .object _ => v.member? (String.ofList step)
  | .list items => (indexOf? step).bind fun i => items[i]?
  | _ => none

/-- The part of a value that a pointer names. -/
def at? (v : Value) (pointer : String) : Option Value :=
  match pointer.toList with
  | [] => some v
  | '/' :: rest => ((stepsOf rest).map unescapeStep).foldlM part? v
  | _ => none

end Value

end Colloquy.Json
