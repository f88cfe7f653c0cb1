import Colloquy.Pattern.Basic
import Colloquy.Text.Ascii

/-!
# Reading patterns

The pattern that a text is written as. A point stands for any character of a line, brackets for one
of a set, a bar between alternatives, and `*`, `+` and `?` behind what is repeated; parentheses
group, and may set how letters, lines and repetitions are taken. Repetitions with a count, classes
of Unicode by their names and looking around are no part of what is read.
-/

set_option autoImplicit false

namespace Colloquy.Pattern

/-- How a pattern is taken. -/
structure Mode where
  /-- Whether the case of letters does not matter. -/
  ignoresCase : Bool
  /-- Whether a line may begin and end anywhere in the text. -/
  hasLines : Bool
  /-- Whether a point stands for the end of a line, too. -/
  crossesLines : Bool
  /-- Whether repetitions are reluctant unless they are marked. -/
  isReluctant : Bool
  /-- Whether characters are those of Unicode. -/
  isUnicode : Bool
  /-- Whether blanks and comments are passed over. -/
  isSpaced : Bool
  deriving DecidableEq, Repr, Inhabited

namespace Mode

/-- The mode that patterns begin in. -/
def initial : Mode :=
  ⟨false, false, false, false, true, false⟩

/-- A mode with a flag set or not. -/
def set? (m : Mode) (flag : Char) (on : Bool) : Option Mode :=
  match flag with
  | 'i' => some { m with ignoresCase := on }
  | 'm' => some { m with hasLines := on }
  | 's' => some { m with crossesLines := on }
  | 'U' => some { m with isReluctant := on }
  | 'u' => some { m with isUnicode := on }
  | 'x' => some { m with isSpaced := on }
  | 'R' => some m
  | _ => none

/-- A mode with some flags set, and those behind a hyphen not. None is given twice, and some flag
follows the hyphen. -/
def setAll? (m : Mode) (flags : List Char) : Option Mode :=
  if !flags.Nodup || flags.getLast? = some '-' then none
  else
    let on := flags.takeWhile (· ≠ '-')
    let off := (flags.dropWhile (· ≠ '-')).drop 1
    (on.foldlM (fun (m : Mode) flag => m.set? flag true) m).bind fun m =>
      off.foldlM (fun (m : Mode) flag => m.set? flag false) m

/-- A set as it is meant: with the letters of both cases if the case does not matter. -/
def fold (m : Mode) (s : CharSet) : CharSet :=
  if m.ignoresCase then s.folded else s

/-- A set of all but some characters, which has to be one of characters of Unicode. -/
def allBut? (m : Mode) (s : CharSet) : Option CharSet :=
  if m.isUnicode then some s.compl else none

end Mode

/-- What stands behind a backslash. -/
inductive Escape
  | char (c : Char)
  | set (s : CharSet)
  | place (kind : PatternPlace)

/-- The character of so many hexadecimal digits at the front of a text, and what follows. -/
def numbered? (count : Nat) (s : List Char) : Option (Escape × List Char) :=
  let digits := s.take count
  if digits.length < count || !digits.all fun c => Ascii.isHexDigit c.toUInt8 && c.toNat < 0x80 then
    none
  else
    let n := digits.foldl (fun n c => 16 * n + (Ascii.hexValue? c.toUInt8).getD 0) 0
    if n.isValidChar then some (.char (Char.ofNat n), s.drop count) else none

/-- Whether a character of ASCII that is neither a letter nor a digit stands for itself behind a
backslash. -/
def standsForItself (c : Char) : Bool :=
  c.toNat < 0x80 && !c.isAlphanum && c ≠ '<' && c ≠ '>'

/-- What stands behind a backslash, and what follows. The edges of words are told in ASCII only. -/
def readEscape (m : Mode) : List Char → Option (Escape × List Char)
  | [] => none
  | c :: rest =>
    let edge (kind : PatternPlace) : Option (Escape × List Char) :=
      if m.isUnicode then none else some (.place kind, rest)
    match c with
    | 'd' => some (.set .digit, rest)
    | 'w' => some (.set .word, rest)
    | 's' => some (.set .blank, rest)
    | 'D' => (m.allBut? .digit).map fun s => (.set s, rest)
    | 'W' => (m.allBut? .word).map fun s => (.set s, rest)
    | 'S' => (m.allBut? .blank).map fun s => (.set s, rest)
    | 'A' => some (.place .textStart, rest)
    | 'z' => some (.place .textEnd, rest)
    | 'b' => edge (.wordEdge true)
    | 'B' => edge (.wordEdge false)
    | 'a' => some (.char '\x07', rest)
    | 'f' => some (.char '\x0c', rest)
    | 't' => some (.char '\t', rest)
    | 'n' => some (.char '\n', rest)
    | 'r' => some (.char '\r', rest)
    | 'v' => some (.char '\x0b', rest)
    | 'x' => numbered? 2 rest
    | 'u' => numbered? 4 rest
    | 'U' => numbered? 8 rest
    | c => if standsForItself c then some (.char c, rest) else none

/-- What follows the blank or the comment at the front of a text, if it is passed over. -/
def afterIdle? (m : Mode) (s : List Char) : Option (List Char) :=
  match s with
  | c :: rest =>
    if m.isSpaced && Blank.isBlank c then some rest
    else if m.isSpaced && c = '#' then some (rest.dropWhile (· ≠ '\n'))
    else none
  | [] => none

/-- The class that is named at the front of a text, from behind its bracket, and what follows. -/
def readNamed : List Char → Option (CharSet × List Char)
  | ':' :: rest =>
    let (isNegated, rest) := match rest with
      | '^' :: rest => (true, rest)
      | rest => (false, rest)
    match rest.dropWhile (· ≠ ':') with
    | ':' :: ']' :: tail =>
      (CharSet.named.lookup (String.ofList (rest.takeWhile (· ≠ ':')))).map fun s =>
        (if isNegated then s.compl else s, tail)
    | _ => none
  | _ => none

/-- A character or a set within brackets, and what follows. -/
def readMember (m : Mode) : List Char → Option (Escape × List Char)
  | [] => none
  | '\\' :: rest => readEscape m rest
  | c :: rest => some (.char c, rest)

/-- A set, a character or the characters from one to another within brackets, and what follows. A
hyphen in front of the closing bracket or of another hyphen stands for itself. -/
def readRange (m : Mode) (s : List Char) : Option (CharSet × List Char) :=
  match readMember m s with
  | some (.set set, rest) =>
    match rest with
    | '-' :: ']' :: _ | '-' :: '-' :: _ => some (set, rest)
    | '-' :: _ => none
    | _ => some (set, rest)
  | some (.char first, rest) =>
    match rest with
    | '-' :: ']' :: _ | '-' :: '-' :: _ => some (.single first, rest)
    | '-' :: rest =>
      match readMember m rest with
      | some (.char last, rest) =>
        if first ≤ last then some (.range first last, rest) else none
      | _ => none
    | _ => some (.single first, rest)
  | _ => none

/-- What is done with the sets on both sides of a sign within brackets. -/
abbrev Joining := CharSet → CharSet

mutual

/-- A set from behind its opening bracket, and what follows its closing one. Hyphens in front stand
for themselves, and so does a closing bracket in front. -/
def readSet : (fuel : Nat) → Mode → List Char → Option (CharSet × List Char)
  | 0, _, _ => none
  | fuel + 1, m, s =>
    let (isNegated, s) := match s with
      | '^' :: rest => (true, rest)
      | s => (false, s)
    let hyphens := s.takeWhile (· = '-')
    let s := s.dropWhile (· = '-')
    let (front, s) := match s with
      | ']' :: rest =>
        if hyphens.isEmpty then (CharSet.single ']', rest) else (CharSet.single '-', s)
      | s => (if hyphens.isEmpty then CharSet.none else CharSet.single '-', s)
    (readMembers fuel m id front s).bind fun (set, rest) =>
      (if isNegated then m.allBut? (m.fold set) else some (m.fold set)).map fun set => (set, rest)

/-- The members of a set, of which some have been read, and what follows the closing bracket. What
stands in front of a sign between sets is joined with them. -/
def readMembers : (fuel : Nat) → Mode → Joining → CharSet → List Char →
    Option (CharSet × List Char)
  | 0, _, _, _, _ => none
  | fuel + 1, m, join, set, s =>
    match afterIdle? m s with
    | some rest => readMembers fuel m join set rest
    | none =>
      match s with
      | [] => none
      | ']' :: rest => some (join set, rest)
      | '&' :: '&' :: rest =>
        readMembers fuel m (fun b => (m.fold (join set)).inter (m.fold b)) .none rest
      | '-' :: '-' :: rest =>
        readMembers fuel m (fun b => (m.fold (join set)).diff (m.fold b)) .none rest
      | '~' :: '~' :: rest =>
        readMembers fuel m (fun b => (m.fold (join set)).symmDiff (m.fold b)) .none rest
      | '[' :: rest =>
        match (readNamed rest).orElse fun _ => readSet fuel m rest with
        | some (inner, rest) => readMembers fuel m join (set.union inner) rest
        | none => none
      | s =>
        match readRange m s with
        | some (inner, rest) => readMembers fuel m join (set.union inner) rest
        | none => none

end

/-- Whether a text is the name of a group. -/
def isGroupName (name : List Char) : Bool :=
  match name with
  | [] => false
  | c :: rest =>
    (c.isAlpha || c = '_') &&
      rest.all fun c => c.isAlphanum || c = '_' || c = '.' || c = '[' || c = ']'

/-- What an opening parenthesis begins. -/
inductive Opening
  /-- A group that is read in a mode. -/
  | group (mode : Mode)
  /-- Nothing; what follows is read in a mode. -/
  | setting (mode : Mode)

/-- What an opening parenthesis begins, and what follows. -/
def readOpening (m : Mode) : List Char → Option (Opening × List Char)
  | '?' :: rest =>
    let name := match rest with
      | 'P' :: '<' :: rest => some rest
      | '<' :: rest => some rest
      | _ => none
    match name with
    | some rest =>
      match rest.dropWhile (· ≠ '>') with
      | '>' :: tail =>
        if isGroupName (rest.takeWhile (· ≠ '>')) then some (.group m, tail) else none
      | _ => none
    | none =>
      let isFlag (c : Char) : Bool := c ≠ ':' && c ≠ ')'
      let flags := rest.takeWhile isFlag
      (m.setAll? flags).bind fun mode =>
        match rest.dropWhile isFlag with
        | ':' :: tail => some (.group mode, tail)
        | ')' :: tail => if flags.isEmpty then none else some (.setting mode, tail)
        | _ => none
  | rest => some (.group m, rest)

/-- The pattern of one character, a set or a place, and what follows. -/
def readAtom (m : Mode) : List Char → Option (Pattern × List Char)
  | [] => none
  | '.' :: rest =>
    if m.isUnicode then
      some (one (if m.crossesLines then .any else (CharSet.single '\n').compl), rest)
    else none
  | '^' :: rest => some (place (if m.hasLines then .lineStart else .textStart), rest)
  | '$' :: rest => some (place (if m.hasLines then .lineEnd else .textEnd), rest)
  | '[' :: rest => (readSet (2 * rest.length + 2) m rest).map fun (set, rest) => (one set, rest)
  | '\\' :: rest =>
    (readEscape m rest).map fun (escape, rest) =>
      match escape with
      | .char c => (one (m.fold (.single c)), rest)
      | .set set => (one set, rest)
      | .place kind => (place kind, rest)
  | c :: rest => some (one (m.fold (.single c)), rest)

/-- A pattern that is repeated as a sign tells. -/
def repeated? (sign : Char) (isReluctant : Bool) (inner : Pattern) : Option Pattern :=
  match sign with
  | '*' => some (optional isReluctant (many isReluctant inner))
  | '+' => some (many isReluctant inner)
  | '?' => some (optional isReluctant inner)
  | _ => none

mutual

/-- Alternatives, and what follows: a closing parenthesis, or nothing. -/
def readEither : (fuel : Nat) → Mode → List Char → Option (Pattern × List Char)
  | 0, _, _ => none
  | fuel + 1, m, s =>
    match readSeq fuel m [] s with
    | some (first, m, '|' :: rest) =>
      (readEither fuel m rest).map fun (second, rest) => (either first second, rest)
    | some (first, _, rest) => some (first, rest)
    | none => none

/-- What follows some patterns, of which the last one comes first, in a sequence; the mode at its
end; and what follows. Nothing stands for what cannot be repeated. -/
def readSeq : (fuel : Nat) → Mode → List (Option Pattern) → List Char →
    Option (Pattern × Mode × List Char)
  | 0, _, _, _ => none
  | fuel + 1, m, items, s =>
    let whole := (items.reverse.filterMap id).foldr seq empty
    match afterIdle? m s with
    | some rest => readSeq fuel m items rest
    | none =>
      match s with
      | [] => some (whole, m, [])
      | c :: rest =>
        if c = '|' || c = ')' then some (whole, m, c :: rest)
        else if c = '\x7b' then none
        else if c = '*' || c = '+' || c = '?' then
          match items with
          | some inner :: items =>
            let isMarked := rest.head? = some '?'
            match repeated? c (m.isReluctant != isMarked) inner with
            | some p => readSeq fuel m (some p :: items) (if isMarked then rest.drop 1 else rest)
            | none => none
          | _ => none
        else if c = '(' then
          match readOpening m rest with
          | some (.setting m, rest) => readSeq fuel m (none :: items) rest
          | some (.group mode, rest) =>
            match readEither fuel mode rest with
            | some (inner, ')' :: rest) => readSeq fuel m (some inner :: items) rest
            | _ => none
          | none => none
        else
          match readAtom m (c :: rest) with
          | some (p, rest) => readSeq fuel m (some p :: items) rest
          | none => none

end

/-- The pattern that a text is. Every step but two for each group takes characters. -/
def ofText? (text : List Char) : Option Pattern :=
  match readEither (3 * text.length + 3) .initial text with
  | some (p, []) => some p
  | _ => none

end Colloquy.Pattern
