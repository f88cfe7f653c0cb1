import Colloquy.Binary64.Numeral
import Colloquy.Logging.Span
import Colloquy.Pattern.Reader
import Colloquy.Text.Alphanumeric
import Colloquy.Text.Blank

/-!
# Log directives

What a log filter consists of. A directive is a level; or the part of the service that a level is
for and the level; or such a part alone, for which all levels are logged. Behind the part, brackets
may name a span and in braces a field: `part[span{field=value}]=level`. A directive without a
span and without a value asks for events that have the field. A directive with brackets asks for
spans of that name and with that field, within which everything of the level is logged. A value that
is no number and no truth value is a pattern, and what it finds has to be the end of the field.
-/

set_option autoImplicit false

namespace Colloquy.Logging

/-- How many levels are logged: none to all of them. -/
abbrev Threshold := Nat

/-- The threshold of everything. -/
def everything : Threshold := Level.rank .trace

/-- The thresholds that have names. -/
def named : List (String × Threshold) :=
  [ ("off", 0), ("error", Level.rank .error), ("warn", Level.rank .warn)
  , ("info", Level.rank .info), ("debug", Level.rank .debug), ("trace", everything) ]

/-- The threshold that a text names, by its number or by its name in letters of either case. -/
def threshold? (text : List Char) : Option Threshold :=
  let digits := match text with
    | '+' :: digits => digits
    | digits => digits
  if !digits.isEmpty && digits.all Char.isDigit then
    let n := digitsValue digits
    if n ≤ everything then some n else none
  else named.lookup (String.ofList (text.map Char.toLower))

/-- Whether a text is a truth value or a number. -/
def isPlainValue (text : List Char) : Bool :=
  let unsigned := match text with
    | '-' :: rest => rest
    | '+' :: rest => rest
    | _ => text
  text = "true".toList || text = "false".toList || (Binary64.ofNumeral? text).isSome ||
    ["inf", "infinity", "nan"].contains (String.ofList (unsigned.map Char.toLower))

/-- A field that a directive asks for. -/
structure FieldDemand where
  name : String
  /-- Its value, if one is asked for: a truth value, a number, or the pattern of a text. -/
  value : Option String
  deriving DecidableEq, Repr, Inhabited

namespace FieldDemand

/-- The demand that a text is: a name, and behind an equals sign a value. -/
def ofText? (text : List Char) : Option FieldDemand :=
  let name := String.ofList (text.takeWhile (· ≠ '='))
  match text.dropWhile (· ≠ '=') with
  | [] => if text.isEmpty then none else some ⟨name, none⟩
  | _ :: value =>
    let value := value.takeWhile (· ≠ '=')
    if isPlainValue value || (Pattern.ofText? value).isSome then
      some ⟨name, some (String.ofList value)⟩
    else none

/-- Whether a value, which is a text, is one that is asked for. What the pattern finds in it has to
be its end. -/
def admits (asked : String) (value : String) : Bool :=
  !isPlainValue asked.toList && (Pattern.ofText? asked.toList).any (·.findsEnd value.toList)

/-- Whether some field is what is asked for. -/
def isMetBy (d : FieldDemand) (fields : List (String × String)) : Bool :=
  fields.any fun (name, value) => name = d.name && d.value.all (admits · value)

end FieldDemand

/-- What is logged of a part of the service. -/
structure Directive where
  /-- What the origins of the part begin with; every origin if it is not given. -/
  part : Option String
  /-- The name of the spans that are asked for. -/
  span : Option String
  /-- The fields that are asked for. -/
  fields : List FieldDemand
  threshold : Threshold
  deriving DecidableEq, Repr, Inhabited

namespace Directive

/-- Whether a directive may begin with a character other than a bracket. -/
def isFirst (c : Char) : Bool :=
  Alphanumeric.isAlphanumeric c || c = '-' || c = ':' || c = '_'

/-- The threshold that stands behind an equals sign: everything, if nothing does. -/
def thresholdBehind? (text : List Char) : Option Threshold :=
  if text.isEmpty then some everything else threshold? text

/-- A text that is read from behind its blanks. The characters that decide how it is divided are
those from there on; the characters that its parts consist of are counted from its front. -/
structure Reading where
  /-- The characters that decide, each with the one that is kept. -/
  pairs : List (Char × Char)
  /-- The characters that are kept at the end. -/
  tail : List Char

namespace Reading

/-- The characters that are kept of all that is left. -/
def kept (r : Reading) : List Char :=
  r.pairs.map (·.2) ++ r.tail

/-- What stands in front of one of some characters, that character, and what is left behind it. -/
def upTo (r : Reading) (marks : List Char) : List Char × Option Char × Reading :=
  let front := r.pairs.takeWhile fun p => !marks.contains p.1
  let rest := r.pairs.drop front.length
  (front.map (·.2), rest.head?.map (·.1), { r with pairs := rest.drop 1 })

end Reading

/-- The directive whose brackets have been read. -/
def behindBrackets (part span : Option String) (fields : List FieldDemand) (r : Reading) :
    Option Directive :=
  match r.pairs with
  | [] => some ⟨part, span, fields, everything⟩
  | (c, _) :: rest =>
    if c = '=' then
      (thresholdBehind? ({ r with pairs := rest } : Reading).kept).map fun threshold =>
        ⟨part, span, fields, threshold⟩
    else none

/-- The directive whose opening bracket has been read. -/
def inBrackets (part : Option String) (r : Reading) : Option Directive :=
  match r.upTo [']', '\x7b'] with
  | (span, some ']', r) => behindBrackets part (some (String.ofList span)) [] r
  | (span, some _, r) =>
    let span := if span.isEmpty then none else some (String.ofList span)
    match r.upTo ['\x7d'] with
    | (field, some _, r) =>
      (FieldDemand.ofText? field).bind fun demand =>
        match r.pairs with
        | (']', _) :: rest => behindBrackets part span [demand] { r with pairs := rest }
        | _ => none
    | _ => none
  | _ => none

/-- The directive that a text is. -/
def ofText? (text : List Char) : Option Directive :=
  let read := Blank.trim text
  let whole : Reading := ⟨read.zip text, text.drop read.length⟩
  match whole.pairs with
  | [] => none
  | ('[', _) :: rest => inBrackets none { whole with pairs := rest }
  | (c, _) :: _ =>
    if !isFirst c then none
    else
      match whole.upTo ['=', '['] with
      | (part, some '=', r) =>
        (thresholdBehind? r.kept).map fun threshold =>
          ⟨some (String.ofList part), none, [], threshold⟩
      | (part, some _, r) => inBrackets (some (String.ofList part)) r
      | _ =>
        match threshold? text with
        | some threshold => some ⟨none, none, [], threshold⟩
        | none => some ⟨some (String.ofList text), none, [], everything⟩

/-- Whether a directive asks for a value. -/
def hasValue (d : Directive) : Bool :=
  d.fields.any (·.value.isSome)

/-- Whether a directive asks for events. -/
def isForEvents (d : Directive) : Bool :=
  d.span.isNone && !d.hasValue

/-- Whether a directive asks for spans. -/
def isForSpans (d : Directive) : Bool :=
  d.span.isSome || !d.fields.isEmpty

/-- Whether a directive is about an origin. -/
def covers (d : Directive) (origin : String) : Bool :=
  d.part.all fun part => part.toList.isPrefixOf origin.toList

/-- Whether a directive asks for an event: for its origin, and for fields that it has. The wording
of an event is one of its fields. -/
def concerns (d : Directive) (e : Event) : Bool :=
  d.covers e.origin &&
    d.fields.all fun f => f.name = "message" || e.details.any fun detail => detail.1 = f.name

/-- Whether a directive asks for a span. -/
def concernsSpan (d : Directive) (s : Span) : Bool :=
  d.covers s.origin && d.span.all (· = s.name) && d.fields.all (·.isMetBy s.fields)

/-- How special the part of a directive is: the longer, the more. -/
def weight (d : Directive) : Nat :=
  d.part.elim 0 fun part => part.utf8ByteSize + 1

/-- Whether a directive is at most as special as another one: its part is shorter, or it has fewer
fields, or their names come first. -/
def isWithin (d other : Directive) : Bool :=
  if d.weight ≠ other.weight then d.weight < other.weight
  else if d.fields.length ≠ other.fields.length then d.fields.length < other.fields.length
  else !(other.fields.map (·.name) < d.fields.map (·.name))

end Directive

end Colloquy.Logging
