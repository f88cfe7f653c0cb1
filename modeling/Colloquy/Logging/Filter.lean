import Colloquy.Logging.Directive

/-!
# Log filters

Which events are logged. A filter is written as directives with commas between them. For an event
the most special directive that asks for it decides, and of several for the same the last; an event
is also logged if it arises in a span for which a directive asks. A filter without any directive
logs errors.
-/

set_option autoImplicit false

namespace Colloquy.Logging

/-- Which events are logged. -/
structure Filter where
  directives : List Directive
  deriving DecidableEq, Repr, Inhabited

namespace Filter

/-- The filter of some directives. -/
def ofDirectives (directives : List Directive) : Filter :=
  if directives.isEmpty then ⟨[⟨none, none, [], Level.rank .error⟩]⟩ else ⟨directives⟩

/-- The texts between the commas of a text, as far as there are any. -/
def partsOf (text : String) : List (List Char) :=
  ((text.splitOn ",").filter (· ≠ "")).map String.toList

/-- The filter that a text is, if all of its directives can be read. -/
def ofText? (text : String) : Option Filter :=
  ((partsOf text).mapM Directive.ofText?).map ofDirectives

/-- The filter of those directives of a text that can be read. -/
def ofReadable (text : String) : Filter :=
  ofDirectives ((partsOf text).filterMap Directive.ofText?)

/-- The directive that decides about an event. -/
def decisive? (f : Filter) (e : Event) : Option Directive :=
  (f.directives.filter fun d => d.isForEvents && d.concerns e).foldl
    (fun best d =>
      match best with
      | some b => if b.isWithin d then some d else some b
      | none => some d)
    none

/-- Whether a span is looked at: some directive logs its level, or asks for a value, which a span
of any level may have. -/
def notices (f : Filter) (s : Span) : Bool :=
  f.directives.any fun d => d.hasValue || s.level.rank ≤ d.threshold

/-- Whether events of a level are logged because they arise in a span. -/
def logsWithin (f : Filter) (level : Level) (s : Span) : Bool :=
  f.notices s &&
    f.directives.any fun d => d.isForSpans && d.concernsSpan s && level.rank ≤ d.threshold

/-- Whether an event that arises in a span is logged. -/
def logs (f : Filter) (s : Span) (e : Event) : Bool :=
  f.logsWithin e.level s || (f.decisive? e).any fun d => e.level.rank ≤ d.threshold

end Filter

end Colloquy.Logging
