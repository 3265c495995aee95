import Retrace.Text.Blank

/-!
# Parentheses around a span

The span of a node leaves out the parentheses it stands in. They are the nearest
characters on either side that are not blank.
-/

namespace Retrace

/-- The places of the parentheses around a span, if there are blanks only between
them and the span. -/
def Text.wrappingParens? (t : Text) (span : Span) : Option (Nat × Nat) := do
  let before ← t.before? span.start
  let after ← t.from? span.stop
  if (trimEnd before).getLast? = some '(' ∧ (trimStart after).head? = some ')' then
    some (byteSize (trimEnd before).dropLast, span.stop + byteSize (leadingBlanks after))
  else none

/-- A span with the parentheses at two places taken in. -/
def Span.widen (span : Span) (parens : Nat × Nat) : Span where
  start := min parens.1 span.start
  stop := max (parens.2 + 1) span.stop
  start_le_stop := by
    have h := span.start_le_stop
    omega

end Retrace
