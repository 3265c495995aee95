import Retrace.Range.Set

/-!
# Nesting depth

The depth of a range in a listing is found in one pass: the output spans that
are still open are kept on a stack, and those that do not enclose the next range
are closed for good.
-/

namespace Retrace

/-- The depth of each span, given the open spans from the innermost outwards. -/
def depthsFrom : List Span → List Span → List Nat
  | _, [] => []
  | opened, s :: rest =>
    let enclosing := opened.dropWhile fun o => !o.encloses s
    enclosing.length :: depthsFrom (s :: enclosing) rest

/-- The depth of each range of a list in the order of a set. -/
def depths (ranges : List Range) : List Nat := depthsFrom [] (ranges.map (·.output))

end Retrace
