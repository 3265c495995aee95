import Retrace.Anchor
import Retrace.Provenance.Link

/-!
# Correspondence ranges

A range relates the span of one output node to the source span it came from. Two
ranges can stand in one alignment unless their spans cross in one of the two
texts, or one holds the other in the output but is held by it in the source.
-/

namespace Retrace

/-- What corresponds to one output node. -/
structure Range where
  source : Span
  output : Span
  node : NodeId
  outputKind : Kind
  anchors : List Anchor
  predecessors : List Predecessor
  steps : List Step
deriving DecidableEq

namespace Range

/-- The span on one side. -/
def span (r : Range) : Side → Span
  | .source => r.source
  | .output => r.output

/-- The other end of an anchor, if it is at `offset` on the given side. -/
def otherEnd? (side : Side) (offset : Nat) (a : Anchor) : Option Nat :=
  match side with
  | .source => if a.source = offset then some a.output else none
  | .output => if a.output = offset then some a.source else none

/-- Where the first anchor at `offset` leads. -/
def counterpart? (r : Range) (side : Side) (offset : Nat) : Option Nat :=
  r.anchors.findSome? (otherEnd? side offset)

/-- The order of a set of ranges: by where they start in the output, longer ones
first, and then likewise in the source. -/
def le (a b : Range) : Bool :=
  decide (a.output.start < b.output.start) || decide (a.output.start = b.output.start) &&
    (decide (b.output.stop < a.output.stop) || decide (a.output.stop = b.output.stop) &&
      (decide (a.source.start < b.source.start) || decide (a.source.start = b.source.start) &&
        decide (b.source.stop ≤ a.source.stop)))

end Range

/-- Why two ranges exclude each other. -/
inductive Conflict where
  | crossing (node existing : NodeId) (side : Side)
  | invertedNesting (node existing : NodeId)
deriving DecidableEq

/-- The wording of a conflict. -/
def Conflict.message : Conflict → String
  | .crossing node existing side =>
    side.title ++ " span of " ++ node.text ++ " crosses the range of " ++ existing.text
  | .invertedNesting node existing =>
    node.text ++ " and " ++ existing.text ++
      " nest in opposite directions in the source and output"

/-- The conflict of a new range with one that is there already. Crossing spans
come before inverted nesting, and the output before the source. -/
def Range.conflict? (new existing : Range) : Option Conflict :=
  let output := new.output.relation existing.output
  let source := new.source.relation existing.source
  if output = .crossing then some (.crossing new.node existing.node .output)
  else if source = .crossing then some (.crossing new.node existing.node .source)
  else if output = .contains ∧ source = .within ∨ output = .within ∧ source = .contains then
    some (.invertedNesting new.node existing.node)
  else none

end Retrace
