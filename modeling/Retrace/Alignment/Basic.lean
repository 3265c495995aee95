import Retrace.Alignment.Parentheses
import Retrace.Classes
import Retrace.Diagnostic
import Retrace.Provenance.Table
import Retrace.Rule.Dispatch

/-!
# Alignment

The output nodes are visited in preorder. A linked node gets a range: its own
span in the output, the hull of its predecessors in the source. If it has a
single predecessor that is still in the source tree, the rule of the pair adds
anchors, and the parentheses around both nodes can widen the range. Anchors
outside the range are dropped.

A range is taken into the set unless it is in conflict with a range of an earlier
node; then it is reported instead. What becomes of each byte is read off the
ranges that were taken in.
-/

namespace Retrace

/-- Both texts, both trees and the links between them. -/
structure AlignmentInput where
  source : Text
  output : Text
  sourceTree : Tree
  outputTree : Tree
  provenance : Table

/-- An output node that came from no source node. -/
structure SynthesizedNode where
  node : NodeId
  kind : Kind
  output : Span
  steps : List Step
deriving DecidableEq

/-- What an alignment found out. -/
structure Alignment where
  ranges : RangeSet
  classes : Classes
  diagnostics : List Diagnostic
  synthesized : List SynthesizedNode
deriving DecidableEq

namespace Alignment

/-- The pairing of an output node with its only predecessor, if that can be found
in the source tree. -/
def pairing? (input : AlignmentInput) (n : Node) (link : Link) : Option Pairing := do
  let predecessor ← link.sole?
  let source ← input.sourceTree.node? (← predecessor.node)
  return ⟨⟨input.source, input.sourceTree, source⟩, ⟨input.output, input.outputTree, n⟩⟩

/-- The parentheses around both nodes of a pairing. -/
def parens? (options : Options) (p : Pairing) : Option ((Nat × Nat) × (Nat × Nat)) :=
  if options.parentheses && p.source.node.parenthesized && p.output.node.parenthesized then do
    let source ← p.source.text.wrappingParens? p.source.node.span
    let output ← p.output.text.wrappingParens? p.output.node.span
    return (source, output)
  else none

/-- The anchors that lie within the two spans, in order and without repetition. -/
def settle (source output : Span) (anchors : List Anchor) : List Anchor :=
  ((anchors.filter fun a => source.contains a.source && output.contains a.output).mergeSort
    Anchor.le).eraseReps

/-- The two spans of the range of an output node, and its anchors before they are
settled, given the hull of its predecessors. -/
def bounds (options : Options) (hull : Span) (n : Node) (pairing : Option Pairing) :
    Span × Span × Outcome :=
  match pairing with
  | none => (hull, n.span, .ofAnchors [])
  | some p =>
    let outcome := p.align options
    match parens? options p with
    | none => (hull, n.span, outcome)
    | some (source, output) =>
      (hull.widen source, n.span.widen output,
        { outcome with
          anchors := outcome.anchors ++ [.plain source.1 output.1, .plain source.2 output.2] })

/-- The range of a linked output node, and the problems of its rule. A node
without predecessors has none. -/
def rangeOf? (options : Options) (input : AlignmentInput) (id : NodeId) (n : Node) (link : Link) :
    Option (Range × List Problem) := do
  let hull ← link.hull?
  let (source, output, outcome) := bounds options hull n (pairing? input n link)
  let r : Range :=
    { source, output, node := id, outputKind := n.kind
      anchors := settle source output outcome.anchors
      predecessors := link.predecessors
      steps := link.steps }
  return (r, outcome.problems)

/-- What a problem of a rule is reported as. -/
def findingOf (n : Node) (link : Link) : Problem → Finding
  | .unsupported => .unsupportedPairing n.kind (link.predecessors.map (·.kind))
  | .ambiguous reason => .ambiguousStructure reason

/-- A diagnostic about a range, unless its level is off. -/
def report? (options : Options) (r : Range) (finding : Finding) : Option Diagnostic :=
  (options.level finding.code).severity?.map fun severity =>
    { finding, severity, node := r.node, outputSpan := r.output, sourceSpan := some r.source }

/-- What the nodes visited so far gave. -/
structure Progress where
  ranges : RangeSet
  diagnostics : List Diagnostic
  synthesized : List SynthesizedNode

/-- Takes a range in, or reports its conflict. -/
def Progress.splice (options : Options) (progress : Progress) (r : Range) : Progress :=
  match progress.ranges.insert r with
  | .ok ranges => { progress with ranges }
  | .error conflict =>
    { progress with
      diagnostics := progress.diagnostics ++
        (report? options r (.ambiguousStructure conflict.message)).toList }

/-- Visits an output node with a link. -/
def Progress.visitLinked (options : Options) (input : AlignmentInput) (progress : Progress)
    (id : NodeId) (n : Node) (link : Link) : Progress :=
  if link.isSynthesized then
    { progress with synthesized := progress.synthesized ++ [⟨id, n.kind, n.span, link.steps⟩] }
  else
    match rangeOf? options input id n link with
    | none => progress
    | some (r, problems) =>
      Progress.splice options
        { progress with
          diagnostics := progress.diagnostics ++
            problems.filterMap fun problem => report? options r (findingOf n link problem) }
        r

/-- Visits an output node. -/
def Progress.visit (options : Options) (input : AlignmentInput) (progress : Progress)
    (id : NodeId) : Progress :=
  match input.outputTree.node? id, input.provenance.get? id with
  | some n, some link => progress.visitLinked options input id n link
  | _, _ => progress

/-- Visits the nodes of the output tree one after the other. -/
def progress (options : Options) (input : AlignmentInput) : Progress :=
  input.outputTree.preorder.foldl (Progress.visit options input) ⟨.empty, [], []⟩

/-- The alignment of two texts. -/
def align (options : Options) (input : AlignmentInput) : Alignment :=
  let final := progress options input
  { ranges := final.ranges
    classes := .ofRanges input.sourceTree input.outputTree input.source.size input.output.size
      final.ranges
    diagnostics := final.diagnostics
    synthesized := final.synthesized }

/-- Some diagnostic is an error. -/
def hasErrors (a : Alignment) : Bool :=
  a.diagnostics.any fun d => decide (d.severity = .error)

/-- The number of anchors of all ranges. -/
def anchorCount (a : Alignment) : Nat :=
  a.ranges.ranges.foldr (fun r count => r.anchors.length + count) 0

end Alignment

end Retrace
