import Retrace.Alignment.Basic
import Retrace.Document.Provenance

/-!
# Alignments in documents

The written form of anchors, ranges, classes and diagnostics, and of the result
of an alignment. A diagnostic is read as a whole, since its code may follow the
fields that the code decides about.
-/

namespace Retrace

namespace Side

/-- Both sides. -/
def all : List Side := [.source, .output]

/-- The written form of a side. -/
def toJson (side : Side) : Json := .str side.name

/-- Reads a side. -/
def ofJson? (value : Json) : Option Side := value.asOneOf? all name

end Side

/-- The written form of a character. -/
def charToJson (c : Char) : Json := .str (String.singleton c)

namespace Substitution

/-- The written form of a substitution. -/
def toJson (s : Substitution) : Json :=
  .obj [("sourceChar", .orNull charToJson s.sourceChar),
    ("outputChar", .orNull charToJson s.outputChar)]

/-- Reads a substitution. -/
def ofJson? (value : Json) : Option Substitution := do
  let fields ← value.asFields?
  return ⟨← Json.optional? fields "sourceChar" Json.asChar?,
    ← Json.optional? fields "outputChar" Json.asChar?⟩

end Substitution

namespace Anchor

/-- The written form of an anchor. -/
def toJson (a : Anchor) : Json :=
  .obj ([("source", .nat a.source), ("output", .nat a.output)] ++
    Json.fieldIfSome "substitution" Substitution.toJson a.substitution)

/-- Reads an anchor. -/
def ofJson? (value : Json) : Option Anchor := do
  let fields ← value.asFields?
  return ⟨← Json.required? fields "source" Json.asOffset?,
    ← Json.required? fields "output" Json.asOffset?,
    ← Json.optional? fields "substitution" Substitution.ofJson?⟩

end Anchor

namespace Range

/-- The written form of a range. -/
def toJson (r : Range) : Json :=
  .obj ([("source", r.source.toJson), ("output", r.output.toJson), ("node", r.node.toJson),
    ("outputKind", r.outputKind.toJson), ("anchors", .list Anchor.toJson r.anchors),
    ("predecessors", .list Predecessor.toJson r.predecessors)] ++ Step.fieldOf r.steps)

/-- Reads a range. -/
def ofJson? (value : Json) : Option Range := do
  let fields ← value.asFields?
  return {
    source := ← Json.required? fields "source" Span.ofJson?
    output := ← Json.required? fields "output" Span.ofJson?
    node := ← Json.node? fields "node"
    outputKind := ← Json.required? fields "outputKind" Kind.ofJson?
    anchors := ← Json.defaulted? fields "anchors" [] (Json.asList? Anchor.ofJson?)
    predecessors := ← Predecessor.listOf? fields
    steps := ← Step.listOf? fields }

end Range

namespace RangeSet

/-- The written form of a set of ranges. -/
def toJson (s : RangeSet) : Json := .list Range.toJson s.ranges

/-- Reads a set of ranges as it is, without looking for conflicts. -/
def ofJson? (value : Json) : Option RangeSet := (value.asList? Range.ofJson?).map mk

end RangeSet

namespace Classes

/-- The written form of the classes. -/
def toJson (c : Classes) : Json :=
  .obj [("carried", .list Span.toJson c.carried), ("substituted", .list Span.toJson c.substituted),
    ("inserted", .list Span.toJson c.inserted), ("removed", .list Span.toJson c.removed)]

/-- Reads the classes. -/
def ofJson? (value : Json) : Option Classes := do
  let fields ← value.asFields?
  return ⟨← Json.required? fields "carried" (Json.asList? Span.ofJson?),
    ← Json.required? fields "substituted" (Json.asList? Span.ofJson?),
    ← Json.required? fields "inserted" (Json.asList? Span.ofJson?),
    ← Json.required? fields "removed" (Json.asList? Span.ofJson?)⟩

end Classes

namespace Severity

/-- The written form of a severity. -/
def toJson (s : Severity) : Json := .str s.name

/-- Reads a severity. -/
def ofJson? (value : Json) : Option Severity := value.asOneOf? all name

end Severity

namespace DiagnosticCode

/-- Every code, in the order of declaration. -/
def all : List DiagnosticCode := [.unsupportedPairing, .ambiguousStructure]

/-- Reads a code, by its name or its number. -/
def ofTag? : Json → Option DiagnosticCode
  | .str written => all.find? fun code => code.name == written
  | .int n => if 0 ≤ n then all[n.toNat]? else none
  | _ => none

end DiagnosticCode

namespace Finding

/-- The written form of a finding, as fields of a diagnostic. -/
def toFields : Finding → List (String × Json)
  | .unsupportedPairing outputKind sourceKinds =>
    [("code", .str DiagnosticCode.unsupportedPairing.name), ("outputKind", outputKind.toJson),
      ("sourceKinds", .list Kind.toJson sourceKinds)]
  | .ambiguousStructure reason =>
    [("code", .str DiagnosticCode.ambiguousStructure.name), ("reason", .str reason)]

/-- Reads a finding. -/
def ofFields? (fields : List (String × Json)) : Option Finding := do
  match ← Json.required? fields "code" DiagnosticCode.ofTag? with
  | .unsupportedPairing =>
    return .unsupportedPairing (← Json.required? fields "outputKind" Kind.ofInnerJson?)
      (← Json.required? fields "sourceKinds" (Json.asList? Kind.ofInnerJson?))
  | .ambiguousStructure => return .ambiguousStructure (← Json.text? fields "reason")

end Finding

namespace Diagnostic

/-- The written form of a diagnostic. -/
def toJson (d : Diagnostic) : Json :=
  .obj (d.finding.toFields ++
    [("severity", d.severity.toJson), ("node", d.node.toJson),
      ("outputSpan", d.outputSpan.toJson)] ++
    Json.fieldIfSome "sourceSpan" Span.toJson d.sourceSpan)

/-- Reads a diagnostic. -/
def ofJson? (value : Json) : Option Diagnostic := do
  let fields ← value.asWholeFields?
  return {
    finding := ← Finding.ofFields? fields
    severity := ← Json.required? fields "severity" Severity.ofJson?
    node := ← Json.node? fields "node"
    outputSpan := ← Json.required? fields "outputSpan" Span.ofJson?
    sourceSpan := ← Json.optional? fields "sourceSpan" Span.ofJson? }

end Diagnostic

namespace SynthesizedNode

/-- The written form of a synthesized node. -/
def toJson (n : SynthesizedNode) : Json :=
  .obj [("node", n.node.toJson), ("kind", n.kind.toJson), ("output", n.output.toJson),
    ("steps", .list Step.toJson n.steps)]

/-- Reads a synthesized node. -/
def ofJson? (value : Json) : Option SynthesizedNode := do
  let fields ← value.asFields?
  return ⟨← Json.node? fields "node", ← Json.required? fields "kind" Kind.ofJson?,
    ← Json.required? fields "output" Span.ofJson?, ← Step.listOf? fields⟩

end SynthesizedNode

namespace Alignment

/-- The written form of an alignment, as the fields of an object. -/
def toFields (a : Alignment) : List (String × Json) :=
  [("ranges", a.ranges.toJson), ("classes", a.classes.toJson),
    ("diagnostics", .list Diagnostic.toJson a.diagnostics),
    ("synthesized", .list SynthesizedNode.toJson a.synthesized)]

/-- The written form of an alignment. -/
def toJson (a : Alignment) : Json := .obj a.toFields

/-- Reads an alignment. -/
def ofJson? (value : Json) : Option Alignment := do
  let fields ← value.asFields?
  return {
    ranges := ← Json.required? fields "ranges" RangeSet.ofJson?
    classes := ← Json.required? fields "classes" Classes.ofJson?
    diagnostics := ← Json.defaulted? fields "diagnostics" [] (Json.asList? Diagnostic.ofJson?)
    synthesized := ←
      Json.defaulted? fields "synthesized" [] (Json.asList? SynthesizedNode.ofJson?) }

end Alignment

end Retrace
