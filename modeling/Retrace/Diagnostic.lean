import Retrace.Options
import Retrace.Span
import Retrace.Syntax.Payload

/-!
# Diagnostics

Two things are reported: a pair of kinds that no rule relates, and a structure
that is not aligned because it can be read in more than one way. A token that is
not found only makes for fewer anchors and is not reported.
-/

namespace Retrace

/-- The name under which a diagnostic is configured. -/
inductive DiagnosticCode where
  | unsupportedPairing
  | ambiguousStructure
deriving DecidableEq

/-- The name of a code in documents and messages. -/
def DiagnosticCode.name : DiagnosticCode → String
  | .unsupportedPairing => "unsupported-pairing"
  | .ambiguousStructure => "ambiguous-structure"

/-- What is reported. -/
inductive Finding where
  | unsupportedPairing (outputKind : Kind) (sourceKinds : List Kind)
  | ambiguousStructure (reason : String)
deriving DecidableEq

namespace Finding

/-- The code of a finding. -/
def code : Finding → DiagnosticCode
  | .unsupportedPairing .. => .unsupportedPairing
  | .ambiguousStructure .. => .ambiguousStructure

/-- The wording of a finding. -/
def message : Finding → String
  | .unsupportedPairing outputKind sourceKinds =>
    "no rule maps " ++ String.intercalate " + " (sourceKinds.map Kind.name) ++ " to " ++
      outputKind.name
  | .ambiguousStructure reason => reason

end Finding

/-- The level that the options give to a code. -/
def Options.level (o : Options) : DiagnosticCode → Level
  | .unsupportedPairing => o.unsupportedPairing
  | .ambiguousStructure => o.ambiguousStructure

/-- A finding about one output node. -/
structure Diagnostic where
  finding : Finding
  severity : Severity
  node : NodeId
  outputSpan : Span
  sourceSpan : Option Span
deriving DecidableEq

namespace Diagnostic

/-- The code of the finding. -/
def code (d : Diagnostic) : DiagnosticCode := d.finding.code

/-- The wording of the finding. -/
def message (d : Diagnostic) : String := d.finding.message

/-- The line that is shown for a diagnostic. -/
def display (d : Diagnostic) : String :=
  d.severity.name ++ "[" ++ d.code.name ++ "] " ++ d.message ++ " at " ++ d.outputSpan.text

end Diagnostic

end Retrace
