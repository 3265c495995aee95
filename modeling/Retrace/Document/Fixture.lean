import Retrace.Document.Provenance
import Retrace.Fault
import Retrace.Json.Reader

/-!
# Fixtures in documents

The written form of a fixture. Zipping is on unless a fixture says otherwise.
-/

namespace Retrace.Fixture

/-- The written form of a fixture. -/
def toJson (f : Fixture) : Json :=
  .obj ([("source", .str f.source), ("output", .str f.output),
    ("sourceTree", f.sourceTree.toJson), ("outputTree", f.outputTree.toJson)] ++
    Json.fieldIfSome "provenance" Table.toJson f.provenance ++ [("zip", .bool f.zip)])

/-- Reads a fixture. -/
def ofJson? (value : Json) : Option Fixture := do
  let fields ← value.asFields?
  return {
    source := ← Json.text? fields "source"
    output := ← Json.text? fields "output"
    sourceTree := ← Json.required? fields "sourceTree" Tree.ofJson?
    outputTree := ← Json.required? fields "outputTree" Tree.ofJson?
    provenance := ← Json.optional? fields "provenance" Table.ofJson?
    zip := ← Json.defaulted? fields "zip" true Json.asBool? }

/-- Reads a fixture and checks it. -/
def load (value : Option Json) : Except Fault Fixture :=
  match value.bind ofJson? with
  | none => .error .document
  | some f =>
    match f.validate with
    | .error fault => .error (.fixture fault)
    | .ok _ => .ok f

/-- Reads the text of a fixture and checks it. -/
def parse (text : String) : Except Fault Fixture := load (Json.parse? text)

end Retrace.Fixture
