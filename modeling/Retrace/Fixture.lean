import Retrace.Alignment.Basic
import Retrace.Provenance.Zip
import Retrace.Syntax.Wellformed

/-!
# Fixtures

A fixture holds everything an alignment needs: both texts, both trees and what
was recorded of the provenance. Nodes without a recorded link are linked by
zipping the two trees, unless that is switched off.
-/

namespace Retrace

/-- The input of an alignment as it is handed around. -/
structure Fixture where
  source : String
  output : String
  sourceTree : Tree
  outputTree : Tree
  provenance : Option Table
  zip : Bool

/-- What can be wrong with a fixture. -/
inductive FixtureFault where
  | tree (side : Side) (fault : TreeFault)
  | provenance (fault : ProvenanceFault)
deriving DecidableEq

namespace Fixture

/-- The links that count: those of the zip, with the recorded ones laid over
them, and the source nodes of snapshots looked up. -/
def table (f : Fixture) : Table :=
  let base := if f.zip then Table.zip f.sourceTree f.outputTree else Table.empty
  let merged :=
    match f.provenance with
    | some recorded => base.overlay recorded
    | none => base
  merged.resolve f.sourceTree

/-- Checks both trees against their texts, the source first, and the links against
both trees. -/
def validate (f : Fixture) : Except FixtureFault Unit :=
  match f.sourceTree.validate (Text.ofString f.source).size with
  | .error fault => .error (.tree .source fault)
  | .ok _ =>
    match f.outputTree.validate (Text.ofString f.output).size with
    | .error fault => .error (.tree .output fault)
    | .ok _ => (f.table.validate f.sourceTree f.outputTree).mapError .provenance

/-- The input of the alignment with a given table. -/
def inputWith (f : Fixture) (provenance : Table) : AlignmentInput :=
  { source := .ofString f.source
    output := .ofString f.output
    sourceTree := f.sourceTree
    outputTree := f.outputTree
    provenance }

/-- The alignment of a fixture. -/
def align (f : Fixture) (options : Options) : Alignment :=
  Alignment.align options (f.inputWith f.table)

/-- The pairing of two nodes of a fixture, whatever its links say. -/
def pairing? (f : Fixture) (source output : NodeId) : Option Pairing := do
  let s ← f.sourceTree.node? source
  let o ← f.outputTree.node? output
  return ⟨⟨.ofString f.source, f.sourceTree, s⟩, ⟨.ofString f.output, f.outputTree, o⟩⟩

end Fixture

end Retrace
