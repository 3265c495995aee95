import Retrace.Range.Set
import Retrace.Syntax.Tree
import Retrace.Text.Basic

/-!
# Classes of bytes

Every byte of the output is carried over, substituted or inserted, and bytes of
the source that nothing in the output comes from are removed. A byte belongs to
the last node of the walk that covers it, which in a well-formed tree is the
deepest one. An output byte is inserted if its owner has no range; a source byte
is removed if its owner is no predecessor of a range and no snapshot without a
node covers it.

A class is given as the list of its maximal runs.
-/

namespace Retrace

/-- What becomes of a byte. -/
inductive CharClass where
  | carried
  | substituted
  | inserted
  | removed
deriving DecidableEq

/-- The name of a class in documents and reports. -/
def CharClass.name : CharClass → String
  | .carried => "carried"
  | .substituted => "substituted"
  | .inserted => "inserted"
  | .removed => "removed"

/-- The span of a single byte. -/
def Span.byte (offset : Nat) : Span := ⟨offset, offset + 1, Nat.le_succ offset⟩

/-- Puts a byte in front of runs that start behind it. -/
def extendRuns (offset : Nat) : List Span → List Span
  | [] => [.byte offset]
  | run :: rest =>
    if run.start = offset + 1 then (Span.byte offset).cover run :: rest
    else .byte offset :: run :: rest

/-- The maximal runs of members in a list of bytes that starts at an offset. -/
def runsFrom : Nat → List Bool → List Span
  | _, [] => []
  | start, member :: rest =>
    let later := runsFrom (start + 1) rest
    if member then extendRuns start later else later

/-- The maximal runs of the offsets below `size` that satisfy a test. -/
def runs (size : Nat) (member : Nat → Bool) : List Span :=
  runsFrom 0 ((List.range size).map member)

/-- The nodes of the walk with their spans, the last one first. -/
def Tree.layers (t : Tree) : List (NodeId × Span) :=
  (t.preorder.filterMap fun id => (t.node? id).map fun n => (id, n.span)).reverse

/-- The topmost of some layers at a byte. -/
def ownerIn? (layers : List (NodeId × Span)) (offset : Nat) : Option NodeId :=
  (layers.find? fun layer => layer.2.contains offset).map (·.1)

/-- The node that a byte belongs to. -/
def Tree.ownerAt? (t : Tree) (offset : Nat) : Option NodeId := ownerIn? t.layers offset

namespace RangeSet

/-- Some range is that of the given node. -/
def hasNode (s : RangeSet) (id : NodeId) : Bool := s.ranges.any fun r => decide (r.node = id)

/-- The output spans of the characters that were put in place of others. -/
def replacements (s : RangeSet) : List Span :=
  s.ranges.flatMap fun r =>
    r.anchors.filterMap fun a =>
      a.replacement?.map fun c => ⟨a.output, a.output + c.utf8Size, Nat.le_add_right _ _⟩

/-- The source nodes that some range comes from. -/
def mappedNodes (s : RangeSet) : List NodeId :=
  s.ranges.flatMap fun r => r.predecessors.filterMap (·.node)

/-- The source spans that some range comes from without a node being known. -/
def unresolvedSpans (s : RangeSet) : List Span :=
  s.ranges.flatMap fun r => r.predecessors.filterMap fun p =>
    match p.node with
    | none => some p.span
    | some _ => none

end RangeSet

/-- The runs of each class. -/
structure Classes where
  carried : List Span
  substituted : List Span
  inserted : List Span
  removed : List Span
deriving DecidableEq

/-- The class of an output byte, given its owner and the replaced spans. -/
def outputClassOf (ranges : RangeSet) (replaced : List Span) (owner : Option NodeId)
    (offset : Nat) : CharClass :=
  if owner.any ranges.hasNode then
    if replaced.any (·.contains offset) then .substituted else .carried
  else .inserted

/-- A source byte is removed, given its owner, the mapped nodes and the spans of
unknown nodes. -/
def isRemovedOf (mapped : List NodeId) (unresolved : List Span) (owner : Option NodeId)
    (offset : Nat) : Bool :=
  !(unresolved.any (·.contains offset) || owner.any fun id => decide (id ∈ mapped))

namespace Classes

/-- The classes of the bytes of two texts of given sizes. -/
def ofRanges (source output : Tree) (sourceSize outputSize : Nat) (ranges : RangeSet) :
    Classes :=
  let outputLayers := output.layers
  let sourceLayers := source.layers
  let replaced := ranges.replacements
  let mapped := ranges.mappedNodes
  let unresolved := ranges.unresolvedSpans
  let classes := (List.range outputSize).map fun i =>
    outputClassOf ranges replaced (ownerIn? outputLayers i) i
  { carried := runsFrom 0 (classes.map fun c => decide (c = .carried))
    substituted := runsFrom 0 (classes.map fun c => decide (c = .substituted))
    inserted := runsFrom 0 (classes.map fun c => decide (c = .inserted))
    removed := runs sourceSize fun i =>
      isRemovedOf mapped unresolved (ownerIn? sourceLayers i) i }

/-- The class of an output byte according to the runs. -/
def outputClass? (c : Classes) (offset : Nat) : Option CharClass :=
  if c.carried.any (·.contains offset) then some .carried
  else if c.substituted.any (·.contains offset) then some .substituted
  else if c.inserted.any (·.contains offset) then some .inserted
  else none

/-- A source byte is removed according to the runs. -/
def isRemoved (c : Classes) (offset : Nat) : Bool := c.removed.any (·.contains offset)

end Classes

end Retrace
