import Retrace.Provenance.Table

/-!
# Recording provenance

While a program transforms the source tree it reports what it does, under keys
of its own. A snapshot keeps a node as it was; a carried or recorded node names
the nodes it was made from. When the output tree is there and the keys of its
nodes are known, the record becomes a table.

The first snapshot of a key counts, however late it is taken, and a node's
predecessors are listed in the order in which they were first named.
-/

namespace Retrace

/-- The identity of a node in the program that transforms it. -/
abbrev HostKey := Nat

/-- What is known of a node that is being made. -/
structure Pending where
  predecessors : List HostKey
  steps : List Step

/-- Everything reported so far. Nodes being made are kept in the order of their
keys. -/
structure Recorder where
  snapshots : List (HostKey × Predecessor)
  pending : List (HostKey × Pending)

namespace Recorder

/-- Nothing reported yet. -/
def empty : Recorder := ⟨[], []⟩

/-- No node has been made yet. -/
def isEmpty (r : Recorder) : Bool := r.pending.isEmpty

/-- Keeps a node as it is now. The answer tells whether this is the first
snapshot of the key. -/
def snapshot (r : Recorder) (key : HostKey) (kind : Kind) (span : Span) : Recorder × Bool :=
  match r.snapshots.lookup key with
  | some _ => (r, false)
  | none => ({ r with snapshots := r.snapshots ++ [(key, ⟨kind, span, none⟩)] }, true)

/-- Names a predecessor, unless it is named already. -/
def addPredecessor (predecessors : List HostKey) (key : HostKey) : List HostKey :=
  if key ∈ predecessors then predecessors else predecessors ++ [key]

/-- Changes what is known of a node being made, which may be nothing so far. -/
def update (key : HostKey) (f : Pending → Pending) :
    List (HostKey × Pending) → List (HostKey × Pending)
  | [] => [(key, f ⟨[], []⟩)]
  | (k, p) :: rest =>
    if key < k then (key, f ⟨[], []⟩) :: (k, p) :: rest
    else if key = k then (k, f p) :: rest
    else (k, p) :: update key f rest

/-- A node is carried over from another without a step. -/
def carry (r : Recorder) (produced source : HostKey) : Recorder :=
  { r with
    pending := update produced
      (fun p => { p with predecessors := addPredecessor p.predecessors source }) r.pending }

/-- A step makes a node, from another one or from nothing. -/
def record (r : Recorder) (produced : HostKey) (predecessor : Option HostKey) (step : Step) :
    Recorder :=
  { r with
    pending := update produced
      (fun p =>
        { predecessors := predecessor.elim p.predecessors (addPredecessor p.predecessors)
          steps := p.steps ++ [step] })
      r.pending }

/-- The snapshot of a predecessor of a node being made. -/
def snapshotOf (r : Recorder) (produced key : HostKey) : Except ProvenanceFault Predecessor :=
  match r.snapshots.lookup key with
  | some p => .ok p
  | none => .error (.snapshotMissing key produced)

/-- Adds the links of the nodes that were placed in the output tree. -/
def links (r : Recorder) (place : HostKey → Option NodeId) :
    Table → List (HostKey × Pending) → Except ProvenanceFault Table
  | table, [] => .ok table
  | table, (produced, p) :: rest =>
    match place produced with
    | none => links r place table rest
    | some output =>
      match p.predecessors.mapM (r.snapshotOf produced) with
      | .error fault => .error fault
      | .ok predecessors => links r place (table.insert output ⟨predecessors, p.steps⟩) rest

/-- The table of the whole record. `place` gives the output node that a key
became; keys without one are left out. -/
def finish (r : Recorder) (source : Tree) (place : HostKey → Option NodeId) :
    Except ProvenanceFault Table :=
  match links r place Table.empty r.pending with
  | .error fault => .error fault
  | .ok table => .ok (table.resolve source)

end Recorder

end Retrace
