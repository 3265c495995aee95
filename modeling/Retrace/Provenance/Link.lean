import Retrace.Span
import Retrace.Syntax.Payload

/-!
# Links

A link says where an output node came from: snapshots of the source nodes it was
derived from, and the steps that made it. A node without predecessors was made
up by its steps.
-/

namespace Retrace

/-- A source node as it was before any step changed it. -/
structure Predecessor where
  kind : Kind
  span : Span
  /-- The source node that the snapshot was taken of, as far as it is known. -/
  node : Option NodeId
deriving DecidableEq

/-- One transformation that replaced, inserted or moved a node. -/
structure Step where
  transformer : String
  location : Option String
deriving DecidableEq

/-- The provenance of one output node. -/
structure Link where
  predecessors : List Predecessor
  steps : List Step
deriving DecidableEq

namespace Link

/-- The link of a node that is carried over from one source node. -/
def carried (kind : Kind) (span : Span) (source : NodeId) : Link :=
  ⟨[⟨kind, span, some source⟩], []⟩

/-- The node was made up by its steps. -/
def isSynthesized (l : Link) : Bool := l.predecessors.isEmpty

/-- The predecessor, if there is exactly one. -/
def sole? (l : Link) : Option Predecessor :=
  match l.predecessors with
  | [only] => some only
  | _ => none

/-- The smallest source span that covers every predecessor. -/
def hull? (l : Link) : Option Span := Span.hull (l.predecessors.map (·.span))

end Link

end Retrace
