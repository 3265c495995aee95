import Retrace.Syntax.Tree

/-!
# Building a tree node by node

Nodes are added at the end of the arena, children before the nodes that refer to
them, so that every addition can hand out the place of the new node.
-/

namespace Retrace

/-- The nodes added so far. -/
structure TreeBuilder where
  nodes : Array Node

namespace TreeBuilder

/-- No nodes yet. -/
def empty : TreeBuilder := ⟨#[]⟩

/-- Adds a node. -/
def push (b : TreeBuilder) (n : Node) : TreeBuilder × NodeId :=
  (⟨b.nodes.push n⟩, ⟨b.nodes.size⟩)

/-- Adds a construct that spans `start` to `stop`, or nothing at `start` if the
two are out of order. -/
def add (b : TreeBuilder) (start stop : Nat) (construct : Construct) : TreeBuilder × NodeId :=
  b.push ⟨⟨start, max start stop, Nat.le_max_left start stop⟩, false, construct⟩

/-- Marks a node as standing in parentheses. -/
def parenthesize (b : TreeBuilder) (id : NodeId) : TreeBuilder × NodeId :=
  (⟨b.nodes.modify id.index ({ · with parenthesized := true })⟩, id)

/-- Adds an identifier that spans its own name. A name that would run past the
last offset spans nothing. -/
def identifier (b : TreeBuilder) (start : Nat) (name : String) : TreeBuilder × NodeId :=
  let stop := start + name.utf8ByteSize
  b.add start (if stop < offsetBound then stop else start) ⟨.identifier, ⟨name⟩⟩

/-- The tree of the nodes added, with the given root. -/
def finish (b : TreeBuilder) (root : NodeId) : Tree := ⟨root, b.nodes⟩

end TreeBuilder

end Retrace
