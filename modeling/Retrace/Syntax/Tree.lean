import Retrace.Span
import Retrace.Syntax.Field

/-!
# Syntax trees

A tree is an arena: nodes refer to their children by their place in one array.
Nothing in the type rules out dangling references, shared children or cycles,
so the walk from the root keeps the list of nodes it has not met yet. It ends
for every arena, because each step removes a node from that list or an entry
from its stack, and it lists every node at most once.
-/

namespace Retrace

/-- A node of a syntax tree. Its span leaves out the parentheses around it. -/
structure Node where
  span : Span
  parenthesized : Bool
  construct : Construct

namespace Node

/-- The kind of the construct. -/
def kind (n : Node) : Kind := n.construct.kind

/-- The children, in the order in which they stand in the text. -/
def children (n : Node) : List NodeId := n.construct.children

end Node

/-- An arena of nodes and the place of the root in it. -/
structure Tree where
  root : NodeId
  nodes : Array Node

namespace Tree

/-- The node at a place, if there is one. -/
def node? (t : Tree) (id : NodeId) : Option Node := t.nodes[id.index]?

/-- Every place of the arena. -/
def ids (t : Tree) : List NodeId := (List.range t.nodes.size).map NodeId.mk

/-- The children of a node; none if there is no such node. -/
def childrenOf (t : Tree) (id : NodeId) : List NodeId :=
  ((t.node? id).map Node.children).getD []

/-- Visits the nodes on a stack, and their children, as long as they are still
`unmet`. A node is listed before its children, and these in their order. -/
def walkFrom (t : Tree) (unmet : List NodeId) (stack : List NodeId) : List NodeId :=
  match stack with
  | [] => []
  | id :: rest =>
    if id ∈ unmet then id :: walkFrom t (unmet.erase id) (t.childrenOf id ++ rest)
    else walkFrom t unmet rest
termination_by (unmet.length, stack.length)
decreasing_by
  · rename_i hMem
    have hLength := List.length_erase_of_mem hMem
    have hPos := List.length_pos_of_mem hMem
    exact Prod.Lex.left _ _ (by omega)
  · exact Prod.Lex.right _ (by simp)

/-- The nodes that can be reached from the root, each once, every node before its
children. -/
def preorder (t : Tree) : List NodeId := t.walkFrom t.ids [t.root]

/-- The first node of a list of nodes that has `child` among its children. -/
def parentIn? (t : Tree) (walk : List NodeId) (child : NodeId) : Option NodeId :=
  walk.find? fun id => decide (child ∈ t.childrenOf id)

/-- The parent of every node of the arena: the first node of the walk that has it
among its children. -/
def parents (t : Tree) : List (Option NodeId) := t.ids.map (t.parentIn? t.preorder)

/-- The node has the given kind and span. -/
def matches? (t : Tree) (kind : Kind) (span : Span) (id : NodeId) : Bool :=
  (t.node? id).any fun n => decide (n.kind = kind) && decide (n.span = span)

/-- The first node of a list of nodes with the given kind and span. -/
def locateIn? (t : Tree) (walk : List NodeId) (kind : Kind) (span : Span) : Option NodeId :=
  walk.find? (t.matches? kind span)

/-- The first node of the walk with the given kind and span. If a node and its
only child share both, this is the outer one. -/
def locate? (t : Tree) (kind : Kind) (span : Span) : Option NodeId :=
  t.locateIn? t.preorder kind span

/-- The order of the span index: by kind, then by start, then by end. -/
def indexLE (a b : Kind × Span × NodeId) : Bool :=
  decide (a.1.index < b.1.index) || decide (a.1.index = b.1.index) &&
    (decide (a.2.1.start < b.2.1.start) ||
      decide (a.2.1.start = b.2.1.start) && decide (a.2.1.stop ≤ b.2.1.stop))

/-- Every kind and span that occurs in the walk, with the node `locate?` finds
for it. -/
def spanIndex (t : Tree) : List (Kind × Span × NodeId) :=
  let walk := t.preorder
  let entries := walk.filterMap fun id => do
    let n ← t.node? id
    if t.locateIn? walk n.kind n.span = some id then some (n.kind, n.span, id) else none
  entries.mergeSort indexLE

end Tree

end Retrace
