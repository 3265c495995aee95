import Retrace.Syntax.Tree
import Retrace.Text.Search

/-!
# Sites

A site is a node together with the text and the tree it stands in. It answers
where the tokens of the node are, from the spans of its children: a token is
looked for in a window that ends where a child begins, so that nothing inside a
child is taken for it. If a child stands in parentheses, they count as part of
the child.
-/

namespace Retrace

/-- A node in its text and tree. -/
structure Site where
  text : Text
  tree : Tree
  node : Node

namespace Site

/-- Where the node starts. -/
def start (s : Site) : Nat := s.node.span.start

/-- Where the node ends. -/
def stop (s : Site) : Nat := s.node.span.stop

/-- The span of a child with the parentheses around it. -/
def outer? (s : Site) (child : NodeId) : Option Span := do
  let n ← s.tree.node? child
  if n.parenthesized then
    let opening ← s.text.rfindBetween? s.start n.span.start "("
    let closing ← s.text.findBetween? n.span.stop s.stop ")"
    Span.between? opening (closing + 1)
  else some n.span

/-- Where a child starts, with its parentheses. -/
def outerStart? (s : Site) (child : NodeId) : Option Nat := (s.outer? child).map (·.start)

/-- Where a child ends, with its parentheses. -/
def outerStop? (s : Site) (child : NodeId) : Option Nat := (s.outer? child).map (·.stop)

/-- The first place of a token between two offsets. -/
def find? (s : Site) (start stop : Nat) (token : String) : Option Nat :=
  s.text.findBetween? start stop token

/-- The last place of a token between two offsets. -/
def rfind? (s : Site) (start stop : Nat) (token : String) : Option Nat :=
  s.text.rfindBetween? start stop token

/-- The first place of a token between two children. -/
def between? (s : Site) (left right : NodeId) (token : String) : Option Nat := do
  s.find? (← s.outerStop? left) (← s.outerStart? right) token

/-- The first place of a token before a child. -/
def before? (s : Site) (child : NodeId) (token : String) : Option Nat := do
  s.find? s.start (← s.outerStart? child) token

/-- The last place of a token before a child. -/
def lastBefore? (s : Site) (child : NodeId) (token : String) : Option Nat := do
  s.rfind? s.start (← s.outerStart? child) token

/-- The first place of a token after a child. -/
def after? (s : Site) (child : NodeId) (token : String) : Option Nat := do
  s.find? (← s.outerStop? child) s.stop token

/-- The last place of a token after a child. -/
def lastAfter? (s : Site) (child : NodeId) (token : String) : Option Nat := do
  s.rfind? (← s.outerStop? child) s.stop token

/-- The place of a token that the node starts with. -/
def leading? (s : Site) (token : String) : Option Nat :=
  if s.text.startsWithAt s.start token then some s.start else none

/-- The place of a token that the node ends with. -/
def trailing? (s : Site) (token : String) : Option Nat :=
  if s.text.endsWithAt s.stop token then some (s.stop - byteSize token.toList) else none

/-- The text of the node. -/
def slice? (s : Site) : Option (List Char) := s.text.slice? s.node.span

/-- The character at an offset of the text. -/
def charAt? (s : Site) (offset : Nat) : Option Char := s.text.charAt? offset

end Site

end Retrace
