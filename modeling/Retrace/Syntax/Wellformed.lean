import Retrace.Syntax.Tree

/-!
# Well-formed trees

`Tree.validate` checks an arena against the length of its text: the root exists,
no span ends past the text, and every child exists, is not the root, belongs to
one parent only and lies within the span of that parent. Nodes that cannot be
reached from the root are checked like the others.

The checks are made in the order of the arena and the first that fails is
reported, so the parents seen so far are part of the answer of each step.
-/

namespace Retrace

/-- What can be wrong with an arena. -/
inductive TreeFault where
  | rootMissing (root : NodeId)
  | rootTooLong (span : Span) (size : Nat)
  | nodeTooLong (kind : Kind) (id : NodeId) (span : Span) (size : Nat)
  | childMissing (kind : Kind) (id child : NodeId)
  | rootAsChild (root parent : NodeId)
  | twoParents (child first second : NodeId)
  | childEscapes (kind : Kind) (child : NodeId) (span : Span) (parent : NodeId) (bound : Span)
deriving DecidableEq

/-- The wording of a fault. -/
def TreeFault.message : TreeFault → String
  | .rootMissing root => "root " ++ root.text ++ " is missing"
  | .rootTooLong span size =>
    "root span " ++ span.text ++ " exceeds text length " ++ toString size
  | .nodeTooLong kind id span size =>
    kind.name ++ " " ++ id.text ++ " span " ++ span.text ++ " exceeds text length " ++
      toString size
  | .childMissing kind id child =>
    kind.name ++ " " ++ id.text ++ " references missing child " ++ child.text
  | .rootAsChild root parent =>
    "root " ++ root.text ++ " is referenced as a child of " ++ parent.text
  | .twoParents child first second =>
    child.text ++ " has two parents: " ++ first.text ++ " and " ++ second.text
  | .childEscapes kind child span parent bound =>
    kind.name ++ " " ++ child.text ++ " span " ++ span.text ++ " escapes parent " ++
      parent.text ++ " " ++ bound.text

namespace Tree

/-- The parents found so far, as pairs of a child and its parent. -/
abbrev Parents := List (NodeId × NodeId)

/-- Checks one child of a node and records its parent. -/
def checkChild (t : Tree) (id : NodeId) (n : Node) (parents : Parents) (child : NodeId) :
    Except TreeFault Parents :=
  match t.node? child with
  | none => .error (.childMissing n.kind id child)
  | some c =>
    if child = t.root then .error (.rootAsChild child id)
    else
      match parents.lookup child with
      | some first => .error (.twoParents child first id)
      | none =>
        if n.span.encloses c.span then .ok ((child, id) :: parents)
        else .error (.childEscapes c.kind child c.span id n.span)

/-- Checks the children of a node one after the other. -/
def checkChildren (t : Tree) (id : NodeId) (n : Node) :
    Parents → List NodeId → Except TreeFault Parents
  | parents, [] => .ok parents
  | parents, child :: rest =>
    match t.checkChild id n parents child with
    | .error fault => .error fault
    | .ok parents => checkChildren t id n parents rest

/-- Checks nodes one after the other. -/
def checkNodes (t : Tree) (size : Nat) : Parents → List NodeId → Except TreeFault Parents
  | parents, [] => .ok parents
  | parents, id :: rest =>
    match t.node? id with
    | none => checkNodes t size parents rest
    | some n =>
      if size < n.span.stop then .error (.nodeTooLong n.kind id n.span size)
      else
        match t.checkChildren id n parents n.children with
        | .error fault => .error fault
        | .ok parents => checkNodes t size parents rest

/-- Checks an arena against a text of `size` bytes. -/
def validate (t : Tree) (size : Nat) : Except TreeFault Unit :=
  match t.node? t.root with
  | none => .error (.rootMissing t.root)
  | some root =>
    if size < root.span.stop then .error (.rootTooLong root.span size)
    else
      match t.checkNodes size [] t.ids with
      | .error fault => .error fault
      | .ok _ => .ok ()

end Tree

end Retrace
