import Retrace.Proofs.Wellformed

/-!
# The arenas that the check accepts

The check goes through the arena once. It stops at the first fault, and at each child
it asks for the parents recorded up to there, so what it does at one node depends on
the nodes before. The set of arenas it accepts does not: five conditions on the array of
nodes describe it, and the array may be in any order.

The conditions are about all nodes of the array. A node that cannot be reached from the
root has to end within the text and to hold its children like any other, and a child
that it lists counts as listed.
-/

namespace Retrace.Tree

theorem exists_node?_iff {t : Tree} {id : NodeId} :
    (∃ n, t.node? id = some n) ↔ id.index < t.nodes.size := by
  constructor
  · intro h
    obtain ⟨n, hNode⟩ := h
    obtain ⟨hIndex, -⟩ := Array.getElem?_eq_some_iff.mp hNode
    exact hIndex
  · intro hIndex
    exact ⟨t.nodes[id.index], Array.getElem?_eq_getElem hIndex⟩

theorem mem_nodes_iff {t : Tree} {n : Node} : n ∈ t.nodes ↔ ∃ id, t.node? id = some n := by
  rw [Array.mem_iff_getElem?]
  constructor
  · intro h
    obtain ⟨i, hi⟩ := h
    exact ⟨⟨i⟩, hi⟩
  · intro h
    obtain ⟨id, hNode⟩ := h
    exact ⟨id.index, hNode⟩

/-- Going through the places of the arena or through its nodes, one meets the same lists
of children in the same order. -/
theorem flatMap_childrenOf_ids (t : Tree) :
    t.ids.flatMap t.childrenOf = t.nodes.toList.flatMap Node.children := by
  have hLists : t.ids.map t.childrenOf = t.nodes.toList.map Node.children := by
    unfold ids
    apply List.ext_getElem
    · simp
    · intro i hLeft hRight
      have hi : i < t.nodes.size := by simpa using hRight
      simp [childrenOf, node?, hi]
  rw [List.flatMap_def, List.flatMap_def, hLists]

/-- **What the check accepts.** The root is there. Every node ends within the text. Every
child that a node lists is there and is not the root. No child is listed twice, neither by
two nodes nor by one. Every child lies within the span of the node that lists it. -/
theorem validate_accepts_iff (t : Tree) (size : Nat) :
    t.validate size = .ok () ↔
      t.root.index < t.nodes.size ∧
      (∀ n ∈ t.nodes, n.span.stop ≤ size) ∧
      (∀ n ∈ t.nodes, ∀ child ∈ n.children, child.index < t.nodes.size ∧ child ≠ t.root) ∧
      (t.nodes.toList.flatMap Node.children).Nodup ∧
      ∀ n ∈ t.nodes, ∀ child ∈ n.children, ∀ c, t.node? child = some c →
        n.span.start ≤ c.span.start ∧ c.span.stop ≤ n.span.stop := by
  rw [validate_eq_ok_iff, ← flatMap_childrenOf_ids]
  constructor
  · intro h
    have hFits : ∀ n ∈ t.nodes, ∀ child ∈ n.children, t.Fits n child := by
      intro n hn
      obtain ⟨id, hNode⟩ := mem_nodes_iff.mp hn
      exact h.fits id n hNode
    refine ⟨exists_node?_iff.mp h.root, ?_, ?_, h.once, ?_⟩
    · intro n hn
      obtain ⟨id, hNode⟩ := mem_nodes_iff.mp hn
      exact h.inside id n hNode
    · intro n hn child hChild
      obtain ⟨c, hThere, hNotRoot, -⟩ := hFits n hn child hChild
      exact ⟨exists_node?_iff.mp ⟨c, hThere⟩, hNotRoot⟩
    · intro n hn child hChild c hThere
      obtain ⟨c', hThere', -, hEncloses⟩ := hFits n hn child hChild
      obtain rfl : c' = c := Option.some.inj (hThere'.symm.trans hThere)
      exact Span.encloses_iff.mp hEncloses
  · intro h
    obtain ⟨hRoot, hInside, hListed, hOnce, hWithin⟩ := h
    have hMem : ∀ id n, t.node? id = some n → n ∈ t.nodes :=
      fun id n hNode => mem_nodes_iff.mpr ⟨id, hNode⟩
    refine ⟨exists_node?_iff.mpr hRoot, ?_, ?_, hOnce⟩
    · intro id n hNode
      exact hInside n (hMem id n hNode)
    · intro id n hNode child hChild
      obtain ⟨hIndex, hNotRoot⟩ := hListed n (hMem id n hNode) child hChild
      obtain ⟨c, hThere⟩ := exists_node?_iff.mpr hIndex
      have hEnds := hWithin n (hMem id n hNode) child hChild c hThere
      exact ⟨c, hThere, hNotRoot, Span.encloses_iff.mpr hEnds⟩

/-- A sum that lists its first operand twice: the second mention is refused. -/
example :
    validate ⟨⟨0⟩, #[⟨.upTo 3, false, ⟨.binaryExpression, ⟨"+", ⟨1⟩, ⟨1⟩⟩⟩⟩,
      ⟨.upTo 1, false, ⟨.identifier, ⟨"a"⟩⟩⟩]⟩ 3 = .error (.twoParents ⟨1⟩ ⟨0⟩ ⟨0⟩) := by
  rfl

end Retrace.Tree
