import Mathlib.Data.List.Nodup
import Mathlib.Logic.Relation
import Retrace.Proofs.Preorder
import Retrace.Proofs.Table
import Retrace.Provenance.Zip

/-!
# Nodes that are paired by zipping

A pair of nodes is reached by the zip if a chain of pairs leads to it from the two
roots: each step goes to children in the same position, and the two nodes of every
pair on the way are of the same kind (`Zipped`). Every link of the zip is the link
of such a pair (`exists_zipped_of_get?`). Nothing is assumed of the two arenas.

Not every pair that is reached is linked, for an output node that is shared takes
the first source node it is met with. But a matching pair on the stack finds its
output node linked in the end (`exists_mem_zipFrom_of_mem_stack`), and so does each
matching pair of children below a pair that is linked
(`exists_mem_zipFrom_of_descends`). The other way round, a node other than the root is
linked because the node above it is (`exists_above_of_get?`).
-/

namespace Retrace.Table

/-- Two nodes of the same kind. -/
def Matching (source output : Tree) (pair : NodeId × NodeId) : Prop :=
  ∃ s o, source.node? pair.1 = some s ∧ output.node? pair.2 = some o ∧ s.kind = o.kind

/-- From a pair of nodes to a matching pair of their children in one position. -/
def Descends (source output : Tree) (pair next : NodeId × NodeId) : Prop :=
  Matching source output next ∧
    ∃ i : Nat, (source.childrenOf pair.1)[i]? = some next.1 ∧
      (output.childrenOf pair.2)[i]? = some next.2

/-- The pairs that are reached from the two roots. -/
def Zipped (source output : Tree) (pair : NodeId × NodeId) : Prop :=
  Matching source output (source.root, output.root) ∧
    Relation.ReflTransGen (Descends source output) (source.root, output.root) pair

theorem Zipped.matching {source output : Tree} {pair : NodeId × NodeId}
    (h : Zipped source output pair) : Matching source output pair := by
  obtain ⟨hRoot, hPath⟩ := h
  cases hPath with
  | refl => exact hRoot
  | tail _ hLast => exact hLast.1

/-- The output node of a pair is in the walk of its tree. -/
theorem Zipped.mem_preorder {source output : Tree} {pair : NodeId × NodeId}
    (h : Zipped source output pair) : pair.2 ∈ output.preorder := by
  obtain ⟨s, o, -, hNode, -⟩ := h.matching
  obtain ⟨-, hPath⟩ := h
  refine Tree.mem_preorder_iff.mpr ⟨?_, o, hNode⟩
  clear hNode
  induction hPath with
  | refl => exact .root
  | tail _ hStep ih =>
    obtain ⟨-, i, -, hOutput⟩ := hStep
    exact ih.child (List.mem_of_getElem? hOutput)

/-- The pairs that are linked lie in every set of pairs that has the matching pairs
of the stack and is closed under descent. -/
theorem zipFrom_closed {source output : Tree} (P : NodeId × NodeId → Prop)
    (hClosed : ∀ pair next, P pair → Descends source output pair next → P next)
    {unmet : List NodeId} {stack : List (NodeId × NodeId)}
    (hStack : ∀ pair ∈ stack, Matching source output pair → P pair) :
    ∀ e ∈ zipFrom source output unmet stack, ∃ id n, P (id, e.1) ∧
      source.node? id = some n ∧ e.2 = .carried n.kind n.span id := by
  fun_induction zipFrom source output unmet stack with
  | case1 => simp
  | case2 unmet sourceId outputId rest s o ho hs hKind hMem ih =>
    obtain ⟨hHead, hRest⟩ := List.forall_mem_cons.mp hStack
    have hPair : P (sourceId, outputId) := hHead ⟨s, o, hs, ho, hKind⟩
    refine List.forall_mem_cons.mpr ⟨⟨sourceId, s, hPair, hs, rfl⟩, ih ?_⟩
    refine List.forall_mem_append.mpr ⟨fun next hNext hMatching => ?_, hRest⟩
    obtain ⟨i, hi⟩ := List.mem_iff_getElem?.mp (List.mem_reverse.mp hNext)
    obtain ⟨hSource, hOutput⟩ := List.getElem?_zip_eq_some.mp hi
    refine hClosed _ next hPair ⟨hMatching, i, ?_, ?_⟩
    · simpa [Tree.childrenOf, hs] using hSource
    · simpa [Tree.childrenOf, ho] using hOutput
  | case3 unmet sourceId outputId rest s o ho hs hKind hMet ih =>
    exact ih (List.forall_mem_cons.mp hStack).2
  | case4 unmet sourceId outputId rest s o ho hs hKind ih =>
    exact ih (List.forall_mem_cons.mp hStack).2
  | case5 unmet sourceId outputId rest hNone ih =>
    exact ih (List.forall_mem_cons.mp hStack).2

theorem exists_mem_zipFrom_of_mem_stack {source output : Tree} {unmet : List NodeId}
    {stack : List (NodeId × NodeId)} {pair : NodeId × NodeId} (hPair : pair ∈ stack)
    (hMatching : Matching source output pair) (hUnmet : pair.2 ∈ unmet) :
    ∃ link, (pair.2, link) ∈ zipFrom source output unmet stack := by
  fun_induction zipFrom source output unmet stack with
  | case1 => simp at hPair
  | case2 unmet sourceId outputId rest s o ho hs hKind hMem ih =>
    by_cases hEq : pair.2 = outputId
    · rw [hEq]
      exact ⟨_, List.mem_cons_self⟩
    · have hRest : pair ∈ rest := by
        refine (List.mem_cons.mp hPair).resolve_left fun hHead => hEq ?_
        rw [hHead]
      obtain ⟨link, hLink⟩ :=
        ih (List.mem_append_right _ hRest) ((List.mem_erase_of_ne hEq).mpr hUnmet)
      exact ⟨link, List.mem_cons_of_mem _ hLink⟩
  | case3 unmet sourceId outputId rest s o ho hs hKind hMet ih =>
    refine ih ((List.mem_cons.mp hPair).resolve_left ?_) hUnmet
    rintro rfl
    exact hMet hUnmet
  | case4 unmet sourceId outputId rest s o ho hs hKind ih =>
    refine ih ((List.mem_cons.mp hPair).resolve_left ?_) hUnmet
    rintro rfl
    obtain ⟨s', o', hs', ho', hSame⟩ := hMatching
    rw [hs, Option.some.injEq] at hs'
    rw [ho, Option.some.injEq] at ho'
    subst hs' ho'
    exact hKind hSame
  | case5 unmet sourceId outputId rest hNone ih =>
    refine ih ((List.mem_cons.mp hPair).resolve_left ?_) hUnmet
    rintro rfl
    obtain ⟨s', o', hs', ho', -⟩ := hMatching
    exact hNone s' o' hs' ho'

theorem exists_mem_zipFrom_of_descends {source output : Tree} {unmet : List NodeId}
    {stack : List (NodeId × NodeId)} {pair next : NodeId × NodeId} {n : Node}
    (hStep : Descends source output pair next)
    (h : (pair.2, Link.carried n.kind n.span pair.1) ∈ zipFrom source output unmet stack)
    (hUnmet : next.2 ∈ unmet) :
    ∃ link, (next.2, link) ∈ zipFrom source output unmet stack := by
  fun_induction zipFrom source output unmet stack with
  | case1 => simp at h
  | case2 unmet sourceId outputId rest s o ho hs hKind hMem ih =>
    by_cases hEq : next.2 = outputId
    · rw [hEq]
      exact ⟨_, List.mem_cons_self⟩
    · have hLater : next.2 ∈ unmet.erase outputId := (List.mem_erase_of_ne hEq).mpr hUnmet
      rcases List.mem_cons.mp h with hHead | hTail
      · -- the children of the pair were put on the stack when it was linked
        simp only [Prod.mk.injEq, Link.carried, Link.mk.injEq, List.cons.injEq,
          Predecessor.mk.injEq, Option.some.injEq, and_true] at hHead
        obtain ⟨hOutput, -, -, hSource⟩ := hHead
        obtain ⟨hMatching, i, hLeft, hRight⟩ := hStep
        have hChild : next ∈ s.children.zip o.children := by
          refine List.mem_iff_getElem?.mpr ⟨i, List.getElem?_zip_eq_some.mpr ⟨?_, ?_⟩⟩
          · simpa [Tree.childrenOf, hSource, hs] using hLeft
          · simpa [Tree.childrenOf, hOutput, ho] using hRight
        obtain ⟨link, hLink⟩ := exists_mem_zipFrom_of_mem_stack
          (List.mem_append_left rest (List.mem_reverse.mpr hChild)) hMatching hLater
        exact ⟨link, List.mem_cons_of_mem _ hLink⟩
      · obtain ⟨link, hLink⟩ := ih hTail hLater
        exact ⟨link, List.mem_cons_of_mem _ hLink⟩
  | case3 unmet sourceId outputId rest s o ho hs hKind hMet ih => exact ih h hUnmet
  | case4 unmet sourceId outputId rest s o ho hs hKind ih => exact ih h hUnmet
  | case5 unmet sourceId outputId rest hNone ih => exact ih h hUnmet

/-- A pair that is linked stood on the stack from the start, or was put there when
the pair above it was linked. -/
theorem mem_stack_or_exists_above {source output : Tree} {unmet : List NodeId}
    {stack : List (NodeId × NodeId)} {e : NodeId × Link}
    (h : e ∈ zipFrom source output unmet stack) :
    ∃ id n, source.node? id = some n ∧ e.2 = .carried n.kind n.span id ∧
      Matching source output (id, e.1) ∧
      ((id, e.1) ∈ stack ∨ ∃ above s o, source.node? above.1 = some s ∧
        output.node? above.2 = some o ∧ s.kind = o.kind ∧
        (above.2, Link.carried s.kind s.span above.1) ∈ zipFrom source output unmet stack ∧
        Descends source output above (id, e.1)) := by
  fun_induction zipFrom source output unmet stack with
  | case1 => simp at h
  | case2 unmet sourceId outputId rest s o ho hs hKind hMem ih =>
    rcases List.mem_cons.mp h with rfl | hTail
    · exact ⟨sourceId, s, hs, rfl, ⟨s, o, hs, ho, hKind⟩, Or.inl List.mem_cons_self⟩
    · obtain ⟨id, n, hNode, hLink, hMatching, hFrom⟩ := ih hTail
      refine ⟨id, n, hNode, hLink, hMatching, ?_⟩
      rcases hFrom with hStack | ⟨above, u, v, hu, hv, hSame, hAboveLink, hStep⟩
      · rcases List.mem_append.mp hStack with hChild | hRest
        · obtain ⟨i, hi⟩ := List.mem_iff_getElem?.mp (List.mem_reverse.mp hChild)
          obtain ⟨hSource, hOutput⟩ := List.getElem?_zip_eq_some.mp hi
          refine Or.inr ⟨(sourceId, outputId), s, o, hs, ho, hKind, List.mem_cons_self, hMatching,
            i, ?_, ?_⟩
          · simpa [Tree.childrenOf, hs] using hSource
          · simpa [Tree.childrenOf, ho] using hOutput
        · exact Or.inl (List.mem_cons_of_mem _ hRest)
      · exact Or.inr ⟨above, u, v, hu, hv, hSame, List.mem_cons_of_mem _ hAboveLink, hStep⟩
  | case3 unmet sourceId outputId rest s o ho hs hKind hMet ih =>
    obtain ⟨id, n, hNode, hLink, hMatching, hFrom⟩ := ih h
    exact ⟨id, n, hNode, hLink, hMatching, hFrom.imp_left (List.mem_cons_of_mem _)⟩
  | case4 unmet sourceId outputId rest s o ho hs hKind ih =>
    obtain ⟨id, n, hNode, hLink, hMatching, hFrom⟩ := ih h
    exact ⟨id, n, hNode, hLink, hMatching, hFrom.imp_left (List.mem_cons_of_mem _)⟩
  | case5 unmet sourceId outputId rest hNone ih =>
    obtain ⟨id, n, hNode, hLink, hMatching, hFrom⟩ := ih h
    exact ⟨id, n, hNode, hLink, hMatching, hFrom.imp_left (List.mem_cons_of_mem _)⟩

theorem mem_unmet_of_mem_zipFrom {source output : Tree} {unmet : List NodeId}
    {stack : List (NodeId × NodeId)} {e : NodeId × Link}
    (h : e ∈ zipFrom source output unmet stack) : e.1 ∈ unmet := by
  fun_induction zipFrom source output unmet stack with
  | case1 => simp at h
  | case2 unmet sourceId outputId rest s o ho hs hKind hMem ih =>
    rcases List.mem_cons.mp h with rfl | hTail
    · exact hMem
    · exact List.mem_of_mem_erase (ih hTail)
  | case3 unmet sourceId outputId rest s o ho hs hKind hMet ih => exact ih h
  | case4 unmet sourceId outputId rest s o ho hs hKind ih => exact ih h
  | case5 unmet sourceId outputId rest hNone ih => exact ih h

theorem nodup_zipFrom {source output : Tree} {unmet : List NodeId}
    {stack : List (NodeId × NodeId)} (h : unmet.Nodup) :
    ((zipFrom source output unmet stack).map (·.1)).Nodup := by
  fun_induction zipFrom source output unmet stack with
  | case1 => exact List.nodup_nil
  | case2 unmet sourceId outputId rest s o ho hs hKind hMem ih =>
    refine List.nodup_cons.mpr ⟨fun hAgain => ?_, ih (h.erase outputId)⟩
    obtain ⟨e, he, hId⟩ := List.mem_map.mp hAgain
    have hLeft := mem_unmet_of_mem_zipFrom he
    exact ((List.Nodup.mem_erase_iff h).mp hLeft).1 hId
  | case3 unmet sourceId outputId rest s o ho hs hKind hMet ih => exact ih h
  | case4 unmet sourceId outputId rest s o ho hs hKind ih => exact ih h
  | case5 unmet sourceId outputId rest hNone ih => exact ih h

/-- The look-ups of the zip are the pairs that are linked. -/
theorem get?_zip_iff {source output : Tree} {id : NodeId} {link : Link} :
    (zip source output).get? id = some link ↔
      (id, link) ∈ zipFrom source output output.ids [(source.root, output.root)] := by
  refine ⟨mem_of_get?_ofList, fun h => ?_⟩
  obtain ⟨found, hFound⟩ := exists_get?_ofList h
  have hSame : (id, found) = (id, link) :=
    List.inj_on_of_nodup_map (nodup_zipFrom output.nodup_ids) (mem_of_get?_ofList hFound) h rfl
  rw [(Prod.mk.inj hSame).2] at hFound
  exact hFound

/-- A node other than the root is linked below the link of its parent, in the same
position. -/
theorem exists_above_of_get? {source output : Tree} {id : NodeId} {link : Link}
    (h : (zip source output).get? id = some link) (hRoot : id ≠ output.root) :
    ∃ sourceId n above s o, source.node? sourceId = some n ∧
      link = .carried n.kind n.span sourceId ∧ source.node? above.1 = some s ∧
      output.node? above.2 = some o ∧ s.kind = o.kind ∧
      (zip source output).get? above.2 = some (.carried s.kind s.span above.1) ∧
      Descends source output above (sourceId, id) := by
  obtain ⟨sourceId, n, hNode, hLink, -, hFrom⟩ := mem_stack_or_exists_above (get?_zip_iff.mp h)
  rcases hFrom with hStack | ⟨above, s, o, hs, ho, hKind, hAbove, hStep⟩
  · exact absurd (Prod.mk.inj (List.mem_singleton.mp hStack)).2 hRoot
  · exact ⟨sourceId, n, above, s, o, hNode, hLink, hs, ho, hKind, get?_zip_iff.mpr hAbove, hStep⟩

/-- Every link of the zip belongs to a pair that is reached from the roots, and
shows the source node of that pair. -/
theorem exists_zipped_of_get? {source output : Tree} {id : NodeId} {link : Link}
    (h : (zip source output).get? id = some link) :
    ∃ sourceId n, Zipped source output (sourceId, id) ∧ source.node? sourceId = some n ∧
      link = .carried n.kind n.span sourceId := by
  refine zipFrom_closed (Zipped source output) ?_ ?_ (id, link) (mem_of_get?_ofList h)
  · intro pair next hPair hStep
    exact ⟨hPair.1, hPair.2.tail hStep⟩
  · intro pair hPair hMatching
    rw [List.mem_singleton] at hPair
    subst hPair
    exact ⟨hMatching, .refl⟩

end Retrace.Table
