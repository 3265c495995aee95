import Retrace.Syntax.Tree

/-!
# The walk of a tree

The walk from the root lists exactly the nodes of the arena that can be reached
from the root (`mem_preorder_iff`), each once (`nodup_preorder`). The arena may
have dangling references, shared children and cycles.

That nothing is missed rests on two facts about a walk that starts from any
stack: it meets what is on the stack, and it meets the children of what it meets,
as far as they are still unmet. A node that was not on the stack at the start was
put there with its siblings, so it comes behind a node that lists it as a child
(`eq_root_or_exists_parent`).
-/

namespace Retrace.Tree

/-- A path of references leads from the root to the node. The node itself need not
be in the arena. -/
inductive Reachable (t : Tree) : NodeId → Prop where
  | root : Reachable t t.root
  | child {id child : NodeId} (h : Reachable t id) (hChild : child ∈ t.childrenOf id) :
    Reachable t child

theorem mem_ids_iff {t : Tree} {id : NodeId} : id ∈ t.ids ↔ ∃ n, t.node? id = some n := by
  unfold ids node?
  rw [List.mem_map]
  constructor
  · rintro ⟨i, hi, rfl⟩
    rw [List.mem_range] at hi
    exact ⟨_, Array.getElem?_eq_getElem hi⟩
  · rintro ⟨n, hNode⟩
    obtain ⟨hIndex, -⟩ := Array.getElem?_eq_some_iff.mp hNode
    exact ⟨id.index, List.mem_range.mpr hIndex, rfl⟩

theorem nodup_ids (t : Tree) : t.ids.Nodup := by
  unfold ids
  refine List.Pairwise.map NodeId.mk (fun i j hNe hEq => ?_) List.nodup_range
  exact hNe (congrArg NodeId.index hEq)

theorem mem_childrenOf_iff {t : Tree} {id child : NodeId} :
    child ∈ t.childrenOf id ↔ ∃ n, t.node? id = some n ∧ child ∈ n.children := by
  unfold childrenOf
  cases t.node? id <;> simp

/-! ## Walks from any stack -/

theorem mem_unmet_of_mem_walkFrom {t : Tree} {unmet stack : List NodeId} {x : NodeId}
    (h : x ∈ t.walkFrom unmet stack) : x ∈ unmet := by
  fun_induction walkFrom t unmet stack with
  | case1 => simp at h
  | case2 unmet id rest hMem ih =>
    rcases List.mem_cons.mp h with rfl | h
    · exact hMem
    · exact List.mem_of_mem_erase (ih h)
  | case3 unmet id rest hMet ih => exact ih h

theorem nodup_walkFrom {t : Tree} {unmet stack : List NodeId} (hUnmet : unmet.Nodup) :
    (t.walkFrom unmet stack).Nodup := by
  fun_induction walkFrom t unmet stack with
  | case1 => exact List.nodup_nil
  | case2 unmet id rest hMem ih =>
    refine List.nodup_cons.mpr ⟨fun h => ?_, ih (hUnmet.erase id)⟩
    exact hUnmet.not_mem_erase (mem_unmet_of_mem_walkFrom h)
  | case3 unmet id rest hMet ih => exact ih hUnmet

/-- A walk does not leave a set of nodes that is closed under references. -/
theorem walkFrom_closed {t : Tree} {P : NodeId → Prop}
    (hClosed : ∀ id, P id → ∀ child ∈ t.childrenOf id, P child) {unmet stack : List NodeId}
    (hStack : ∀ x ∈ stack, P x) : ∀ x ∈ t.walkFrom unmet stack, P x := by
  fun_induction walkFrom t unmet stack with
  | case1 => simp
  | case2 unmet id rest hMem ih =>
    obtain ⟨hId, hRest⟩ := List.forall_mem_cons.mp hStack
    refine List.forall_mem_cons.mpr ⟨hId, ih ?_⟩
    exact List.forall_mem_append.mpr ⟨hClosed id hId, hRest⟩
  | case3 unmet id rest hMet ih => exact ih (List.forall_mem_cons.mp hStack).2

theorem mem_walkFrom_of_mem_stack {t : Tree} {unmet stack : List NodeId} {x : NodeId}
    (hStack : x ∈ stack) (hUnmet : x ∈ unmet) : x ∈ t.walkFrom unmet stack := by
  fun_induction walkFrom t unmet stack with
  | case1 => simp at hStack
  | case2 unmet id rest hMem ih =>
    by_cases hEq : x = id
    · simp [hEq]
    · refine List.mem_cons_of_mem id (ih ?_ ((List.mem_erase_of_ne hEq).mpr hUnmet))
      have hRest := (List.mem_cons.mp hStack).resolve_left hEq
      exact List.mem_append_right _ hRest
  | case3 unmet id rest hMet ih =>
    rcases List.mem_cons.mp hStack with rfl | hRest
    · exact absurd hUnmet hMet
    · exact ih hRest hUnmet

theorem mem_walkFrom_of_mem_children {t : Tree} {unmet stack : List NodeId} {x child : NodeId}
    (h : x ∈ t.walkFrom unmet stack) (hChild : child ∈ t.childrenOf x) (hUnmet : child ∈ unmet) :
    child ∈ t.walkFrom unmet stack := by
  fun_induction walkFrom t unmet stack with
  | case1 => simp at h
  | case2 unmet id rest hMem ih =>
    by_cases hEq : child = id
    · simp [hEq]
    · have hLeft : child ∈ unmet.erase id := (List.mem_erase_of_ne hEq).mpr hUnmet
      refine List.mem_cons_of_mem id ?_
      rcases List.mem_cons.mp h with rfl | hLater
      · exact mem_walkFrom_of_mem_stack (List.mem_append_left _ hChild) hLeft
      · exact ih hLater hLeft
  | case3 unmet id rest hMet ih => exact ih h hUnmet

/-- A node of the walk was on the stack, or an earlier node of the walk has it among
its children. -/
theorem mem_stack_or_exists_parent {t : Tree} {unmet stack front back : List NodeId} {x : NodeId}
    (h : t.walkFrom unmet stack = front ++ x :: back) :
    x ∈ stack ∨ ∃ parent ∈ front, x ∈ t.childrenOf parent := by
  fun_induction walkFrom t unmet stack generalizing front with
  | case1 => simp at h
  | case2 unmet id rest hMem ih =>
    cases front with
    | nil =>
      obtain ⟨rfl, -⟩ := List.cons.inj h
      exact Or.inl List.mem_cons_self
    | cons first front =>
      obtain ⟨rfl, hTail⟩ := List.cons.inj h
      rcases ih hTail with hStack | ⟨parent, hParent, hChild⟩
      · rcases List.mem_append.mp hStack with hChild | hRest
        · exact Or.inr ⟨id, List.mem_cons_self, hChild⟩
        · exact Or.inl (List.mem_cons_of_mem _ hRest)
      · exact Or.inr ⟨parent, List.mem_cons_of_mem _ hParent, hChild⟩
  | case3 unmet id rest hMet ih =>
    exact (ih h).imp_left (List.mem_cons_of_mem _)

/-! ## The walk from the root -/

theorem nodup_preorder (t : Tree) : t.preorder.Nodup := nodup_walkFrom t.nodup_ids

/-- The walk lists the nodes that can be reached and are there. -/
theorem mem_preorder_iff {t : Tree} {id : NodeId} :
    id ∈ t.preorder ↔ t.Reachable id ∧ ∃ n, t.node? id = some n := by
  constructor
  · intro h
    refine ⟨?_, mem_ids_iff.mp (mem_unmet_of_mem_walkFrom h)⟩
    refine walkFrom_closed (fun id hId child hChild => hId.child hChild) ?_ id h
    simpa using Reachable.root
  · rintro ⟨hReachable, hNode⟩
    induction hReachable with
    | root => exact mem_walkFrom_of_mem_stack (List.mem_singleton_self _) (mem_ids_iff.mpr hNode)
    | @child id child _ hChild ih =>
      obtain ⟨n, hParent, -⟩ := mem_childrenOf_iff.mp hChild
      exact mem_walkFrom_of_mem_children (ih ⟨n, hParent⟩) hChild (mem_ids_iff.mpr hNode)

theorem eq_root_or_exists_parent {t : Tree} {front back : List NodeId} {id : NodeId}
    (h : t.preorder = front ++ id :: back) :
    id = t.root ∨ ∃ parent ∈ front, id ∈ t.childrenOf parent :=
  (mem_stack_or_exists_parent h).imp_left List.mem_singleton.mp

theorem preorder_eq_root_cons {t : Tree} (h : t.preorder ≠ []) :
    ∃ rest, t.preorder = t.root :: rest := by
  by_cases hRoot : t.root ∈ t.ids
  · exact ⟨_, by rw [preorder, walkFrom, if_pos hRoot]⟩
  · rw [preorder, walkFrom, if_neg hRoot, walkFrom] at h
    exact absurd rfl h

/-- A node that is not the first one of the walk comes behind a node that lists it. -/
theorem exists_parent_of_front {t : Tree} {front back : List NodeId} {id : NodeId}
    (h : t.preorder = front ++ id :: back) (hFront : front ≠ []) :
    ∃ parent ∈ front, id ∈ t.childrenOf parent := by
  refine (eq_root_or_exists_parent h).resolve_left ?_
  rintro rfl
  obtain ⟨first, rest, rfl⟩ := List.exists_cons_of_ne_nil hFront
  obtain ⟨walk, hWalk⟩ := t.preorder_eq_root_cons (by simp [h])
  have hFirst : t.root = first := (List.cons.inj (hWalk.symm.trans h)).1
  have hNodup := t.nodup_preorder
  rw [h, hFirst] at hNodup
  simp at hNodup

/-! ## The order of the walk -/

/-- The walk lists the first node before the second one. -/
def Precedes (t : Tree) (first second : NodeId) : Prop :=
  ∃ front back, t.preorder = front ++ second :: back ∧ first ∈ front

/-- A node stands in one place of the walk only. -/
theorem front_eq_take {t : Tree} {front back : List NodeId} {id : NodeId}
    (h : t.preorder = front ++ id :: back) : front = t.preorder.take (t.preorder.idxOf id) := by
  have hNodup := t.nodup_preorder
  rw [h, List.nodup_append] at hNodup
  obtain ⟨-, -, hApart⟩ := hNodup
  have hFront : id ∉ front := fun hMem => hApart id hMem id List.mem_cons_self rfl
  rw [h, List.idxOf_append, if_neg hFront, List.idxOf_cons_self, Nat.zero_add, List.take_left]

theorem precedes_iff_mem_front {t : Tree} {front back : List NodeId} {first second : NodeId}
    (h : t.preorder = front ++ second :: back) : t.Precedes first second ↔ first ∈ front := by
  constructor
  · rintro ⟨other, rest, hOther, hFirst⟩
    rwa [front_eq_take hOther, ← front_eq_take h] at hFirst
  · intro hFirst
    exact ⟨front, back, h, hFirst⟩

theorem Precedes.of_mem_back {t : Tree} {front back : List NodeId} {first second : NodeId}
    (h : t.preorder = front ++ first :: back) (hSecond : second ∈ back) :
    t.Precedes first second := by
  obtain ⟨middle, rest, rfl⟩ := List.append_of_mem hSecond
  exact ⟨front ++ first :: middle, rest, by simpa using h, by simp⟩

theorem Precedes.trans {t : Tree} {a b c : NodeId} (hab : t.Precedes a b) (hbc : t.Precedes b c) :
    t.Precedes a c := by
  obtain ⟨front, back, hOrder, hMem⟩ := hbc
  obtain ⟨left, right, rfl⟩ := List.append_of_mem hMem
  have hSplit : t.preorder = left ++ b :: (right ++ c :: back) := by simpa using hOrder
  have hLeft : a ∈ left := (precedes_iff_mem_front hSplit).mp hab
  exact ⟨left ++ b :: right, back, hOrder, List.mem_append_left _ hLeft⟩

theorem Precedes.irrefl {t : Tree} {id : NodeId} : ¬ t.Precedes id id := by
  rintro ⟨front, back, hOrder, hMem⟩
  have hNodup := t.nodup_preorder
  rw [hOrder, List.nodup_append] at hNodup
  exact hNodup.2.2 id hMem id List.mem_cons_self rfl

end Retrace.Tree
