import Mathlib.Data.List.Nodup
import Mathlib.Data.List.Pairwise
import Mathlib.Logic.Relation
import Retrace.Proofs.Preorder
import Retrace.Syntax.Wellformed

/-!
# What the check of a tree accepts

`Tree.WellFormed` says what an arena has to satisfy, without the order in which
the check goes through it: every node lies in its text and holds its children,
and no node is listed as a child twice. The check accepts exactly these arenas
(`validate_eq_ok_iff`).

The check carries the parents found so far. At every point these are the pairs of
a child and its parent for all children seen, the last one first, so a child that
is listed twice is found at its second mention.

In a well-formed arena a node holds not only its children but everything below it
(`WellFormed.encloses_of_leads`), and the walk lists it before all of that
(`WellFormed.precedes_of_leads`).
-/

namespace Retrace.Tree

/-- The child is a node other than the root and lies within the span of its
parent. -/
def Fits (t : Tree) (parent : Node) (child : NodeId) : Prop :=
  ∃ c, t.node? child = some c ∧ child ≠ t.root ∧ parent.span.encloses c.span = true

/-- What an arena has to satisfy for a text of `size` bytes. -/
structure WellFormed (t : Tree) (size : Nat) : Prop where
  root : ∃ n, t.node? t.root = some n
  inside : ∀ id n, t.node? id = some n → n.span.stop ≤ size
  fits : ∀ id n, t.node? id = some n → ∀ child ∈ n.children, t.Fits n child
  once : (t.ids.flatMap t.childrenOf).Nodup

theorem lookup_eq_none_iff {parents : Parents} {child : NodeId} :
    parents.lookup child = none ↔ child ∉ parents.map (·.1) := by
  rw [List.lookup_eq_none_iff]
  constructor
  · rintro h hMem
    obtain ⟨pair, hPair, rfl⟩ := List.mem_map.mp hMem
    simpa using h pair hPair
  · intro h pair hPair
    rw [bne_iff_ne]
    rintro rfl
    exact h (List.mem_map_of_mem hPair)

theorem checkChild_eq_ok_iff {t : Tree} {id child : NodeId} {n : Node} {parents after : Parents} :
    t.checkChild id n parents child = .ok after ↔
      t.Fits n child ∧ child ∉ parents.map (·.1) ∧ after = (child, id) :: parents := by
  rw [← lookup_eq_none_iff]
  unfold checkChild Fits
  split
  · rename_i hNode
    simp [hNode]
  · rename_i c hNode
    split
    · rename_i hRoot
      simp [hRoot]
    · rename_i hRoot
      split
      · rename_i hFirst
        simp [hFirst]
      · rename_i hFirst
        split
        · rename_i hEncloses
          simp only [Except.ok.injEq, hNode, Option.some.injEq, hFirst, true_and]
          constructor
          · rintro rfl
            exact ⟨⟨c, rfl, hRoot, hEncloses⟩, rfl⟩
          · rintro ⟨-, rfl⟩
            rfl
        · rename_i hEncloses
          simp [hNode, hEncloses]

theorem checkChildren_eq_ok_iff {t : Tree} {id : NodeId} {n : Node} {parents after : Parents}
    {children : List NodeId} :
    t.checkChildren id n parents children = .ok after ↔
      (∀ child ∈ children, t.Fits n child) ∧ children.Nodup ∧
        (∀ child ∈ children, child ∉ parents.map (·.1)) ∧
        after = (children.map fun child => (child, id)).reverse ++ parents := by
  induction children generalizing parents with
  | nil => simp [checkChildren, eq_comm]
  | cons child rest ih =>
    rw [checkChildren]
    constructor
    · intro h
      split at h
      · cases h
      · rename_i next hCheck
        obtain ⟨hFits, hNew, rfl⟩ := checkChild_eq_ok_iff.mp hCheck
        obtain ⟨hRest, hNodup, hFresh, rfl⟩ := ih.mp h
        refine ⟨List.forall_mem_cons.mpr ⟨hFits, hRest⟩, List.nodup_cons.mpr ⟨?_, hNodup⟩,
          List.forall_mem_cons.mpr ⟨hNew, ?_⟩, by simp⟩
        · intro hMem
          exact hFresh child hMem (by simp)
        · intro c hc hMem
          exact hFresh c hc (List.mem_cons_of_mem _ hMem)
    · rintro ⟨hFits, hNodup, hFresh, rfl⟩
      obtain ⟨hFit, hRest⟩ := List.forall_mem_cons.mp hFits
      obtain ⟨hNew, hFreshRest⟩ := List.forall_mem_cons.mp hFresh
      obtain ⟨hNotMem, hNodupRest⟩ := List.nodup_cons.mp hNodup
      rw [checkChild_eq_ok_iff.mpr ⟨hFit, hNew, rfl⟩]
      refine ih.mpr ⟨hRest, hNodupRest, fun c hc => ?_, by simp⟩
      rw [List.map_cons, List.mem_cons, not_or]
      refine ⟨?_, hFreshRest c hc⟩
      rintro rfl
      exact hNotMem hc

theorem childrenOf_of_node? {t : Tree} {id : NodeId} {n : Node} (h : t.node? id = some n) :
    t.childrenOf id = n.children := by
  simp [childrenOf, h]

theorem childrenOf_of_node?_none {t : Tree} {id : NodeId} (h : t.node? id = none) :
    t.childrenOf id = [] := by
  simp [childrenOf, h]

/-- The check of some nodes succeeds if each of them is in order and their lists of
children, together with what was seen before, have no child twice. -/
theorem exists_checkNodes_eq_ok_iff {t : Tree} {size : Nat} {parents : Parents}
    {ids : List NodeId} :
    (∃ after, t.checkNodes size parents ids = .ok after) ↔
      (∀ id ∈ ids, ∀ n, t.node? id = some n →
        n.span.stop ≤ size ∧ ∀ child ∈ n.children, t.Fits n child) ∧
        (ids.flatMap t.childrenOf).Nodup ∧
        ∀ child ∈ ids.flatMap t.childrenOf, child ∉ parents.map (·.1) := by
  induction ids generalizing parents with
  | nil => simp [checkNodes]
  | cons id rest ih =>
    rw [checkNodes, List.flatMap_cons, List.forall_mem_cons]
    cases hNode : t.node? id with
    | none =>
      simp only [childrenOf_of_node?_none hNode, List.nil_append, ih]
      simp
    | some n =>
      simp only [childrenOf_of_node? hNode, Option.some.injEq, forall_eq', List.nodup_append,
        List.forall_mem_append]
      constructor
      · rintro ⟨after, h⟩
        split at h
        · cases h
        · rename_i hSize
          split at h
          · cases h
          · rename_i next hChildren
            obtain ⟨hFits, hNodup, hFresh, rfl⟩ := checkChildren_eq_ok_iff.mp hChildren
            obtain ⟨hNodes, hNodupRest, hFreshRest⟩ := ih.mp ⟨after, h⟩
            simp only [List.map_append, List.map_reverse, List.map_map, List.mem_append,
              List.mem_reverse, not_or] at hFreshRest
            refine ⟨⟨⟨by omega, hFits⟩, hNodes⟩, ⟨hNodup, hNodupRest, ?_⟩, hFresh,
              fun child hChild => (hFreshRest child hChild).2⟩
            rintro child hChild _ hLater rfl
            exact (hFreshRest child hLater).1 (by simpa using hChild)
      · rintro ⟨⟨⟨hInside, hFits⟩, hNodes⟩, ⟨hNodup, hNodupRest, hApart⟩, hFresh, hFreshRest⟩
        rw [if_neg (by omega), checkChildren_eq_ok_iff.mpr ⟨hFits, hNodup, hFresh, rfl⟩]
        refine ih.mpr ⟨hNodes, hNodupRest, fun child hChild => ?_⟩
        simp only [List.map_append, List.map_reverse, List.map_map, List.mem_append,
          List.mem_reverse, not_or]
        refine ⟨fun hEarlier => ?_, hFreshRest child hChild⟩
        exact hApart child (by simpa using hEarlier) child hChild rfl

/-- **The check accepts the well-formed arenas and no others.** -/
theorem validate_eq_ok_iff {t : Tree} {size : Nat} :
    t.validate size = .ok () ↔ t.WellFormed size := by
  have hNodes : (∃ after, t.checkNodes size [] t.ids = .ok after) ↔
      (∀ id n, t.node? id = some n →
        n.span.stop ≤ size ∧ ∀ child ∈ n.children, t.Fits n child) ∧
        (t.ids.flatMap t.childrenOf).Nodup := by
    rw [exists_checkNodes_eq_ok_iff]
    constructor
    · rintro ⟨hEach, hOnce, -⟩
      exact ⟨fun id n hNode => hEach id (mem_ids_iff.mpr ⟨n, hNode⟩) n hNode, hOnce⟩
    · rintro ⟨hEach, hOnce⟩
      exact ⟨fun id _ => hEach id, hOnce, by simp⟩
  unfold validate
  constructor
  · intro h
    split at h
    · cases h
    · rename_i root hRoot
      split at h
      · cases h
      · split at h
        · cases h
        · rename_i after hCheck
          obtain ⟨hEach, hOnce⟩ := hNodes.mp ⟨after, hCheck⟩
          exact ⟨⟨root, hRoot⟩, fun id n hNode => (hEach id n hNode).1,
            fun id n hNode => (hEach id n hNode).2, hOnce⟩
  · intro h
    obtain ⟨root, hRoot⟩ := h.root
    obtain ⟨after, hCheck⟩ := hNodes.mpr
      ⟨fun id n hNode => ⟨h.inside id n hNode, h.fits id n hNode⟩, h.once⟩
    have hSize := h.inside t.root root hRoot
    rw [hRoot]
    simp only
    rw [if_neg (by omega), hCheck]

/-! ## Paths down a well-formed arena -/

/-- A path of references leads from one node down to the other. -/
def Leads (t : Tree) : NodeId → NodeId → Prop :=
  Relation.ReflTransGen fun id child => child ∈ t.childrenOf id

namespace WellFormed

theorem nodup_childrenOf {t : Tree} {size : Nat} (h : t.WellFormed size) (id : NodeId) :
    (t.childrenOf id).Nodup := by
  cases hNode : t.node? id with
  | none => simp [childrenOf_of_node?_none hNode]
  | some n =>
    have hId : id ∈ t.ids := mem_ids_iff.mpr ⟨n, hNode⟩
    exact (List.nodup_flatMap.mp h.once).1 id hId

theorem parent_unique {t : Tree} {size : Nat} (h : t.WellFormed size) {a b child : NodeId}
    (ha : child ∈ t.childrenOf a) (hb : child ∈ t.childrenOf b) : a = b := by
  by_contra hNe
  obtain ⟨n, hNode, -⟩ := mem_childrenOf_iff.mp ha
  obtain ⟨m, hOther, -⟩ := mem_childrenOf_iff.mp hb
  have hSymm : Std.Symm (Function.onFun List.Disjoint t.childrenOf) :=
    ⟨fun _ _ h _ ha hb => h hb ha⟩
  have hDisjoint := (List.nodup_flatMap.mp h.once).2.forall (mem_ids_iff.mpr ⟨n, hNode⟩)
    (mem_ids_iff.mpr ⟨m, hOther⟩) hNe
  exact hDisjoint ha hb

theorem mem_preorder_child {t : Tree} {size : Nat} (h : t.WellFormed size) {id child : NodeId}
    (hId : id ∈ t.preorder) (hChild : child ∈ t.childrenOf id) : child ∈ t.preorder := by
  obtain ⟨hReachable, -⟩ := mem_preorder_iff.mp hId
  obtain ⟨n, hNode, hMem⟩ := mem_childrenOf_iff.mp hChild
  obtain ⟨c, hThere, -⟩ := h.fits id n hNode child hMem
  exact mem_preorder_iff.mpr ⟨hReachable.child hChild, c, hThere⟩

theorem precedes_child {t : Tree} {size : Nat} (h : t.WellFormed size) {id child : NodeId}
    (hId : id ∈ t.preorder) (hChild : child ∈ t.childrenOf id) : t.Precedes id child := by
  obtain ⟨front, back, hOrder⟩ := List.append_of_mem (h.mem_preorder_child hId hChild)
  refine ⟨front, back, hOrder, ?_⟩
  rcases eq_root_or_exists_parent hOrder with hRoot | ⟨parent, hParent, hListed⟩
  · obtain ⟨n, hNode, hMem⟩ := mem_childrenOf_iff.mp hChild
    obtain ⟨-, -, hNotRoot, -⟩ := h.fits id n hNode child hMem
    exact absurd hRoot hNotRoot
  · rwa [h.parent_unique hChild hListed]

/-- The walk comes to a node before it comes to anything below it. -/
theorem precedes_of_leads {t : Tree} {size : Nat} (h : t.WellFormed size) {a b : NodeId}
    (ha : a ∈ t.preorder) (hPath : t.Leads a b) :
    b ∈ t.preorder ∧ (a = b ∨ t.Precedes a b) := by
  induction hPath with
  | refl => exact ⟨ha, Or.inl rfl⟩
  | @tail middle last _ hStep ih =>
    obtain ⟨hMiddle, hBefore⟩ := ih
    have hLast := h.precedes_child hMiddle hStep
    refine ⟨h.mem_preorder_child hMiddle hStep, Or.inr ?_⟩
    rcases hBefore with rfl | hBefore
    · exact hLast
    · exact hBefore.trans hLast

theorem leads_of_mem_preorder {t : Tree} {id : NodeId} (h : id ∈ t.preorder) :
    t.Leads t.root id := by
  obtain ⟨hReachable, -⟩ := mem_preorder_iff.mp h
  induction hReachable with
  | root => exact .refl
  | @child parent child hParent hChild ih =>
    obtain ⟨n, hNode, -⟩ := mem_childrenOf_iff.mp hChild
    exact (ih (mem_preorder_iff.mpr ⟨hParent, n, hNode⟩)).tail hChild

/-- A node holds every node that a path leads to. -/
theorem encloses_of_leads {t : Tree} {size : Nat} (h : t.WellFormed size) {a b : NodeId}
    {x y : Node} (hPath : t.Leads a b) (ha : t.node? a = some x) (hb : t.node? b = some y) :
    x.span.encloses y.span = true := by
  induction hPath generalizing y with
  | refl =>
    obtain rfl : x = y := Option.some.inj (ha.symm.trans hb)
    simp [Span.encloses_iff]
  | @tail middle last _ hStep ih =>
    obtain ⟨m, hMiddle, hChild⟩ := mem_childrenOf_iff.mp hStep
    obtain ⟨c, hLast, -, hEncloses⟩ := h.fits middle m hMiddle last hChild
    obtain rfl : c = y := Option.some.inj (hLast.symm.trans hb)
    have hOuter := Span.encloses_iff.mp (ih hMiddle)
    have hInner := Span.encloses_iff.mp hEncloses
    exact Span.encloses_iff.mpr ⟨by omega, by omega⟩

end WellFormed

end Retrace.Tree
