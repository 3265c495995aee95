import Mathlib.Data.List.Induction
import Mathlib.Data.List.Nodup
import Mathlib.Logic.Relation
import Retrace.Proofs.Wellformed

/-!
# Paths and subtrees of a checked arena

The check of an arena looks at one node and its children at a time. What follows for
the part that can be reached from the root is said here in terms of paths, which are
lists of child positions (`Tree.follow`).

Two paths from the root to one node are equal (`WellFormed.follow_injective`): the last
step of each comes from the only parent, at the only position, and the root is nobody's
child. So nothing that can be reached lies on a cycle, and the subtrees of two children
have no node in common. Cycles that cannot be reached pass the check
(`strayCycle`).

The walk of an arbitrary arena comes to the second part of its stack after it is done
with the first (`walkFrom_append`). As the subtrees of siblings are disjoint, nothing
that the first part meets is missed in the second, and the walk is the recursive one:
a node, then the walks of its children (`WellFormed.preorderFrom_eq`).
-/

namespace Retrace.Tree

/-! ## Paths of child positions -/

/-- Where a path of child positions leads from a node. -/
def follow (t : Tree) : NodeId → List Nat → Option NodeId
  | id, [] => some id
  | id, i :: rest => (t.childrenOf id)[i]?.bind fun child => t.follow child rest

theorem follow_append (t : Tree) (id : NodeId) (front back : List Nat) :
    t.follow id (front ++ back) = (t.follow id front).bind fun middle => t.follow middle back := by
  induction front generalizing id with
  | nil => rfl
  | cons i front ih =>
    rw [List.cons_append, follow, follow, Option.bind_assoc]
    congr 1
    funext child
    exact ih child

theorem follow_singleton (t : Tree) (id : NodeId) (i : Nat) :
    t.follow id [i] = (t.childrenOf id)[i]? := by
  rw [follow]
  cases (t.childrenOf id)[i]? <;> rfl

theorem follow_concat_eq_some_iff {t : Tree} {id x : NodeId} {path : List Nat} {i : Nat} :
    t.follow id (path ++ [i]) = some x ↔
      ∃ parent, t.follow id path = some parent ∧ (t.childrenOf parent)[i]? = some x := by
  rw [follow_append, Option.bind_eq_some_iff]
  simp only [follow_singleton]

theorem leads_iff_exists_follow {t : Tree} {a b : NodeId} :
    t.Leads a b ↔ ∃ path, t.follow a path = some b := by
  constructor
  · intro h
    induction h with
    | refl => exact ⟨[], rfl⟩
    | @tail middle last _ hStep ih =>
      obtain ⟨path, hPath⟩ := ih
      obtain ⟨i, hi⟩ := List.mem_iff_getElem?.mp hStep
      exact ⟨path ++ [i], follow_concat_eq_some_iff.mpr ⟨middle, hPath, hi⟩⟩
  · intro h
    obtain ⟨path, hPath⟩ := h
    induction path generalizing a with
    | nil =>
      obtain rfl : a = b := Option.some.inj hPath
      exact .refl
    | cons i rest ih =>
      rw [follow, Option.bind_eq_some_iff] at hPath
      obtain ⟨child, hChild, hRest⟩ := hPath
      exact .head (List.mem_of_getElem? hChild) (ih hRest)

theorem reachable_iff_leads {t : Tree} {id : NodeId} : t.Reachable id ↔ t.Leads t.root id := by
  constructor
  · intro h
    induction h with
    | root => exact .refl
    | child _ hChild ih => exact ih.tail hChild
  · intro h
    induction h with
    | refl => exact .root
    | tail _ hStep ih => exact ih.child hStep

theorem reachable_of_follow {t : Tree} {id : NodeId} {path : List Nat}
    (h : t.follow t.root path = some id) : t.Reachable id :=
  reachable_iff_leads.mpr (leads_iff_exists_follow.mpr ⟨path, h⟩)

theorem Reachable.of_leads {t : Tree} {a b : NodeId} (ha : t.Reachable a) (h : t.Leads a b) :
    t.Reachable b :=
  reachable_iff_leads.mpr ((reachable_iff_leads.mp ha).trans h)

/-! ## Walks over a stack in two parts -/

theorem walkFrom_append (t : Tree) (unmet front back : List NodeId) :
    t.walkFrom unmet (front ++ back) =
      t.walkFrom unmet front ++ t.walkFrom (unmet.diff (t.walkFrom unmet front)) back := by
  fun_induction walkFrom t unmet front with
  | case1 unmet => simp
  | case2 unmet id rest hMem ih =>
    rw [List.cons_append, walkFrom, if_pos hMem, ← List.append_assoc, ih, List.cons_append,
      List.diff_cons]
  | case3 unmet id rest hMet ih =>
    rw [List.cons_append, walkFrom, if_neg hMet, ih]

/-- A walk asks only for nodes below its stack whether they are still unmet. -/
theorem walkFrom_congr {t : Tree} {unmet other stack : List NodeId} (hUnmet : unmet.Nodup)
    (hOther : other.Nodup)
    (h : ∀ x ∈ stack, ∀ y, t.Leads x y → (y ∈ unmet ↔ y ∈ other)) :
    t.walkFrom unmet stack = t.walkFrom other stack := by
  fun_induction walkFrom t unmet stack generalizing other with
  | case1 unmet => rw [walkFrom]
  | case2 unmet id rest hMem ih =>
    obtain ⟨hId, hRest⟩ := List.forall_mem_cons.mp h
    rw [walkFrom, if_pos ((hId id .refl).mp hMem)]
    congr 1
    -- both walks take off the same node, so they still agree below the new stack
    apply ih (hUnmet.erase id) (hOther.erase id)
    intro x hx y hPath
    rw [hUnmet.mem_erase_iff, hOther.mem_erase_iff]
    refine and_congr_right fun _ => ?_
    rcases List.mem_append.mp hx with hChild | hLater
    · exact hId y (.head hChild hPath)
    · exact hRest x hLater y hPath
  | case3 unmet id rest hMet ih =>
    obtain ⟨hId, hRest⟩ := List.forall_mem_cons.mp h
    rw [walkFrom, if_neg fun hMem => hMet ((hId id .refl).mpr hMem)]
    exact ih hUnmet hOther hRest

/-- The nodes below a node in the order of the walk, the node itself first. -/
def preorderFrom (t : Tree) (id : NodeId) : List NodeId := t.walkFrom t.ids [id]

theorem leads_of_mem_walkFrom {t : Tree} {unmet : List NodeId} {id x : NodeId}
    (h : x ∈ t.walkFrom unmet [id]) : t.Leads id x := by
  refine walkFrom_closed (P := t.Leads id) (fun y hy child hChild => hy.tail hChild) ?_ x h
  intro y hy
  rw [List.mem_singleton.mp hy]
  exact .refl

/-- Where the subtrees of a stack are unmet and disjoint, they are walked one after the
other. -/
theorem walkFrom_eq_flatMap {t : Tree} {unmet stack : List NodeId} (hUnmet : unmet.Nodup)
    (hThere : ∀ x ∈ stack, ∀ y, t.Leads x y → y ∈ unmet ∧ y ∈ t.ids)
    (hDisjoint : stack.Pairwise fun a b => ∀ y, t.Leads a y → ¬ t.Leads b y) :
    t.walkFrom unmet stack = stack.flatMap t.preorderFrom := by
  induction stack generalizing unmet with
  | nil => simp [walkFrom]
  | cons id rest ih =>
    obtain ⟨hHead, hTail⟩ := List.forall_mem_cons.mp hThere
    obtain ⟨hApart, hRest⟩ := List.pairwise_cons.mp hDisjoint
    have hFirst : t.walkFrom unmet [id] = t.preorderFrom id := by
      apply walkFrom_congr hUnmet t.nodup_ids
      intro x hx y hPath
      rw [List.mem_singleton.mp hx] at hPath
      obtain ⟨hLeft, hRight⟩ := hHead y hPath
      exact iff_of_true hLeft hRight
    have hStill : ∀ x ∈ rest, ∀ y, t.Leads x y →
        y ∈ unmet.diff (t.walkFrom unmet [id]) ∧ y ∈ t.ids := by
      intro x hx y hPath
      obtain ⟨hMem, hId⟩ := hTail x hx y hPath
      have hNotMet : y ∉ t.walkFrom unmet [id] :=
        fun hMet => hApart x hx y (leads_of_mem_walkFrom hMet) hPath
      exact ⟨hUnmet.mem_sdiff_iff.mpr ⟨hMem, hNotMet⟩, hId⟩
    rw [List.flatMap_cons, ← ih hUnmet.diff hStill hRest, ← hFirst]
    exact walkFrom_append t unmet [id] rest

/-! ## The reachable part of a checked arena -/

namespace WellFormed

theorem exists_node_of_leads {t : Tree} {size : Nat} (h : t.WellFormed size) {a b : NodeId}
    {n : Node} (ha : t.node? a = some n) (hPath : t.Leads a b) : ∃ m, t.node? b = some m := by
  cases hPath with
  | refl => exact ⟨n, ha⟩
  | tail _ hStep =>
    obtain ⟨p, hNode, hChild⟩ := mem_childrenOf_iff.mp hStep
    obtain ⟨c, hThere, -⟩ := h.fits _ p hNode _ hChild
    exact ⟨c, hThere⟩

theorem exists_node_of_reachable {t : Tree} {size : Nat} (h : t.WellFormed size) {id : NodeId}
    (hReachable : t.Reachable id) : ∃ n, t.node? id = some n := by
  obtain ⟨root, hRoot⟩ := h.root
  exact h.exists_node_of_leads hRoot (reachable_iff_leads.mp hReachable)

theorem mem_preorder_of_reachable {t : Tree} {size : Nat} (h : t.WellFormed size) {id : NodeId}
    (hReachable : t.Reachable id) : id ∈ t.preorder :=
  mem_preorder_iff.mpr ⟨hReachable, h.exists_node_of_reachable hReachable⟩

theorem ne_root_of_mem_childrenOf {t : Tree} {size : Nat} (h : t.WellFormed size)
    {id child : NodeId} (hChild : child ∈ t.childrenOf id) : child ≠ t.root := by
  obtain ⟨n, hNode, hMem⟩ := mem_childrenOf_iff.mp hChild
  obtain ⟨-, -, hNotRoot, -⟩ := h.fits id n hNode child hMem
  exact hNotRoot

theorem eq_nil_of_follow_root {t : Tree} {size : Nat} (h : t.WellFormed size) {path : List Nat}
    (hPath : t.follow t.root path = some t.root) : path = [] := by
  rcases List.eq_nil_or_concat path with hNil | ⟨front, i, rfl⟩
  · exact hNil
  · rw [List.concat_eq_append] at hPath
    obtain ⟨parent, -, hStep⟩ := follow_concat_eq_some_iff.mp hPath
    exact absurd rfl (h.ne_root_of_mem_childrenOf (List.mem_of_getElem? hStep))

/-- Two paths from the root to one node are equal. The induction takes the last steps off:
both come from the only parent, which lists the node once. -/
theorem follow_injective {t : Tree} {size : Nat} (h : t.WellFormed size) {id : NodeId}
    {path other : List Nat} (hPath : t.follow t.root path = some id)
    (hOther : t.follow t.root other = some id) : path = other := by
  induction path using List.reverseRecOn generalizing other id with
  | nil =>
    obtain rfl : t.root = id := Option.some.inj hPath
    exact (h.eq_nil_of_follow_root hOther).symm
  | append_singleton front i ih =>
    rcases List.eq_nil_or_concat other with rfl | ⟨back, j, rfl⟩
    · obtain rfl : t.root = id := Option.some.inj hOther
      exact h.eq_nil_of_follow_root hPath
    · rw [List.concat_eq_append] at hOther ⊢
      obtain ⟨p, hFront, hi⟩ := follow_concat_eq_some_iff.mp hPath
      obtain ⟨q, hBack, hj⟩ := follow_concat_eq_some_iff.mp hOther
      obtain rfl : p = q :=
        h.parent_unique (List.mem_of_getElem? hi) (List.mem_of_getElem? hj)
      have hSteps : i = j := by
        obtain ⟨hLength, -⟩ := List.getElem?_eq_some_iff.mp hi
        exact (List.getElem?_inj hLength (h.nodup_childrenOf p)).mp (hi.trans hj.symm)
      rw [ih hFront hBack, hSteps]

/-- From a reachable node, too, only one path leads to a node. -/
theorem follow_injective_of_reachable {t : Tree} {size : Nat} (h : t.WellFormed size)
    {id x : NodeId} (hReachable : t.Reachable id) {path other : List Nat}
    (hPath : t.follow id path = some x) (hOther : t.follow id other = some x) : path = other := by
  obtain ⟨front, hFront⟩ := leads_iff_exists_follow.mp (reachable_iff_leads.mp hReachable)
  have hFirst : t.follow t.root (front ++ path) = some x := by
    rw [follow_append, hFront]
    exact hPath
  have hSecond : t.follow t.root (front ++ other) = some x := by
    rw [follow_append, hFront]
    exact hOther
  exact List.append_cancel_left (h.follow_injective hFirst hSecond)

theorem not_leads_of_mem_childrenOf {t : Tree} {size : Nat} (h : t.WellFormed size)
    {id child : NodeId} (hReachable : t.Reachable id) (hChild : child ∈ t.childrenOf id) :
    ¬ t.Leads child id := by
  intro hBack
  obtain ⟨path, hPath⟩ := leads_iff_exists_follow.mp hBack
  obtain ⟨i, hi⟩ := List.mem_iff_getElem?.mp hChild
  -- the way back would be a second path from the node to itself, beside the empty one
  have hCycle : t.follow id (i :: path) = some id := by
    rw [follow, hi]
    exact hPath
  have hStay : t.follow id [] = some id := rfl
  cases h.follow_injective_of_reachable hReachable hCycle hStay

theorem disjoint_below {t : Tree} {size : Nat} (h : t.WellFormed size) {id a b : NodeId}
    (hReachable : t.Reachable id) (ha : a ∈ t.childrenOf id) (hb : b ∈ t.childrenOf id)
    (hNe : a ≠ b) {y : NodeId} (hLeft : t.Leads a y) : ¬ t.Leads b y := by
  intro hRight
  obtain ⟨left, hLeftPath⟩ := leads_iff_exists_follow.mp hLeft
  obtain ⟨right, hRightPath⟩ := leads_iff_exists_follow.mp hRight
  obtain ⟨i, hi⟩ := List.mem_iff_getElem?.mp ha
  obtain ⟨j, hj⟩ := List.mem_iff_getElem?.mp hb
  have hThroughA : t.follow id (i :: left) = some y := by
    rw [follow, hi]
    exact hLeftPath
  have hThroughB : t.follow id (j :: right) = some y := by
    rw [follow, hj]
    exact hRightPath
  obtain ⟨rfl, -⟩ :=
    List.cons.inj (h.follow_injective_of_reachable hReachable hThroughA hThroughB)
  exact hNe (Option.some.inj (hi.symm.trans hj))

/-! ## The walk as a recursion -/

theorem mem_preorderFrom_iff {t : Tree} {size : Nat} (h : t.WellFormed size) {id x : NodeId}
    (hReachable : t.Reachable id) : x ∈ t.preorderFrom id ↔ t.Leads id x := by
  refine ⟨leads_of_mem_walkFrom, fun hPath => ?_⟩
  induction hPath with
  | refl =>
    have hThere := mem_ids_iff.mpr (h.exists_node_of_reachable hReachable)
    exact mem_walkFrom_of_mem_stack (List.mem_singleton_self id) hThere
  | @tail middle last hFront hStep ih =>
    have hLast : t.Reachable last := hReachable.of_leads (hFront.tail hStep)
    have hThere := mem_ids_iff.mpr (h.exists_node_of_reachable hLast)
    exact mem_walkFrom_of_mem_children ih hStep hThere

/-- **The walk below a node is the node and then the walks below its children.** -/
theorem preorderFrom_eq {t : Tree} {size : Nat} (h : t.WellFormed size) {id : NodeId}
    (hReachable : t.Reachable id) :
    t.preorderFrom id = id :: (t.childrenOf id).flatMap t.preorderFrom := by
  have hId : id ∈ t.ids := mem_ids_iff.mpr (h.exists_node_of_reachable hReachable)
  have hThere : ∀ child ∈ t.childrenOf id, ∀ y, t.Leads child y →
      y ∈ t.ids.erase id ∧ y ∈ t.ids := by
    intro child hChild y hPath
    have hBelow : t.Reachable y := (hReachable.child hChild).of_leads hPath
    have hMem : y ∈ t.ids := mem_ids_iff.mpr (h.exists_node_of_reachable hBelow)
    have hNe : y ≠ id := by
      intro hEq
      rw [hEq] at hPath
      exact h.not_leads_of_mem_childrenOf hReachable hChild hPath
    exact ⟨t.nodup_ids.mem_erase_iff.mpr ⟨hNe, hMem⟩, hMem⟩
  have hDisjoint : (t.childrenOf id).Pairwise fun a b => ∀ y, t.Leads a y → ¬ t.Leads b y := by
    refine List.Pairwise.imp_of_mem ?_ (h.nodup_childrenOf id)
    intro a b ha hb hNe y hLeft
    exact h.disjoint_below hReachable ha hb hNe hLeft
  rw [preorderFrom, walkFrom, if_pos hId, List.append_nil,
    walkFrom_eq_flatMap (t.nodup_ids.erase id) hThere hDisjoint]

/-- There is only one order that lists each node in front of the orders of its children.
The induction is on how many nodes the walk lists. -/
theorem preorderFrom_unique {t : Tree} {size : Nat} (h : t.WellFormed size)
    {order : NodeId → List NodeId}
    (hOrder : ∀ id, t.Reachable id → order id = id :: (t.childrenOf id).flatMap order)
    {id : NodeId} (hReachable : t.Reachable id) : order id = t.preorderFrom id := by
  generalize hLength : (t.preorderFrom id).length = length
  induction length using Nat.strongRecOn generalizing id with
  | ind length ih =>
    have hWalk := h.preorderFrom_eq hReachable
    rw [hOrder id hReachable, hWalk]
    congr 1
    apply List.flatMap_congr
    intro child hChild
    refine ih _ ?_ (hReachable.child hChild) rfl
    -- the walk below a child is a part of the walk below the node, which lists the node too
    obtain ⟨front, back, hSplit⟩ := List.append_of_mem hChild
    rw [← hLength, hWalk, hSplit]
    simp only [List.flatMap_append, List.flatMap_cons, List.length_cons, List.length_append]
    omega

/-- The walk below a node stands in one piece within the whole walk. -/
theorem exists_block {t : Tree} {size : Nat} (h : t.WellFormed size) {id : NodeId}
    (hReachable : t.Reachable id) :
    ∃ front back, t.preorder = front ++ (t.preorderFrom id ++ back) := by
  induction hReachable with
  | root => exact ⟨[], [], (List.append_nil _).symm⟩
  | @child parent child hParent hChild ih =>
    obtain ⟨front, back, hBlock⟩ := ih
    obtain ⟨left, right, hSplit⟩ := List.append_of_mem hChild
    refine ⟨front ++ parent :: left.flatMap t.preorderFrom,
      right.flatMap t.preorderFrom ++ back, ?_⟩
    rw [hBlock, h.preorderFrom_eq hParent, hSplit]
    simp

theorem parents_eq_some_iff {t : Tree} {size : Nat} (h : t.WellFormed size) {child p : NodeId} :
    t.parents[child.index]? = some (some p) ↔ t.Reachable p ∧ child ∈ t.childrenOf p := by
  have hEntry : t.parents[child.index]? = some (some p) ↔
      child.index < t.nodes.size ∧ t.parentIn? t.preorder child = some p := by
    unfold parents ids
    by_cases hIndex : child.index < t.nodes.size
    · simp [hIndex]
    · simp [hIndex]
  rw [hEntry, parentIn?]
  constructor
  · intro hFound
    have hMem := List.mem_of_find?_eq_some hFound.2
    have hChild : child ∈ t.childrenOf p := by simpa using List.find?_some hFound.2
    exact ⟨(mem_preorder_iff.mp hMem).1, hChild⟩
  · intro hParent
    obtain ⟨hReachable, hChild⟩ := hParent
    obtain ⟨c, hThere⟩ := h.exists_node_of_reachable (hReachable.child hChild)
    obtain ⟨hIndex, -⟩ := Array.getElem?_eq_some_iff.mp hThere
    refine ⟨hIndex, ?_⟩
    have hWalk : p ∈ t.preorder := h.mem_preorder_of_reachable hReachable
    cases hFind : t.preorder.find? fun id => decide (child ∈ t.childrenOf id) with
    | none =>
      have hNone := List.find?_eq_none.mp hFind p hWalk
      simp [hChild] at hNone
    | some q =>
      have hOther : child ∈ t.childrenOf q := by simpa using List.find?_some hFind
      rw [h.parent_unique hOther hChild]

end WellFormed

/-! ## What the check guarantees -/

/-- The part of an arena that can be reached from the root is a tree within a text of
`size` bytes, and the walk and the list of parents are those of this tree. -/
structure Arborescent (t : Tree) (size : Nat) : Prop where
  path : ∀ id, t.Reachable id → ∃! path, t.follow t.root path = some id
  acyclic : ∀ id, t.Reachable id → ∀ path, t.follow id path = some id → path = []
  inside : ∀ id, t.Reachable id → ∃ n, t.node? id = some n ∧ n.span.stop ≤ size ∧
    ∀ above path m, t.follow above path = some id → t.node? above = some m →
      m.span.encloses n.span = true
  recursive : ∀ id, t.Reachable id →
    t.preorderFrom id = id :: (t.childrenOf id).flatMap t.preorderFrom
  only : ∀ order : NodeId → List NodeId,
    (∀ id, t.Reachable id → order id = id :: (t.childrenOf id).flatMap order) →
      order t.root = t.preorder
  block : ∀ id, t.Reachable id →
    (∃ front back, t.preorder = front ++ (t.preorderFrom id ++ back)) ∧
      ∀ x, x ∈ t.preorderFrom id ↔ ∃ path, t.follow id path = some x
  parents : ∀ child p, t.parents[child.index]? = some (some p) ↔
    t.Reachable p ∧ child ∈ t.childrenOf p

/-- **What can be reached in a checked arena is a tree.** Each node is reached by one path
and lies within all nodes above it, the walk is the recursive one with every subtree in one
piece, and the parents are the nodes that list a child. -/
theorem arborescent_of_validate (t : Tree) (size : Nat) (hValid : t.validate size = .ok ()) :
    t.Arborescent size := by
  have h : t.WellFormed size := validate_eq_ok_iff.mp hValid
  constructor
  case path =>
    intro id hReachable
    obtain ⟨path, hPath⟩ := leads_iff_exists_follow.mp (reachable_iff_leads.mp hReachable)
    exact ⟨path, hPath, fun other hOther => h.follow_injective hOther hPath⟩
  case acyclic =>
    intro id hReachable path hCycle
    exact h.follow_injective_of_reachable hReachable hCycle rfl
  case inside =>
    intro id hReachable
    obtain ⟨n, hNode⟩ := h.exists_node_of_reachable hReachable
    refine ⟨n, hNode, h.inside id n hNode, ?_⟩
    intro above path m hPath hAbove
    exact h.encloses_of_leads (leads_iff_exists_follow.mpr ⟨path, hPath⟩) hAbove hNode
  case recursive => exact fun id hReachable => h.preorderFrom_eq hReachable
  case only => exact fun order hOrder => h.preorderFrom_unique hOrder .root
  case block =>
    intro id hReachable
    refine ⟨h.exists_block hReachable, fun x => ?_⟩
    rw [h.mem_preorderFrom_iff hReachable, leads_iff_exists_follow]
  case parents => exact fun child p => h.parents_eq_some_iff

/-- A sum of two names, and two spreads that cannot be reached and list each other. -/
def strayCycle : Tree :=
  ⟨⟨0⟩, #[⟨.upTo 3, false, ⟨.binaryExpression, ⟨"+", ⟨1⟩, ⟨4⟩⟩⟩⟩,
    ⟨⟨0, 1, by decide⟩, false, ⟨.identifier, ⟨"a"⟩⟩⟩,
    ⟨.upTo 3, false, ⟨.spreadElement, ⟨⟨3⟩⟩⟩⟩,
    ⟨.upTo 3, false, ⟨.spreadElement, ⟨⟨2⟩⟩⟩⟩,
    ⟨⟨2, 3, by decide⟩, false, ⟨.identifier, ⟨"b"⟩⟩⟩]⟩

/-- The cycle passes the check. The tree above it is walked as the recursion says, and
only the sum is a parent. -/
theorem arborescent_strayCycle :
    strayCycle.validate 3 = .ok () ∧ strayCycle.follow ⟨2⟩ [0, 0] = some ⟨2⟩ ∧
      strayCycle.Arborescent 3 ∧ ¬ strayCycle.Reachable ⟨2⟩ ∧
      strayCycle.preorder = [⟨0⟩, ⟨1⟩, ⟨4⟩] := by
  have hValid : strayCycle.validate 3 = .ok () := rfl
  have hCycle : strayCycle.follow ⟨2⟩ [0, 0] = some ⟨2⟩ := rfl
  have hTree := arborescent_of_validate strayCycle 3 hValid
  refine ⟨hValid, hCycle, hTree, ?_, ?_⟩
  · intro hReachable
    cases hTree.acyclic ⟨2⟩ hReachable [0, 0] hCycle
  · have hLeaf : ∀ id, strayCycle.Reachable id → strayCycle.childrenOf id = [] →
        strayCycle.preorderFrom id = [id] := by
      intro id hReachable hChildren
      rw [hTree.recursive id hReachable, hChildren, List.flatMap_nil]
    have hFirst : strayCycle.Reachable ⟨1⟩ := .child .root (by decide)
    have hSecond : strayCycle.Reachable ⟨4⟩ := .child .root (by decide)
    have hChildren : strayCycle.childrenOf strayCycle.root = [⟨1⟩, ⟨4⟩] := rfl
    have hRoot := hTree.recursive strayCycle.root .root
    rw [hChildren, List.flatMap_cons, List.flatMap_cons, List.flatMap_nil,
      hLeaf ⟨1⟩ hFirst rfl, hLeaf ⟨4⟩ hSecond rfl] at hRoot
    exact hRoot

end Retrace.Tree
