import Mathlib.Data.List.Induction
import Retrace.Proofs.Classes
import Retrace.Proofs.Nesting

/-!
# The node that a byte belongs to

A byte belongs to the last node of the walk whose span has it (`Tree.Tops`), whatever
the arena is (`ownerIn?_eq_some_iff`). In a well-formed tree in which siblings do not
overlap, two nodes with a common byte lie on one path from the root, and the walk
comes to the lower one later. So the owner is the node whose span has the byte while
the span of none of its children has it (`WellFormed.tops_iff`).

The class of a byte depends on its owner and on nothing else but the ranges: an
output byte is inserted if its owner has no range (`inserted_iff`), and a source byte
is removed if its owner is no predecessor of a range and no snapshot of an unknown
node has it (`removed_iff`). Whether a range spans the byte, or an anchor leads to
it, is not asked.
-/

namespace Retrace

namespace Tree

/-- The span of the node has the byte. -/
def Covers (t : Tree) (id : NodeId) (offset : Nat) : Prop :=
  ∃ n, t.node? id = some n ∧ n.span.contains offset = true

/-- The node is the last one of the walk whose span has the byte. -/
def Tops (t : Tree) (id : NodeId) (offset : Nat) : Prop :=
  id ∈ t.preorder ∧ t.Covers id offset ∧ ∀ later, t.Precedes id later → ¬ t.Covers later offset

/-! ## The top of some layers -/

/-- The layer that a node contributes. -/
def layer? (t : Tree) (id : NodeId) : Option (NodeId × Span) :=
  (t.node? id).map fun n => (id, n.span)

/-- The last of some nodes that covers a byte is the first that is found from the
end. The induction takes the nodes off at the end. -/
theorem ownerIn?_reverse_eq_some_iff {t : Tree} {ids : List NodeId} {offset : Nat} {id : NodeId} :
    ownerIn? (ids.filterMap t.layer?).reverse offset = some id ↔
      ∃ front back, ids = front ++ id :: back ∧ t.Covers id offset ∧
        ∀ later ∈ back, ¬ t.Covers later offset := by
  induction ids using List.reverseRecOn with
  | nil => simp [ownerIn?]
  | append_singleton ids x ih =>
    by_cases hx : t.Covers x offset
    · obtain ⟨n, hNode, hContains⟩ := hx
      have hOwner : ownerIn? ((ids ++ [x]).filterMap t.layer?).reverse offset = some x := by
        simp [ownerIn?, List.filterMap_append, layer?, hNode, hContains]
      rw [hOwner, Option.some.injEq]
      constructor
      · rintro rfl
        exact ⟨ids, [], rfl, ⟨n, hNode, hContains⟩, by simp⟩
      · rintro ⟨front, back, hSplit, -, hBack⟩
        rcases List.eq_nil_or_concat back with rfl | ⟨rest, last, rfl⟩
        · exact (List.append_inj' hSplit rfl).2 |> List.singleton_inj.mp
        · rw [List.concat_eq_append, ← List.cons_append, ← List.append_assoc] at hSplit
          have hLast : x = last := List.singleton_inj.mp (List.append_inj' hSplit rfl).2
          exact absurd ⟨n, hNode, hContains⟩ (hBack x (by simp [hLast]))
    · have hOwner : ownerIn? ((ids ++ [x]).filterMap t.layer?).reverse offset =
          ownerIn? (ids.filterMap t.layer?).reverse offset := by
        cases hNode : t.node? x with
        | none => simp [List.filterMap_append, layer?, hNode]
        | some n =>
          have hContains : n.span.contains offset = false := by
            rw [Bool.eq_false_iff]
            exact fun h => hx ⟨n, hNode, h⟩
          simp [ownerIn?, List.filterMap_append, layer?, hNode, hContains]
      rw [hOwner, ih]
      constructor
      · rintro ⟨front, back, rfl, hCovers, hBack⟩
        refine ⟨front, back ++ [x], by simp, hCovers, List.forall_mem_append.mpr ⟨hBack, ?_⟩⟩
        rw [List.forall_mem_singleton]
        exact hx
      · rintro ⟨front, back, hSplit, hCovers, hBack⟩
        rcases List.eq_nil_or_concat back with rfl | ⟨rest, last, rfl⟩
        · have hLast : x = id := List.singleton_inj.mp (List.append_inj' hSplit rfl).2
          exact absurd hCovers (hLast ▸ hx)
        · rw [List.concat_eq_append, ← List.cons_append, ← List.append_assoc] at hSplit
          refine ⟨front, rest, (List.append_inj' hSplit rfl).1, hCovers, fun later hLater => ?_⟩
          exact hBack later (by simp [hLater])

theorem ownerIn?_eq_some_iff {t : Tree} {offset : Nat} {id : NodeId} :
    ownerIn? t.layers offset = some id ↔ t.Tops id offset := by
  have hLayers : t.layers = (t.preorder.filterMap t.layer?).reverse := rfl
  rw [hLayers, ownerIn?_reverse_eq_some_iff]
  constructor
  · rintro ⟨front, back, hOrder, hCovers, hBack⟩
    refine ⟨by simp [hOrder], hCovers, fun later hLater hOther => ?_⟩
    obtain ⟨left, right, hSplit, hId⟩ := hLater
    have hMem : later ∈ front ++ id :: back := by
      rw [← hOrder, hSplit]
      simp
    rcases List.mem_append.mp hMem with hFront | hRest
    · have hBefore : t.Precedes later id := (precedes_iff_mem_front hOrder).mpr hFront
      exact Precedes.irrefl (hBefore.trans ⟨left, right, hSplit, hId⟩)
    · rcases List.mem_cons.mp hRest with rfl | hLater
      · exact Precedes.irrefl ⟨left, right, hSplit, hId⟩
      · exact hBack later hLater hOther
  · rintro ⟨hId, hCovers, hLast⟩
    obtain ⟨front, back, hOrder⟩ := List.append_of_mem hId
    exact ⟨front, back, hOrder, hCovers,
      fun later hLater => hLast later (.of_mem_back hOrder hLater)⟩

/-- A byte that some node of the walk covers has an owner. -/
theorem exists_tops {t : Tree} {offset : Nat} {id : NodeId} (hId : id ∈ t.preorder)
    (hCovers : t.Covers id offset) : ∃ owner, t.Tops owner offset := by
  obtain ⟨n, hNode, hContains⟩ := hCovers
  cases hOwner : ownerIn? t.layers offset with
  | some owner => exact ⟨owner, ownerIn?_eq_some_iff.mp hOwner⟩
  | none =>
    have hNone := Option.map_eq_none_iff.mp hOwner
    have hMem : (id, n.span) ∈ t.layers := by
      refine List.mem_reverse.mpr (List.mem_filterMap.mpr ⟨id, hId, ?_⟩)
      rw [hNode]
      rfl
    exact absurd hContains (List.find?_eq_none.mp hNone _ hMem)

/-- Of two paths from one node, one leads past the end of the other, or they part at two
children of one node. -/
theorem leads_or_parted {t : Tree} {start a b : NodeId} (ha : t.Leads start a)
    (hb : t.Leads start b) :
    t.Leads a b ∨ t.Leads b a ∨ ∃ fork left right, t.Leads start fork ∧
      left ∈ t.childrenOf fork ∧ right ∈ t.childrenOf fork ∧ left ≠ right ∧
      t.Leads left a ∧ t.Leads right b := by
  induction ha using Relation.ReflTransGen.head_induction_on with
  | refl => exact Or.inl hb
  | @head from_ next hStep hRest ih =>
    rcases hb.cases_head with rfl | ⟨other, hOther, hOtherRest⟩
    · exact Or.inr (Or.inl (hRest.head hStep))
    · by_cases hSame : next = other
      · subst hSame
        rcases ih hOtherRest with hDown | hUp | ⟨fork, left, right, hFork, hParted⟩
        · exact Or.inl hDown
        · exact Or.inr (Or.inl hUp)
        · exact Or.inr (Or.inr ⟨fork, left, right, hFork.head hStep, hParted⟩)
      · exact Or.inr (Or.inr ⟨from_, next, other, .refl, hStep, hOther, hSame, hRest, hOtherRest⟩)

namespace WellFormed

/-! ## Owners in a well-formed tree -/

theorem leads_or_apart {t : Tree} {size : Nat} (h : t.WellFormed size) (hApart : t.SiblingsApart)
    {start a b : NodeId} {x y : Node} (ha : t.Leads start a) (hb : t.Leads start b)
    (hx : t.node? a = some x) (hy : t.node? b = some y) :
    t.Leads a b ∨ t.Leads b a ∨ x.span.Apart y.span := by
  rcases leads_or_parted ha hb with hDown | hUp | hParted
  · exact Or.inl hDown
  · exact Or.inr (Or.inl hUp)
  · obtain ⟨fork, left, right, -, hLeft, hRight, hNe, hToA, hToB⟩ := hParted
    obtain ⟨i, hi⟩ := List.mem_iff_getElem?.mp hLeft
    obtain ⟨j, hj⟩ := List.mem_iff_getElem?.mp hRight
    have hIndex : i ≠ j := by
      rintro rfl
      exact hNe (Option.some.inj (hi.symm.trans hj))
    exact Or.inr (Or.inr (h.apart_below hApart hIndex hi hj hToA hToB hx hy))

theorem covers_of_leads {t : Tree} {size : Nat} (h : t.WellFormed size) {a b : NodeId}
    {offset : Nat} (ha : a ∈ t.preorder) (hPath : t.Leads a b) (hb : t.Covers b offset) :
    t.Covers a offset := by
  obtain ⟨-, x, hx⟩ := mem_preorder_iff.mp ha
  obtain ⟨y, hy, hContains⟩ := hb
  have hEncloses := Span.encloses_iff.mp (h.encloses_of_leads hPath hx hy)
  have hInside := Span.contains_iff.mp hContains
  exact ⟨x, hx, Span.contains_iff.mpr ⟨by omega, by omega⟩⟩

/-- The owner of a byte is the node that covers it without a child that does. -/
theorem tops_iff {t : Tree} {size : Nat} (h : t.WellFormed size) (hApart : t.SiblingsApart)
    {id : NodeId} {offset : Nat} :
    t.Tops id offset ↔ id ∈ t.preorder ∧ t.Covers id offset ∧
      ∀ child ∈ t.childrenOf id, ¬ t.Covers child offset := by
  constructor
  · rintro ⟨hId, hCovers, hLast⟩
    exact ⟨hId, hCovers, fun child hChild => hLast child (h.precedes_child hId hChild)⟩
  · rintro ⟨hId, hCovers, hChildren⟩
    refine ⟨hId, hCovers, fun later hLater hOther => ?_⟩
    have hThere : later ∈ t.preorder := by
      obtain ⟨front, back, hOrder, -⟩ := hLater
      simp [hOrder]
    have ⟨x, hx, hxContains⟩ := hCovers
    have ⟨y, hy, hyContains⟩ := hOther
    have hRoot := leads_of_mem_preorder hId
    have hRootLater := leads_of_mem_preorder hThere
    rcases h.leads_or_apart hApart hRoot hRootLater hx hy with hDown | hUp | hDisjoint
    · rcases hDown.cases_head with rfl | ⟨child, hChild, hBelow⟩
      · exact Precedes.irrefl hLater
      · exact hChildren child hChild
          (h.covers_of_leads (h.mem_preorder_child hId hChild) hBelow hOther)
    · rcases (h.precedes_of_leads hThere hUp).2 with rfl | hBefore
      · exact Precedes.irrefl hLater
      · exact Precedes.irrefl (hBefore.trans hLater)
    · have hLeft := Span.contains_iff.mp hxContains
      have hRight := Span.contains_iff.mp hyContains
      unfold Span.Apart at hDisjoint
      omega

/-- The bytes within the root, and no others, have an owner. -/
theorem exists_tops_iff {t : Tree} {size : Nat} (h : t.WellFormed size) {root : Node}
    (hRoot : t.node? t.root = some root) {offset : Nat} :
    (∃ id, t.Tops id offset) ↔ root.span.contains offset = true := by
  have hWalk : t.root ∈ t.preorder := mem_preorder_iff.mpr ⟨.root, root, hRoot⟩
  constructor
  · rintro ⟨id, hId, hCovers, -⟩
    obtain ⟨n, hNode, hContains⟩ := h.covers_of_leads hWalk (leads_of_mem_preorder hId) hCovers
    rwa [Option.some.inj (hRoot.symm.trans hNode)]
  · intro hContains
    exact exists_tops hWalk ⟨root, hRoot, hContains⟩

end WellFormed

end Tree

/-! ## Classes and owners -/

theorem any_contains_runs {size offset : Nat} {member : Nat → Bool} :
    (runs size member).any (·.contains offset) = true ↔ offset < size ∧ member offset = true := by
  rw [runs, any_contains_runsFrom]
  by_cases hOffset : offset < size
  · simp [hOffset]
  · simp [hOffset]

namespace Alignment

theorem classes_align (options : Options) (input : AlignmentInput) :
    (align options input).classes =
      .ofRanges input.sourceTree input.outputTree input.source.size input.output.size
        (align options input).ranges := rfl

theorem any_hasNode_iff {t : Tree} {ranges : RangeSet} {offset : Nat} :
    (ownerIn? t.layers offset).any ranges.hasNode = true ↔
      ∃ id, t.Tops id offset ∧ ∃ r ∈ ranges.ranges, r.node = id := by
  simp [Option.any_eq_true, Tree.ownerIn?_eq_some_iff, RangeSet.hasNode]

theorem inserted_iff (options : Options) (input : AlignmentInput) {offset : Nat} :
    (align options input).classes.outputClass? offset = some .inserted ↔
      offset < input.output.size ∧ ¬ ∃ id, input.outputTree.Tops id offset ∧
        ∃ r ∈ (align options input).ranges.ranges, r.node = id := by
  rw [← any_hasNode_iff, classes_align, Classes.outputClass?_ofRanges]
  by_cases hOffset : offset < input.output.size
  · rw [if_pos hOffset, Option.some.injEq, outputClassOf]
    split_ifs with hAny hReplaced <;> simp [hAny, hOffset]
  · simp [hOffset]

theorem removed_iff (options : Options) (input : AlignmentInput) {offset : Nat} :
    (align options input).classes.isRemoved offset = true ↔
      offset < input.source.size ∧ ¬ ((∃ id, input.sourceTree.Tops id offset ∧
          ∃ r ∈ (align options input).ranges.ranges, ∃ p ∈ r.predecessors, p.node = some id) ∨
        ∃ r ∈ (align options input).ranges.ranges, ∃ p ∈ r.predecessors,
          p.node = none ∧ p.span.contains offset = true) := by
  have hMapped : ((ownerIn? input.sourceTree.layers offset).any fun id =>
        decide (id ∈ (align options input).ranges.mappedNodes)) = true ↔
      ∃ id, input.sourceTree.Tops id offset ∧
        ∃ r ∈ (align options input).ranges.ranges, ∃ p ∈ r.predecessors, p.node = some id := by
    simp [Option.any_eq_true, Tree.ownerIn?_eq_some_iff, RangeSet.mappedNodes]
  have hUnresolved : (align options input).ranges.unresolvedSpans.any (·.contains offset) = true ↔
      ∃ r ∈ (align options input).ranges.ranges, ∃ p ∈ r.predecessors,
        p.node = none ∧ p.span.contains offset = true := by
    simp only [RangeSet.unresolvedSpans, List.any_eq_true, List.mem_flatMap, List.mem_filterMap]
    constructor
    · rintro ⟨span, ⟨r, hr, p, hp, hSpan⟩, hContains⟩
      split at hSpan
      · rename_i hNone
        cases hSpan
        exact ⟨r, hr, p, hp, hNone, hContains⟩
      · cases hSpan
    · rintro ⟨r, hr, p, hp, hNone, hContains⟩
      exact ⟨p.span, ⟨r, hr, p, hp, by simp [hNone]⟩, hContains⟩
  rw [← hMapped, ← hUnresolved, classes_align, Classes.isRemoved, Classes.ofRanges]
  simp only
  rw [any_contains_runs, isRemovedOf]
  simp only [Bool.not_eq_true', Bool.eq_false_iff, ne_eq, Bool.or_eq_true]
  rw [or_comm]

end Alignment

end Retrace
