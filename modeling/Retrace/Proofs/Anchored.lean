import Retrace.Proofs.Owner
import Retrace.Proofs.Parentheses

/-!
# The classes of anchored bytes

Which bytes are anchored and which class a byte has are decided on different grounds.
Anchors are kept if they lie within the bounds of a range, and parentheses can move
these bounds beyond the span of the node. The class of a byte goes by the node that
owns it, and the parentheses around a node are owned by the node around it. So the
parentheses of a linked node are anchored, and yet they count as inserted if the node
around them was made up.

What can be said of an anchored byte is this. It lies inside its text, it is inserted
exactly if its owner has no range, and it is not inserted if it is owned by the very
node that it was anchored for. An anchor is made for a node with one predecessor that
is known, and a source byte that is owned by this predecessor is not removed.
-/

namespace Retrace

namespace Alignment

/-! ## Anchors and their ranges -/

/-- A range lies inside the output if the tree does: what widens it are characters of
the text. -/
theorem stop_le_size_of_rangeOf? {options : Options} {input : AlignmentInput} {id : NodeId}
    {n : Node} {link : Link} {r : Range} {problems : List Problem}
    (hOutput : input.outputTree.WellFormed input.output.size)
    (hNode : input.outputTree.node? id = some n)
    (hRange : rangeOf? options input id n link = some (r, problems)) :
    r.output.stop ≤ input.output.size := by
  obtain ⟨hull, -, source, output, outcome, hBounds, hr, -⟩ := rangeOf?_eq_some_iff.mp hRange
  have hInside : n.span.stop ≤ input.output.size := hOutput.inside id n hNode
  rw [hr]
  cases bounded_of_bounds hBounds with
  | unpaired _ => exact hInside
  | plain _ _ => exact hInside
  | widened hPairing hParens =>
    obtain ⟨_, _, _, -, -, -, rfl⟩ := pairing?_eq_some_iff.mp hPairing
    obtain ⟨-, -, hFound⟩ := parens?_eq_some_iff.mp hParens
    have hClosing := Text.lt_size_of_charAt? (Text.charAt?_of_wrappingParens? hFound).2
    exact Nat.max_le.mpr ⟨hClosing, hInside⟩

theorem stop_le_size_of_mem_align {options : Options} {input : AlignmentInput} {r : Range}
    (hOutput : input.outputTree.WellFormed input.output.size)
    (hRange : r ∈ (align options input).ranges.ranges) : r.output.stop ≤ input.output.size := by
  obtain ⟨n, link, problems, hNode, -, hRangeOf⟩ := exists_rangeOf?_of_mem hRange
  exact stop_le_size_of_rangeOf? hOutput hNode hRangeOf

theorem contains_of_mem_anchors {options : Options} {input : AlignmentInput} {r : Range}
    {a : Anchor} (hRange : r ∈ (align options input).ranges.ranges) (hAnchor : a ∈ r.anchors) :
    r.source.contains a.source = true ∧ r.output.contains a.output = true := by
  obtain ⟨n, link, problems, -, -, hRangeOf⟩ := exists_rangeOf?_of_mem hRange
  obtain ⟨hull, -, source, output, outcome, -, hr, -⟩ := rangeOf?_eq_some_iff.mp hRangeOf
  rw [hr] at hAnchor ⊢
  exact (mem_of_mem_settle hAnchor).2

/-- A range without a pairing has no anchors. -/
theorem predecessor_of_mem_anchors {options : Options} {input : AlignmentInput} {r : Range}
    {a : Anchor} (hRange : r ∈ (align options input).ranges.ranges) (hAnchor : a ∈ r.anchors) :
    ∃ p id n, r.predecessors = [p] ∧ p.node = some id ∧ input.sourceTree.node? id = some n := by
  obtain ⟨n, link, problems, -, -, hRangeOf⟩ := exists_rangeOf?_of_mem hRange
  obtain ⟨hull, -, source, output, outcome, hBounds, hr, -⟩ := rangeOf?_eq_some_iff.mp hRangeOf
  have hPredecessors : r.predecessors = link.predecessors := by rw [hr]
  have hMade : a ∈ outcome.anchors := by
    rw [hr] at hAnchor
    exact (mem_of_mem_settle hAnchor).1
  have hPaired : ∃ pairing, pairing? input n link = some pairing := by
    cases bounded_of_bounds hBounds with
    | unpaired _ => simp [Outcome.ofAnchors] at hMade
    | plain hPairing _ => exact ⟨_, hPairing⟩
    | widened hPairing _ => exact ⟨_, hPairing⟩
  obtain ⟨pairing, hPairing⟩ := hPaired
  obtain ⟨p, id, m, hSole, hId, hNode, -⟩ := pairing?_eq_some_iff.mp hPairing
  refine ⟨p, id, m, ?_, hId, hNode⟩
  rw [hPredecessors]
  unfold Link.sole? at hSole
  split at hSole
  · rename_i only hOnly
    rw [hOnly, Option.some.inj hSole]
  · cases hSole

end Alignment

namespace Fixture

theorem wellFormed_of_validate {f : Fixture} (h : f.validate = .ok ()) :
    f.sourceTree.WellFormed (Text.ofString f.source).size ∧
      f.outputTree.WellFormed (Text.ofString f.output).size := by
  unfold validate at h
  split at h
  · cases h
  · rename_i hSource
    split at h
    · cases h
    · rename_i hOutput
      exact ⟨Tree.validate_eq_ok_iff.mp hSource, Tree.validate_eq_ok_iff.mp hOutput⟩

/-! ## The two ends of an anchor -/

/-- What becomes of the bytes at the two ends of an anchor. -/
structure AnchorClasses (f : Fixture) (found : Alignment) (r : Range) (a : Anchor) : Prop where
  inside : a.output < (Text.ofString f.output).size
  inserted : found.classes.outputClass? a.output = some .inserted ↔
    ∀ id, f.outputTree.Tops id a.output → ∀ e ∈ found.ranges.ranges, e.node ≠ id
  own : f.outputTree.SiblingsApart → f.outputTree.Covers r.node a.output →
    (∀ child ∈ f.outputTree.childrenOf r.node, ¬ f.outputTree.Covers child a.output) →
    found.classes.outputClass? a.output ≠ some .inserted
  kept : ∀ e ∈ found.ranges.ranges, ∀ p ∈ e.predecessors,
    (∃ id, p.node = some id ∧ f.sourceTree.Tops id a.source) ∨
      p.node = none ∧ p.span.contains a.source = true →
    found.classes.isRemoved a.source = false
  predecessor : ∃ p id, r.predecessors = [p] ∧ p.node = some id ∧
    (f.sourceTree.SiblingsApart → id ∈ f.sourceTree.preorder →
      f.sourceTree.Covers id a.source →
      (∀ child ∈ f.sourceTree.childrenOf id, ¬ f.sourceTree.Covers child a.source) →
      found.classes.isRemoved a.source = false)

/-- **The class of an anchored byte goes by its owner.** The byte at the output end is
inserted exactly if its owner has no range, and never if it is owned by the node that
the anchor was made for; the byte at the source end is not removed if a range comes
from its owner, as it does if the owner is the predecessor that the anchor was made
for. -/
theorem anchorClasses_of_mem_align (f : Fixture) (options : Options)
    (hValid : f.validate = .ok ()) (r : Range)
    (hRange : r ∈ (f.align options).ranges.ranges) (a : Anchor) (hAnchor : a ∈ r.anchors) :
    f.AnchorClasses (f.align options) r a := by
  obtain ⟨hSource, hOutput⟩ := wellFormed_of_validate hValid
  have hInside : a.output < (Text.ofString f.output).size := by
    have hStop := Alignment.stop_le_size_of_mem_align hOutput hRange
    have hBelow := (Span.contains_iff.mp (Alignment.contains_of_mem_anchors hRange hAnchor).2).2
    exact Nat.lt_of_lt_of_le hBelow hStop
  have hInserted : (f.align options).classes.outputClass? a.output = some .inserted ↔
      ∀ id, f.outputTree.Tops id a.output →
        ∀ e ∈ (f.align options).ranges.ranges, e.node ≠ id := by
    refine (Alignment.inserted_iff options (f.inputWith f.table)).trans ?_
    constructor
    · rintro ⟨-, hNone⟩ id hTops e he hNode
      exact hNone ⟨id, hTops, e, he, hNode⟩
    · intro hNone
      refine ⟨hInside, ?_⟩
      rintro ⟨id, hTops, e, he, hNode⟩
      exact hNone id hTops e he hNode
  have hKept : ∀ e ∈ (f.align options).ranges.ranges, ∀ p ∈ e.predecessors,
      (∃ id, p.node = some id ∧ f.sourceTree.Tops id a.source) ∨
        p.node = none ∧ p.span.contains a.source = true →
      (f.align options).classes.isRemoved a.source = false := by
    intro e he p hp hClaim
    refine Bool.eq_false_iff.mpr fun hRemoved => ?_
    have hNone := ((Alignment.removed_iff options (f.inputWith f.table)).mp hRemoved).2
    rcases hClaim with ⟨id, hId, hTops⟩ | ⟨hUnknown, hContains⟩
    · exact hNone (Or.inl ⟨id, hTops, e, he, p, hp, hId⟩)
    · exact hNone (Or.inr ⟨e, he, p, hp, hUnknown, hContains⟩)
  refine ⟨hInside, hInserted, ?_, hKept, ?_⟩
  · intro hApart hCovers hChildren hIs
    have hWalk := Alignment.mem_preorder_of_mem_align hRange
    have hTops := (hOutput.tops_iff hApart).mpr ⟨hWalk, hCovers, hChildren⟩
    exact hInserted.mp hIs r.node hTops r hRange rfl
  · obtain ⟨p, id, -, hPredecessors, hId, -⟩ :=
      Alignment.predecessor_of_mem_anchors hRange hAnchor
    refine ⟨p, id, hPredecessors, hId, fun hApart hWalk hCovers hChildren => ?_⟩
    have hTops := (hSource.tops_iff hApart).mpr ⟨hWalk, hCovers, hChildren⟩
    have hMem : p ∈ r.predecessors := by
      rw [hPredecessors]
      exact List.mem_singleton_self p
    exact hKept r hRange p hMem (Or.inl ⟨id, hId, hTops⟩)

/-- A call around an argument in parentheses. -/
def callOf (callee : String) : Tree :=
  ⟨⟨0⟩, #[⟨.upTo 6, false, ⟨.callExpression, ⟨⟨1⟩, [⟨2⟩], false⟩⟩⟩,
    ⟨.upTo 1, false, ⟨.identifier, ⟨callee⟩⟩⟩,
    ⟨.byte 3, true, ⟨.identifier, ⟨"a"⟩⟩⟩]⟩

/-- A call is replaced by another one, and its argument is kept with the parentheses
around it. -/
def wrappedArgument : Fixture where
  source := "g((a))"
  output := "f((a))"
  sourceTree := callOf "g"
  outputTree := callOf "f"
  provenance := some ⟨[(⟨0⟩, ⟨[], [⟨"wrap", none⟩]⟩),
    (⟨2⟩, .carried .identifier (.byte 3) ⟨2⟩)], by simp [Ascending]⟩
  zip := false

/-- The range of the argument takes in the parentheses. -/
def wrappedRange : Range where
  source := (Span.byte 3).widen (2, 4)
  output := (Span.byte 3).widen (2, 4)
  node := ⟨2⟩
  outputKind := .identifier
  anchors := [.plain 2 2, .plain 3 3, .plain 4 4]
  predecessors := [⟨.identifier, .byte 3, some ⟨2⟩⟩]
  steps := []

theorem validate_wrappedArgument : wrappedArgument.validate = .ok () := rfl

theorem ranges_wrappedArgument :
    (wrappedArgument.align .default).ranges = ⟨[wrappedRange]⟩ := by
  let input := wrappedArgument.inputWith wrappedArgument.table
  have hWalk : input.outputTree.preorder = [⟨0⟩, ⟨1⟩, ⟨2⟩] := by cbv
  have hCall : Alignment.candidate? .default input ⟨0⟩ = none := rfl
  have hCallee : Alignment.candidate? .default input ⟨1⟩ = none := rfl
  have hArgument : Alignment.candidate? .default input ⟨2⟩ = some wrappedRange := by
    refine Alignment.candidate?_eq_some_iff.mpr ⟨_, _, [], rfl, rfl, ?_⟩
    -- the rule comes first, then the parentheses
    exact Alignment.rangeOf?_of_settled [.plain 3 3, .plain 2 2, .plain 4 4] rfl (by decide)
      (by decide) (by decide) rfl
  show (Alignment.align .default input).ranges = _
  rw [Alignment.ranges_align, Alignment.candidates, hWalk, List.filterMap_cons_none hCall,
    List.filterMap_cons_none hCallee, List.filterMap_cons_some hArgument]
  exact RangeSet.afterInserts_of_ordered (by decide)

theorem anchorClasses_wrappedArgument :
    wrappedArgument.validate = .ok () ∧
      wrappedRange ∈ (wrappedArgument.align .default).ranges.ranges ∧
      .plain 3 3 ∈ wrappedRange.anchors ∧
      (wrappedArgument.align .default).classes.outputClass? 3 ≠ some .inserted ∧
      (wrappedArgument.align .default).classes.isRemoved 3 = false := by
  have hRange : wrappedRange ∈ (wrappedArgument.align .default).ranges.ranges := by
    rw [ranges_wrappedArgument]
    exact List.mem_singleton_self wrappedRange
  have hAnchor : .plain 3 3 ∈ wrappedRange.anchors := by decide
  have hClasses := anchorClasses_of_mem_align wrappedArgument .default validate_wrappedArgument
    wrappedRange hRange (.plain 3 3) hAnchor
  have hCovers : ∀ callee, (callOf callee).Covers ⟨2⟩ 3 := fun _ => ⟨_, rfl, rfl⟩
  have hOutputApart : wrappedArgument.outputTree.SiblingsApart := by decide
  have hSourceApart : wrappedArgument.sourceTree.SiblingsApart := by decide
  have hWalk : ⟨2⟩ ∈ wrappedArgument.sourceTree.preorder :=
    Tree.mem_preorder_iff.mpr ⟨.child .root (by decide), _, rfl⟩
  refine ⟨validate_wrappedArgument, hRange, hAnchor, ?_, ?_⟩
  · refine hClasses.own hOutputApart (hCovers "f") ?_
    intro child hChild
    cases hChild
  · obtain ⟨p, id, hPredecessors, hId, hKept⟩ := hClasses.predecessor
    obtain rfl := List.singleton_inj.mp hPredecessors
    obtain rfl := Option.some.inj hId
    refine hKept hSourceApart hWalk (hCovers "g") ?_
    intro child hChild
    cases hChild

/-- The opening parenthesis is anchored to the opening parenthesis of the source, and
the node that owns it was made up. -/
theorem inserted_wrappedArgument :
    wrappedArgument.validate = .ok () ∧
      ∃ r ∈ (wrappedArgument.align .default).ranges.ranges, ∃ a ∈ r.anchors,
        (wrappedArgument.align .default).ranges.counterpart? .output a.output = some a.source ∧
          (wrappedArgument.align .default).classes.outputClass? a.output = some .inserted := by
  refine ⟨validate_wrappedArgument, wrappedRange, ?_, .plain 2 2, by decide, ?_, ?_⟩
  · rw [ranges_wrappedArgument]
    exact List.mem_singleton_self wrappedRange
  · rw [ranges_wrappedArgument]
    decide +kernel
  · -- only the argument has a range, and its span leaves the parenthesis out
    refine (Alignment.inserted_iff .default (wrappedArgument.inputWith _)).mpr ⟨by decide, ?_⟩
    rintro ⟨id, ⟨-, ⟨n, hNode, hContains⟩, -⟩, e, he, rfl⟩
    have hOnly : e ∈ (wrappedArgument.align .default).ranges.ranges := he
    rw [ranges_wrappedArgument, List.mem_singleton] at hOnly
    subst hOnly
    obtain rfl : wrappedArgument.outputTree.nodes[2] = n := Option.some.inj hNode
    exact absurd hContains (by decide)

end Fixture

end Retrace
