import Retrace.Proofs.Anchored
import Retrace.Proofs.Enclosing

/-!
# Where an offset leads

A look-up collects the ranges that reach an offset and asks them for an anchor there, the
last of them first. Two things could go wrong. A range that has an anchor at the offset
might not be collected, since ranges are collected by their spans and not by their anchors.
And the range that answers might have another one with an anchor inside it.

The first cannot happen in the result of an alignment: what is settled for a range lies
within its bounds, and these are the spans of the range, widened or not
(`Alignment.contains_of_mem_anchors`). The second cannot happen in any set: the hits are
sorted from the outside in, so whatever lies inside of a hit comes after it, and what comes
after the one that answers was asked before and had no anchor.

The answer need not be unique. Ranges with equal spans may both have an anchor at the
offset, and one range may have several; the statement says of the answer that it is one of
these.
-/

namespace Retrace

/-- Where the anchor stands on one side. -/
def Anchor.place (a : Anchor) : Side → Nat
  | .source => a.source
  | .output => a.output

namespace Range

/-- Some anchor of the range stands at the offset on the given side. -/
def AnchoredAt (r : Range) (side : Side) (offset : Nat) : Prop :=
  ∃ a ∈ r.anchors, a.place side = offset

theorem otherEnd?_eq_some_iff {side : Side} {offset y : Nat} {a : Anchor} :
    otherEnd? side offset a = some y ↔ a.place side = offset ∧ a.place side.other = y := by
  cases side with
  | source => simp [otherEnd?, Anchor.place, Side.other]
  | output => simp [otherEnd?, Anchor.place, Side.other]

theorem exists_anchor_of_counterpart? {r : Range} {side : Side} {offset y : Nat}
    (h : r.counterpart? side offset = some y) :
    ∃ a ∈ r.anchors, a.place side = offset ∧ a.place side.other = y := by
  obtain ⟨a, hMem, hEnd⟩ := List.exists_of_findSome?_eq_some h
  exact ⟨a, hMem, otherEnd?_eq_some_iff.mp hEnd⟩

theorem counterpart?_eq_none_iff {r : Range} {side : Side} {offset : Nat} :
    r.counterpart? side offset = none ↔ ¬ r.AnchoredAt side offset := by
  unfold counterpart? AnchoredAt
  rw [List.findSome?_eq_none_iff]
  constructor
  · intro hNone hSome
    obtain ⟨a, hMem, hPlace⟩ := hSome
    have hEnd : otherEnd? side offset a = some (a.place side.other) :=
      otherEnd?_eq_some_iff.mpr ⟨hPlace, rfl⟩
    rw [hNone a hMem] at hEnd
    cases hEnd
  · intro hNot a hMem
    cases hEnd : otherEnd? side offset a with
    | none => rfl
    | some y => exact absurd ⟨a, hMem, (otherEnd?_eq_some_iff.mp hEnd).1⟩ hNot

end Range

namespace RangeSet

/-- The anchors of every range lie within its two spans. -/
def AnchorsWithin (s : RangeSet) : Prop :=
  ∀ r ∈ s.ranges, ∀ a ∈ r.anchors, ∀ side, (r.span side).contains (a.place side) = true

theorem AnchorsWithin.mem_containing {s : RangeSet} (h : s.AnchorsWithin) {r : Range}
    {side : Side} {offset : Nat} (hRange : r ∈ s.ranges) (hAnchored : r.AnchoredAt side offset) :
    r ∈ s.containing side offset := by
  obtain ⟨a, hMem, hPlace⟩ := hAnchored
  have hInside := Span.contains_iff.mp (h r hRange a hMem side)
  rw [hPlace] at hInside
  apply mem_containing_iff.mpr
  exact ⟨hRange, hInside.1, hInside.2.le⟩

theorem AnchorsWithin.counterpart?_eq_none_iff {s : RangeSet} (h : s.AnchorsWithin) {side : Side}
    {offset : Nat} :
    s.counterpart? side offset = none ↔ ∀ r ∈ s.ranges, ¬ r.AnchoredAt side offset := by
  unfold counterpart?
  rw [List.findSome?_eq_none_iff]
  simp only [List.mem_reverse, Range.counterpart?_eq_none_iff]
  constructor
  · intro hNone r hRange hAnchored
    exact hNone r (h.mem_containing hRange hAnchored) hAnchored
  · intro hNone r hHit
    exact hNone r (mem_containing_iff.mp hHit).1

/-- The range that answers is a hit, and no hit behind it has an anchor at the offset. -/
theorem exists_hit_of_counterpart? {s : RangeSet} {side : Side} {offset y : Nat}
    (h : s.counterpart? side offset = some y) :
    ∃ front r back, s.containing side offset = front ++ r :: back ∧
      r.counterpart? side offset = some y ∧ ∀ e ∈ back, ¬ e.AnchoredAt side offset := by
  obtain ⟨behind, r, ahead, hSplit, hFound, hNone⟩ := List.findSome?_eq_some_iff.mp h
  refine ⟨ahead.reverse, r, behind.reverse, ?_, hFound, ?_⟩
  · have hHits := congrArg List.reverse hSplit
    simpa using hHits
  · intro e he
    exact Range.counterpart?_eq_none_iff.mp (hNone e (List.mem_reverse.mp he))

/-- What lies inside of the range that answers was asked before it. -/
theorem AnchorsWithin.not_anchoredAt_of_surrounds {s : RangeSet} (h : s.AnchorsWithin)
    {side : Side} {offset : Nat} {r e : Range} {front back : List Range}
    (hHits : s.containing side offset = front ++ r :: back)
    (hBack : ∀ e ∈ back, ¬ e.AnchoredAt side offset) (he : e ∈ s.ranges)
    (hInside : (r.span side).Surrounds (e.span side)) : ¬ e.AnchoredAt side offset := by
  intro hAnchored
  have hHit := h.mem_containing he hAnchored
  rw [hHits] at hHit
  rcases List.mem_append.mp hHit with hFront | hRest
  · have hOrder := s.pairwise_containing side offset
    rw [hHits, List.pairwise_append] at hOrder
    have hOuter := hOrder.2.2 e hFront r List.mem_cons_self
    exact not_surrounds_of_outerLE hOuter hInside
  · rcases List.mem_cons.mp hRest with hSame | hBehind
    · apply hInside.1
      rw [hSame]
    · exact hBack e hBehind hAnchored

/-- The answers to the question where an offset leads. -/
structure LeadsInward (s : RangeSet) (side : Side) (offset : Nat) : Prop where
  complete : (∃ y, s.counterpart? side offset = some y) ↔
    ∃ r ∈ s.ranges, r.AnchoredAt side offset
  innermost : ∀ y, s.counterpart? side offset = some y →
    ∃ r ∈ s.ranges, (∃ a ∈ r.anchors, a.place side = offset ∧ a.place side.other = y) ∧
      (r.span side).contains offset = true ∧ (r.span side.other).contains y = true ∧
      ∀ e ∈ s.ranges, (r.span side).Surrounds (e.span side) → ¬ e.AnchoredAt side offset

theorem AnchorsWithin.leadsInward {s : RangeSet} (h : s.AnchorsWithin) (side : Side)
    (offset : Nat) : s.LeadsInward side offset := by
  constructor
  case complete =>
    rw [← Option.ne_none_iff_exists', ne_eq, h.counterpart?_eq_none_iff]
    push Not
    rfl
  case innermost =>
    intro y hFound
    obtain ⟨front, r, back, hHits, hAnswer, hBack⟩ := exists_hit_of_counterpart? hFound
    have hHit : r ∈ s.containing side offset := by
      rw [hHits]
      exact List.mem_append_right front List.mem_cons_self
    have hRange : r ∈ s.ranges := (mem_containing_iff.mp hHit).1
    obtain ⟨a, hMem, hPlace, hOther⟩ := Range.exists_anchor_of_counterpart? hAnswer
    refine ⟨r, hRange, ⟨a, hMem, hPlace, hOther⟩, ?_, ?_, ?_⟩
    · rw [← hPlace]
      exact h r hRange a hMem side
    · rw [← hOther]
      exact h r hRange a hMem side.other
    · intro e he hInside
      exact h.not_anchoredAt_of_surrounds hHits hBack he hInside

end RangeSet

namespace Alignment

theorem anchorsWithin_align (options : Options) (input : AlignmentInput) :
    (align options input).ranges.AnchorsWithin := by
  intro r hRange a hAnchor side
  obtain ⟨hSource, hOutput⟩ := contains_of_mem_anchors hRange hAnchor
  cases side with
  | source => exact hSource
  | output => exact hOutput

/-- **Look-ups miss no anchor and answer from the inside.** Whatever was aligned, an offset
leads somewhere exactly if some range has an anchor there. It then leads to the other end of
such an anchor, in a range that has both ends inside its spans, and no range inside of this
one has an anchor at the offset. -/
theorem leadsInward_align (options : Options) (input : AlignmentInput) (side : Side)
    (offset : Nat) : (align options input).ranges.LeadsInward side offset :=
  (anchorsWithin_align options input).leadsInward side offset

end Alignment

end Retrace
