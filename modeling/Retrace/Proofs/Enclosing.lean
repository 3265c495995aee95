import Retrace.Proofs.RangeSet

/-!
# The ranges around an offset

A set is ordered by the output spans of its ranges. A question about an offset of one text
collects the ranges that reach the offset there and sorts them by where they start in that
text, longer ones first. In the output this changes nothing; in the source it does.

The sorting alone puts every range in front of those it surrounds. That ranges around a
byte are nested is due to the set: no two spans in it cross, whatever was inserted before
(`encloses_of_outerLE`). It holds of the ranges that have the byte at the offset. A range
that ends at the offset is collected as well, and it may only touch the next one.
-/

namespace Retrace

/-- The span encloses a different one, which may be empty and at one of its ends. -/
def Span.Surrounds (a b : Span) : Prop := a ≠ b ∧ a.encloses b = true

theorem Range.Compatible.not_crosses {a b : Range} (h : a.Compatible b) (side : Side) :
    ¬ (a.span side).Crosses (b.span side) := by
  cases side with
  | source => exact h.source
  | output => exact h.output

namespace RangeSet

/-- The range reaches the offset on the given side, both ends included. -/
def Reaches (side : Side) (offset : Nat) (r : Range) : Prop :=
  (r.span side).start ≤ offset ∧ offset ≤ (r.span side).stop

instance (side : Side) (offset : Nat) (r : Range) : Decidable (Reaches side offset r) :=
  inferInstanceAs (Decidable ((r.span side).start ≤ offset ∧ offset ≤ (r.span side).stop))

/-! ## The order of the hits -/

theorem outerLE_iff {side : Side} {a b : Range} :
    outerLE side a b = true ↔ (a.span side).start < (b.span side).start ∨
      (a.span side).start = (b.span side).start ∧ (b.span side).stop ≤ (a.span side).stop := by
  simp [outerLE]

theorem outerLE_trans {side : Side} {a b c : Range} (hab : outerLE side a b = true)
    (hbc : outerLE side b c = true) : outerLE side a c = true := by
  rw [outerLE_iff] at hab hbc ⊢
  omega

theorem outerLE_total (side : Side) (a b : Range) :
    (outerLE side a b || outerLE side b a) = true := by
  rw [Bool.or_eq_true, outerLE_iff, outerLE_iff]
  omega

theorem not_surrounds_of_outerLE {side : Side} {a b : Range} (h : outerLE side a b = true) :
    ¬ (b.span side).Surrounds (a.span side) := by
  intro hSurrounds
  obtain ⟨hNe, hEncloses⟩ := hSurrounds
  have hOrder := outerLE_iff.mp h
  have hEnds := Span.encloses_iff.mp hEncloses
  apply hNe
  apply Span.ext
  · omega
  · omega

/-- Of two spans that do not cross and share a byte, the first in order encloses the
other. -/
theorem encloses_of_outerLE {side : Side} {a b : Range} {offset : Nat}
    (h : outerLE side a b = true) (hCross : ¬ (a.span side).Crosses (b.span side))
    (ha : (a.span side).contains offset = true) (hb : (b.span side).contains offset = true) :
    (a.span side).encloses (b.span side) = true := by
  have hOrder := outerLE_iff.mp h
  have hLeft := Span.contains_iff.mp ha
  have hRight := Span.contains_iff.mp hb
  by_contra hNot
  rw [Span.encloses_iff] at hNot
  -- the second span starts later and ends later, but before the end of the first
  apply hCross
  refine ⟨?_, ?_, ?_, ?_⟩
  · intro hSame
    rw [hSame] at hNot
    omega
  · unfold Span.Apart
    omega
  · rw [Bool.eq_false_iff, ne_eq, Span.encloses_iff]
    exact hNot
  · rw [Bool.eq_false_iff, ne_eq, Span.encloses_iff]
    omega

/-! ## The hits -/

theorem containing_eq (s : RangeSet) (side : Side) (offset : Nat) :
    s.containing side offset =
      (s.ranges.filter fun r => Reaches side offset r).mergeSort (outerLE side) := by
  have hTouches : ∀ r : Range, (r.span side).touches offset = decide (Reaches side offset r) := by
    intro r
    rw [Bool.eq_iff_iff, Span.touches_iff, decide_eq_true_eq]
    rfl
  simp only [containing, hTouches]

theorem containing_perm (s : RangeSet) (side : Side) (offset : Nat) :
    (s.containing side offset).Perm (s.ranges.filter fun r => Reaches side offset r) := by
  rw [containing_eq]
  exact List.mergeSort_perm _ _

theorem mem_containing_iff {s : RangeSet} {side : Side} {offset : Nat} {r : Range} :
    r ∈ s.containing side offset ↔ r ∈ s.ranges ∧ Reaches side offset r := by
  rw [(s.containing_perm side offset).mem_iff, List.mem_filter, decide_eq_true_eq]

theorem pairwise_containing (s : RangeSet) (side : Side) (offset : Nat) :
    (s.containing side offset).Pairwise fun a b => outerLE side a b = true := by
  apply List.pairwise_mergeSort
  · intro a b c hab hbc
    exact outerLE_trans hab hbc
  · intro a b
    exact outerLE_total side a b

/-- The order of the set is by the output spans first. -/
theorem outerLE_of_key_le {a b : Range} (h : a.key ≤ b.key) : outerLE .output a b = true := by
  have hLe := Range.le_iff.mpr h
  simp only [Range.le, Bool.or_eq_true, Bool.and_eq_true, decide_eq_true_eq] at hLe
  rw [outerLE_iff]
  show a.output.start < b.output.start ∨
    a.output.start = b.output.start ∧ b.output.stop ≤ a.output.stop
  omega

/-- As the set is ordered by the output spans, sorting by them leaves the hits where they
are. -/
theorem containing_output {s : RangeSet} (hOrdered : s.ranges.Pairwise fun a b => a.key ≤ b.key)
    (offset : Nat) :
    s.containing .output offset = s.ranges.filter fun r => Reaches .output offset r := by
  rw [containing_eq]
  apply List.mergeSort_of_pairwise
  apply List.Pairwise.filter
  apply hOrdered.imp
  intro a b hKey
  exact outerLE_of_key_le hKey

theorem closest?_eq_none_iff {s : RangeSet} {side : Side} {offset : Nat} :
    s.closest? side offset = none ↔ ∀ r ∈ s.ranges, ¬ Reaches side offset r := by
  rw [closest?, List.getLast?_eq_none_iff, List.eq_nil_iff_forall_not_mem]
  simp only [mem_containing_iff, not_and]

/-- The closest range is a hit, and no hit comes after it. -/
theorem outerLE_closest {s : RangeSet} {side : Side} {offset : Nat} {r : Range}
    (h : s.closest? side offset = some r) :
    r ∈ s.containing side offset ∧
      ∀ hit ∈ s.containing side offset, outerLE side hit r = true := by
  obtain ⟨front, hHits⟩ := List.getLast?_eq_some_iff.mp h
  have hOrder := s.pairwise_containing side offset
  rw [hHits, List.pairwise_append] at hOrder
  obtain ⟨-, -, hLast⟩ := hOrder
  rw [hHits]
  refine ⟨by simp, ?_⟩
  intro hit hHit
  rcases List.mem_append.mp hHit with hFront | hSelf
  · exact hLast hit hFront r (List.mem_singleton_self r)
  · rw [List.mem_singleton.mp hSelf, outerLE_iff]
    omega

/-- The answers to questions about one offset. -/
structure Enclosing (s : RangeSet) (side : Side) (offset : Nat) : Prop where
  hits : (s.containing side offset).Perm (s.ranges.filter fun r => Reaches side offset r)
  outward : (s.containing side offset).Pairwise fun a b =>
    ¬ (b.span side).Surrounds (a.span side)
  nested : (s.containing side offset).Pairwise fun a b =>
    (a.span side).contains offset = true → (b.span side).contains offset = true →
      a.span side = b.span side ∨ (a.span side).Surrounds (b.span side)
  order : side = .output →
    s.containing side offset = s.ranges.filter fun r => Reaches side offset r
  missing : s.closest? side offset = none ↔ ∀ r ∈ s.ranges, ¬ Reaches side offset r
  closest : ∀ r, s.closest? side offset = some r → r ∈ s.containing side offset ∧
    ∀ hit ∈ s.containing side offset, ¬ (r.span side).Surrounds (hit.span side) ∧
      (hit.span side).start ≤ (r.span side).start

/-- **What is around an offset.** After any sequence of insertions, on either side, the hits
are the ranges that reach the offset, each once; a range stands in front of those it
surrounds; those that have the byte at the offset are nested from the outside in; in the
output the hits stand as in the set. The closest range is missing only if there is no hit,
else it is a hit that surrounds no other and starts last. -/
theorem enclosing_afterInserts (calls : List Range) (side : Side) (offset : Nat) :
    (afterInserts calls).Enclosing side offset := by
  have hInvariant := invariant_afterInserts calls
  have hOrder := (afterInserts calls).pairwise_containing side offset
  constructor
  case hits => exact containing_perm _ side offset
  case outward =>
    apply hOrder.imp
    intro a b hOuter
    exact not_surrounds_of_outerLE hOuter
  case nested =>
    apply hOrder.imp_of_mem
    intro a b ha hb hOuter hContainsA hContainsB
    have hCompatible := hInvariant.compatible a (mem_containing_iff.mp ha).1 b
      (mem_containing_iff.mp hb).1
    have hEncloses :=
      encloses_of_outerLE hOuter (hCompatible.not_crosses side) hContainsA hContainsB
    by_cases hSame : a.span side = b.span side
    · exact Or.inl hSame
    · exact Or.inr ⟨hSame, hEncloses⟩
  case order =>
    intro hSide
    subst hSide
    exact containing_output hInvariant.ordered offset
  case missing => exact closest?_eq_none_iff
  case closest =>
    intro r hClosest
    obtain ⟨hMem, hLast⟩ := outerLE_closest hClosest
    refine ⟨hMem, ?_⟩
    intro hit hHit
    have hOuter := hLast hit hHit
    have hStarts := outerLE_iff.mp hOuter
    exact ⟨not_surrounds_of_outerLE hOuter, by omega⟩

end RangeSet

end Retrace
