import Retrace.Range.Basic

/-!
# Sets of ranges

A set takes in a range only if it is in conflict with none of the ranges there,
and keeps them in the order `Range.le`, those with equal spans in the order in
which they came. The place of a new range is found by halving.

Questions about an offset are answered from all ranges that hold it on the given
side, the outermost first; a cursor right after a range still belongs to it.
-/

namespace Retrace

/-- The place of the first range for which `before` fails, searched by halving
among the `size` ranges from `base` on. -/
def partitionPointFrom (before : Range → Bool) (ranges : List Range) (base size : Nat) : Nat :=
  if size ≤ 1 then
    if (ranges[base]?).any before then base + 1 else base
  else
    let half := size / 2
    if (ranges[base + half]?).any before then
      partitionPointFrom before ranges (base + half) (size - half)
    else partitionPointFrom before ranges base (size - half)
termination_by size

/-- The place of the first range for which `before` fails. -/
def partitionPoint (before : Range → Bool) (ranges : List Range) : Nat :=
  partitionPointFrom before ranges 0 ranges.length

/-- The ranges accepted so far. -/
structure RangeSet where
  ranges : List Range
deriving DecidableEq

namespace RangeSet

/-- No ranges. -/
def empty : RangeSet := ⟨[]⟩

/-- The first conflict of a range with the set. -/
def conflict? (s : RangeSet) (r : Range) : Option Conflict := s.ranges.findSome? r.conflict?

/-- The place that a range would take in the set. -/
def position (s : RangeSet) (r : Range) : Nat := partitionPoint (·.le r) s.ranges

/-- Takes in a range, unless there is a conflict. -/
def insert (s : RangeSet) (r : Range) : Except Conflict RangeSet :=
  match s.conflict? r with
  | some conflict => .error conflict
  | none => .ok ⟨s.ranges.insertIdx (s.position r) r⟩

/-- The order of the ranges that hold an offset: by where they start on the given
side, longer ones first. -/
def outerLE (side : Side) (a b : Range) : Bool :=
  decide ((a.span side).start < (b.span side).start) ||
    decide ((a.span side).start = (b.span side).start) &&
      decide ((b.span side).stop ≤ (a.span side).stop)

/-- The ranges that hold an offset on the given side, the outermost first. -/
def containing (s : RangeSet) (side : Side) (offset : Nat) : List Range :=
  (s.ranges.filter fun r => (r.span side).touches offset).mergeSort (outerLE side)

/-- The innermost range that holds an offset. -/
def closest? (s : RangeSet) (side : Side) (offset : Nat) : Option Range :=
  (s.containing side offset).getLast?

/-- Where the anchors lead from an offset, the innermost range being asked
first. -/
def counterpart? (s : RangeSet) (side : Side) (offset : Nat) : Option Nat :=
  (s.containing side offset).reverse.findSome? (·.counterpart? side offset)

end RangeSet

end Retrace
