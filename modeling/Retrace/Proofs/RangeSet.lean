import Mathlib.Data.Prod.Lex
import Retrace.Range.Set

/-!
# The ranges of a set

A set of ranges that is built up by insertions has the ranges it took in, in order,
those with equal keys as they came, and no two that exclude each other. These facts
are the fields of `RangeSet.Invariant`; one insertion keeps them
(`Invariant.insert`), and so does every sequence of insertions, whichever of them
are refused (`Invariant.afterInserts`).

The order matters for the search by halving, which is right only on a list that
is cut in two by its test (`partitionPointFrom_eq`). That a range is refused
depends on the set as a collection only, but which conflict is reported depends
on the order again: it is the one with the first range that excludes the new one
(`insert_eq_error_iff`).
-/

namespace Retrace

/-! ## Spans -/

namespace Span

/-- One span ends at or before the start of the other. -/
def Apart (a b : Span) : Prop := a.stop ≤ b.start ∨ b.stop ≤ a.start

/-- Two different spans that are not apart, and of which neither encloses the
other. -/
def Crosses (a b : Span) : Prop :=
  a ≠ b ∧ ¬ a.Apart b ∧ a.encloses b = false ∧ b.encloses a = false

/-- The span encloses a different one that is not apart from it. -/
def Holds (a b : Span) : Prop := a ≠ b ∧ ¬ a.Apart b ∧ a.encloses b = true

theorem Apart.symm {a b : Span} (h : a.Apart b) : b.Apart a := Or.symm h

theorem apart_comm {a b : Span} : a.Apart b ↔ b.Apart a := ⟨Apart.symm, Apart.symm⟩

theorem Crosses.symm {a b : Span} (h : a.Crosses b) : b.Crosses a := by
  obtain ⟨hNe, hApart, hLeft, hRight⟩ := h
  exact ⟨Ne.symm hNe, fun h => hApart h.symm, hRight, hLeft⟩

theorem encloses_antisymm {a b : Span} (hab : a.encloses b = true) (hba : b.encloses a = true) :
    a = b := by
  obtain ⟨h₁, h₂⟩ := encloses_iff.mp hab
  obtain ⟨h₃, h₄⟩ := encloses_iff.mp hba
  exact Span.ext (by omega) (by omega)

theorem relation_eq_crossing_iff {a b : Span} : a.relation b = .crossing ↔ a.Crosses b := by
  unfold relation Crosses Apart
  split_ifs <;> simp_all

theorem relation_eq_contains_iff {a b : Span} : a.relation b = .contains ↔ a.Holds b := by
  unfold relation Holds Apart
  split_ifs <;> simp_all

theorem relation_eq_within_iff {a b : Span} : a.relation b = .within ↔ b.Holds a := by
  unfold relation Holds
  split_ifs with hEqual hApart hLeft hRight
  · simp [hEqual]
  · simp only [false_iff, not_and]
    exact fun _ h => absurd (apart_comm.mp hApart) h
  · simp only [false_iff, not_and]
    exact fun hNe _ h => hNe (encloses_antisymm h hLeft)
  · exact iff_of_true rfl ⟨Ne.symm hEqual, fun h => hApart (apart_comm.mp h), hRight⟩
  · simp only [false_iff, not_and]
    exact fun _ _ => hRight

end Span

/-! ## Ranges that exclude each other -/

namespace Range

/-- The output spans are nested one way and the source spans the other way. -/
def Inverted (a b : Range) : Prop :=
  a.output.Holds b.output ∧ b.source.Holds a.source ∨
    b.output.Holds a.output ∧ a.source.Holds b.source

/-- Two ranges can stand in one set: their spans cross in neither text, and they
are not nested in opposite directions. -/
structure Compatible (a b : Range) : Prop where
  output : ¬ a.output.Crosses b.output
  source : ¬ a.source.Crosses b.source
  nesting : ¬ a.Inverted b

/-- The reason why a new range is refused for the sake of one that is there:
crossing output spans come first, then crossing source spans, then inverted
nesting. -/
inductive Clash (new existing : Range) : Conflict → Prop where
  | output (hOutput : new.output.Crosses existing.output) :
    Clash new existing (.crossing new.node existing.node .output)
  | source (hOutput : ¬ new.output.Crosses existing.output)
    (hSource : new.source.Crosses existing.source) :
    Clash new existing (.crossing new.node existing.node .source)
  | nesting (hOutput : ¬ new.output.Crosses existing.output)
    (hSource : ¬ new.source.Crosses existing.source) (hNesting : new.Inverted existing) :
    Clash new existing (.invertedNesting new.node existing.node)

theorem Compatible.symm {a b : Range} (h : a.Compatible b) : b.Compatible a where
  output := fun hCross => h.output hCross.symm
  source := fun hCross => h.source hCross.symm
  nesting := fun hInverted => h.nesting (Or.symm hInverted)

theorem Compatible.refl (a : Range) : a.Compatible a where
  output := fun hCross => hCross.1 rfl
  source := fun hCross => hCross.1 rfl
  nesting := by
    rintro (⟨hOutput, -⟩ | ⟨hOutput, -⟩) <;> exact hOutput.1 rfl

theorem conflict?_eq_some_iff {new existing : Range} {c : Conflict} :
    new.conflict? existing = some c ↔ new.Clash existing c := by
  unfold conflict?
  simp only
  split_ifs with hOutput hSource hNesting <;>
    simp only [Span.relation_eq_crossing_iff, Span.relation_eq_contains_iff,
      Span.relation_eq_within_iff] at *
  · constructor
    · rintro ⟨rfl⟩
      exact .output hOutput
    · rintro (_ | ⟨h, _⟩ | ⟨h, _, _⟩)
      · rfl
      · exact absurd hOutput h
      · exact absurd hOutput h
  · constructor
    · rintro ⟨rfl⟩
      exact .source hOutput hSource
    · rintro (h | _ | ⟨_, h, _⟩)
      · exact absurd h hOutput
      · rfl
      · exact absurd hSource h
  · constructor
    · rintro ⟨rfl⟩
      exact .nesting hOutput hSource hNesting
    · rintro (h | ⟨_, h⟩ | _)
      · exact absurd h hOutput
      · exact absurd h hSource
      · rfl
  · constructor
    · rintro ⟨⟩
    · rintro (h | ⟨_, h⟩ | ⟨_, _, h⟩)
      · exact absurd h hOutput
      · exact absurd h hSource
      · exact absurd h hNesting

theorem exists_clash_iff {new existing : Range} :
    (∃ c, new.Clash existing c) ↔ ¬ new.Compatible existing := by
  constructor
  · rintro ⟨_, h | ⟨_, h⟩ | ⟨_, _, h⟩⟩ hCompatible
    · exact hCompatible.output h
    · exact hCompatible.source h
    · exact hCompatible.nesting h
  · intro hNot
    by_cases hOutput : new.output.Crosses existing.output
    · exact ⟨_, .output hOutput⟩
    · by_cases hSource : new.source.Crosses existing.source
      · exact ⟨_, .source hOutput hSource⟩
      · by_cases hNesting : new.Inverted existing
        · exact ⟨_, .nesting hOutput hSource hNesting⟩
        · exact absurd ⟨hOutput, hSource, hNesting⟩ hNot

theorem conflict?_eq_none_iff {new existing : Range} :
    new.conflict? existing = none ↔ new.Compatible existing := by
  rw [← not_iff_not, ← exists_clash_iff, ← ne_eq, Option.ne_none_iff_exists']
  simp only [conflict?_eq_some_iff]

/-! ## The order of ranges -/

/-- What ranges are ordered by: the output start going up, the output end going
down, then the source likewise. -/
def key (r : Range) : Nat ×ₗ Natᵒᵈ ×ₗ Nat ×ₗ Natᵒᵈ :=
  toLex (r.output.start, toLex (OrderDual.toDual r.output.stop,
    toLex (r.source.start, OrderDual.toDual r.source.stop)))

theorem le_iff {a b : Range} : a.le b = true ↔ a.key ≤ b.key := by
  simp only [le, key, Prod.Lex.toLex_le_toLex, OrderDual.toDual_le_toDual,
    OrderDual.toDual_lt_toDual, Bool.or_eq_true, Bool.and_eq_true, decide_eq_true_eq,
    EmbeddingLike.apply_eq_iff_eq]

end Range

/-! ## Searching by halving -/

theorem any_getElem?_append {before : Range → Bool} {front back : List Range} {i : Nat}
    (hFront : ∀ r ∈ front, before r = true) (hBack : ∀ r ∈ back, before r = false) :
    ((front ++ back)[i]?).any before = true ↔ i < front.length := by
  by_cases hi : i < front.length
  · rw [List.getElem?_append_left hi, List.getElem?_eq_getElem hi]
    exact iff_of_true (hFront _ (List.getElem_mem hi)) hi
  · rw [List.getElem?_append_right (by omega)]
    refine iff_of_false ?_ hi
    rw [Option.any_eq_true]
    rintro ⟨r, hGet, hBefore⟩
    rw [hBack r (List.mem_of_getElem? hGet)] at hBefore
    cases hBefore

/-- On a list that its test cuts in two, the search ends at the cut. What carries
the induction is that the cut lies within the part that is still searched. -/
theorem partitionPointFrom_eq {before : Range → Bool} {front back : List Range}
    (hFront : ∀ r ∈ front, before r = true) (hBack : ∀ r ∈ back, before r = false)
    {base size : Nat} (hLow : base ≤ front.length) (hHigh : front.length ≤ base + size) :
    partitionPointFrom before (front ++ back) base size = front.length := by
  induction size using Nat.strongRecOn generalizing base with
  | ind size ih =>
    rw [partitionPointFrom]
    simp only [any_getElem?_append hFront hBack]
    split_ifs with hSmall hLeft hHalf
    · omega
    · omega
    · exact ih (size - size / 2) (by omega) (by omega) (by omega)
    · exact ih (size - size / 2) (by omega) hLow (by omega)

theorem partitionPoint_append {before : Range → Bool} {front back : List Range}
    (hFront : ∀ r ∈ front, before r = true) (hBack : ∀ r ∈ back, before r = false) :
    partitionPoint before (front ++ back) = front.length :=
  partitionPointFrom_eq hFront hBack (Nat.zero_le _) (by simp)

theorem insertIdx_length_append (front back : List Range) (r : Range) :
    (front ++ back).insertIdx front.length r = front ++ r :: back := by
  induction front with
  | nil => rfl
  | cons head front ih => simpa using ih

namespace RangeSet

/-! ## One insertion -/

/-- A range is refused for the first range of the set that it cannot stand
with. -/
theorem insert_eq_error_iff {s : RangeSet} {r : Range} {c : Conflict} :
    s.insert r = .error c ↔
      ∃ front existing back, s.ranges = front ++ existing :: back ∧
        (∀ e ∈ front, r.Compatible e) ∧ r.Clash existing c := by
  have hFind : s.conflict? r = some c ↔
      ∃ front existing back, s.ranges = front ++ existing :: back ∧
        (∀ e ∈ front, r.Compatible e) ∧ r.Clash existing c := by
    simp only [conflict?, List.findSome?_eq_some_iff, Range.conflict?_eq_some_iff,
      Range.conflict?_eq_none_iff]
    constructor
    · rintro ⟨front, existing, back, hRanges, hClash, hFront⟩
      exact ⟨front, existing, back, hRanges, hFront, hClash⟩
    · rintro ⟨front, existing, back, hRanges, hFront, hClash⟩
      exact ⟨front, existing, back, hRanges, hClash, hFront⟩
  rw [← hFind]
  unfold RangeSet.insert
  cases s.conflict? r <;> simp

theorem insert_eq_ok_iff {s t : RangeSet} {r : Range} :
    s.insert r = .ok t ↔
      (∀ e ∈ s.ranges, r.Compatible e) ∧ t = ⟨s.ranges.insertIdx (s.position r) r⟩ := by
  have hFind : s.conflict? r = none ↔ ∀ e ∈ s.ranges, r.Compatible e := by
    simp only [conflict?, List.findSome?_eq_none_iff, Range.conflict?_eq_none_iff]
  rw [← hFind]
  unfold RangeSet.insert
  cases s.conflict? r <;> simp [eq_comm]

theorem exists_insert_eq_error_iff {s : RangeSet} {r : Range} :
    (∃ c, s.insert r = .error c) ↔ ∃ e ∈ s.ranges, ¬ r.Compatible e := by
  constructor
  · rintro ⟨c, h⟩
    obtain ⟨front, existing, back, hRanges, -, hClash⟩ := insert_eq_error_iff.mp h
    exact ⟨existing, by simp [hRanges], Range.exists_clash_iff.mp ⟨c, hClash⟩⟩
  · rintro ⟨e, he, hNot⟩
    cases hInsert : s.insert r with
    | error c => exact ⟨c, rfl⟩
    | ok t => exact absurd ((insert_eq_ok_iff.mp hInsert).1 e he) hNot

/-- An insertion brings in nothing but the new range. -/
theorem mem_of_insert {s t : RangeSet} {r x : Range} (h : s.insert r = .ok t)
    (hx : x ∈ t.ranges) : x = r ∨ x ∈ s.ranges := by
  obtain ⟨-, rfl⟩ := insert_eq_ok_iff.mp h
  by_cases hPlace : s.position r ≤ s.ranges.length
  · exact (List.mem_insertIdx hPlace).mp hx
  · rw [List.insertIdx_of_length_lt (by omega)] at hx
    exact Or.inr hx

/-! ## Runs of insertions -/

/-- What holds of a set that took in the ranges `taken`, one after the other. -/
structure Invariant (taken : List Range) (s : RangeSet) : Prop where
  members : s.ranges.Perm taken
  ordered : s.ranges.Pairwise fun a b => a.key ≤ b.key
  stable : ∀ k, s.ranges.filter (fun r => r.key = k) = taken.filter (fun r => r.key = k)
  compatible : ∀ a ∈ s.ranges, ∀ b ∈ s.ranges, a.Compatible b

theorem invariant_empty : Invariant [] empty where
  members := .refl []
  ordered := List.Pairwise.nil
  stable := fun _ => rfl
  compatible := by simp [empty]

/-- An ordered set is cut in two by the test that the search makes. -/
theorem exists_cut {s : RangeSet} (hOrdered : s.ranges.Pairwise fun a b => a.key ≤ b.key)
    (r : Range) :
    ∃ front back, s.ranges = front ++ back ∧ s.position r = front.length ∧
      (∀ e ∈ front, e.key ≤ r.key) ∧ ∀ e ∈ back, r.key < e.key := by
  have hSplit : s.ranges = s.ranges.takeWhile (·.le r) ++ s.ranges.dropWhile (·.le r) :=
    List.takeWhile_append_dropWhile.symm
  have hFront : ∀ e ∈ s.ranges.takeWhile (·.le r), e.le r = true :=
    List.all_eq_true.mp List.all_takeWhile
  have hBack : ∀ e ∈ s.ranges.dropWhile (·.le r), e.le r = false := by
    intro e he
    rw [hSplit, List.pairwise_append] at hOrdered
    obtain ⟨-, hDrop, -⟩ := hOrdered
    cases hList : s.ranges.dropWhile (·.le r) with
    | nil => simp [hList] at he
    | cons first rest =>
      have hFirst : first.le r = false := by
        have := List.head?_dropWhile_not (·.le r) s.ranges
        simpa [hList] using this
      rw [hList] at he hDrop
      rcases List.mem_cons.mp he with rfl | he
      · exact hFirst
      · have hLe := (List.pairwise_cons.mp hDrop).1 e he
        rw [Bool.eq_false_iff, ne_eq, Range.le_iff] at hFirst ⊢
        exact fun h => hFirst (hLe.trans h)
  refine ⟨_, _, hSplit, ?_, fun e he => Range.le_iff.mp (hFront e he), fun e he => ?_⟩
  · have hPoint := partitionPoint_append hFront hBack
    rwa [← hSplit] at hPoint
  · rw [← not_le, ← Range.le_iff, hBack e he]
    simp

/-- One insertion keeps the invariant. The new range goes behind those with its
own key, which are all in the front part of the cut. -/
theorem Invariant.insert {taken : List Range} {s t : RangeSet} {r : Range}
    (h : Invariant taken s) (hInsert : s.insert r = .ok t) : Invariant (taken ++ [r]) t := by
  obtain ⟨hCompatible, rfl⟩ := insert_eq_ok_iff.mp hInsert
  obtain ⟨front, back, hRanges, hPosition, hFront, hBack⟩ := exists_cut h.ordered r
  have hSpliced : s.ranges.insertIdx (s.position r) r = front ++ r :: back := by
    rw [hPosition, hRanges, insertIdx_length_append]
  have hOrdered := h.ordered
  rw [hRanges, List.pairwise_append] at hOrdered
  obtain ⟨hOrderedFront, hOrderedBack, hAcross⟩ := hOrdered
  refine ⟨?_, ?_, fun k => ?_, ?_⟩
  · rw [hSpliced]
    refine List.perm_middle.trans ?_
    rw [← hRanges]
    refine (h.members.cons r).trans ?_
    exact (List.perm_append_singleton r taken).symm
  · rw [hSpliced]
    refine List.pairwise_append.mpr
      ⟨hOrderedFront, List.pairwise_cons.mpr ⟨fun e he => (hBack e he).le, hOrderedBack⟩, ?_⟩
    intro a ha b hb
    rcases List.mem_cons.mp hb with rfl | hb
    · exact hFront a ha
    · exact hAcross a ha b hb
  · rw [hSpliced, List.filter_append, List.filter_append, ← h.stable k, hRanges]
    by_cases hKey : r.key = k
    · have hNone : back.filter (fun e => e.key = k) = [] := by
        rw [List.filter_eq_nil_iff]
        intro e he
        have := (hBack e he).ne'
        simpa [← hKey] using this
      simp [hKey, hNone]
    · simp [hKey]
  · intro a ha b hb
    rcases mem_of_insert hInsert ha with hNewA | hOldA <;>
      rcases mem_of_insert hInsert hb with hNewB | hOldB
    · rw [hNewA, hNewB]
      exact Range.Compatible.refl r
    · rw [hNewA]
      exact hCompatible b hOldB
    · rw [hNewB]
      exact (hCompatible a hOldA).symm
    · exact h.compatible a hOldA b hOldB

/-- A set after a call of `insert`: a range that is refused leaves it as it is. -/
def afterInsert (s : RangeSet) (r : Range) : RangeSet :=
  match s.insert r with
  | .ok t => t
  | .error _ => s

/-- The set after a sequence of calls, starting from no ranges. -/
def afterInserts (calls : List Range) : RangeSet := calls.foldl afterInsert empty

/-- The ranges of a sequence of calls that are taken in, in the order of the
calls. -/
def takenFrom (s : RangeSet) : List Range → List Range
  | [] => []
  | r :: rest =>
    match s.insert r with
    | .ok t => r :: t.takenFrom rest
    | .error _ => s.takenFrom rest

theorem Invariant.afterInserts {taken : List Range} {s : RangeSet} (h : Invariant taken s)
    (calls : List Range) : Invariant (taken ++ s.takenFrom calls) (calls.foldl afterInsert s) := by
  induction calls generalizing taken s with
  | nil => simpa [takenFrom] using h
  | cons r rest ih =>
    rw [List.foldl_cons, takenFrom, afterInsert]
    cases hInsert : s.insert r with
    | error c => exact ih h
    | ok t =>
      have hStep := ih (h.insert hInsert)
      rwa [List.append_assoc, List.singleton_append] at hStep

theorem invariant_afterInserts (calls : List Range) :
    Invariant (empty.takenFrom calls) (RangeSet.afterInserts calls) :=
  invariant_empty.afterInserts calls

theorem takenFrom_sublist (s : RangeSet) (calls : List Range) :
    (s.takenFrom calls).Sublist calls := by
  induction calls generalizing s with
  | nil => exact .slnil
  | cons r rest ih =>
    rw [takenFrom]
    cases s.insert r with
    | error c => exact (ih s).cons r
    | ok t => exact (ih t).cons_cons r

theorem mem_of_mem_afterInserts {calls : List Range} {r : Range}
    (h : r ∈ (RangeSet.afterInserts calls).ranges) : r ∈ calls :=
  (takenFrom_sublist _ calls).subset ((invariant_afterInserts calls).members.subset h)

/-- Ranges that can all stand together are all taken in. -/
theorem takenFrom_eq_self {s : RangeSet} {calls : List Range}
    (hSet : ∀ r ∈ calls, ∀ e ∈ s.ranges, r.Compatible e)
    (hCalls : ∀ a ∈ calls, ∀ b ∈ calls, a.Compatible b) : s.takenFrom calls = calls := by
  induction calls generalizing s with
  | nil => rfl
  | cons r rest ih =>
    obtain ⟨hHead, hRest⟩ := List.forall_mem_cons.mp hSet
    have hInsert : s.insert r = .ok ⟨s.ranges.insertIdx (s.position r) r⟩ :=
      insert_eq_ok_iff.mpr ⟨hHead, rfl⟩
    rw [takenFrom, hInsert]
    refine congrArg (r :: ·) (ih (fun a ha e he => ?_) fun a ha b hb =>
      hCalls a (List.mem_cons_of_mem r ha) b (List.mem_cons_of_mem r hb))
    rcases mem_of_insert hInsert he with rfl | hOld
    · exact hCalls a (List.mem_cons_of_mem _ ha) _ List.mem_cons_self
    · exact hRest a ha e hOld

theorem afterInserts_append (calls : List Range) (r : Range) :
    afterInserts (calls ++ [r]) = (afterInserts calls).afterInsert r := by
  simp [afterInserts]

/-- A range that comes after those of the set, and that none of them excludes, is
put at the end. -/
theorem afterInsert_of_last {ranges : List Range} {r : Range}
    (h : ∀ e ∈ ranges, e.le r = true ∧ r.conflict? e = none) :
    afterInsert ⟨ranges⟩ r = ⟨ranges ++ [r]⟩ := by
  have hPoint : partitionPoint (·.le r) (ranges ++ []) = ranges.length :=
    partitionPoint_append (fun e he => (h e he).1) (by simp)
  rw [List.append_nil] at hPoint
  have hInsert : insert ⟨ranges⟩ r = .ok ⟨ranges ++ [r]⟩ := by
    refine insert_eq_ok_iff.mpr ⟨fun e he => Range.conflict?_eq_none_iff.mp (h e he).2, ?_⟩
    rw [position, hPoint, List.insertIdx_length_self]
  rw [afterInsert, hInsert]

/-- Calls that come in order, each behind the ranges that are there, add to the
end. -/
theorem foldl_afterInsert_of_ordered {ranges calls : List Range}
    (h : (ranges ++ calls).Pairwise fun a b => a.le b = true ∧ b.conflict? a = none) :
    calls.foldl afterInsert ⟨ranges⟩ = ⟨ranges ++ calls⟩ := by
  induction calls generalizing ranges with
  | nil => simp
  | cons r rest ih =>
    have hLast : ∀ e ∈ ranges, e.le r = true ∧ r.conflict? e = none :=
      fun e he => (List.pairwise_append.mp h).2.2 e he r List.mem_cons_self
    rw [List.append_cons] at h
    rw [List.foldl_cons, afterInsert_of_last hLast, ih h, ← List.append_cons]

/-- Ranges that come in order, none of which excludes an earlier one, are all
taken in, and make up the set as they are. -/
theorem afterInserts_of_ordered {calls : List Range}
    (h : calls.Pairwise fun a b => a.le b = true ∧ b.conflict? a = none) :
    afterInserts calls = ⟨calls⟩ :=
  foldl_afterInsert_of_ordered h

/-- **Representation of a set.** After any sequence of calls, whichever of them
were refused, the set has the ranges that were taken in, ordered by key, and
those with equal keys stand in the order in which they came; no two of them
exclude each other. The next range is refused exactly if it cannot stand with all
of them, on account of the first that it cannot stand with, and the set stays as
it is; otherwise it is put at its position, and the other ranges keep their
order. -/
theorem afterInserts_representation (calls : List Range) :
    (afterInserts calls).ranges.Perm (empty.takenFrom calls) ∧
      ((afterInserts calls).ranges.Pairwise fun a b => a.key ≤ b.key) ∧
      (∀ k, (afterInserts calls).ranges.filter (fun r => r.key = k) =
        (empty.takenFrom calls).filter fun r => r.key = k) ∧
      (∀ a ∈ (afterInserts calls).ranges, ∀ b ∈ (afterInserts calls).ranges,
        a.Compatible b) ∧
      (∀ r, (∃ c, (afterInserts calls).insert r = .error c) ↔
        ∃ e ∈ (afterInserts calls).ranges, ¬ r.Compatible e) ∧
      (∀ r c, (afterInserts calls).insert r = .error c ↔
        ∃ front existing back, (afterInserts calls).ranges = front ++ existing :: back ∧
          (∀ e ∈ front, r.Compatible e) ∧ r.Clash existing c) ∧
      (∀ r c, (afterInserts calls).insert r = .error c →
        afterInserts (calls ++ [r]) = afterInserts calls) ∧
      ∀ r t, (afterInserts calls).insert r = .ok t →
        afterInserts (calls ++ [r]) = t ∧
          t.ranges[(afterInserts calls).position r]? = some r ∧
          t.ranges.eraseIdx ((afterInserts calls).position r) = (afterInserts calls).ranges := by
  have hInvariant := invariant_afterInserts calls
  refine ⟨hInvariant.members, hInvariant.ordered, hInvariant.stable, hInvariant.compatible,
    fun r => exists_insert_eq_error_iff, fun r c => insert_eq_error_iff, ?_, ?_⟩
  · intro r c hInsert
    rw [afterInserts_append, afterInsert, hInsert]
  · intro r t hInsert
    obtain ⟨front, back, hRanges, hPosition, -, -⟩ := exists_cut hInvariant.ordered r
    have hAfter : afterInserts (calls ++ [r]) = t := by
      rw [afterInserts_append, afterInsert, hInsert]
    obtain ⟨-, rfl⟩ := insert_eq_ok_iff.mp hInsert
    refine ⟨hAfter, ?_, List.eraseIdx_insertIdx_self r⟩
    rw [hPosition, hRanges, insertIdx_length_append]
    simp

end RangeSet

end Retrace
