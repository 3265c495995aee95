import Mathlib.Data.List.Sort
import Retrace.Proofs.RangeSet

/-!
# The order of insertions

Whether a list of ranges can be inserted without a refusal does not depend on its
order: every range is checked against every other one, sooner or later, and the check
is symmetric (`Range.Compatible.symm`). So all of them are taken in exactly if any two
of them can stand together (`exists_insertAll_eq_ok_iff`).

The sets that come of two orders of one list have the same ranges and are both sorted
by key, hence they have the same keys at the same places. A key is nothing but the two
spans, so the sets can only differ in how they order ranges with equal spans, and there
each set keeps the order of its own list.
-/

namespace Retrace

theorem Range.key_eq_iff {a b : Range} :
    a.key = b.key ↔ a.source = b.source ∧ a.output = b.output := by
  simp only [key, EmbeddingLike.apply_eq_iff_eq, Prod.mk.injEq, Span.ext_iff]
  constructor
  · rintro ⟨hOutputStart, hOutputStop, hSourceStart, hSourceStop⟩
    exact ⟨⟨hSourceStart, hSourceStop⟩, hOutputStart, hOutputStop⟩
  · rintro ⟨⟨hSourceStart, hSourceStop⟩, hOutputStart, hOutputStop⟩
    exact ⟨hOutputStart, hOutputStop, hSourceStart, hSourceStop⟩

namespace RangeSet

/-- The set that takes in every range of a list, one after the other, unless one of
them is refused. -/
def insertAll (calls : List Range) : Except Conflict RangeSet := calls.foldlM insert empty

/-- No range of a list is refused if the calls take in the whole list. -/
theorem foldlM_insert_eq_ok_iff {calls : List Range} {s t : RangeSet} :
    calls.foldlM insert s = .ok t ↔
      s.takenFrom calls = calls ∧ t = calls.foldl afterInsert s := by
  induction calls generalizing s with
  | nil =>
    simp only [List.foldlM_nil, takenFrom, List.foldl_nil, true_and]
    constructor
    · rintro ⟨rfl⟩
      rfl
    · rintro rfl
      rfl
  | cons r rest ih =>
    rw [List.foldlM_cons, takenFrom, List.foldl_cons, afterInsert]
    cases hInsert : s.insert r with
    | error c =>
      constructor
      · intro h
        cases h
      · rintro ⟨hTaken, -⟩
        -- what is left of the list is shorter than the list
        have hLength := (takenFrom_sublist s rest).length_le
        simp only [hTaken, List.length_cons] at hLength
        omega
    | ok next =>
      simp only [List.cons.injEq, true_and]
      exact ih

theorem insertAll_eq_ok_iff {calls : List Range} {s : RangeSet} :
    insertAll calls = .ok s ↔
      (∀ a ∈ calls, ∀ b ∈ calls, a.Compatible b) ∧ s = afterInserts calls := by
  unfold insertAll
  rw [foldlM_insert_eq_ok_iff]
  refine and_congr_left fun _ => ⟨fun hTaken a ha b hb => ?_, fun hCompatible => ?_⟩
  · have hInvariant := invariant_afterInserts calls
    rw [hTaken] at hInvariant
    have hMem : ∀ r, r ∈ (afterInserts calls).ranges ↔ r ∈ calls :=
      fun _ => hInvariant.members.mem_iff
    exact hInvariant.compatible a ((hMem a).mpr ha) b ((hMem b).mpr hb)
  · refine takenFrom_eq_self ?_ hCompatible
    intro r _ e he
    cases he

/-- A list can be inserted as a whole exactly if any two of its ranges can stand
together. -/
theorem exists_insertAll_eq_ok_iff {calls : List Range} :
    (∃ s, insertAll calls = .ok s) ↔ ∀ a ∈ calls, ∀ b ∈ calls, a.Compatible b := by
  simp only [insertAll_eq_ok_iff, exists_and_left, exists_eq, and_true]

/-- A set that takes in a whole list has the ranges of that list, sorted. -/
theorem invariant_of_insertAll {calls : List Range} {s : RangeSet}
    (h : insertAll calls = .ok s) : Invariant calls s := by
  obtain ⟨hTaken, rfl⟩ := foldlM_insert_eq_ok_iff.mp h
  have hInvariant := invariant_afterInserts calls
  rwa [hTaken] at hInvariant

/-- Two sorted sets with the same ranges have the same keys at the same places. -/
theorem Invariant.map_key_eq {calls others : List Range} {s t : RangeSet}
    (hs : Invariant calls s) (ht : Invariant others t) (h : calls.Perm others) :
    s.ranges.map Range.key = t.ranges.map Range.key := by
  have hPerm : s.ranges.Perm t.ranges := (hs.members.trans h).trans ht.members.symm
  have hSortedLeft := List.pairwise_map.mpr hs.ordered
  have hSortedRight := List.pairwise_map.mpr ht.ordered
  exact (hPerm.map Range.key).eq_of_pairwise' hSortedLeft hSortedRight

theorem map_spans_eq_of_map_key_eq {xs ys : List Range}
    (h : xs.map Range.key = ys.map Range.key) :
    xs.map (fun r => (r.source, r.output)) = ys.map (fun r => (r.source, r.output)) := by
  induction xs generalizing ys with
  | nil =>
    rw [List.map_nil, eq_comm, List.map_eq_nil_iff] at h
    rw [h]
  | cons x xs ih =>
    cases ys with
    | nil => simp at h
    | cons y ys =>
      obtain ⟨hHead, hTail⟩ := List.cons.inj h
      obtain ⟨hSource, hOutput⟩ := Range.key_eq_iff.mp hHead
      simp only [List.map_cons, hSource, hOutput, ih hTail]

/-- Ranges with given spans stand in the order in which they came. -/
theorem Invariant.filter_spans_eq {taken : List Range} {s : RangeSet} (h : Invariant taken s)
    (source output : Span) :
    s.ranges.filter (fun r => r.source = source ∧ r.output = output) =
      taken.filter (fun r => r.source = source ∧ r.output = output) := by
  -- any range with these spans has the key that the invariant speaks about
  have hKey : ∀ r : Range, (r.source = source ∧ r.output = output) ↔
      r.key = Range.key ⟨source, output, ⟨0⟩, .program, [], [], []⟩ := by
    intro r
    rw [Range.key_eq_iff]
  simp only [hKey]
  exact h.stable _

/-- **The order of insertions does not matter.** If a list of ranges is put in another
order, either all its ranges are taken in both times or some range is refused both
times. The two sets then have the same ranges, with the same spans at the same places;
ranges with equal spans stand in the order of the list they were inserted from. -/
theorem insertAll_perm (calls others : List Range) (hPerm : calls.Perm others) :
    ((∃ s, insertAll calls = .ok s) ↔ ∃ t, insertAll others = .ok t) ∧
      ∀ s t, insertAll calls = .ok s → insertAll others = .ok t →
        s.ranges.Perm t.ranges ∧
          s.ranges.map (fun r => (r.source, r.output)) =
            t.ranges.map (fun r => (r.source, r.output)) ∧
          ∀ source output,
            s.ranges.filter (fun r => r.source = source ∧ r.output = output) =
                calls.filter (fun r => r.source = source ∧ r.output = output) ∧
              t.ranges.filter (fun r => r.source = source ∧ r.output = output) =
                others.filter (fun r => r.source = source ∧ r.output = output) := by
  constructor
  · rw [exists_insertAll_eq_ok_iff, exists_insertAll_eq_ok_iff]
    simp only [hPerm.mem_iff]
  · intro s t hs ht
    have hLeft := invariant_of_insertAll hs
    have hRight := invariant_of_insertAll ht
    have hSpans := map_spans_eq_of_map_key_eq (hLeft.map_key_eq hRight hPerm)
    refine ⟨(hLeft.members.trans hPerm).trans hRight.members.symm, hSpans, ?_⟩
    intro source output
    exact ⟨hLeft.filter_spans_eq source output, hRight.filter_spans_eq source output⟩

/-- The range of a node that covers the first `size` bytes of both texts. -/
def ofFirst (size node : Nat) : Range :=
  ⟨.upTo size, .upTo size, ⟨node⟩, .identifier, [], [], []⟩

/-- Two ranges with equal spans within a third one, inserted in two orders: the sets
are different, and yet alike up to the order of the two. -/
theorem insertAll_twins :
    [ofFirst 2 0, ofFirst 1 1, ofFirst 1 2].Perm [ofFirst 1 2, ofFirst 2 0, ofFirst 1 1] ∧
      ∃ s t, insertAll [ofFirst 2 0, ofFirst 1 1, ofFirst 1 2] = .ok s ∧
        insertAll [ofFirst 1 2, ofFirst 2 0, ofFirst 1 1] = .ok t ∧
        s.ranges ≠ t.ranges ∧ s.ranges.Perm t.ranges ∧
        s.ranges.map (fun r => (r.source, r.output)) =
          t.ranges.map (fun r => (r.source, r.output)) := by
  have hPerm : [ofFirst 2 0, ofFirst 1 1, ofFirst 1 2].Perm
      [ofFirst 1 2, ofFirst 2 0, ofFirst 1 1] := by decide
  have hLeft : insertAll [ofFirst 2 0, ofFirst 1 1, ofFirst 1 2] =
      .ok ⟨[ofFirst 2 0, ofFirst 1 1, ofFirst 1 2]⟩ := by cbv
  have hRight : insertAll [ofFirst 1 2, ofFirst 2 0, ofFirst 1 1] =
      .ok ⟨[ofFirst 2 0, ofFirst 1 2, ofFirst 1 1]⟩ := by cbv
  obtain ⟨hSame, hSpans, -⟩ := (insertAll_perm _ _ hPerm).2 _ _ hLeft hRight
  exact ⟨hPerm, _, _, hLeft, hRight, by decide, hSame, hSpans⟩

end RangeSet

end Retrace
