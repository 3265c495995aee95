import Retrace.Proofs.Enclosing
import Retrace.Range.Depth

/-!
# The depth of a range

The listing of a set finds the depth of its ranges in one pass and closes a span for good as
soon as it does not enclose the next one. The count it stands for is over all earlier ranges
(`depthsFrom_eq`).

The two agree on a listing in which every span encloses a later one or ends before it starts
(`Span.ListedBefore`). The open spans are then nested, so those that enclose the next span
are the ones that are left after closing (`dropWhile_eq_filter`); and a span that is closed
ends before the next one starts, so it encloses nothing that comes later. The last step needs
later spans not to be empty: an empty span at the end of a closed one is enclosed by it and yet
comes after it.

A set of ranges whose output spans are not empty is listed in this way, because it is ordered by
them and no two of them cross.
-/

namespace Retrace

namespace Span

/-- The first of two spans in a listing starts no later than the second one, and encloses it or
ends where it starts or before. -/
structure ListedBefore (a b : Span) : Prop where
  start_le_start : a.start ≤ b.start
  nested_or_past : a.encloses b = true ∨ a.stop ≤ b.start

theorem encloses_trans {a b c : Span} (hab : a.encloses b = true) (hbc : b.encloses c = true) :
    a.encloses c = true := by
  rw [encloses_iff] at hab hbc ⊢
  omega

/-- What encloses a later span encloses every span on the way to it. -/
theorem ListedBefore.encloses_of_later {a b c : Span} (hab : a.ListedBefore b)
    (hbc : b.ListedBefore c) (hc : c.start < c.stop) (hac : a.encloses c = true) :
    a.encloses b = true := by
  rcases hab.nested_or_past with hNested | hPast
  · exact hNested
  · have hOrder := hbc.start_le_start
    have hEnds := encloses_iff.mp hac
    omega

end Span

/-! ## The spans that are open -/

/-- Of nested spans, those that enclose a span are all behind those that do not. -/
theorem dropWhile_eq_filter {opened : List Span} {s : Span}
    (hNested : opened.Pairwise fun inner outer => outer.encloses inner = true) :
    (opened.dropWhile fun o => !o.encloses s) = opened.filter (·.encloses s) := by
  induction opened with
  | nil => rfl
  | cons o opened ih =>
    obtain ⟨hOuter, hRest⟩ := List.pairwise_cons.mp hNested
    cases ho : o.encloses s with
    | false =>
      rw [List.dropWhile_cons_of_pos (by simp [ho]), List.filter_cons_of_neg (by simp [ho])]
      exact ih hRest
    | true =>
      have hAll : opened.filter (·.encloses s) = opened := by
        rw [List.filter_eq_self]
        intro outer hMem
        exact Span.encloses_trans (hOuter outer hMem) ho
      rw [List.dropWhile_cons_of_neg (by simp [ho]), List.filter_cons_of_pos (by simp [ho]), hAll]

/-- What holds of the open spans when the spans `seen` have been listed and `rest` is still to
come: they are nested, and among them are all earlier spans that enclose a later one. -/
structure OpenSpans (seen opened rest : List Span) : Prop where
  nested : opened.Pairwise fun inner outer => outer.encloses inner = true
  before : ∀ o ∈ opened, ∀ s ∈ rest, o.ListedBefore s
  complete : ∀ s ∈ rest, opened.filter (·.encloses s) = seen.reverse.filter (·.encloses s)

theorem openSpans_nil (spans : List Span) : OpenSpans [] [] spans where
  nested := .nil
  before := by simp
  complete := by simp

/-- Listing one span keeps this up. -/
theorem OpenSpans.next {seen opened rest : List Span} {s : Span}
    (h : OpenSpans seen opened (s :: rest)) (hListed : (s :: rest).Pairwise Span.ListedBefore)
    (hSome : ∀ r ∈ rest, r.start < r.stop) :
    OpenSpans (seen ++ [s]) (s :: opened.filter (·.encloses s)) rest := by
  obtain ⟨hBehind, -⟩ := List.pairwise_cons.mp hListed
  constructor
  case nested =>
    refine List.pairwise_cons.mpr ⟨?_, h.nested.filter _⟩
    intro outer hOuter
    exact (List.mem_filter.mp hOuter).2
  case before =>
    intro o ho later hLater
    rcases List.mem_cons.mp ho with rfl | ho
    · exact hBehind later hLater
    · exact h.before o (List.mem_filter.mp ho).1 later (List.mem_cons_of_mem s hLater)
  case complete =>
    intro later hLater
    have hKept : (opened.filter (·.encloses s)).filter (·.encloses later) =
        opened.filter (·.encloses later) := by
      rw [List.filter_filter]
      apply List.filter_congr
      intro o ho
      have hBefore := h.before o ho s List.mem_cons_self
      have hInward : o.encloses later = true → o.encloses s = true :=
        hBefore.encloses_of_later (hBehind later hLater) (hSome later hLater)
      cases hEncloses : o.encloses later with
      | false => rfl
      | true => rw [hInward hEncloses, Bool.and_self]
    rw [List.reverse_append, List.reverse_singleton, List.singleton_append, List.filter_cons,
      List.filter_cons, hKept, h.complete later (List.mem_cons_of_mem s hLater)]

/-- The pass counts for each span the earlier ones that enclose it. -/
theorem depthsFrom_eq {seen opened rest : List Span} (h : OpenSpans seen opened rest)
    (hListed : rest.Pairwise Span.ListedBefore) (hSome : ∀ r ∈ rest, r.start < r.stop) :
    depthsFrom opened rest =
      rest.mapIdx fun i s => (seen ++ rest.take i).countP (·.encloses s) := by
  induction rest generalizing seen opened with
  | nil => rfl
  | cons s rest ih =>
    have hDepth : (opened.filter (·.encloses s)).length = seen.countP (·.encloses s) := by
      rw [h.complete s List.mem_cons_self, ← List.countP_eq_length_filter, List.countP_reverse]
    have hSomeRest := (List.forall_mem_cons.mp hSome).2
    have hRest := ih (h.next hListed hSomeRest) (List.pairwise_cons.mp hListed).2 hSomeRest
    rw [depthsFrom, dropWhile_eq_filter h.nested, hDepth, hRest, List.mapIdx_cons]
    simp

/-! ## The listing of a set -/

/-- Of two ranges of a set, the output span of the first one stands before that of the second
one as in a listing. -/
theorem Range.listedBefore {a b : Range} (hOrder : a.key ≤ b.key) (hCompatible : a.Compatible b)
    (hb : b.output.start < b.output.stop) : a.output.ListedBefore b.output := by
  have hOuter := RangeSet.outerLE_of_key_le hOrder
  have hStarts : a.output.start ≤ b.output.start := by
    have hLe : a.output.start < b.output.start ∨
        a.output.start = b.output.start ∧ b.output.stop ≤ a.output.stop :=
      RangeSet.outerLE_iff.mp hOuter
    omega
  refine ⟨hStarts, ?_⟩
  by_cases hPast : a.output.stop ≤ b.output.start
  · exact Or.inr hPast
  · -- both have the first byte of the second span
    have ha : a.output.contains b.output.start = true :=
      Span.contains_iff.mpr ⟨hStarts, Nat.lt_of_not_le hPast⟩
    have hFirst : b.output.contains b.output.start = true :=
      Span.contains_iff.mpr ⟨Nat.le_refl _, hb⟩
    exact Or.inl (RangeSet.encloses_of_outerLE hOuter hCompatible.output ha hFirst)

namespace RangeSet

/-- **The depth of a range is the number of earlier ranges around it**, for every set that is
built up by insertions and has no empty output span. -/
theorem depths_afterInserts (calls : List Range)
    (hSome : ∀ r ∈ (afterInserts calls).ranges, r.output.start < r.output.stop) :
    depths (afterInserts calls).ranges =
      (afterInserts calls).ranges.mapIdx fun i r =>
        ((afterInserts calls).ranges.take i).countP fun e => e.output.encloses r.output := by
  have hInvariant := invariant_afterInserts calls
  have hListed : ((afterInserts calls).ranges.map (·.output)).Pairwise Span.ListedBefore := by
    rw [List.pairwise_map]
    apply hInvariant.ordered.imp_of_mem
    intro a b ha hb hOrder
    exact Range.listedBefore hOrder (hInvariant.compatible a ha b hb) (hSome b hb)
  have hSpans : ∀ s ∈ (afterInserts calls).ranges.map (·.output), s.start < s.stop := by
    rw [List.forall_mem_map]
    exact hSome
  rw [depths, depthsFrom_eq (openSpans_nil _) hListed hSpans]
  apply List.ext_getElem
  · simp
  · intro i hLeft hRight
    simp [← List.map_take, List.countP_map, Function.comp_def]

/-- The range of a node over the same bytes of both texts. -/
def ofSpan (start length node : Nat) : Range :=
  let span : Span := ⟨start, start + length, Nat.le_add_right start length⟩
  ⟨span, span, ⟨node⟩, .identifier, [], [], []⟩

/-- Insertions out of order, one of which is refused. Two of the ranges have equal spans, and
two stand side by side. -/
def nestedCalls : List Range :=
  [ofSpan 6 1 0, ofSpan 2 1 1, ofSpan 0 9 2, ofSpan 1 3 3, ofSpan 3 3 4, ofSpan 5 3 5, ofSpan 1 3 6]

theorem depths_nestedCalls :
    (∀ r ∈ (afterInserts nestedCalls).ranges, r.output.start < r.output.stop) ∧
      (afterInserts nestedCalls).ranges =
        [ofSpan 0 9 2, ofSpan 1 3 3, ofSpan 1 3 6, ofSpan 2 1 1, ofSpan 5 3 5, ofSpan 6 1 0] ∧
      depths (afterInserts nestedCalls).ranges = [0, 1, 2, 3, 1, 2] := by
  have hRanges : (afterInserts nestedCalls).ranges =
      [ofSpan 0 9 2, ofSpan 1 3 3, ofSpan 1 3 6, ofSpan 2 1 1, ofSpan 5 3 5, ofSpan 6 1 0] := by cbv
  have hSome : ∀ r ∈ (afterInserts nestedCalls).ranges, r.output.start < r.output.stop := by
    rw [hRanges]
    decide
  refine ⟨hSome, hRanges, ?_⟩
  rw [depths_afterInserts nestedCalls hSome, hRanges]
  decide

/-- An empty range at the end of a closed one is enclosed by two ranges and has depth one. -/
example :
    depths (afterInserts [ofSpan 0 2 0, ofSpan 2 2 1, ofSpan 2 0 2]).ranges = [0, 0, 1] ∧
      [ofSpan 0 2 0, ofSpan 2 2 1].countP (·.output.encloses (ofSpan 2 0 2).output) = 2 := by
  have hRanges : (afterInserts [ofSpan 0 2 0, ofSpan 2 2 1, ofSpan 2 0 2]).ranges =
      [ofSpan 0 2 0, ofSpan 2 2 1, ofSpan 2 0 2] := by cbv
  rw [hRanges]
  decide

end RangeSet

end Retrace
