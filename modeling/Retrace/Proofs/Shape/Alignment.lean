import Retrace.Proofs.Inside
import Retrace.Proofs.Shape.Rules

/-!
# The shape of ranges

A range joins the span of its node to the hull of its predecessors. Parentheses widen it on
both sides or on neither: they are looked for around the two nodes of a pairing, and both have
to be found. The parentheses of the source are looked for around the source node and taken
into the hull of the predecessors. These are the same span, since a pairing has a single
predecessor, and the check has compared its span with that of the node.

The anchors of a range are settled: those outside of its spans are left out, the others are
sorted by their places and an anchor that repeats the one before it is dropped. That no anchor
is left twice is due to the order in which the rules draw their anchors (`Orderly`). The sort
is stable, so it keeps this order among anchors at the same two places; there, at most the
first one is a substitution. So two equal anchors have nothing but equal ones between them.
-/

namespace Retrace

/-! ## Sorting and repetitions -/

/-- A stable sort leaves entries that it does not tell apart where they are. -/
theorem filter_mergeSort {α : Type} {le : α → α → Bool}
    (hTrans : ∀ a b c, le a b = true → le b c = true → le a c = true)
    (hTotal : ∀ a b, (le a b || le b a) = true) {p : α → Bool}
    (hTied : ∀ a b, p a = true → p b = true → le a b = true) (xs : List α) :
    (xs.mergeSort le).filter p = xs.filter p := by
  have hOrdered : (xs.filter p).Pairwise fun a b => le a b = true := by
    apply List.pairwise_of_forall_mem_list
    intro a ha b hb
    exact hTied a b (List.mem_filter.mp ha).2 (List.mem_filter.mp hb).2
  have hSublist : (xs.filter p).Sublist ((xs.mergeSort le).filter p) := by
    have hFiltered :=
      (List.sublist_mergeSort hTrans hTotal hOrdered List.filter_sublist).filter p
    simpa only [List.filter_filter, Bool.and_self] using hFiltered
  have hLength := ((List.mergeSort_perm xs le).filter p).length_eq
  exact (hSublist.eq_of_length hLength.symm).symm

theorem Orderly.mergeSort {anchors : List Anchor} (h : Orderly anchors) :
    Orderly (anchors.mergeSort Anchor.le) := by
  apply List.pairwise_iff_forall_sublist.mpr
  intro a b hPair hSource hOutput
  -- the two anchors stand in the same order before the sort
  let here : Anchor → Bool := fun c => decide (c.source = b.source) && decide (c.output = b.output)
  have hTied : ∀ c d, here c = true → here d = true → c.le d = true := by
    intro c d hc hd
    simp only [here, Bool.and_eq_true, decide_eq_true_eq] at hc hd
    rw [Anchor.le_iff]
    omega
  have hKept := hPair.filter here
  rw [filter_mergeSort Anchor.le_trans Anchor.le_total hTied anchors] at hKept
  have hBoth : [a, b].filter here = [a, b] := by
    simp [here, hSource, hOutput]
  rw [hBoth] at hKept
  exact List.pairwise_iff_forall_sublist.mp h (hKept.trans List.filter_sublist) hSource hOutput

theorem dropRepeats_sublist_self (last : Option Anchor) (anchors : List Anchor) :
    (dropRepeats last anchors).Sublist anchors := by
  induction anchors generalizing last with
  | nil => exact List.Sublist.refl []
  | cons a rest ih =>
    rw [dropRepeats]
    split
    · exact (ih last).cons a
    · exact (ih (some a)).cons_cons a

/-- The second anchor comes after the first one in a sorted list of orderly anchors. -/
def Anchor.Before (a b : Anchor) : Prop := a.le b = true ∧ a.Admits b

theorem Anchor.Before.antisymm {a b : Anchor} (hab : a.Before b) (hba : b.Before a) : a = b := by
  have hForth := Anchor.le_iff.mp hab.1
  have hBack := Anchor.le_iff.mp hba.1
  have hSource : a.source = b.source := by omega
  have hOutput : a.output = b.output := by omega
  have hPlain : a.substitution = b.substitution := by
    rw [hab.2 hSource hOutput, hba.2 hSource.symm hOutput.symm]
  cases a
  cases b
  simp only at hSource hOutput hPlain
  rw [hSource, hOutput, hPlain]

/-- Without repetitions in a row, an ordered list has none at all. The induction carries the
anchor before the first along, as the function does. -/
theorem nodup_dropRepeats {anchors : List Anchor} {last : Option Anchor}
    (h : (last.toList ++ anchors).Pairwise Anchor.Before) :
    (last.toList ++ dropRepeats last anchors).Nodup := by
  induction anchors generalizing last with
  | nil => cases last <;> simp [dropRepeats]
  | cons a rest ih =>
    have hRest : (a :: rest).Pairwise Anchor.Before := (List.pairwise_append.mp h).2.1
    rw [dropRepeats]
    split
    · apply ih
      exact h.sublist ((List.sublist_cons_self a rest).append_left _)
    · rename_i hNe
      have hNodup : (a :: dropRepeats (some a) rest).Nodup := @ih (some a) hRest
      cases last with
      | none => exact hNodup
      | some b =>
        refine List.nodup_cons.mpr ⟨?_, hNodup⟩
        intro hAgain
        obtain ⟨hFirst, -⟩ := List.pairwise_cons.mp h
        rcases List.mem_cons.mp hAgain with hSame | hLater
        · exact hNe (congrArg some hSame)
        · have hBehind := (dropRepeats_sublist_self _ _).subset hLater
          have hBack : a.Before b := (List.pairwise_cons.mp hRest).1 b hBehind
          have hForth : b.Before a := hFirst a List.mem_cons_self
          exact hNe (congrArg some (hForth.antisymm hBack))

namespace Alignment

theorem settle_eq (source output : Span) (anchors : List Anchor) :
    settle source output anchors = dropRepeats none
      ((anchors.filter fun a => source.contains a.source && output.contains a.output).mergeSort
        Anchor.le) :=
  eraseReps_eq_dropRepeats _

theorem pairwise_settle (source output : Span) (anchors : List Anchor) :
    (settle source output anchors).Pairwise fun a b => a.le b = true := by
  rw [settle_eq]
  apply List.Pairwise.sublist (dropRepeats_sublist_self none _)
  exact List.pairwise_mergeSort Anchor.le_trans Anchor.le_total _

theorem nodup_settle {anchors : List Anchor} (h : Orderly anchors) (source output : Span) :
    (settle source output anchors).Nodup := by
  rw [settle_eq]
  apply @nodup_dropRepeats _ none
  exact (List.pairwise_mergeSort Anchor.le_trans Anchor.le_total _).and
    (Orderly.mergeSort (List.Pairwise.filter _ h))

theorem orderly_bounds {options : Options} {hull source output : Span} {n : Node}
    {pairing : Option Pairing} {outcome : Outcome}
    (h : bounds options hull n pairing = (source, output, outcome)) : Orderly outcome.anchors := by
  cases bounded_of_bounds h with
  | unpaired _ => exact List.Pairwise.nil
  | plain _ _ => exact Pairing.orderly_align _ options
  | widened _ _ =>
    apply (Pairing.orderly_align _ options).append_plain
    simp [Plain, Anchor.plain]

end Alignment

/-! ## Spans -/

/-- The smallest span around some spans: it encloses them, and whatever encloses them
encloses it. -/
structure Span.IsHull (h : Span) (spans : List Span) : Prop where
  covers : ∀ s ∈ spans, h.encloses s = true
  least : ∀ c : Span, (∀ s ∈ spans, c.encloses s = true) → c.encloses h = true

namespace Span

theorem encloses_foldl_cover_iff {spans : List Span} {first c : Span} :
    c.encloses (spans.foldl cover first) = true ↔
      c.encloses first = true ∧ ∀ s ∈ spans, c.encloses s = true := by
  induction spans generalizing first with
  | nil => simp
  | cons s rest ih =>
    have hCover : c.encloses (first.cover s) = true ↔
        c.encloses first = true ∧ c.encloses s = true := by
      rw [encloses_iff, encloses_iff, encloses_iff]
      show c.start ≤ min first.start s.start ∧ max first.stop s.stop ≤ c.stop ↔ _
      omega
    rw [List.foldl_cons, ih, List.forall_mem_cons, hCover, and_assoc]

theorem isHull_of_hull {spans : List Span} {h : Span} (hHull : hull spans = some h) :
    h.IsHull spans := by
  cases spans with
  | nil => cases hHull
  | cons first rest =>
    obtain rfl : rest.foldl cover first = h := Option.some.inj hHull
    constructor
    case covers =>
      rw [List.forall_mem_cons, ← encloses_foldl_cover_iff, encloses_iff]
      omega
    case least =>
      intro c hAll
      rw [List.forall_mem_cons] at hAll
      exact encloses_foldl_cover_iff.mpr hAll

end Span

/-- The wider span has one opening parenthesis and blanks in front of the other one, and
blanks and one closing parenthesis behind it. -/
def Text.Wraps (t : Text) (wide span : Span) : Prop :=
  ∃ left right, (∀ c ∈ left, isBlank c = true) ∧ (∀ c ∈ right, isBlank c = true) ∧
    t.StandsAt wide.start ('(' :: left) ∧ wide.start + byteSize ('(' :: left) = span.start ∧
    t.StandsAt span.stop (right ++ [')']) ∧ span.stop + byteSize (right ++ [')']) = wide.stop

theorem Text.wraps_widen {t : Text} {span : Span} {parens : Nat × Nat}
    (h : t.wrappingParens? span = some parens) : t.Wraps (span.widen parens) span := by
  obtain ⟨opening, closing⟩ := parens
  obtain ⟨front, left, right, back, hLeft, hRight, hBefore, hOpening, hAfter, hClosing⟩ :=
    wrappingParens?_spec h
  obtain ⟨⟨rest, hText⟩, hStart⟩ := before?_eq_some_iff.mp hBefore
  obtain ⟨head, hHead, hStop⟩ := from?_eq_some_iff.mp hAfter
  rw [byteSize_append, hOpening] at hStart
  have hParen : byteSize ('(' :: left) = 1 + byteSize left := rfl
  have hWideStart : (span.widen (opening, closing)).start = opening := by
    show min opening span.start = opening
    omega
  have hWideStop : (span.widen (opening, closing)).stop = closing + 1 := by
    show max (closing + 1) span.stop = closing + 1
    omega
  refine ⟨left, right, hLeft, hRight, ?_, ?_, ?_, ?_⟩
  · rw [hWideStart]
    exact ⟨front, rest, by simpa using hText, hOpening⟩
  · rw [hWideStart]
    exact hStart
  · exact ⟨head, back, by simpa using hHead, hStop⟩
  · have hEnd : byteSize (right ++ [')']) = byteSize right + 1 := byteSize_append right [')']
    rw [hWideStop, hEnd, hClosing]
    omega

/-! ## Ranges -/

namespace Fixture

/-- What a range of an alignment looks like. -/
structure Shaped (f : Fixture) (r : Range) : Prop where
  linked : ∃ link, f.table.get? r.node = some link ∧ r.predecessors = link.predecessors
  spans : ∃ n hull, f.outputTree.node? r.node = some n ∧
    hull.IsHull (r.predecessors.map (·.span)) ∧
    (r.output = n.span ∧ r.source = hull ∨
      (Text.ofString f.output).Wraps r.output n.span ∧ (Text.ofString f.source).Wraps r.source hull)
  inside : ∀ a ∈ r.anchors,
    r.source.contains a.source = true ∧ r.output.contains a.output = true
  ordered : r.anchors.Pairwise fun a b =>
    a.output < b.output ∨ a.output = b.output ∧ a.source ≤ b.source
  distinct : r.anchors.Nodup

/-- Where parentheses widen a range, the hull is the span of the source node that they were
found around. -/
theorem hull_eq_of_pairing? {f : Fixture} (hValid : f.validate = .ok ()) {id : NodeId} {n : Node}
    {link : Link} {hull : Span} {p : Pairing} (hLink : f.table.get? id = some link)
    (hHull : link.hull? = some hull)
    (hPairing : Alignment.pairing? (f.inputWith f.table) n link = some p) :
    p.source.node.span = hull := by
  obtain ⟨predecessor, named, m, hSole, hNamed, hNode, rfl⟩ :=
    Alignment.pairing?_eq_some_iff.mp hPairing
  have hOnly : link.predecessors = [predecessor] := Alignment.sole?_eq_some_iff.mp hSole
  have hMem : predecessor ∈ link.predecessors := by
    rw [hOnly]
    exact List.mem_singleton_self predecessor
  obtain ⟨checked, hChecked, -, hSpan⟩ :=
    agrees_of_validate hValid hLink predecessor hMem named hNamed
  obtain rfl : checked = m := Option.some.inj (hChecked.symm.trans hNode)
  rw [Link.hull?, hOnly] at hHull
  exact hSpan.trans (Option.some.inj hHull)

/-- **The shape of a range.** In an alignment of a checked fixture, a range joins the span of
its node to the smallest span around its predecessors, or each of the two with one pair of
parentheses and the blanks inside it taken in. Its anchors lie within both spans, are ordered
by their places in the output and then in the source, and no two of them are equal. -/
theorem shaped_of_mem_align (f : Fixture) (options : Options) (hValid : f.validate = .ok ())
    (r : Range) (hRange : r ∈ (f.align options).ranges.ranges) : f.Shaped r := by
  obtain ⟨n, link, problems, hNode, hLink, hRangeOf⟩ := Alignment.exists_rangeOf?_of_mem hRange
  have hPredecessors := Alignment.predecessors_of_rangeOf? hRangeOf
  obtain ⟨hull, hHull, source, output, outcome, hBounds, hr, -⟩ :=
    Alignment.rangeOf?_eq_some_iff.mp hRangeOf
  have hAnchors : r.anchors = Alignment.settle source output outcome.anchors := by rw [hr]
  have hSource : r.source = source := by rw [hr]
  have hOutput : r.output = output := by rw [hr]
  constructor
  case linked => exact ⟨link, hLink, hPredecessors⟩
  case spans =>
    refine ⟨n, hull, hNode, ?_, ?_⟩
    · rw [hPredecessors]
      exact Span.isHull_of_hull hHull
    · rw [hSource, hOutput]
      cases Alignment.bounded_of_bounds hBounds with
      | unpaired _ => exact Or.inl ⟨rfl, rfl⟩
      | plain _ _ => exact Or.inl ⟨rfl, rfl⟩
      | @widened p _ _ hPairing hParens =>
        have hAround : p.source.node.span = hull :=
          hull_eq_of_pairing? hValid hLink hHull hPairing
        obtain ⟨_, _, _, -, -, -, rfl⟩ := Alignment.pairing?_eq_some_iff.mp hPairing
        obtain ⟨-, hInSource, hInOutput⟩ := Alignment.parens?_eq_some_iff.mp hParens
        rw [hAround] at hInSource
        exact Or.inr ⟨Text.wraps_widen hInOutput, Text.wraps_widen hInSource⟩
  case inside => exact fun a ha => Alignment.contains_of_mem_anchors hRange ha
  case ordered =>
    rw [hAnchors]
    apply (Alignment.pairwise_settle source output outcome.anchors).imp
    intro a b hLe
    exact Anchor.le_iff.mp hLe
  case distinct =>
    rw [hAnchors]
    exact Alignment.nodup_settle (Alignment.orderly_bounds hBounds) source output

/-- A string in parentheses that is given other quotes and blanks inside the parentheses. -/
def rewrappedString : Fixture where
  source := "('a')"
  output := "( \x22a\x22 )"
  sourceTree := ⟨⟨0⟩, #[⟨.cover (.byte 1) (.byte 3), true, ⟨.stringLiteral, ⟨"a"⟩⟩⟩]⟩
  outputTree := ⟨⟨0⟩, #[⟨.cover (.byte 2) (.byte 4), true, ⟨.stringLiteral, ⟨"a"⟩⟩⟩]⟩
  provenance := none
  zip := true

/-- The range of the string has the parentheses of both texts. -/
def rewrappedRange : Range where
  source := .upTo 5
  output := .upTo 7
  node := ⟨0⟩
  outputKind := .stringLiteral
  anchors := [.plain 0 0, .substitute 1 2 (some '\x27') (some '"'), .plain 2 3,
    .substitute 3 4 (some '\x27') (some '"'), .plain 4 6]
  predecessors := [⟨.stringLiteral, .cover (.byte 1) (.byte 3), some ⟨0⟩⟩]
  steps := []

/-- The two strings stand in the same place. -/
def rewrappedTable : Table :=
  ⟨[(⟨0⟩, .carried .stringLiteral (.cover (.byte 1) (.byte 3)) ⟨0⟩)], by simp [Ascending]⟩

theorem table_rewrappedString : rewrappedString.table = rewrappedTable := by
  have hLinks : Table.zipFrom rewrappedString.sourceTree rewrappedString.outputTree [⟨0⟩]
      [(⟨0⟩, ⟨0⟩)] = rewrappedTable.entries := by
    cbv
  show (Table.ofList (Table.zipFrom _ _ [⟨0⟩] [(⟨0⟩, ⟨0⟩)])).resolve _ = rewrappedTable
  rw [hLinks]
  rfl

theorem ranges_rewrappedString :
    (rewrappedString.align .default).ranges = ⟨[rewrappedRange]⟩ := by
  let input := rewrappedString.inputWith rewrappedTable
  have hWalk : input.outputTree.preorder = [⟨0⟩] := by cbv
  have hString : Alignment.candidate? .default input ⟨0⟩ = some rewrappedRange := by
    refine Alignment.candidate?_eq_some_iff.mpr ⟨_, _, [], rfl, rfl, ?_⟩
    -- the rule comes first, then the parentheses
    exact Alignment.rangeOf?_of_settled [.substitute 1 2 (some '\x27') (some '"'), .plain 2 3,
      .substitute 3 4 (some '\x27') (some '"'), .plain 0 0, .plain 4 6] rfl (by decide)
      (by decide) (by decide) rfl
  rw [align, table_rewrappedString, Alignment.ranges_align, Alignment.candidates, hWalk,
    List.filterMap_cons_some hString]
  exact RangeSet.afterInserts_of_ordered (by decide)

theorem shaped_rewrappedString :
    rewrappedString.validate = .ok () ∧
      rewrappedRange ∈ (rewrappedString.align .default).ranges.ranges ∧
      rewrappedString.Shaped rewrappedRange ∧
      (Text.ofString rewrappedString.output).Wraps rewrappedRange.output
        (.cover (.byte 2) (.byte 4)) := by
  have hValid : rewrappedString.validate = .ok () := by
    show (rewrappedString.table.validate _ _).mapError FixtureFault.provenance = .ok ()
    rw [table_rewrappedString]
    rfl
  have hRange : rewrappedRange ∈ (rewrappedString.align .default).ranges.ranges := by
    rw [ranges_rewrappedString]
    exact List.mem_singleton_self rewrappedRange
  have hShaped := shaped_of_mem_align rewrappedString .default hValid rewrappedRange hRange
  refine ⟨hValid, hRange, hShaped, ?_⟩
  obtain ⟨n, hull, hNode, -, hSpans⟩ := hShaped.spans
  obtain rfl := Option.some.inj hNode
  rcases hSpans with hSame | hWider
  · exact absurd hSame.1 (by decide)
  · exact hWider.1

end Fixture

end Retrace
