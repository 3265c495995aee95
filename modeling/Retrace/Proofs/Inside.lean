import Retrace.Proofs.Accounting
import Retrace.Proofs.Anchored
import Retrace.Proofs.Table

/-!
# Results inside their texts

The offsets of an alignment come from several places: the spans of nodes, the spans of
snapshots, and parentheses that were found in a text. If the input was checked, the
first and the last lie inside their texts. A snapshot is checked only through the source
node that it names. One that names no node, and for which none is found, is never held
against the source, and where it runs past the end so does the range that is made from
it (`overrunningSnapshot`). This is the only way in which an offset can leave its text
(`Fixture.inside_align`).

Anchors are out of danger, because they are made for a single predecessor that names a
node.
-/

namespace Retrace

/-! ## The end of a hull -/

namespace Span

theorem foldl_cover_stop_le_iff {spans : List Span} {first : Span} {size : Nat} :
    (spans.foldl cover first).stop ≤ size ↔
      first.stop ≤ size ∧ ∀ s ∈ spans, s.stop ≤ size := by
  induction spans generalizing first with
  | nil => simp
  | cons s rest ih =>
    rw [List.foldl_cons, ih, List.forall_mem_cons, ← and_assoc]
    exact and_congr_left fun _ => Nat.max_le

theorem hull_stop_le_iff {spans : List Span} {h : Span} {size : Nat} (hHull : hull spans = some h) :
    h.stop ≤ size ↔ ∀ s ∈ spans, s.stop ≤ size := by
  cases spans with
  | nil => cases hHull
  | cons first rest =>
    obtain rfl : rest.foldl cover first = h := Option.some.inj hHull
    rw [foldl_cover_stop_le_iff, List.forall_mem_cons]

end Span

/-- A snapshot that names no source node and runs past a text of `size` bytes. -/
def Predecessor.Overruns (p : Predecessor) (size : Nat) : Prop :=
  p.node = none ∧ size < p.span.stop

/-- Snapshots that name a node of a checked tree end where that node ends, so a hull
that runs past the text was made with one that names none. -/
theorem Link.size_lt_hull_iff {link : Link} {hull : Span} {source : Tree} {size : Nat}
    (hSource : source.WellFormed size) (hAgree : ∀ p ∈ link.predecessors, p.Agrees source)
    (hHull : link.hull? = some hull) :
    size < hull.stop ↔ ∃ p ∈ link.predecessors, p.Overruns size := by
  rw [← not_le, Span.hull_stop_le_iff hHull, List.forall_mem_map]
  constructor
  · intro hNot
    push Not at hNot
    obtain ⟨p, hp, hPast⟩ := hNot
    refine ⟨p, hp, ?_, hPast⟩
    cases hNamed : p.node with
    | none => rfl
    | some id =>
      obtain ⟨n, hNode, -, hSpan⟩ := hAgree p hp id hNamed
      have hInside := hSource.inside id n hNode
      rw [hSpan] at hInside
      omega
  · rintro ⟨p, hp, -, hPast⟩ hAll
    have hInside := hAll p hp
    omega

namespace Alignment

/-! ## The range of a node -/

/-- Parentheses of the source do not take a range past its text. -/
theorem size_lt_source_iff {options : Options} {input : AlignmentInput} {id : NodeId} {n : Node}
    {link : Link} {r : Range} {problems : List Problem}
    (hSource : input.sourceTree.WellFormed input.source.size)
    (hAgree : ∀ p ∈ link.predecessors, p.Agrees input.sourceTree)
    (hRange : rangeOf? options input id n link = some (r, problems)) :
    input.source.size < r.source.stop ↔
      ∃ p ∈ link.predecessors, p.Overruns input.source.size := by
  obtain ⟨hull, hHull, source, output, outcome, hBounds, hr, -⟩ := rangeOf?_eq_some_iff.mp hRange
  rw [← Link.size_lt_hull_iff hSource hAgree hHull, hr]
  cases bounded_of_bounds hBounds with
  | unpaired _ => rfl
  | plain _ _ => rfl
  | @widened p parens _ hPairing hParens =>
    obtain ⟨_, _, _, -, -, -, rfl⟩ := pairing?_eq_some_iff.mp hPairing
    obtain ⟨-, hFound, -⟩ := parens?_eq_some_iff.mp hParens
    have hClosing : parens.2 < input.source.size :=
      Text.lt_size_of_charAt? (Text.charAt?_of_wrappingParens? hFound).2
    have hStop : (hull.widen parens).stop = max (parens.2 + 1) hull.stop := rfl
    show input.source.size < (hull.widen parens).stop ↔ input.source.size < hull.stop
    rw [hStop]
    omega

theorem predecessors_of_rangeOf? {options : Options} {input : AlignmentInput} {id : NodeId}
    {n : Node} {link : Link} {r : Range} {problems : List Problem}
    (h : rangeOf? options input id n link = some (r, problems)) :
    r.predecessors = link.predecessors := by
  obtain ⟨_, -, _, _, _, -, rfl, -⟩ := rangeOf?_eq_some_iff.mp h
  rfl

/-! ## Diagnostics and synthesized nodes -/

theorem spans_of_report? {options : Options} {r : Range} {finding : Finding} {d : Diagnostic}
    (h : report? options r finding = some d) :
    d.outputSpan = r.output ∧ d.sourceSpan = some r.source := by
  obtain ⟨severity, -, rfl⟩ := Option.map_eq_some_iff.mp h
  exact ⟨rfl, rfl⟩

/-- A diagnostic shows the spans of the range of its node, whether that range was taken
in or not. -/
theorem exists_rangeOf?_of_diagnostic {options : Options} {input : AlignmentInput}
    {d : Diagnostic} (h : d ∈ (align options input).diagnostics) :
    ∃ n link r problems, input.outputTree.node? d.node = some n ∧
      input.provenance.get? d.node = some link ∧
      rangeOf? options input d.node n link = some (r, problems) ∧
      d.outputSpan = r.output ∧ d.sourceSpan = some r.source := by
  cases caused_of_mem_align h with
  | @rule id n link r problems hNode hLink hRange hReport =>
    obtain rfl : d.node = id := (node_of_mem_reports hReport).trans (rangeOf?_node hRange)
    obtain ⟨problem, -, hSome⟩ := List.mem_filterMap.mp hReport
    exact ⟨n, link, r, problems, hNode, hLink, hRange, spans_of_report? hSome⟩
  | @clash r existing c hNew _ _ hReport =>
    obtain ⟨id, -, hCandidate⟩ := List.mem_filterMap.mp hNew
    obtain rfl : d.node = id := (node_of_report? hReport).trans (candidate?_node hCandidate)
    obtain ⟨n, link, problems, hNode, hLink, hRange⟩ := candidate?_eq_some_iff.mp hCandidate
    exact ⟨n, link, r, problems, hNode, hLink, hRange, spans_of_report? hReport⟩

/-- A synthesized node shows the span of its node. -/
theorem exists_node_of_mem_synthesized {options : Options} {input : AlignmentInput}
    {s : SynthesizedNode} (h : s ∈ (align options input).synthesized) :
    ∃ n, input.outputTree.node? s.node = some n ∧ s.output = n.span := by
  have hRun : ∀ s ∈ (progress options input).synthesized,
      ∃ n, input.outputTree.node? s.node = some n ∧ s.output = n.span := by
    refine progress_induction options input
      (fun _ p => ∀ s ∈ p.synthesized,
        ∃ n, input.outputTree.node? s.node = some n ∧ s.output = n.span) (by simp) ?_
    intro done id rest before after _ hBefore hVisited
    cases hVisited with
    | unlinked _ => exact hBefore
    | madeUp hNode _ _ =>
      refine List.forall_mem_append.mpr ⟨hBefore, ?_⟩
      intro s hs
      obtain rfl := List.mem_singleton.mp hs
      exact ⟨_, hNode, rfl⟩
    | taken _ _ _ _ _ => exact hBefore
    | refused _ _ _ _ _ => exact hBefore
  exact hRun s h

end Alignment

namespace Fixture

theorem agrees_of_validate {f : Fixture} (h : f.validate = .ok ()) {id : NodeId} {link : Link}
    (hLink : f.table.get? id = some link) : ∀ p ∈ link.predecessors, p.Agrees f.sourceTree := by
  have hTable : f.table.validate f.sourceTree f.outputTree = .ok () := by
    unfold validate at h
    split at h
    · cases h
    · split at h
      · cases h
      · cases hCheck : f.table.validate f.sourceTree f.outputTree with
        | error fault =>
          rw [hCheck] at h
          cases h
        | ok _ => rfl
  exact (Table.validate_eq_ok_iff.mp hTable id link hLink).2

/-- The source span of a range runs past the source exactly if the range was made from a
snapshot that does and that names no source node. -/
theorem size_lt_source_iff_of_mem_align {f : Fixture} {options : Options}
    (hValid : f.validate = .ok ()) {r : Range} (hr : r ∈ (f.align options).ranges.ranges) :
    (Text.ofString f.source).size < r.source.stop ↔
      ∃ p ∈ r.predecessors, p.Overruns (Text.ofString f.source).size := by
  obtain ⟨n, link, problems, -, hLink, hRange⟩ := Alignment.exists_rangeOf?_of_mem hr
  rw [Alignment.predecessors_of_rangeOf? hRange]
  exact Alignment.size_lt_source_iff (wellFormed_of_validate hValid).1
    (agrees_of_validate hValid hLink) hRange

theorem size_lt_source_iff_of_diagnostic {f : Fixture} {options : Options}
    (hValid : f.validate = .ok ()) {d : Diagnostic} (hd : d ∈ (f.align options).diagnostics)
    {span : Span} (hSpan : d.sourceSpan = some span) :
    (Text.ofString f.source).size < span.stop ↔
      ∃ link, f.table.get? d.node = some link ∧
        ∃ p ∈ link.predecessors, p.Overruns (Text.ofString f.source).size := by
  obtain ⟨n, link, r, problems, -, hLink, hRange, -, hMade⟩ :=
    Alignment.exists_rangeOf?_of_diagnostic hd
  obtain rfl : span = r.source := Option.some.inj (hSpan.symm.trans hMade)
  have hTable : f.table.get? d.node = some link := hLink
  have hPast : (Text.ofString f.source).size < r.source.stop ↔
      ∃ p ∈ link.predecessors, p.Overruns (Text.ofString f.source).size :=
    Alignment.size_lt_source_iff (wellFormed_of_validate hValid).1
      (agrees_of_validate hValid hTable) hRange
  simp only [hPast, hTable, Option.some.injEq, exists_eq_left']

/-- An anchor lies in both texts, since a range with anchors has a single predecessor and
this one names a node. -/
theorem anchor_lt_size_of_mem_align {f : Fixture} {options : Options}
    (hValid : f.validate = .ok ()) {r : Range} (hr : r ∈ (f.align options).ranges.ranges)
    {a : Anchor} (ha : a ∈ r.anchors) :
    a.source < (Text.ofString f.source).size ∧ a.output < (Text.ofString f.output).size := by
  obtain ⟨hInSource, hInOutput⟩ := Alignment.contains_of_mem_anchors hr ha
  have hOutputStop : r.output.stop ≤ (Text.ofString f.output).size :=
    Alignment.stop_le_size_of_mem_align (wellFormed_of_validate hValid).2 hr
  have hSourceStop : ¬ (Text.ofString f.source).size < r.source.stop := by
    rw [size_lt_source_iff_of_mem_align hValid hr]
    rintro ⟨p, hp, hUnnamed, -⟩
    obtain ⟨only, id, -, hOnly, hNamed, -⟩ := Alignment.predecessor_of_mem_anchors hr ha
    rw [hOnly, List.mem_singleton] at hp
    rw [hp, hNamed] at hUnnamed
    cases hUnnamed
  have hSourceEnd := (Span.contains_iff.mp hInSource).2
  have hOutputEnd := (Span.contains_iff.mp hInOutput).2
  exact ⟨by omega, by omega⟩

/-- Where the offsets of an alignment lie. A source span runs past the source exactly if
it was made from a snapshot that does and that names no source node. -/
structure Inside (f : Fixture) (found : Alignment) : Prop where
  output : ∀ r ∈ found.ranges.ranges, r.output.stop ≤ (Text.ofString f.output).size
  source : ∀ r ∈ found.ranges.ranges, (Text.ofString f.source).size < r.source.stop ↔
    ∃ p ∈ r.predecessors, p.Overruns (Text.ofString f.source).size
  anchors : ∀ r ∈ found.ranges.ranges, ∀ a ∈ r.anchors,
    a.source < (Text.ofString f.source).size ∧ a.output < (Text.ofString f.output).size
  synthesized : ∀ s ∈ found.synthesized, s.output.stop ≤ (Text.ofString f.output).size
  reportedOutput : ∀ d ∈ found.diagnostics, d.outputSpan.stop ≤ (Text.ofString f.output).size
  reportedSource : ∀ d ∈ found.diagnostics, ∀ span, d.sourceSpan = some span →
    ((Text.ofString f.source).size < span.stop ↔
      ∃ link, f.table.get? d.node = some link ∧
        ∃ p ∈ link.predecessors, p.Overruns (Text.ofString f.source).size)

/-- **Checked input gives results inside the texts**, but for source spans that were made
from a snapshot without a source node, and these run past the source exactly if the
snapshot does. -/
theorem inside_align (f : Fixture) (options : Options) (hValid : f.validate = .ok ()) :
    f.Inside (f.align options) := by
  have hOutput : f.outputTree.WellFormed (Text.ofString f.output).size :=
    (wellFormed_of_validate hValid).2
  constructor
  case output => exact fun r hr => Alignment.stop_le_size_of_mem_align hOutput hr
  case source => exact fun r hr => size_lt_source_iff_of_mem_align hValid hr
  case anchors => exact fun r hr a ha => anchor_lt_size_of_mem_align hValid hr ha
  case synthesized =>
    intro s hs
    obtain ⟨n, hNode, hSpan⟩ := Alignment.exists_node_of_mem_synthesized hs
    rw [hSpan]
    exact hOutput.inside s.node n hNode
  case reportedOutput =>
    intro d hd
    obtain ⟨n, link, r, problems, hNode, -, hRange, hSpan, -⟩ :=
      Alignment.exists_rangeOf?_of_diagnostic hd
    rw [hSpan]
    exact Alignment.stop_le_size_of_rangeOf? hOutput hNode hRange
  case reportedSource =>
    exact fun d hd span hSpan => size_lt_source_iff_of_diagnostic hValid hd hSpan

theorem inside_wrappedArgument :
    wrappedArgument.validate = .ok () ∧
      wrappedRange ∈ (wrappedArgument.align .default).ranges.ranges ∧
      wrappedRange.source.stop ≤ 6 ∧ wrappedRange.output.stop ≤ 6 ∧
      .plain 4 4 ∈ wrappedRange.anchors ∧ 4 < (Text.ofString wrappedArgument.source).size := by
  have hInside := inside_align wrappedArgument .default validate_wrappedArgument
  have hRange : wrappedRange ∈ (wrappedArgument.align .default).ranges.ranges := by
    rw [ranges_wrappedArgument]
    exact List.mem_singleton_self wrappedRange
  have hAnchor : .plain 4 4 ∈ wrappedRange.anchors := by decide
  have hSource : ¬ (Text.ofString wrappedArgument.source).size < wrappedRange.source.stop := by
    rw [hInside.source wrappedRange hRange]
    rintro ⟨p, hp, hUnnamed, -⟩
    obtain rfl := List.mem_singleton.mp hp
    cases hUnnamed
  exact ⟨validate_wrappedArgument, hRange, Nat.le_of_not_lt hSource,
    hInside.output wrappedRange hRange, hAnchor, (hInside.anchors _ hRange _ hAnchor).1⟩

/-- A name whose snapshot is longer than the source and names no node. -/
def overrunningSnapshot : Fixture where
  source := "a"
  output := "a"
  sourceTree := ⟨⟨0⟩, #[⟨.upTo 1, false, ⟨.identifier, ⟨"a"⟩⟩⟩]⟩
  outputTree := ⟨⟨0⟩, #[⟨.upTo 1, false, ⟨.identifier, ⟨"a"⟩⟩⟩]⟩
  provenance := some ⟨[(⟨0⟩, ⟨[⟨.identifier, .upTo 9, none⟩], []⟩)], by simp [Ascending]⟩
  zip := false

/-- The range of the name has the length of the snapshot in the source. -/
def overrunningRange : Range :=
  ⟨.upTo 9, .upTo 1, ⟨0⟩, .identifier, [], [⟨.identifier, .upTo 9, none⟩], []⟩

/-- The only link, which records the snapshot. -/
def overrunningTable : Table :=
  ⟨[(⟨0⟩, ⟨[⟨.identifier, .upTo 9, none⟩], []⟩)], by simp [Ascending]⟩

theorem preorder_overrunningSnapshot : overrunningSnapshot.sourceTree.preorder = [⟨0⟩] := by
  cbv

/-- The only source node has another span, so nothing is resolved. -/
theorem table_overrunningSnapshot : overrunningSnapshot.table = overrunningTable := by
  show overrunningTable.resolve overrunningSnapshot.sourceTree = overrunningTable
  rw [Table.resolve, preorder_overrunningSnapshot]
  rfl

theorem ranges_overrunningSnapshot :
    (overrunningSnapshot.align .default).ranges = ⟨[overrunningRange]⟩ := by
  let input := overrunningSnapshot.inputWith overrunningTable
  have hWalk : input.outputTree.preorder = [⟨0⟩] := preorder_overrunningSnapshot
  have hName : Alignment.candidate? .default input ⟨0⟩ = some overrunningRange := by
    refine Alignment.candidate?_eq_some_iff.mpr ⟨_, _, [], rfl, rfl, ?_⟩
    exact Alignment.rangeOf?_of_settled [] rfl rfl .nil .nil rfl
  rw [align, table_overrunningSnapshot, Alignment.ranges_align, Alignment.candidates, hWalk,
    List.filterMap_cons_some hName]
  exact RangeSet.afterInserts_of_ordered (by decide)

/-- The check accepts the snapshot, and the range of the name runs past the source. -/
theorem past_source_overrunningSnapshot :
    overrunningSnapshot.validate = .ok () ∧
      ∃ r ∈ (overrunningSnapshot.align .default).ranges.ranges,
        (Text.ofString overrunningSnapshot.source).size < r.source.stop := by
  have hValid : overrunningSnapshot.validate = .ok () := by
    show (overrunningSnapshot.table.validate _ _).mapError FixtureFault.provenance = .ok ()
    rw [table_overrunningSnapshot]
    rfl
  refine ⟨hValid, overrunningRange, ?_, by decide⟩
  rw [ranges_overrunningSnapshot]
  exact List.mem_singleton_self overrunningRange

end Fixture

end Retrace
