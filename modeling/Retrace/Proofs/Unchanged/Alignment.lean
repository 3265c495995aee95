import Retrace.Proofs.Owner
import Retrace.Proofs.Unchanged.Rules

/-!
# Aligning a text with itself

A text and its tree are put on both sides, nothing is recorded, and the two trees
are zipped. Each node that can be reached is then linked to itself and to nothing
else (`Table.get?_zip_self`): the zip goes down in step on both sides, so it never
meets a node in the company of another one. A rule thus looks at one node twice,
and what it anchors stays where it is. The parentheses around the node are found
twice at the same places. None of this needs the tree to be in order.

Ranges can still exclude each other, where the spans of two nodes cross. If the tree
is in order, siblings do not overlap and nothing stands in parentheses, any two nodes
are nested or apart, every node keeps its range, and the owner of a byte within the
root has one. So exactly the bytes outside the root are left over.
-/

namespace Retrace

/-- A text with its tree on both sides, for the zip alone to link. -/
def Fixture.unchanged (text : String) (t : Tree) : Fixture := ⟨text, text, t, t, none, true⟩

/-- What is aligned for it. -/
def AlignmentInput.unchanged (text : String) (t : Tree) : AlignmentInput :=
  (Fixture.unchanged text t).inputWith (Fixture.unchanged text t).table

/-! ## The links -/

namespace Table

theorem Zipped.fst_eq_snd {t : Tree} {pair : NodeId × NodeId} (h : Zipped t t pair) :
    pair.1 = pair.2 := by
  obtain ⟨-, hPath⟩ := h
  induction hPath with
  | refl => rfl
  | @tail pair next _ hStep ih =>
    obtain ⟨-, i, hSource, hOutput⟩ := hStep
    rw [ih, hOutput] at hSource
    exact (Option.some.inj hSource).symm

/-- A link of the zip of a tree with itself leads to the same node. -/
theorem node_of_get?_zip_self {t : Tree} {id : NodeId} {link : Link}
    (h : (zip t t).get? id = some link) :
    id ∈ t.preorder ∧ ∃ n, t.node? id = some n ∧ link = .carried n.kind n.span id := by
  obtain ⟨sourceId, n, hZipped, hNode, hLink⟩ := exists_zipped_of_get? h
  have hSame : sourceId = id := hZipped.fst_eq_snd
  subst hSame
  exact ⟨hZipped.mem_preorder, n, hNode, hLink⟩

/-- Every node that can be reached is met by the zip. The induction follows the path
from the root; the parent is linked to itself, so its children were paired with
themselves. -/
theorem exists_get?_zip_self {t : Tree} {id : NodeId} (h : id ∈ t.preorder) :
    ∃ link, (zip t t).get? id = some link := by
  obtain ⟨hReachable, n, hNode⟩ := Tree.mem_preorder_iff.mp h
  have hMatching : ∀ {id n}, t.node? id = some n → Matching t t (id, id) :=
    fun hNode => ⟨_, _, hNode, hNode, rfl⟩
  induction hReachable generalizing n with
  | root =>
    obtain ⟨link, hLink⟩ := exists_mem_zipFrom_of_mem_stack (List.mem_singleton_self _)
      (hMatching hNode) (Tree.mem_ids_iff.mpr ⟨n, hNode⟩)
    exact exists_get?_ofList hLink
  | @child parent child hParent hChild ih =>
    obtain ⟨m, hParentNode, -⟩ := Tree.mem_childrenOf_iff.mp hChild
    obtain ⟨link, hLink⟩ :=
      ih (Tree.mem_preorder_iff.mpr ⟨hParent, m, hParentNode⟩) m hParentNode
    obtain ⟨-, k, -, rfl⟩ := node_of_get?_zip_self hLink
    obtain ⟨i, hi⟩ := List.mem_iff_getElem?.mp hChild
    have hStep : Descends t t (parent, parent) (child, child) := ⟨hMatching hNode, i, hi, hi⟩
    obtain ⟨found, hFound⟩ := exists_mem_zipFrom_of_descends hStep (mem_of_get?_ofList hLink)
      (Tree.mem_ids_iff.mpr ⟨n, hNode⟩)
    exact exists_get?_ofList hFound

theorem get?_zip_self {t : Tree} {id : NodeId} {link : Link} :
    (zip t t).get? id = some link ↔
      id ∈ t.preorder ∧ ∃ n, t.node? id = some n ∧ link = .carried n.kind n.span id := by
  refine ⟨node_of_get?_zip_self, ?_⟩
  rintro ⟨hId, n, hNode, rfl⟩
  obtain ⟨link, hLink⟩ := exists_get?_zip_self hId
  obtain ⟨-, m, hOther, rfl⟩ := node_of_get?_zip_self hLink
  obtain rfl : n = m := Option.some.inj (hNode.symm.trans hOther)
  exact hLink

end Table

theorem Fixture.get?_table_unchanged (text : String) (t : Tree) (id : NodeId) (link : Link) :
    (unchanged text t).table.get? id = some link ↔
      id ∈ t.preorder ∧ ∃ n, t.node? id = some n ∧ link = .carried n.kind n.span id := by
  rw [get?_table_of_zip rfl rfl]
  exact Table.get?_zip_self

/-! ## The range of a node -/

namespace Alignment

/-- The bounds of a node that is paired with itself are the same on both sides, with
or without parentheses. -/
theorem still_bounds {options : Options} {site : Site} {source output : Span} {outcome : Outcome}
    (h : bounds options site.node.span site.node (some (.ofSite site)) =
      (source, output, outcome)) :
    source = output ∧ Still outcome.anchors ∧
      (site.node.parenthesized = false → output = site.node.span) := by
  cases bounded_of_bounds h with
  | unpaired hPairing => cases hPairing
  | plain hPairing _ =>
    cases hPairing
    exact ⟨rfl, Pairing.still_align site options, fun _ => rfl⟩
  | @widened _ sourceParens outputParens hPairing hParens =>
    cases hPairing
    obtain ⟨hBoth, hSource, hOutput⟩ := parens?_eq_some_iff.mp hParens
    obtain rfl : sourceParens = outputParens := Option.some.inj (hSource.symm.trans hOutput)
    refine ⟨rfl, still_append.mpr ⟨Pairing.still_align site options, ?_⟩, fun hNot => ?_⟩
    · simp only [Still, List.forall_mem_cons, List.not_mem_nil, false_imp_iff, implies_true,
        and_true]
      exact ⟨⟨_, rfl⟩, ⟨_, rfl⟩⟩
    · simp [hNot] at hBoth

theorem pairing?_unchanged {text : String} {t : Tree} {id : NodeId} {n : Node}
    (hNode : t.node? id = some n) :
    pairing? (.unchanged text t) n (.carried n.kind n.span id) =
      some (.ofSite ⟨.ofString text, t, n⟩) :=
  pairing?_eq_some_iff.mpr ⟨_, id, n, rfl, rfl, hNode, rfl⟩

/-- The range that is offered for a node of an unchanged text. -/
structure Unmoved (n : Node) (r : Range) : Prop where
  spans : r.source = r.output
  anchors : Still r.anchors
  predecessors : r.predecessors = [⟨n.kind, n.span, some r.node⟩]
  bare : n.parenthesized = false → r.output = n.span

theorem unmoved_of_candidate? {text : String} {t : Tree} {options : Options} {id : NodeId}
    {r : Range}
    (h : candidate? options (.unchanged text t) id = some r) :
    id ∈ t.preorder ∧ ∃ n, t.node? id = some n ∧ Unmoved n r := by
  obtain ⟨n, link, problems, hNode, hLink, hRange⟩ := candidate?_eq_some_iff.mp h
  obtain ⟨hId, m, hOther, rfl⟩ := (Fixture.get?_table_unchanged text t id link).mp hLink
  obtain rfl : m = n := Option.some.inj (hOther.symm.trans hNode)
  refine ⟨hId, m, hOther, ?_⟩
  obtain ⟨hull, hHull, source, output, outcome, hBounds, rfl, -⟩ :=
    rangeOf?_eq_some_iff.mp hRange
  obtain rfl : m.span = hull := Option.some.inj hHull
  rw [pairing?_unchanged hOther] at hBounds
  obtain ⟨hSpans, hStill, hBare⟩ := still_bounds hBounds
  exact ⟨hSpans, fun a ha => hStill a (mem_of_mem_settle ha).1, rfl, hBare⟩

/-- What an alignment in which nothing moved looks like: ranges and anchors join
places to themselves, and neither a pair of kinds nor an inverted nesting is
reported. -/
structure Motionless (a : Alignment) : Prop where
  spans : ∀ r ∈ a.ranges.ranges, r.source = r.output
  anchors : ∀ r ∈ a.ranges.ranges, ∀ x ∈ r.anchors, ∃ i, x = .plain i i
  counterpart : ∀ side offset found, a.ranges.counterpart? side offset = some found →
    found = offset
  supported : ∀ d ∈ a.diagnostics, d.code ≠ .unsupportedPairing
  upright : ∀ d ∈ a.diagnostics, ∀ node existing,
    d.finding ≠ .ambiguousStructure (Conflict.invertedNesting node existing).message

theorem Unmoved.counterpart?_eq {n : Node} {r : Range} (h : Unmoved n r) {side : Side}
    {offset found : Nat} (hFound : r.counterpart? side offset = some found) : found = offset := by
  obtain ⟨a, ha, hEnd⟩ := List.exists_of_findSome?_eq_some hFound
  obtain ⟨i, rfl⟩ := h.anchors a ha
  have hHere : (if i = offset then some i else none) = some found := by
    cases side <;> exact hEnd
  obtain ⟨hOffset, hSame⟩ := Option.ite_none_right_eq_some.mp hHere
  rw [← Option.some.inj hSame, hOffset]

theorem Unmoved.not_inverted {n m : Node} {a b : Range} (ha : Unmoved n a) (hb : Unmoved m b) :
    ¬ a.Inverted b := by
  intro hInverted
  rw [Range.Inverted, ha.spans, hb.spans] at hInverted
  rcases hInverted with ⟨hDown, hUp⟩ | ⟨hUp, hDown⟩
  · exact hDown.1 (Span.encloses_antisymm hDown.2.2 hUp.2.2)
  · exact hDown.1 (Span.encloses_antisymm hDown.2.2 hUp.2.2)

section Unchanged

variable {text : String} {t : Tree} {options : Options}

theorem unmoved_of_mem_candidates {r : Range}
    (h : r ∈ candidates options (.unchanged text t)) :
    r.node ∈ t.preorder ∧ ∃ n, t.node? r.node = some n ∧ Unmoved n r := by
  obtain ⟨id, -, hCandidate⟩ := List.mem_filterMap.mp h
  obtain rfl : r.node = id := candidate?_node hCandidate
  exact unmoved_of_candidate? hCandidate

theorem unmoved_of_mem_align {r : Range}
    (h : r ∈ ((Fixture.unchanged text t).align options).ranges.ranges) :
    r.node ∈ t.preorder ∧ ∃ n, t.node? r.node = some n ∧ Unmoved n r :=
  unmoved_of_candidate? (candidate?_eq_some_iff.mpr (exists_rangeOf?_of_mem h))

/-- The rule for a node and itself only ever reports a separator next to a hole. -/
theorem finding_of_caused_unchanged {d : Diagnostic}
    (h : Caused options (.unchanged text t) d) :
    (∃ i, d.finding = .ambiguousStructure (sparseReason i)) ∨
      ∃ node existing side,
        d.finding = .ambiguousStructure (Conflict.crossing node existing side).message := by
  cases h with
  | @rule id n link r problems hNode hLink hRange hReport =>
    obtain ⟨problem, hProblem, hSome⟩ := List.mem_filterMap.mp hReport
    obtain ⟨p, hPairing, hRule⟩ := problem_of_rangeOf? hRange hProblem
    obtain ⟨-, m, hOther, rfl⟩ := (Fixture.get?_table_unchanged text t id link).mp hLink
    obtain rfl : m = n := Option.some.inj (hOther.symm.trans hNode)
    rw [pairing?_unchanged hOther, Option.some.injEq] at hPairing
    subst hPairing
    obtain ⟨i, rfl⟩ := Pairing.problem_of_mem_align_ofSite hRule
    exact Or.inl ⟨i, finding_of_report? hSome⟩
  | @clash r existing c hNew hExisting hClash hReport =>
    obtain ⟨-, n, -, hr⟩ := unmoved_of_mem_candidates hNew
    obtain ⟨-, m, -, he⟩ := unmoved_of_mem_candidates hExisting
    have hFinding := finding_of_report? hReport
    cases hClash with
    | output _ => exact Or.inr ⟨_, _, _, hFinding⟩
    | source _ _ => exact Or.inr ⟨_, _, _, hFinding⟩
    | nesting _ _ hInverted => exact absurd hInverted (hr.not_inverted he)

theorem motionless_unchanged (text : String) (t : Tree) (options : Options) :
    ((Fixture.unchanged text t).align options).Motionless where
  spans := by
    intro r hr
    obtain ⟨-, n, -, hUnmoved⟩ := unmoved_of_mem_align hr
    exact hUnmoved.spans
  anchors := by
    intro r hr
    obtain ⟨-, n, -, hUnmoved⟩ := unmoved_of_mem_align hr
    exact hUnmoved.anchors
  counterpart := by
    intro side offset found hFound
    obtain ⟨r, hr, hRange⟩ := List.exists_of_findSome?_eq_some hFound
    rw [List.mem_reverse, RangeSet.containing, List.mem_mergeSort, List.mem_filter] at hr
    obtain ⟨-, n, -, hUnmoved⟩ := unmoved_of_mem_align hr.1
    exact hUnmoved.counterpart?_eq hRange
  supported := by
    intro d hd
    rcases finding_of_caused_unchanged (caused_of_mem_align hd) with ⟨i, h⟩ | ⟨_, _, _, h⟩
    · simp [Diagnostic.code, h, Finding.code]
    · simp [Diagnostic.code, h, Finding.code]
  upright := by
    intro d hd node existing hFinding
    rcases finding_of_caused_unchanged (caused_of_mem_align hd) with ⟨i, h⟩ | ⟨a, b, side, h⟩
    · rw [h] at hFinding
      exact sparseReason_ne_message i _ (Finding.ambiguousStructure.inj hFinding)
    · rw [h] at hFinding
      exact message_crossing_ne a b node existing side (Finding.ambiguousStructure.inj hFinding)

/-! ## The classes of bytes -/

/-- Two nodes that are nested or apart have ranges that can stand together. -/
theorem compatible_unchanged {size : Nat} (h : t.WellFormed size) (hApart : t.SiblingsApart)
    (hBare : ∀ id n, t.node? id = some n → n.parenthesized = false) {a b : Range}
    (ha : a ∈ candidates options (.unchanged text t))
    (hb : b ∈ candidates options (.unchanged text t)) :
    a.Compatible b := by
  obtain ⟨haWalk, x, hx, hUnmovedA⟩ := unmoved_of_mem_candidates ha
  obtain ⟨hbWalk, y, hy, hUnmovedB⟩ := unmoved_of_mem_candidates hb
  have hA : a.output = x.span := hUnmovedA.bare (hBare _ x hx)
  have hB : b.output = y.span := hUnmovedB.bare (hBare _ y hy)
  have hSpans : Span.Parallel (x.span, x.span) (y.span, y.span) := by
    rcases h.leads_or_apart hApart (Tree.WellFormed.leads_of_mem_preorder haWalk)
      (Tree.WellFormed.leads_of_mem_preorder hbWalk) hx hy with hDown | hUp | hDisjoint
    · have hEncloses := h.encloses_of_leads hDown hx hy
      exact Or.inr (Or.inl ⟨hEncloses, hEncloses⟩)
    · have hEncloses := h.encloses_of_leads hUp hy hx
      exact Or.inr (Or.inr ⟨hEncloses, hEncloses⟩)
    · exact Or.inl ⟨hDisjoint, hDisjoint⟩
  refine Span.Parallel.compatible ?_
  rwa [Range.spans, Range.spans, hUnmovedA.spans, hUnmovedB.spans, hA, hB]

theorem exists_mem_align_unchanged {size : Nat} (h : t.WellFormed size)
    (hApart : t.SiblingsApart)
    (hBare : ∀ id n, t.node? id = some n → n.parenthesized = false) {id : NodeId}
    (hId : id ∈ t.preorder) :
    ∃ r ∈ ((Fixture.unchanged text t).align options).ranges.ranges, r.node = id := by
  obtain ⟨-, n, hNode⟩ := Tree.mem_preorder_iff.mp hId
  have hLink := (Fixture.get?_table_unchanged text t id _).mpr ⟨hId, n, hNode, rfl⟩
  have hOffered : ∃ r, candidate? options (.unchanged text t) id = some r :=
    exists_candidate? options hId hLink (by simp [Link.carried])
  have hCompatible : ∀ a ∈ candidates options (.unchanged text t),
      ∀ b ∈ candidates options (.unchanged text t), a.Compatible b :=
    fun a ha b hb => compatible_unchanged h hApart hBare ha hb
  obtain ⟨r, hCandidate⟩ := hOffered
  refine ⟨r, (perm_candidates hCompatible).mem_iff.mpr ?_, candidate?_node hCandidate⟩
  exact List.mem_filterMap.mpr ⟨id, hId, hCandidate⟩

/-- Anchors that replace nothing leave no byte substituted. -/
theorem replacements_unchanged :
    ((Fixture.unchanged text t).align options).ranges.replacements = [] := by
  refine List.flatMap_eq_nil_iff.mpr fun r hr => List.filterMap_eq_nil_iff.mpr fun a ha => ?_
  obtain ⟨-, n, -, hUnmoved⟩ := unmoved_of_mem_align hr
  obtain ⟨i, rfl⟩ := hUnmoved.anchors a ha
  rfl

theorem outputClassOf_unchanged {size : Nat} (h : t.WellFormed size) (hApart : t.SiblingsApart)
    (hBare : ∀ id n, t.node? id = some n → n.parenthesized = false) {root : Node}
    (hRoot : t.node? t.root = some root) (i : Nat) :
    outputClassOf ((Fixture.unchanged text t).align options).ranges
      ((Fixture.unchanged text t).align options).ranges.replacements (ownerIn? t.layers i) i =
        if root.span.contains i = true then .carried else .inserted := by
  have hOwned : (ownerIn? t.layers i).any
      ((Fixture.unchanged text t).align options).ranges.hasNode = true ↔
        root.span.contains i = true := by
    rw [any_hasNode_iff, ← h.exists_tops_iff hRoot]
    refine exists_congr fun id => and_iff_left_of_imp fun hTops => ?_
    exact exists_mem_align_unchanged h hApart hBare hTops.1
  simp only [outputClassOf, replacements_unchanged, hOwned, List.any_nil, Bool.false_eq_true,
    if_false]

theorem isRemoved_unchanged {size : Nat} (h : t.WellFormed size) (hApart : t.SiblingsApart)
    (hBare : ∀ id n, t.node? id = some n → n.parenthesized = false) {root : Node}
    (hRoot : t.node? t.root = some root) (i : Nat) :
    ((Fixture.unchanged text t).align options).classes.isRemoved i = true ↔
      i < (Text.ofString text).size ∧ ¬ root.span.contains i = true := by
  refine (removed_iff options (.unchanged text t)).trans (and_congr_right fun _ => not_congr ?_)
  rw [← h.exists_tops_iff hRoot]
  constructor
  · rintro (⟨id, hTops, -⟩ | ⟨r, hr, p, hp, hNone, -⟩)
    · exact ⟨id, hTops⟩
    · -- every range knows the node it comes from
      obtain ⟨-, n, -, hUnmoved⟩ := unmoved_of_mem_align hr
      rw [hUnmoved.predecessors, List.mem_singleton] at hp
      simp [hp] at hNone
  · rintro ⟨id, hTops⟩
    have hRange : ∃ r ∈ ((Fixture.unchanged text t).align options).ranges.ranges, r.node = id :=
      exists_mem_align_unchanged h hApart hBare hTops.1
    obtain ⟨r, hr, rfl⟩ := hRange
    obtain ⟨-, n, -, hUnmoved⟩ := unmoved_of_mem_align hr
    have hSelf : ⟨n.kind, n.span, some r.node⟩ ∈ r.predecessors := by
      rw [hUnmoved.predecessors]
      exact List.mem_singleton_self _
    exact Or.inl ⟨r.node, hTops, r, hr, _, hSelf, rfl⟩

end Unchanged

end Alignment

/-- The bytes within the span are carried over, and those outside it have nothing to
do with the other side. -/
structure Classes.Keeps (c : Classes) (span : Span) (size : Nat) : Prop where
  substituted : c.substituted = []
  carried : ∀ i, c.carried.any (·.contains i) = true ↔ span.contains i = true
  inserted : ∀ i, c.inserted.any (·.contains i) = true ↔ i < size ∧ ¬ span.contains i = true
  removed : ∀ i, c.removed.any (·.contains i) = true ↔ i < size ∧ ¬ span.contains i = true

namespace Fixture

theorem keeps_unchanged {text : String} {t : Tree} (options : Options)
    (h : t.WellFormed (Text.ofString text).size) (hApart : t.SiblingsApart)
    (hBare : ∀ id n, t.node? id = some n → n.parenthesized = false) {root : Node}
    (hRoot : t.node? t.root = some root) :
    ((unchanged text t).align options).classes.Keeps root.span (Text.ofString text).size := by
  have hRuns : ∀ cls, cls ≠ .removed → ∀ i,
      (((unchanged text t).align options).classes.runsOf cls).any (·.contains i) = true ↔
        i < (Text.ofString text).size ∧
          (if root.span.contains i = true then CharClass.carried else .inserted) = cls := by
    intro cls hOutput i
    rw [← Alignment.outputClassOf_unchanged h hApart hBare hRoot i]
    exact Classes.any_contains_runsOf hOutput
  have hPartition := Alignment.partition_align options (.unchanged text t)
  refine ⟨hPartition.substituted.eq_nil fun i hi => ?_, fun i => ?_, fun i => ?_,
    Alignment.isRemoved_unchanged h hApart hBare hRoot⟩
  · have hNot := ((hRuns .substituted (by decide) i).mp hi).2
    split_ifs at hNot
  · have hInside := h.inside t.root root hRoot
    refine (hRuns .carried (by decide) i).trans ?_
    by_cases hContains : root.span.contains i = true
    · have hStop := (Span.contains_iff.mp hContains).2
      simp only [hContains, if_true, and_true, iff_true]
      omega
    · simp [hContains]
  · refine (hRuns .inserted (by decide) i).trans ?_
    by_cases hContains : root.span.contains i = true <;> simp [hContains]

/-- **Nothing happens to an unchanged text.** Every node that can be reached is linked
to itself alone, ranges and anchors stay where they are, and nothing is reported but
separators next to holes and crossing spans. If the tree is in order, siblings do not
overlap and nothing is in parentheses, exactly the bytes of the root are carried
over. -/
theorem align_unchanged (text : String) (t : Tree) (options : Options) :
    (∀ id link, (unchanged text t).table.get? id = some link ↔
      id ∈ t.preorder ∧ ∃ n, t.node? id = some n ∧ link = .carried n.kind n.span id) ∧
      ((unchanged text t).align options).Motionless ∧
      (t.validate (Text.ofString text).size = .ok () → t.SiblingsApart →
        (∀ id n, t.node? id = some n → n.parenthesized = false) →
        ∃ root, t.node? t.root = some root ∧
          ((unchanged text t).align options).classes.Keeps root.span (Text.ofString text).size) := by
  refine ⟨get?_table_unchanged text t, Alignment.motionless_unchanged text t options, ?_⟩
  intro hValid hApart hBare
  have hWellFormed := Tree.validate_eq_ok_iff.mp hValid
  obtain ⟨root, hRoot⟩ := hWellFormed.root
  exact ⟨root, hRoot, keeps_unchanged options hWellFormed hApart hBare hRoot⟩

/-- A sum with a blank on either side of it. -/
def paddedSum : Tree :=
  ⟨⟨0⟩, #[⟨(Span.byte 1).cover (.byte 3), false, ⟨.binaryExpression, ⟨"+", ⟨1⟩, ⟨2⟩⟩⟩⟩,
    ⟨.byte 1, false, ⟨.identifier, ⟨"a"⟩⟩⟩,
    ⟨.byte 3, false, ⟨.identifier, ⟨"b"⟩⟩⟩]⟩

theorem align_paddedSum :
    paddedSum.validate (Text.ofString " a+b ").size = .ok () ∧ paddedSum.SiblingsApart ∧
      (∀ id n, paddedSum.node? id = some n → n.parenthesized = false) ∧
      ((unchanged " a+b " paddedSum).align .default).Motionless ∧
      ((unchanged " a+b " paddedSum).align .default).classes.Keeps ((Span.byte 1).cover (.byte 3)) 5 := by
  have hValid : paddedSum.validate (Text.ofString " a+b ").size = .ok () := rfl
  have hApart : paddedSum.SiblingsApart := by decide
  have hNodes : ∀ n ∈ paddedSum.nodes, n.parenthesized = false := by decide
  have hBare : ∀ id n, paddedSum.node? id = some n → n.parenthesized = false := by
    intro id n hNode
    exact hNodes n (Array.mem_of_getElem? hNode)
  obtain ⟨-, hMotionless, hKept⟩ := align_unchanged " a+b " paddedSum .default
  obtain ⟨root, hRoot, hKeeps⟩ := hKept hValid hApart hBare
  obtain rfl : paddedSum.nodes[0] = root := Option.some.inj hRoot
  exact ⟨hValid, hApart, hBare, hMotionless, hKeeps⟩

end Fixture

end Retrace
