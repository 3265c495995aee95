import Retrace.Fixture
import Retrace.Proofs.Problems
import Retrace.Proofs.Run
import Retrace.Proofs.Wellformed
import Retrace.Proofs.Zip

/-!
# Zipped trees are nested alike

Take two well-formed trees in which siblings do not overlap. Of any two pairs of
nodes that the zip links, the source nodes are apart and so are the output nodes, or
the nodes of one pair hold those of the other on both sides (`parallel_of_descends`). For
the two pairs are reached from the roots by two paths of child positions. As long
as the paths agree they pass through the same pair. If one of them ends first, its
pair holds the other. If they part, they do so at two different children of one
node, on the source side and on the output side at once.

Ranges that are nested alike never exclude each other, so none is refused
(`Fixture.align_zip_nested`). Parentheses have to be left out of account: they widen
a range beyond the span of its node.
-/

namespace Retrace

/-! ## Spans that are nested alike -/

theorem Span.Apart.of_encloses {a b x y : Span} (h : a.Apart b) (hx : a.encloses x = true)
    (hy : b.encloses y = true) : x.Apart y := by
  have hLeft := Span.encloses_iff.mp hx
  have hRight := Span.encloses_iff.mp hy
  unfold Span.Apart at h ⊢
  omega

/-- Two pairs of a source span and an output span: they are apart in both texts, or
one holds the other in both. -/
def Span.Parallel (a b : Span × Span) : Prop :=
  a.1.Apart b.1 ∧ a.2.Apart b.2 ∨
    a.1.encloses b.1 = true ∧ a.2.encloses b.2 = true ∨
    b.1.encloses a.1 = true ∧ b.2.encloses a.2 = true

/-- The span of a range in the source and in the output. -/
def Range.spans (r : Range) : Span × Span := (r.source, r.output)

theorem Range.compatible_of_apart {a b : Range} (hSource : a.source.Apart b.source)
    (hOutput : a.output.Apart b.output) : a.Compatible b := by
  refine ⟨fun hCross => hCross.2.1 hOutput, fun hCross => hCross.2.1 hSource, ?_⟩
  rintro (⟨hHolds, -⟩ | ⟨hHolds, -⟩)
  · exact hHolds.2.1 hOutput
  · exact hHolds.2.1 hOutput.symm

/-- Nesting in opposite directions would make the spans equal on one side. -/
theorem Range.compatible_of_encloses {a b : Range} (hSource : a.source.encloses b.source = true)
    (hOutput : a.output.encloses b.output = true) : a.Compatible b := by
  refine ⟨fun hCross => ?_, fun hCross => ?_, ?_⟩
  · exact Bool.false_ne_true (hCross.2.2.1.symm.trans hOutput)
  · exact Bool.false_ne_true (hCross.2.2.1.symm.trans hSource)
  · rintro (⟨-, hHolds⟩ | ⟨hHolds, -⟩)
    · exact hHolds.1 (Span.encloses_antisymm hHolds.2.2 hSource)
    · exact hHolds.1 (Span.encloses_antisymm hHolds.2.2 hOutput)

theorem Span.Parallel.compatible {a b : Range} (h : Span.Parallel a.spans b.spans) :
    a.Compatible b := by
  rcases h with ⟨hSource, hOutput⟩ | ⟨hSource, hOutput⟩ | ⟨hSource, hOutput⟩
  · exact Range.compatible_of_apart hSource hOutput
  · exact Range.compatible_of_encloses hSource hOutput
  · exact (Range.compatible_of_encloses hSource hOutput).symm

/-! ## Trees in which siblings do not overlap -/

/-- The spans of any two children of one node are apart. -/
def Tree.SiblingsApart (t : Tree) : Prop :=
  ∀ id, ∀ a ∈ t.childrenOf id, ∀ b ∈ t.childrenOf id, a ≠ b → ∀ x y,
    t.node? a = some x → t.node? b = some y → x.span.Apart y.span

instance (a b : Span) : Decidable (a.Apart b) :=
  inferInstanceAs (Decidable (a.stop ≤ b.start ∨ b.stop ≤ a.start))

/-- Only the nodes of the arena have children. -/
theorem Tree.siblingsApart_iff {t : Tree} :
    t.SiblingsApart ↔ ∀ id ∈ t.ids, ∀ a ∈ t.childrenOf id, ∀ b ∈ t.childrenOf id, a ≠ b →
      ∀ x ∈ t.node? a, ∀ y ∈ t.node? b, x.span.Apart y.span := by
  constructor
  · intro h id _ a ha b hb hNe x hx y hy
    exact h id a ha b hb hNe x y hx hy
  · intro h id a ha b hb hNe x y hx hy
    obtain ⟨n, hNode, -⟩ := Tree.mem_childrenOf_iff.mp ha
    exact h id (Tree.mem_ids_iff.mpr ⟨n, hNode⟩) a ha b hb hNe x hx y hy

instance (t : Tree) : Decidable t.SiblingsApart := decidable_of_iff _ Tree.siblingsApart_iff.symm

/-- What lies below two children of one node is apart. -/
theorem Tree.WellFormed.apart_below {t : Tree} {size : Nat} (h : t.WellFormed size)
    (hApart : t.SiblingsApart) {id a b p q : NodeId} {i j : Nat} {x y : Node}
    (hIndex : i ≠ j) (ha : (t.childrenOf id)[i]? = some a) (hb : (t.childrenOf id)[j]? = some b)
    (hp : t.Leads a p) (hq : t.Leads b q) (hx : t.node? p = some x) (hy : t.node? q = some y) :
    x.span.Apart y.span := by
  have hMemA := List.mem_of_getElem? ha
  have hMemB := List.mem_of_getElem? hb
  obtain ⟨n, hNode, hChildA⟩ := Tree.mem_childrenOf_iff.mp hMemA
  have hChildB : b ∈ n.children := by rwa [Tree.childrenOf_of_node? hNode] at hMemB
  obtain ⟨u, hu, -⟩ := h.fits id n hNode a hChildA
  obtain ⟨v, hv, -⟩ := h.fits id n hNode b hChildB
  have hNe : a ≠ b := by
    rintro rfl
    obtain ⟨hLength, -⟩ := List.getElem?_eq_some_iff.mp ha
    exact hIndex ((List.getElem?_inj hLength (h.nodup_childrenOf id)).mp (ha.trans hb.symm))
  refine (hApart id a hMemA b hMemB hNe u v hu hv).of_encloses ?_ ?_
  · exact h.encloses_of_leads hp hu hx
  · exact h.encloses_of_leads hq hv hy

namespace Table

/-! ## Pairs of zipped nodes -/

theorem leads_of_descends {source output : Tree} {a b : NodeId × NodeId}
    (h : Relation.ReflTransGen (Descends source output) a b) :
    source.Leads a.1 b.1 ∧ output.Leads a.2 b.2 := by
  refine ⟨h.lift Prod.fst fun _ _ hStep => ?_, h.lift Prod.snd fun _ _ hStep => ?_⟩
  · obtain ⟨-, i, hSource, -⟩ := hStep
    exact List.mem_of_getElem? hSource
  · obtain ⟨-, i, -, hOutput⟩ := hStep
    exact List.mem_of_getElem? hOutput

/-- Two pairs that are reached from a common pair are nested alike. The induction
goes down the first path; at each step the second path ends, goes on to the same
pair, or goes to another child. -/
theorem parallel_of_descends {source output : Tree} {size length : Nat}
    (hSource : source.WellFormed size) (hOutput : output.WellFormed length)
    (hSourceApart : source.SiblingsApart) (hOutputApart : output.SiblingsApart)
    {start a b : NodeId × NodeId} {s o u v : Node}
    (ha : Relation.ReflTransGen (Descends source output) start a)
    (hb : Relation.ReflTransGen (Descends source output) start b)
    (hs : source.node? a.1 = some s) (ho : output.node? a.2 = some o)
    (hu : source.node? b.1 = some u) (hv : output.node? b.2 = some v) :
    Span.Parallel (s.span, o.span) (u.span, v.span) := by
  induction ha using Relation.ReflTransGen.head_induction_on with
  | refl =>
    obtain ⟨hLeft, hRight⟩ := leads_of_descends hb
    exact Or.inr (Or.inl
      ⟨hSource.encloses_of_leads hLeft hs hu, hOutput.encloses_of_leads hRight ho hv⟩)
  | @head pair next hStep hRest ih =>
    rcases hb.cases_head with rfl | ⟨other, hOther, hOtherRest⟩
    · obtain ⟨hLeft, hRight⟩ := leads_of_descends (hRest.head hStep)
      exact Or.inr (Or.inr
        ⟨hSource.encloses_of_leads hLeft hu hs, hOutput.encloses_of_leads hRight hv ho⟩)
    · obtain ⟨-, i, hNextSource, hNextOutput⟩ := hStep
      obtain ⟨-, j, hOtherSource, hOtherOutput⟩ := hOther
      by_cases hIndex : i = j
      · subst hIndex
        have hSame : next = other := by
          rw [hNextSource, Option.some.injEq] at hOtherSource
          rw [hNextOutput, Option.some.injEq] at hOtherOutput
          exact Prod.ext hOtherSource hOtherOutput
        exact ih (hSame ▸ hOtherRest)
      · -- the paths part here, on both sides at once
        obtain ⟨hLeft, hRight⟩ := leads_of_descends hRest
        obtain ⟨hOtherLeft, hOtherRight⟩ := leads_of_descends hOtherRest
        exact Or.inl
          ⟨hSource.apart_below hSourceApart hIndex hNextSource hOtherSource hLeft hOtherLeft hs hu,
            hOutput.apart_below hOutputApart hIndex hNextOutput hOtherOutput hRight hOtherRight
              ho hv⟩

/-- The links of a zip name their source nodes, so there is nothing to look up. -/
theorem get?_resolve_zip (source output : Tree) (id : NodeId) :
    ((zip source output).resolve source).get? id = (zip source output).get? id := by
  unfold resolve
  simp only [get?_mapLinks]
  cases hLink : (zip source output).get? id with
  | none => rfl
  | some link =>
    obtain ⟨sourceId, n, -, -, rfl⟩ := exists_zipped_of_get? hLink
    rfl

end Table

namespace Fixture

/-! ## The alignment of a zipped fixture -/

theorem get?_table_of_zip {f : Fixture} (hRecorded : f.provenance = none) (hZip : f.zip = true)
    (id : NodeId) : f.table.get? id = (Table.zip f.sourceTree f.outputTree).get? id := by
  simp only [table, hRecorded, hZip, if_true]
  exact Table.get?_resolve_zip f.sourceTree f.outputTree id

/-- The candidates are the ranges of the linked nodes. -/
theorem isSome_candidate?_iff {f : Fixture} {options : Options} (hRecorded : f.provenance = none)
    (hZip : f.zip = true) (id : NodeId) :
    (Alignment.candidate? options (f.inputWith f.table) id).isSome = true ↔
      ((Table.zip f.sourceTree f.outputTree).get? id).isSome = true := by
  rw [← get?_table_of_zip hRecorded hZip]
  constructor
  · intro h
    obtain ⟨r, hCandidate⟩ := Option.isSome_iff_exists.mp h
    obtain ⟨_, link, _, -, hLink, -⟩ := Alignment.candidate?_eq_some_iff.mp hCandidate
    exact Option.isSome_iff_exists.mpr ⟨link, hLink⟩
  · intro h
    obtain ⟨link, hLink⟩ := Option.isSome_iff_exists.mp h
    have hZipLink := hLink
    rw [get?_table_of_zip hRecorded hZip] at hZipLink
    obtain ⟨sourceId, s, hZipped, -, rfl⟩ := Table.exists_zipped_of_get? hZipLink
    obtain ⟨_, n, -, hNode, -⟩ := hZipped.matching
    have hLinked : (Link.carried s.kind s.span sourceId).isSynthesized = false := rfl
    obtain ⟨r, problems, hRange⟩ :=
      Alignment.exists_rangeOf? options (f.inputWith f.table) id n hLinked
    exact Option.isSome_iff_exists.mpr
      ⟨r, Alignment.candidate?_eq_some_iff.mpr ⟨n, _, problems, hNode, hLink, hRange⟩⟩

/-- A candidate joins the spans of a zipped pair. -/
theorem exists_zipped_of_candidate {f : Fixture} {options : Options} {r : Range}
    (hRecorded : f.provenance = none) (hZip : f.zip = true)
    (hParens : options.parentheses = false)
    (h : r ∈ Alignment.candidates options (f.inputWith f.table)) :
    ∃ pair s o, Table.Zipped f.sourceTree f.outputTree pair ∧
      f.sourceTree.node? pair.1 = some s ∧ f.outputTree.node? pair.2 = some o ∧
      r.spans = (s.span, o.span) := by
  obtain ⟨id, -, hCandidate⟩ := List.mem_filterMap.mp h
  obtain ⟨o, link, problems, hNode, hLink, hRange⟩ :=
    Alignment.candidate?_eq_some_iff.mp hCandidate
  have hZipLink : (Table.zip f.sourceTree f.outputTree).get? id = some link := by
    rw [← get?_table_of_zip hRecorded hZip]
    exact hLink
  obtain ⟨sourceId, s, hZipped, hSource, rfl⟩ := Table.exists_zipped_of_get? hZipLink
  obtain ⟨hHull, hOutput⟩ := Alignment.spans_of_rangeOf? hParens hRange
  have hHullSource : r.source = s.span := (Option.some.inj hHull).symm
  exact ⟨(sourceId, id), s, o, hZipped, hSource, hNode, Prod.ext hHullSource hOutput⟩

theorem parallel_candidates {f : Fixture} {options : Options}
    (hSource : f.sourceTree.validate (Text.ofString f.source).size = .ok ())
    (hOutput : f.outputTree.validate (Text.ofString f.output).size = .ok ())
    (hSourceApart : f.sourceTree.SiblingsApart) (hOutputApart : f.outputTree.SiblingsApart)
    (hRecorded : f.provenance = none) (hZip : f.zip = true)
    (hParens : options.parentheses = false) {a b : Range}
    (ha : a ∈ Alignment.candidates options (f.inputWith f.table))
    (hb : b ∈ Alignment.candidates options (f.inputWith f.table)) :
    Span.Parallel a.spans b.spans := by
  obtain ⟨pair, s, o, hZipped, hs, ho, hSpans⟩ :=
    exists_zipped_of_candidate hRecorded hZip hParens ha
  obtain ⟨other, u, v, hOther, hu, hv, hOtherSpans⟩ :=
    exists_zipped_of_candidate hRecorded hZip hParens hb
  rw [hSpans, hOtherSpans]
  exact Table.parallel_of_descends (Tree.validate_eq_ok_iff.mp hSource)
    (Tree.validate_eq_ok_iff.mp hOutput) hSourceApart hOutputApart hZipped.2 hOther.2 hs ho hu hv

/-- **A zip alone never makes a conflict.** If siblings do not overlap in either
tree, every linked output node has exactly one range and the other nodes have none,
no diagnostic is about a conflict, and any two ranges are nested alike in the two
texts. -/
theorem align_zip_nested (f : Fixture) (options : Options)
    (hSource : f.sourceTree.validate (Text.ofString f.source).size = .ok ())
    (hOutput : f.outputTree.validate (Text.ofString f.output).size = .ok ())
    (hSourceApart : f.sourceTree.SiblingsApart) (hOutputApart : f.outputTree.SiblingsApart)
    (hRecorded : f.provenance = none) (hZip : f.zip = true)
    (hParens : options.parentheses = false) :
    (∀ id, (f.align options).ranges.ranges.countP (fun r => r.node = id) =
      if ((Table.zip f.sourceTree f.outputTree).get? id).isSome then 1 else 0) ∧
      (∀ d ∈ (f.align options).diagnostics, ∀ c : Conflict,
        d.finding ≠ .ambiguousStructure c.message) ∧
      ∀ a ∈ (f.align options).ranges.ranges, ∀ b ∈ (f.align options).ranges.ranges,
        Span.Parallel a.spans b.spans := by
  have hParallel : ∀ a ∈ Alignment.candidates options (f.inputWith f.table),
      ∀ b ∈ Alignment.candidates options (f.inputWith f.table),
        Span.Parallel a.spans b.spans := by
    intro a ha b hb
    exact parallel_candidates hSource hOutput hSourceApart hOutputApart hRecorded hZip hParens ha hb
  have hCompatible : ∀ a ∈ Alignment.candidates options (f.inputWith f.table),
      ∀ b ∈ Alignment.candidates options (f.inputWith f.table), a.Compatible b :=
    fun a ha b hb => (hParallel a ha b hb).compatible
  have hPerm := Alignment.perm_candidates hCompatible
  refine ⟨fun id => ?_, ?_, ?_⟩
  · have hLinked : id ∈ f.outputTree.preorder ∧
        (Alignment.candidate? options (f.inputWith f.table) id).isSome = true ↔
          ((Table.zip f.sourceTree f.outputTree).get? id).isSome = true := by
      rw [isSome_candidate?_iff hRecorded hZip]
      refine and_iff_right_of_imp fun h => ?_
      obtain ⟨link, hLink⟩ := Option.isSome_iff_exists.mp h
      obtain ⟨_, _, hZipped, -⟩ := Table.exists_zipped_of_get? hLink
      exact hZipped.mem_preorder
    calc (f.align options).ranges.ranges.countP (fun r => r.node = id)
      _ = (Alignment.candidates options (f.inputWith f.table)).countP (fun r => r.node = id) :=
        hPerm.countP_eq _
      _ = _ := Alignment.countP_node_candidates options (f.inputWith f.table) id
      _ = _ := if_congr hLinked rfl rfl
  · intro d hd c
    exact Alignment.finding_ne_message hCompatible hd c
  · intro a ha b hb
    exact hParallel a (hPerm.subset ha) b (hPerm.subset hb)

/-- A sum without blanks and the same sum with blanks around its sign. -/
def spacedSum : Fixture where
  source := "a+b"
  output := "a + b"
  sourceTree :=
    ⟨⟨0⟩, #[⟨.upTo 3, false, ⟨.binaryExpression, ⟨"+", ⟨1⟩, ⟨2⟩⟩⟩⟩,
      ⟨.upTo 1, false, ⟨.identifier, ⟨"a"⟩⟩⟩,
      ⟨.byte 2, false, ⟨.identifier, ⟨"b"⟩⟩⟩]⟩
  outputTree :=
    ⟨⟨0⟩, #[⟨.upTo 5, false, ⟨.binaryExpression, ⟨"+", ⟨1⟩, ⟨2⟩⟩⟩⟩,
      ⟨.upTo 1, false, ⟨.identifier, ⟨"a"⟩⟩⟩,
      ⟨.byte 4, false, ⟨.identifier, ⟨"b"⟩⟩⟩]⟩
  provenance := none
  zip := true

theorem spacedSum_nested :
    spacedSum.sourceTree.validate (Text.ofString spacedSum.source).size = .ok () ∧
      spacedSum.outputTree.validate (Text.ofString spacedSum.output).size = .ok () ∧
      spacedSum.sourceTree.SiblingsApart ∧ spacedSum.outputTree.SiblingsApart ∧
      (spacedSum.align ⟨true, false, .warn, .warn⟩).ranges.ranges.countP
        (fun r => r.node = ⟨2⟩) = 1 ∧
      (∀ d ∈ (spacedSum.align ⟨true, false, .warn, .warn⟩).diagnostics, ∀ c : Conflict,
        d.finding ≠ .ambiguousStructure c.message) ∧
      ∀ a ∈ (spacedSum.align ⟨true, false, .warn, .warn⟩).ranges.ranges,
        ∀ b ∈ (spacedSum.align ⟨true, false, .warn, .warn⟩).ranges.ranges,
          Span.Parallel a.spans b.spans := by
  have hSource : spacedSum.sourceTree.validate (Text.ofString spacedSum.source).size = .ok () :=
    rfl
  have hOutput : spacedSum.outputTree.validate (Text.ofString spacedSum.output).size = .ok () :=
    rfl
  have hSourceApart : spacedSum.sourceTree.SiblingsApart := by decide
  have hOutputApart : spacedSum.outputTree.SiblingsApart := by decide
  have hLinks : Table.zipFrom spacedSum.sourceTree spacedSum.outputTree spacedSum.outputTree.ids
      [(spacedSum.sourceTree.root, spacedSum.outputTree.root)] =
        [(⟨0⟩, .carried .binaryExpression (.upTo 3) ⟨0⟩),
          (⟨2⟩, .carried .identifier (.byte 2) ⟨2⟩),
          (⟨1⟩, .carried .identifier (.upTo 1) ⟨1⟩)] := by
    cbv
  have hLinked :
      ((Table.zip spacedSum.sourceTree spacedSum.outputTree).get? ⟨2⟩).isSome = true := by
    rw [Table.get?_zip_iff.mpr (hLinks ▸ List.mem_cons_of_mem _ List.mem_cons_self)]
    rfl
  obtain ⟨hCount, hRest⟩ := align_zip_nested spacedSum ⟨true, false, .warn, .warn⟩ hSource hOutput
    hSourceApart hOutputApart rfl rfl rfl
  refine ⟨hSource, hOutput, hSourceApart, hOutputApart, ?_, hRest⟩
  rw [hCount, if_pos hLinked]

end Fixture

end Retrace
