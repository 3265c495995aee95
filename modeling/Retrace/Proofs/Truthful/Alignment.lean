import Retrace.Proofs.Parentheses
import Retrace.Proofs.Run
import Retrace.Proofs.Truthful.Rules

/-!
# Truthful alignments

Every anchor of every range of an alignment is truthful. The trees may be
anything at all: spans that split characters or lie past the end of a text,
children that are missing or shared. The rules are truthful on their own
(`Pairing.truthful_align`), the parentheses that widen a range are read off both
texts, and what is left out afterwards cannot make an anchor wrong.
-/

namespace Retrace.Alignment

/-- The anchors of a node, before they are settled, are truthful for the texts of
the alignment. -/
theorem truthful_bounds {options : Options} {input : AlignmentInput} {n : Node} {link : Link}
    {hull source output : Span} {outcome : Outcome}
    (h : bounds options hull n (pairing? input n link) = (source, output, outcome)) :
    ∀ a ∈ outcome.anchors, a.Truthful input.source input.output := by
  cases bounded_of_bounds h with
  | unpaired _ => simp [Outcome.ofAnchors]
  | @plain p hPairing _ =>
    obtain ⟨_, _, _, -, -, -, rfl⟩ := pairing?_eq_some_iff.mp hPairing
    exact Pairing.truthful_align _ options
  | @widened p sourceParens outputParens hPairing hParens =>
    obtain ⟨_, _, _, -, -, -, rfl⟩ := pairing?_eq_some_iff.mp hPairing
    obtain ⟨-, hSource, hOutput⟩ := parens?_eq_some_iff.mp hParens
    obtain ⟨hSourceOpen, hSourceClose⟩ := Text.charAt?_of_wrappingParens? hSource
    obtain ⟨hOutputOpen, hOutputClose⟩ := Text.charAt?_of_wrappingParens? hOutput
    refine List.forall_mem_append.mpr ⟨Pairing.truthful_align _ options, ?_⟩
    simp only [List.forall_mem_cons, List.not_mem_nil, false_imp_iff, implies_true, and_true]
    exact ⟨truthful_plain hSourceOpen hOutputOpen, truthful_plain hSourceClose hOutputClose⟩

theorem charAt?_of_mem_align {options : Options} {input : AlignmentInput} {r : Range}
    (hRange : r ∈ (align options input).ranges.ranges) {a : Anchor} (hAnchor : a ∈ r.anchors)
    {c : Char} (hReplaced : a.replacement? = some c) : input.output.charAt? a.output = some c := by
  obtain ⟨n, link, problems, -, -, hRangeOf⟩ := exists_rangeOf?_of_mem hRange
  obtain ⟨hull, -, source, output, outcome, hBounds, hr, -⟩ := rangeOf?_eq_some_iff.mp hRangeOf
  rw [hr] at hAnchor
  exact (truthful_bounds hBounds a (mem_of_mem_settle hAnchor).1).charAt?_of_replacement? hReplaced

/-- **No anchor points at the wrong character**, whatever the texts, the trees, the
links and the options are. -/
theorem truthful_of_mem_align (options : Options) (input : AlignmentInput) (r : Range)
    (hRange : r ∈ (align options input).ranges.ranges) (a : Anchor) (hAnchor : a ∈ r.anchors) :
    a.Truthful input.source input.output := by
  obtain ⟨n, link, problems, -, -, hRangeOf⟩ := exists_rangeOf?_of_mem hRange
  obtain ⟨hull, -, source, output, outcome, hBounds, hr, -⟩ := rangeOf?_eq_some_iff.mp hRangeOf
  rw [hr] at hAnchor
  exact truthful_bounds hBounds a (mem_of_mem_settle hAnchor).1

/-- A string in single quotes and the same string in double quotes, each the whole
of its text. -/
def requotedString : AlignmentInput where
  source := ⟨['\x27', 'a', '\x27']⟩
  output := ⟨['"', 'a', '"']⟩
  sourceTree := ⟨⟨0⟩, #[⟨.upTo 3, false, ⟨.stringLiteral, ⟨"a"⟩⟩⟩]⟩
  outputTree := ⟨⟨0⟩, #[⟨.upTo 3, false, ⟨.stringLiteral, ⟨"a"⟩⟩⟩]⟩
  provenance := ⟨[(⟨0⟩, .carried .stringLiteral (.upTo 3) ⟨0⟩)], by simp [Ascending]⟩

/-- The range of the string: its quotes are substituted and its body is the same. -/
def requotedRange : Range where
  source := .upTo 3
  output := .upTo 3
  node := ⟨0⟩
  outputKind := .stringLiteral
  anchors := [.substitute 0 0 (some '\x27') (some '"'), .plain 1 1,
    .substitute 2 2 (some '\x27') (some '"')]
  predecessors := [⟨.stringLiteral, .upTo 3, some ⟨0⟩⟩]
  steps := []

theorem truthful_requotedString :
    requotedRange ∈ (align .default requotedString).ranges.ranges ∧
      .substitute 2 2 (some '\x27') (some '"') ∈ requotedRange.anchors ∧
      (Anchor.substitute 2 2 (some '\x27') (some '"')).Truthful requotedString.source
        requotedString.output := by
  have hWalk : requotedString.outputTree.preorder = [⟨0⟩] := by cbv
  have hCandidate : candidate? .default requotedString ⟨0⟩ = some requotedRange := by
    refine candidate?_eq_some_iff.mpr ⟨_, _, [], rfl, rfl, ?_⟩
    exact rangeOf?_of_settled requotedRange.anchors rfl (by decide) (by decide) (by decide) rfl
  have hRanges : (align .default requotedString).ranges = ⟨[requotedRange]⟩ := by
    rw [ranges_align, candidates, hWalk, List.filterMap_cons_some hCandidate]
    exact RangeSet.afterInserts_of_ordered (by decide)
  have hRange : requotedRange ∈ (align .default requotedString).ranges.ranges := by
    rw [hRanges]
    exact List.mem_singleton_self requotedRange
  have hAnchor : .substitute 2 2 (some '\x27') (some '"') ∈ requotedRange.anchors := by decide
  exact ⟨hRange, hAnchor, truthful_of_mem_align _ _ _ hRange _ hAnchor⟩

end Retrace.Alignment
