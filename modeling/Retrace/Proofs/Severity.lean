import Retrace.Proofs.TwoRuns

/-!
# Levels of diagnostics

The levels in the options decide what is reported and how, and nothing else. Rules
read only whether leaves are anchored, bounds only whether parentheses are taken in,
and both levels are read where a finding is turned into a diagnostic. So a run and
the run with both levels at `warn` make the same range with the same problems for
every node and are in step, and each diagnostic of the first is one of the second with
its severity replaced.
-/

namespace Retrace

/-! ## Rules and bounds do not depend on the levels -/

theorem Rule.sameKind_congr {a b : Options} (hLeaves : a.identityLeaves = b.identityLeaves)
    (p : Pairing) {kind : Kind} (s o : Payload kind) :
    Rule.sameKind a p kind s o = Rule.sameKind b p kind s o := by
  have hIdentity : identity a p = identity b p := by
    simp only [identity, hLeaves]
  cases kind <;> simp only [sameKind, leaf, number, string, regExp, hIdentity]

theorem Pairing.align_congr {a b : Options} (hLeaves : a.identityLeaves = b.identityLeaves)
    (p : Pairing) : p.align a = p.align b := by
  unfold Pairing.align Rule.outcome
  simp only [Rule.sameKind_congr hLeaves]

namespace Alignment

theorem rangeOf?_congr {a b : Options} (hLeaves : a.identityLeaves = b.identityLeaves)
    (hParens : a.parentheses = b.parentheses) (input : AlignmentInput) (id : NodeId) (n : Node)
    (link : Link) : rangeOf? a input id n link = rangeOf? b input id n link := by
  have hBounds : ∀ hull pairing, bounds a hull n pairing = bounds b hull n pairing := by
    intro hull pairing
    simp only [bounds, parens?, hParens, Pairing.align_congr hLeaves]
  simp only [rangeOf?, hBounds]

end Alignment

/-! ## Relabelled diagnostics -/

/-- The options with both levels at `warn`. -/
def Options.warned (o : Options) : Options :=
  { o with unsupportedPairing := .warn, ambiguousStructure := .warn }

/-- A diagnostic with the severity of the level of its code; none if that level is
`off`. -/
def Options.relabel? (o : Options) (d : Diagnostic) : Option Diagnostic :=
  (o.level d.code).severity?.map fun severity => { d with severity }

@[simp]
theorem Options.level_warned (o : Options) (code : DiagnosticCode) :
    o.warned.level code = .warn := by
  cases code <;> rfl

theorem Level.severity?_eq_error_iff {level : Level} :
    level.severity? = some .error ↔ level = .error := by
  cases level <;> simp [Level.severity?]

namespace Alignment

theorem report?_eq_relabel (o : Options) (r : Range) (finding : Finding) :
    report? o r finding = (report? o.warned r finding).bind o.relabel? := by
  simp only [report?, Options.level_warned, Level.severity?, Option.map_some, Option.bind_some]
  rfl

/-- A run is in step with the run under the same options where everything is a
warning. -/
theorem inStep_warned (o : Options) (input : AlignmentInput) :
    InStep o o.warned input Eq o.relabel? where
  place := by
    rintro r _ rfl
    exact .refl r
  range := by
    intro id n link r problems _ _ hRange
    refine ⟨r, ?_, rfl⟩
    rw [← hRange]
    exact rangeOf?_congr rfl rfl input id n link
  report := by
    rintro r _ finding rfl
    exact report?_eq_relabel o r finding

theorem ranges_warned (o : Options) (input : AlignmentInput) :
    (align o input).ranges = (align o.warned input).ranges :=
  congrArg RangeSet.mk (List.forall₂_eq_eq_eq ▸ (related_progress (inStep_warned o input)).ranges)

theorem classes_warned (o : Options) (input : AlignmentInput) :
    (align o input).classes = (align o.warned input).classes :=
  congrArg (Classes.ofRanges _ _ _ _) (ranges_warned o input)

theorem synthesized_warned (o : Options) (input : AlignmentInput) :
    (align o input).synthesized = (align o.warned input).synthesized :=
  (related_progress (inStep_warned o input)).synthesized

theorem diagnostics_warned (o : Options) (input : AlignmentInput) :
    (align o input).diagnostics = (align o.warned input).diagnostics.filterMap o.relabel? :=
  (related_progress (inStep_warned o input)).diagnostics

theorem mem_diagnostics_iff_warned {o : Options} {input : AlignmentInput} {e : Diagnostic} :
    e ∈ (align o input).diagnostics ↔
      ∃ d ∈ (align o.warned input).diagnostics, ∃ severity,
        (o.level d.code).severity? = some severity ∧ { d with severity } = e := by
  simp only [diagnostics_warned o input, List.mem_filterMap, Options.relabel?,
    Option.map_eq_some_iff]

theorem hasErrors_iff_warned (o : Options) (input : AlignmentInput) :
    (align o input).hasErrors = true ↔
      ∃ d ∈ (align o.warned input).diagnostics, o.level d.code = .error := by
  simp only [hasErrors, List.any_eq_true, decide_eq_true_eq]
  constructor
  · rintro ⟨e, hMem, hError⟩
    obtain ⟨d, hd, severity, hSeverity, rfl⟩ := mem_diagnostics_iff_warned.mp hMem
    refine ⟨d, hd, Level.severity?_eq_error_iff.mp ?_⟩
    rw [hSeverity, ← hError]
  · rintro ⟨d, hd, hLevel⟩
    have hSeverity := Level.severity?_eq_error_iff.mpr hLevel
    exact ⟨_, mem_diagnostics_iff_warned.mpr ⟨d, hd, .error, hSeverity, rfl⟩, rfl⟩

/-- Relabelling keeps the code, so it makes no difference in which of the two runs a
diagnostic of an error code is looked for. -/
theorem exists_error_iff_warned (o : Options) (input : AlignmentInput) :
    (∃ d ∈ (align o input).diagnostics, o.level d.code = .error) ↔
      ∃ d ∈ (align o.warned input).diagnostics, o.level d.code = .error := by
  constructor
  · rintro ⟨e, hMem, hLevel⟩
    obtain ⟨d, hd, severity, -, rfl⟩ := mem_diagnostics_iff_warned.mp hMem
    exact ⟨d, hd, hLevel⟩
  · rintro ⟨d, hd, hLevel⟩
    have hSeverity := Level.severity?_eq_error_iff.mpr hLevel
    exact ⟨_, mem_diagnostics_iff_warned.mpr ⟨d, hd, .error, hSeverity, rfl⟩, hLevel⟩

/-- What the levels of the options `o` make of the run in which everything is a
warning: its diagnostics are those of that run, in the same order, without the ones
whose code is off and with the severities of `o`. -/
structure RelabelledBy (o : Options) (warned a : Alignment) : Prop where
  diagnostics : a.diagnostics = warned.diagnostics.filterMap o.relabel?
  hasErrors : a.hasErrors = true ↔ ∃ d ∈ a.diagnostics, o.level d.code = .error
  hasErrorsWarned : a.hasErrors = true ↔ ∃ d ∈ warned.diagnostics, o.level d.code = .error

theorem relabelledBy_warned (o : Options) (input : AlignmentInput) :
    RelabelledBy o (align o.warned input) (align o input) where
  diagnostics := diagnostics_warned o input
  hasErrors := (hasErrors_iff_warned o input).trans (exists_error_iff_warned o input).symm
  hasErrorsWarned := hasErrors_iff_warned o input

/-- **Levels filter and relabel.** Under two settings that differ in their levels
only, the ranges, the classes and the made-up nodes are the same, and the diagnostics
of both runs come from those of one run, the one with both levels at `warn`. -/
theorem align_eq_up_to_levels (input : AlignmentInput) (a b : Options)
    (hLeaves : a.identityLeaves = b.identityLeaves) (hParens : a.parentheses = b.parentheses) :
    ((align a input).ranges = (align b input).ranges ∧
        (align a input).classes = (align b input).classes ∧
        (align a input).synthesized = (align b input).synthesized) ∧
      RelabelledBy a (align a.warned input) (align a input) ∧
      RelabelledBy b (align a.warned input) (align b input) := by
  have hWarned : a.warned = b.warned := by
    simp only [Options.warned, hLeaves, hParens]
  refine ⟨⟨?_, ?_, ?_⟩, relabelledBy_warned a input, ?_⟩
  · rw [ranges_warned a, ranges_warned b, hWarned]
  · rw [classes_warned a, classes_warned b, hWarned]
  · rw [synthesized_warned a, synthesized_warned b, hWarned]
  · rw [hWarned]
    exact relabelledBy_warned b input

/-- An array with a hole, whose first element became a number. -/
def sparseArray : AlignmentInput where
  source := .ofString "[a,,]"
  output := .ofString "[0,,]"
  sourceTree := ⟨⟨0⟩, #[⟨.upTo 5, false, ⟨.arrayExpression, ⟨[some ⟨1⟩, none]⟩⟩⟩,
    ⟨.byte 1, false, ⟨.identifier, ⟨"a"⟩⟩⟩]⟩
  outputTree := ⟨⟨0⟩, #[⟨.upTo 5, false, ⟨.arrayExpression, ⟨[some ⟨1⟩, none]⟩⟩⟩,
    ⟨.byte 1, false, ⟨.numericLiteral, ⟨⟨0, by decide⟩⟩⟩⟩]⟩
  provenance := ⟨[(⟨0⟩, .carried .arrayExpression (.upTo 5) ⟨0⟩),
    (⟨1⟩, .carried .identifier (.byte 1) ⟨1⟩)], by simp [Ascending]⟩

/-- The range of the array: its brackets are anchored, and none of its commas is. -/
def sparseRange : Range where
  source := .upTo 5
  output := .upTo 5
  node := ⟨0⟩
  outputKind := .arrayExpression
  anchors := [.plain 0 0, .plain 4 4]
  predecessors := [⟨.arrayExpression, .upTo 5, some ⟨0⟩⟩]
  steps := []

/-- The range of the element, which has no anchors. -/
def elementRange : Range where
  source := .byte 1
  output := .byte 1
  node := ⟨1⟩
  outputKind := .numericLiteral
  anchors := []
  predecessors := [⟨.identifier, .byte 1, some ⟨1⟩⟩]
  steps := []

/-- Whatever the levels, the hole of the array is found first and then the change of kind. -/
theorem diagnostics_sparseArray (unsupported ambiguous : Level) :
    (align ⟨true, true, unsupported, ambiguous⟩ sparseArray).diagnostics.map
        (fun d => (d.code, d.severity)) =
      (ambiguous.severity?.map (DiagnosticCode.ambiguousStructure, ·)).toList ++
        (unsupported.severity?.map (DiagnosticCode.unsupportedPairing, ·)).toList := by
  have hWalk : sparseArray.outputTree.preorder = [⟨0⟩, ⟨1⟩] := by cbv
  have hShared := rangeOf?_congr rfl rfl sparseArray
    (a := ⟨true, true, unsupported, ambiguous⟩) (b := .default)
  have hArray : rangeOf? .default sparseArray ⟨0⟩ sparseArray.outputTree.nodes[0]
      (.carried .arrayExpression (.upTo 5) ⟨0⟩) =
        some (sparseRange, [.ambiguous (sparseReason 0)]) :=
    rangeOf?_of_settled sparseRange.anchors rfl (by decide) (by decide) (by decide) rfl
  have hElement : rangeOf? .default sparseArray ⟨1⟩ sparseArray.outputTree.nodes[1]
      (.carried .identifier (.byte 1) ⟨1⟩) = some (elementRange, [.unsupported]) :=
    rangeOf?_of_settled [] rfl (by decide) (by decide) (by decide) rfl
  have hFirst : RangeSet.empty.insert sparseRange = .ok ⟨[sparseRange]⟩ := by cbv
  have hSecond : RangeSet.insert ⟨[sparseRange]⟩ elementRange =
      .ok ⟨[sparseRange, elementRange]⟩ := by
    cbv
  show (progress _ sparseArray).diagnostics.map _ = _
  rw [progress, hWalk, List.foldl_cons,
    Progress.visit_of_insert rfl rfl rfl ((hShared _ _ _).trans hArray) hFirst, List.foldl_cons,
    Progress.visit_of_insert rfl rfl rfl ((hShared _ _ _).trans hElement) hSecond]
  cases unsupported <;> cases ambiguous <;> rfl

/-- With the problem of the hole an error and the change of kind not reported, one of
two findings is left, with another severity and about the same ranges. -/
theorem align_sparseArray :
    (align Options.default sparseArray).diagnostics.map (fun d => (d.code, d.severity)) =
        [(.ambiguousStructure, .warning), (.unsupportedPairing, .warning)] ∧
      (align ⟨true, true, .off, .error⟩ sparseArray).diagnostics.map
          (fun d => (d.code, d.severity)) = [(.ambiguousStructure, .error)] ∧
      (align Options.default sparseArray).ranges =
        (align ⟨true, true, .off, .error⟩ sparseArray).ranges ∧
      (align ⟨true, true, .off, .error⟩ sparseArray).hasErrors = true := by
  obtain ⟨⟨hRanges, -, -⟩, -, hStrict⟩ :=
    align_eq_up_to_levels sparseArray Options.default ⟨true, true, .off, .error⟩ rfl rfl
  have hDiagnostics : (align ⟨true, true, .off, .error⟩ sparseArray).diagnostics.map
      (fun d => (d.code, d.severity)) = [(.ambiguousStructure, .error)] :=
    diagnostics_sparseArray .off .error
  refine ⟨diagnostics_sparseArray .warn .warn, hDiagnostics, hRanges, hStrict.hasErrors.mpr ?_⟩
  obtain ⟨d, hMem, hCode⟩ := List.mem_map.mp
    (hDiagnostics.symm ▸ List.mem_singleton_self (DiagnosticCode.ambiguousStructure, _))
  refine ⟨d, hMem, ?_⟩
  rw [(Prod.mk.inj hCode).1]
  rfl

end Alignment

end Retrace
